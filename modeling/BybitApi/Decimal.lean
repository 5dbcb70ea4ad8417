import Mathlib

/-!
# Decimal numbers as texts

A number printed with a fixed count of decimals, the same without trailing zeros,
and the value of such a text.  What is printed denotes the number rounded
(`value?_printed`), which is the number itself exactly when the decimals suffice
for it (`IsRounding.div_eq_iff`); the shortest form has the fewest that suffice
(`scales_reduce_iff`).  A number that is kept with 53 binary digits meanwhile is still
printed as it was if it has few digits (`nearest_eq_of_near`, `abs_toBinary_sub_le`).
-/

namespace BybitApi.Decimal

/-! ### Decimals that suffice -/

/-- `p` decimals suffice for the number. -/
def Scales (p : Nat) (x : Rat) : Prop := ∃ n : Int, x * 10 ^ p = n

instance (p : Nat) (x : Rat) : Decidable (Scales p x) :=
  decidable_of_iff ((x * 10 ^ p).den = 1) (by
    constructor
    · intro h
      exact ⟨(x * 10 ^ p).num, ((Rat.den_eq_one_iff _).mp h).symm⟩
    · rintro ⟨n, hn⟩
      rw [hn]
      rfl)

theorem Scales.mono {p q : Nat} {x : Rat} (h : Scales p x) (hle : p ≤ q) : Scales q x := by
  rcases h with ⟨n, hn⟩
  refine ⟨n * 10 ^ (q - p), ?_⟩
  have hpow : (10 : Rat) ^ q = 10 ^ p * 10 ^ (q - p) := by
    rw [← pow_add, Nat.add_sub_cancel' hle]
  rw [hpow, ← mul_assoc, hn]
  push_cast
  rfl

theorem Scales.mul_int {p : Nat} {x : Rat} (h : Scales p x) (k : Int) : Scales p (k * x) := by
  rcases h with ⟨n, hn⟩
  refine ⟨k * n, ?_⟩
  rw [mul_assoc, hn]
  push_cast
  rfl

theorem scales_natCast_div (p n : Nat) : Scales p (n / 10 ^ p : Rat) := by
  refine ⟨n, ?_⟩
  rw [div_mul_cancel₀ _ (by positivity)]
  rfl

/-! ### Rounding -/

/-- A nearest integer. -/
def IsRounding (n : Int) (x : Rat) : Prop := 2 * |x - n| ≤ 1

/-- The nearest integer; of two, the even one. -/
def nearest (x : Rat) : Int :=
  let below := x.floor
  let rest := 2 * (x - below)
  if rest < 1 then below
  else if 1 < rest then below + 1
  else if below % 2 = 0 then below
  else below + 1

theorem isRounding_nearest (x : Rat) : IsRounding (nearest x) x := by
  have hlow : (x.floor : Rat) ≤ x := Rat.floor_le x
  have hhigh : x < x.floor + 1 := by exact_mod_cast Rat.lt_floor_add_one x
  have hbelow : 2 * (x - x.floor) ≤ 1 → IsRounding x.floor x := by
    intro h
    rw [IsRounding, abs_of_nonneg (by linarith)]
    exact h
  have habove : 1 ≤ 2 * (x - x.floor) → IsRounding (x.floor + 1) x := by
    intro h
    rw [IsRounding, abs_of_nonpos (by push_cast; linarith)]
    push_cast
    linarith
  unfold nearest
  dsimp only
  split
  · next hlt => exact hbelow hlt.le
  · next hge =>
      split
      · next hgt => exact habove hgt.le
      · next hle =>
          split
          · exact hbelow (not_lt.mp hle)
          · exact habove (not_lt.mp hge)

/-- The nearest integer, found without the sign. -/
def nearestSigned (x : Rat) : Int := if x < 0 then -nearest (-x) else nearest x

theorem IsRounding.neg {n : Int} {x : Rat} (h : IsRounding n x) : IsRounding (-n) (-x) := by
  have hneg : -x - ((-n : Int) : Rat) = -(x - n) := by
    push_cast
    ring
  rw [IsRounding, hneg, abs_neg]
  exact h

theorem isRounding_nearestSigned (x : Rat) : IsRounding (nearestSigned x) x := by
  unfold nearestSigned
  split
  · have hneg := (isRounding_nearest (-x)).neg
    rwa [neg_neg] at hneg
  · exact isRounding_nearest x

/-- A number that is less than half a unit from an integer has no other nearest one. -/
theorem IsRounding.eq_of_near {n m : Int} {x : Rat} (h : IsRounding n x)
    (hnear : 2 * |x - m| < 1) : n = m := by
  have hsum : |(m : Rat) - n| ≤ |x - m| + |x - n| := by
    rw [abs_sub_comm x m]
    exact abs_sub_le (m : Rat) x n
  have hlt : |((m - n : Int) : Rat)| < 1 := by
    push_cast
    rw [IsRounding] at h
    linarith
  rw [← Int.cast_abs] at hlt
  have hint : |m - n| < 1 := by exact_mod_cast hlt
  have hzero : m - n = 0 := Int.abs_lt_one_iff.mp hint
  omega

/-- An integer has no other nearest integer. -/
theorem IsRounding.eq_of_int {n m : Int} {x : Rat} (h : IsRounding n x) (hx : x = m) : n = m := by
  apply h.eq_of_near
  rw [hx, sub_self, abs_zero, mul_zero]
  exact one_pos

theorem IsRounding.nonneg {n : Int} {x : Rat} (h : IsRounding n x) (hx : 0 ≤ x) : 0 ≤ n := by
  by_contra hneg
  have hle : (n : Rat) ≤ -1 := by exact_mod_cast (by omega : n ≤ -1)
  rw [IsRounding, abs_of_nonneg (by linarith)] at h
  linarith

/-- Rounding to `p` decimals keeps the number exactly when they suffice for it. -/
theorem IsRounding.div_eq_iff {n : Int} {p : Nat} {x : Rat} (h : IsRounding n (x * 10 ^ p)) :
    (n / 10 ^ p : Rat) = x ↔ Scales p x := by
  have hpow : (10 : Rat) ^ p ≠ 0 := by positivity
  constructor
  · intro heq
    refine ⟨n, ?_⟩
    rw [← heq, div_mul_cancel₀ _ hpow]
  · rintro ⟨m, hm⟩
    have hnm : n = m := h.eq_of_int hm
    rw [hnm, ← hm, mul_div_cancel_right₀ _ hpow]

/-! ### Fixed notation -/

/-- The last `p` decimal digits of a number. -/
def lastDigits : Nat → Nat → List Char
  | 0, _ => []
  | p + 1, n => lastDigits p (n / 10) ++ [Nat.digitChar (n % 10)]

@[simp] theorem length_lastDigits (p n : Nat) : (lastDigits p n).length = p := by
  induction p generalizing n with
  | zero => rfl
  | succ p ih => simp [lastDigits, ih]

theorem isDigit_of_mem_lastDigits {p n : Nat} {c : Char} (h : c ∈ lastDigits p n) :
    c.isDigit = true := by
  induction p generalizing n with
  | zero => cases h
  | succ p ih =>
      rw [lastDigits, List.mem_append, List.mem_singleton] at h
      rcases h with hmem | rfl
      · exact ih hmem
      · simpa using Nat.mod_lt n (by decide : 0 < 10)

theorem ofDigitChars_lastDigits (p n : Nat) :
    Nat.ofDigitChars 10 (lastDigits p n) 0 = n % 10 ^ p := by
  induction p generalizing n with
  | zero => simp [lastDigits, Nat.mod_one]
  | succ p ih =>
      have hlt : n % 10 < 10 := Nat.mod_lt _ (by decide)
      rw [lastDigits, Nat.ofDigitChars_append, ih, Nat.ofDigitChars_cons_digitChar_of_lt_ten hlt,
        Nat.ofDigitChars_nil, pow_succ']
      rw [Nat.mod_mul]
      omega

/-- A digit takes one byte. -/
theorem utf8ByteSize_of_digits {chars : List Char} (h : ∀ c ∈ chars, c.isDigit = true) :
    (String.ofList chars).utf8ByteSize = chars.length := by
  induction chars with
  | nil => rfl
  | cons c chars ih =>
      rw [List.forall_mem_cons] at h
      rcases h with ⟨hc, hchars⟩
      have hsize : c.utf8Size = 1 := by
        rw [Char.utf8Size_eq_one_iff]
        have hle : c.toNat ≤ '9'.toNat := (Char.isDigit_iff_toNat.mp hc).2
        exact le_trans hle (by decide)
      rw [String.ofList_cons, String.utf8ByteSize_append, String.utf8ByteSize_singleton, hsize,
        ih hchars, List.length_cons, Nat.add_comm]

/-- The digits of `n / 10 ^ p` before and, if any, behind the dot. -/
def parts (p n : Nat) : List String :=
  toString (n / 10 ^ p) :: if p = 0 then [] else [String.ofList (lastDigits p n)]

/-- The number `n / 10 ^ p` with `p` decimals. -/
def fixed (p n : Nat) : String := String.intercalate "." (parts p n)

/-- A number printed with `p` decimals. -/
def printed (p : Nat) (x : Rat) : String :=
  (if x < 0 then "-" else "") ++ fixed p (nearest (|x| * 10 ^ p)).toNat

theorem isDigit_of_mem_parts {p n : Nat} {part : String} (hpart : part ∈ parts p n) {c : Char}
    (hc : c ∈ part.toList) : c.isDigit = true := by
  rw [parts, List.mem_cons] at hpart
  rcases hpart with rfl | hdecimals
  · rw [Nat.toString_eq_ofList_toDigits, String.toList_ofList] at hc
    exact Nat.isDigit_of_mem_toDigits (by decide) (by decide) hc
  · split at hdecimals
    · cases hdecimals
    · rw [List.mem_singleton] at hdecimals
      rw [hdecimals, String.toList_ofList] at hc
      exact isDigit_of_mem_lastDigits hc

theorem parts_ne_nil (p n : Nat) : parts p n ≠ [] := List.cons_ne_nil _ _

theorem notMem_parts {p n : Nat} {part : String} (hpart : part ∈ parts p n) {c : Char}
    (hc : c.isDigit = false) : c ∉ part.toList := by
  intro hmem
  rw [isDigit_of_mem_parts hpart hmem] at hc
  cases hc

theorem ne_empty_of_mem_parts {p n : Nat} {part : String} (hpart : part ∈ parts p n) :
    part ≠ "" := by
  rw [parts, List.mem_cons] at hpart
  rcases hpart with rfl | hdecimals
  · intro h
    rw [Nat.toString_eq_ofList_toDigits] at h
    exact Nat.toDigits_ne_nil (String.ofList_eq_empty_iff.mp h)
  · split at hdecimals
    · cases hdecimals
    · next hp =>
        rw [List.mem_singleton] at hdecimals
        rw [hdecimals]
        intro h
        have hlength := congrArg List.length (String.ofList_eq_empty_iff.mp h)
        rw [length_lastDigits] at hlength
        exact hp hlength

/-! ### The value of a text -/

def digits? (chars : List Char) : Option Nat :=
  if chars ≠ [] ∧ chars.all Char.isDigit then some (Nat.ofDigitChars 10 chars 0) else none

def unsigned? (chars : List Char) : Option Rat :=
  match chars.splitOn '.' with
  | [whole] => (digits? whole).map fun n => (n : Rat)
  | [whole, decimals] => do
      return (← digits? whole) + (← digits? decimals) / 10 ^ decimals.length
  | _ => none

/-- The number that a text denotes. -/
def value? (text : String) : Option Rat :=
  match text.toList with
  | '-' :: chars => (unsigned? chars).map fun x => -x
  | chars => unsigned? chars

theorem digits?_toDigits (n : Nat) : digits? (Nat.toDigits 10 n) = some n := by
  have hdigits : (Nat.toDigits 10 n).all Char.isDigit = true := by
    rw [List.all_eq_true]
    intro c hc
    exact Nat.isDigit_of_mem_toDigits (by decide) (by decide) hc
  rw [digits?, if_pos ⟨Nat.toDigits_ne_nil, hdigits⟩, Nat.ofDigitChars_ten_toDigits]

theorem digits?_lastDigits {p : Nat} (hp : p ≠ 0) (n : Nat) :
    digits? (lastDigits p n) = some (n % 10 ^ p) := by
  have hdigits : (lastDigits p n).all Char.isDigit = true := by
    rw [List.all_eq_true]
    intro c hc
    exact isDigit_of_mem_lastDigits hc
  have hne : lastDigits p n ≠ [] := by
    intro h
    have hlength := congrArg List.length h
    rw [length_lastDigits] at hlength
    exact hp hlength
  rw [digits?, if_pos ⟨hne, hdigits⟩, ofDigitChars_lastDigits]

theorem splitOn_fixed (p n : Nat) :
    (fixed p n).toList.splitOn '.' = (parts p n).map String.toList := by
  have hlist : (fixed p n).toList = List.intercalate ['.'] ((parts p n).map String.toList) := by
    simp [fixed]
  rw [hlist]
  refine List.splitOn_intercalate '.' ?_ (by simp [parts])
  intro chars hchars
  obtain ⟨part, hpart, rfl⟩ := List.mem_map.mp hchars
  exact notMem_parts hpart rfl

theorem unsigned?_fixed (p n : Nat) :
    unsigned? (fixed p n).toList = some (n / 10 ^ p : Rat) := by
  rw [unsigned?, splitOn_fixed]
  by_cases hp : p = 0
  · simp [parts, hp, digits?_toDigits]
  · have hdivmod : (10 ^ p * (n / 10 ^ p : Nat) + (n % 10 ^ p : Nat) : Rat) = n := by
      exact_mod_cast Nat.div_add_mod n (10 ^ p)
    have hpow : (10 : Rat) ^ p ≠ 0 := by positivity
    simp only [parts, hp, if_false, List.map_cons, List.map_nil, Nat.toString_eq_ofList_toDigits,
      String.toList_ofList, digits?_toDigits, digits?_lastDigits hp, length_lastDigits]
    apply congrArg some
    rw [← hdivmod, add_div, mul_div_cancel_left₀ _ hpow]

theorem notMem_fixed {p n : Nat} {c : Char} (hdigit : c.isDigit = false) (hdot : c ≠ '.') :
    c ∉ (fixed p n).toList := by
  have hpart : ∀ part ∈ parts p n, c ∉ part.toList := fun _ hpart => notMem_parts hpart hdigit
  rw [parts, List.forall_mem_cons] at hpart
  rcases hpart with ⟨hwhole, hdecimals⟩
  unfold fixed parts
  split
  · simpa using hwhole
  · next hp =>
      rw [if_neg hp, List.forall_mem_singleton] at hdecimals
      simp only [Nat.toString_eq_ofList_toDigits, String.toList_ofList] at hwhole hdecimals
      rw [String.intercalate_cons_cons]
      simp [hdot, hwhole, hdecimals]

theorem value?_fixed (p n : Nat) : value? (fixed p n) = some (n / 10 ^ p : Rat) := by
  unfold value?
  split
  · next chars h =>
      have hsign : '-' ∉ (fixed p n).toList := notMem_fixed rfl (by decide)
      rw [h] at hsign
      exact absurd List.mem_cons_self hsign
  · exact unsigned?_fixed p n

theorem value?_neg_fixed (p n : Nat) : value? ("-" ++ fixed p n) = some (-(n / 10 ^ p) : Rat) := by
  have hlist : ("-" ++ fixed p n).toList = '-' :: (fixed p n).toList := by simp
  rw [value?, hlist]
  simp only [unsigned?_fixed, Option.map_some]

/-- What is printed denotes the number rounded to the decimals. -/
theorem value?_printed (p : Nat) (x : Rat) :
    value? (printed p x) = some (nearestSigned (x * 10 ^ p) / 10 ^ p : Rat) := by
  have hround : IsRounding (nearest (|x| * 10 ^ p)) (|x| * 10 ^ p) := isRounding_nearest _
  have hnonneg : 0 ≤ nearest (|x| * 10 ^ p) := hround.nonneg (by positivity)
  obtain ⟨k, hk⟩ : ∃ k : Nat, nearest (|x| * 10 ^ p) = k := Int.eq_ofNat_of_zero_le hnonneg
  have hpow : (0 : Rat) < 10 ^ p := by positivity
  rcases lt_or_ge x 0 with hneg | hpos
  · have hsigned : nearestSigned (x * 10 ^ p) = -k := by
      rw [nearestSigned, if_pos (mul_neg_of_neg_of_pos hneg hpow), ← neg_mul, ← abs_of_neg hneg, hk]
    rw [printed, if_pos hneg, hk, Int.toNat_natCast, value?_neg_fixed, hsigned]
    push_cast
    rw [neg_div]
  · have hsigned : nearestSigned (x * 10 ^ p) = k := by
      rw [nearestSigned, if_neg (not_lt.mpr (mul_nonneg hpos hpow.le)), ← hk, abs_of_nonneg hpos]
    rw [printed, if_neg (not_lt.mpr hpos), String.empty_append, hk, Int.toNat_natCast,
      value?_fixed, hsigned]
    rfl

example : printed 2 (-5 / 4) = "-1.25" := by decide +kernel

/-! ### The shortest form -/

/-- Decimals and digits of `n / 10 ^ p` without trailing zeros. -/
def reduce : Nat → Nat → Nat × Nat
  | 0, n => (0, n)
  | p + 1, n => if n % 10 = 0 then reduce p (n / 10) else (p + 1, n)

/-- The number `n / 10 ^ p` without trailing zeros. -/
def plain (p n : Nat) : String := fixed (reduce p n).1 (reduce p n).2

/-- A number in fixed notation without its trailing zeros. -/
def shorten (text : String) : String :=
  match text.toList.splitOn '.' with
  | [whole] => plain 0 (Nat.ofDigitChars 10 whole 0)
  | [whole, decimals] => plain decimals.length (Nat.ofDigitChars 10 (whole ++ decimals) 0)
  | _ => text

theorem shorten_fixed (p n : Nat) : shorten (fixed p n) = plain p n := by
  rw [shorten, splitOn_fixed]
  by_cases hp : p = 0
  · simp [parts, hp, Nat.ofDigitChars_ten_toDigits]
  · have hvalue : Nat.ofDigitChars 10 (Nat.toDigits 10 (n / 10 ^ p) ++ lastDigits p n) 0 = n := by
      rw [Nat.ofDigitChars_append, Nat.ofDigitChars_ten_toDigits,
        Nat.ofDigitChars_eq_ofDigitChars_zero, ofDigitChars_lastDigits, length_lastDigits]
      exact Nat.div_add_mod n (10 ^ p)
    simp only [parts, hp, if_false, List.map_cons, List.map_nil, Nat.toString_eq_ofList_toDigits,
      String.toList_ofList, length_lastDigits, hvalue]

example : shorten "0.0500" = "0.05" := by decide +kernel

/-- The decimals of the shortest form are the fewest that suffice. -/
theorem scales_reduce_iff (p n q : Nat) : Scales q (n / 10 ^ p : Rat) ↔ (reduce p n).1 ≤ q := by
  induction p generalizing n with
  | zero =>
      simp only [reduce, Nat.zero_le, iff_true]
      exact Scales.mono (scales_natCast_div 0 n) (Nat.zero_le q)
  | succ p ih =>
      rw [reduce]
      split
      · next hzero =>
          rw [← ih]
          have hn : n = 10 * (n / 10) := by omega
          have hdiv : (n / 10 ^ (p + 1) : Rat) = ((n / 10 : Nat) : Rat) / 10 ^ p := by
            conv_lhs => rw [hn]
            rw [pow_succ']
            push_cast
            rw [mul_div_mul_left _ _ (by norm_num)]
          rw [hdiv]
      · next hdigit =>
          constructor
          · intro hq
            by_contra hlt
            -- with one decimal less the last digit would have to be zero
            obtain ⟨m, hm⟩ := hq.mono (Nat.le_of_lt_succ (not_le.mp hlt))
            rw [pow_succ', div_mul_eq_mul_div, mul_comm (10 : Rat),
              mul_comm (n : Rat), mul_div_mul_left _ _ (by positivity)] at hm
            have hn : (n : Rat) = m * 10 := by
              rw [← hm, div_mul_cancel₀ _ (by norm_num)]
            have hint : (n : Int) = m * 10 := by exact_mod_cast hn
            omega
          · intro hle
            exact (scales_natCast_div (p + 1) n).mono hle

/-! ### Binary digits -/

/-- The nearest number with 53 binary digits. -/
def toBinary (x : Rat) : Rat :=
  nearest (x / 2 ^ (Int.log 2 |x| - 52)) * 2 ^ (Int.log 2 |x| - 52)

/-- It is off by at most half a unit of the last binary digit. -/
theorem abs_toBinary_sub_le (x : Rat) : |toBinary x - x| * 2 ^ 53 ≤ |x| := by
  rcases eq_or_ne x 0 with rfl | hx
  · have hzero : nearest 0 = 0 := (isRounding_nearest 0).eq_of_int rfl
    simp [toBinary, hzero]
  · let digit : Rat := 2 ^ (Int.log 2 |x| - 52)
    have hdigit : 0 < digit := by positivity
    have hround : 2 * |x / digit - nearest (x / digit)| ≤ 1 := isRounding_nearest _
    have hscaled : toBinary x - x = -(x / digit - nearest (x / digit)) * digit := by
      rw [neg_mul, sub_mul, div_mul_cancel₀ x hdigit.ne', neg_sub]
      rfl
    have hleading : digit * 2 ^ 52 ≤ |x| := by
      have hpow : digit * 2 ^ (52 : Int) = 2 ^ Int.log 2 |x| := by
        rw [← zpow_add₀ (by norm_num), sub_add_cancel]
      have hlog := Int.zpow_log_le_self (R := Rat) (b := 2) (by norm_num) (abs_pos.mpr hx)
      calc digit * 2 ^ 52 = digit * 2 ^ (52 : Int) := rfl
        _ = 2 ^ Int.log 2 |x| := hpow
        _ ≤ |x| := by exact_mod_cast hlog
    calc |toBinary x - x| * 2 ^ 53
        = 2 * |x / digit - nearest (x / digit)| * (digit * 2 ^ 52) := by
          rw [hscaled, abs_mul, abs_neg, abs_of_pos hdigit]
          ring
      _ ≤ 1 * (digit * 2 ^ 52) := by gcongr
      _ ≤ |x| := by rwa [one_mul]

example : toBinary 9007199254740993 = 9007199254740992 := by decide +kernel

/-- Of a number with few enough digits nothing is lost by way of one that is as near as 53
    binary digits allow. -/
theorem nearest_eq_of_near {p : Nat} {x y : Rat} (hscales : Scales p x)
    (hdigits : |x| * 10 ^ p < 2 ^ 52) (hnear : |y - x| * 2 ^ 53 ≤ |x|) {n : Int}
    (h : IsRounding n (y * 10 ^ p)) : (n : Rat) = x * 10 ^ p := by
  obtain ⟨m, hm⟩ := hscales
  have hpow : (0 : Rat) < 10 ^ p := by positivity
  have hdistance : y * 10 ^ p - m = (y - x) * 10 ^ p := by rw [← hm, sub_mul]
  have hbound : |y - x| * 10 ^ p * 2 ^ 53 < 2 ^ 52 := by
    calc |y - x| * 10 ^ p * 2 ^ 53 = |y - x| * 2 ^ 53 * 10 ^ p := by ring
      _ ≤ |x| * 10 ^ p := by gcongr
      _ < 2 ^ 52 := hdigits
  have hnm : n = m := by
    apply h.eq_of_near
    rw [hdistance, abs_mul, abs_of_pos hpow]
    linarith
  rw [hnm, hm]

end BybitApi.Decimal
