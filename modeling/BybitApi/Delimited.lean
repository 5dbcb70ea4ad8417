import Mathlib.Data.List.Basic

/-!
# Named values, one behind the other

An entry is written as a separator, a name, a sign and a value.  Names are free of the
separator and of the sign; values are not.  Where the names stand in order and no value
holds a later name between a separator and a sign, there is only one way to read what
is written (`flatten_injective`).
-/

namespace BybitApi.Delimited

variable {α : Type} {separator sign : α}

def written (separator sign : α) (entry : List α × List α) : List α :=
  separator :: (entry.1 ++ sign :: entry.2)

def flatten (separator sign : α) (entries : List (List α × List α)) : List α :=
  entries.flatMap (written separator sign)

/-- Somewhere in the value the name stands between a separator and a sign. -/
def Holds (separator sign : α) (value name : List α) : Prop :=
  ∃ front back, value = front ++ separator :: (name ++ sign :: back)

/-- What may stand as a name. -/
def IsName (separator sign : α) (name : List α) : Prop := separator ∉ name ∧ sign ∉ name

theorem flatten_cons (name value : List α) (rest : List (List α × List α)) :
    flatten separator sign ((name, value) :: rest) =
      separator :: (name ++ sign :: (value ++ flatten separator sign rest)) := by
  simp [flatten, written]

theorem Holds.append {value name : List α} (h : Holds separator sign value name)
    (before : List α) : Holds separator sign (before ++ value) name := by
  obtain ⟨front, back, rfl⟩ := h
  exact ⟨before ++ front, back, by rw [List.append_assoc]⟩

/-- What follows an entry begins with the separator. -/
theorem flatten_ne_sign (hne : separator ≠ sign) (rest : List (List α × List α))
    (tail : List α) : flatten separator sign rest ≠ sign :: tail := by
  intro h
  cases rest with
  | nil => cases h
  | cons entry rest =>
      rw [flatten_cons] at h
      exact hne (List.cons.inj h).1

/-- A part of a value that ends where an entry does, and is read as one, holds its
    name. -/
theorem holds_of_append_eq (hne : separator ≠ sign) {part : List α} (hpart : part ≠ [])
    {rest rest' : List (List α × List α)} {name value : List α}
    (hname : IsName separator sign name)
    (h : flatten separator sign ((name, value) :: rest') = part ++ flatten separator sign rest) :
    Holds separator sign part name := by
  obtain ⟨c, part, rfl⟩ := List.exists_cons_of_ne_nil hpart
  rw [flatten_cons, List.cons_append] at h
  obtain ⟨rfl, htext⟩ := List.cons.inj h
  rcases List.append_eq_append_iff.mp htext with ⟨back, hback, hsign⟩ | ⟨missing, hmissing, hrest⟩
  · cases back with
    | nil => exact absurd hsign.symm (flatten_ne_sign hne rest _)
    | cons c back =>
        obtain ⟨rfl, -⟩ := List.cons.inj hsign
        exact ⟨[], back, by rw [hback]; rfl⟩
  · -- the part ends within the name, where no separator can follow
    cases missing with
    | nil => exact absurd hrest (flatten_ne_sign hne rest _)
    | cons c missing =>
        cases rest with
        | nil => cases hrest
        | cons next rest =>
            rw [flatten_cons, List.cons_append] at hrest
            obtain ⟨rfl, -⟩ := List.cons.inj hrest
            exact absurd (hmissing ▸ by simp) hname.1

/-- A name ends at the first sign. -/
theorem name_inj {name name' rest rest' : List α} (hname : sign ∉ name) (hname' : sign ∉ name')
    (h : name ++ sign :: rest = name' ++ sign :: rest') : name = name' ∧ rest = rest' := by
  induction name generalizing name' with
  | nil =>
      cases name' with
      | nil => exact ⟨rfl, (List.cons.inj h).2⟩
      | cons c name' =>
          obtain ⟨rfl, -⟩ := List.cons.inj h
          exact absurd List.mem_cons_self hname'
  | cons c name ih =>
      cases name' with
      | nil =>
          obtain ⟨rfl, -⟩ := List.cons.inj h
          exact absurd List.mem_cons_self hname
      | cons c' name' =>
          obtain ⟨rfl, htail⟩ := List.cons.inj h
          obtain ⟨rfl, hrest⟩ := ih (List.not_mem_of_not_mem_cons hname)
            (List.not_mem_of_not_mem_cons hname') htail
          exact ⟨rfl, hrest⟩

/-- No value of the first entries holds a name that the others have behind its own. -/
def Free (separator sign : α) (Before : List α → List α → Prop)
    (entries others : List (List α × List α)) : Prop :=
  ∀ entry ∈ entries, ∀ other ∈ others, Before entry.1 other.1 →
    ¬ Holds separator sign entry.2 other.1

section

variable {Before : List α → List α → Prop} {name value : List α}
  {rest rest' : List (List α × List α)}

theorem Free.tail {entry entry' : List α × List α}
    (h : Free separator sign Before (entry :: rest) (entry' :: rest')) :
    Free separator sign Before rest rest' :=
  fun e he e' he' => h e (List.mem_cons_of_mem entry he) e' (List.mem_cons_of_mem entry' he')

/-- A value ends before the next entry does. -/
theorem Free.part_eq_nil (hne : separator ≠ sign) {part value' : List α}
    (hnames : ∀ entry ∈ rest, IsName separator sign entry.1)
    (hbefore : ∀ entry ∈ rest, Before name entry.1)
    (hfree : Free separator sign Before ((name, value ++ part) :: rest')
      ((name, value') :: rest))
    (h : flatten separator sign rest = part ++ flatten separator sign rest') : part = [] := by
  apply Classical.byContradiction
  intro hpart
  cases rest with
  | nil =>
      have hnil : part = [] := (List.append_eq_nil_iff.mp h.symm).1
      exact hpart hnil
  | cons next rest =>
      have hholds := holds_of_append_eq hne hpart (hnames next List.mem_cons_self) h
      exact hfree _ List.mem_cons_self next (List.mem_cons_of_mem _ List.mem_cons_self)
        (hbefore next List.mem_cons_self) (hholds.append value)

end

/-- **There is one way to read what is written**, where names stand in order and no
    value holds a name that could come behind its own. -/
theorem flatten_injective (hne : separator ≠ sign) {Before : List α → List α → Prop}
    {entries entries' : List (List α × List α)}
    (hordered : entries.Pairwise fun e e' => Before e.1 e'.1)
    (hordered' : entries'.Pairwise fun e e' => Before e.1 e'.1)
    (hnames : ∀ entry ∈ entries, IsName separator sign entry.1)
    (hnames' : ∀ entry ∈ entries', IsName separator sign entry.1)
    (hfree : Free separator sign Before entries entries')
    (hfree' : Free separator sign Before entries' entries)
    (h : flatten separator sign entries = flatten separator sign entries') :
    entries = entries' := by
  induction entries generalizing entries' with
  | nil =>
      cases entries' with
      | nil => rfl
      | cons entry' rest' =>
          rw [flatten_cons] at h
          cases h
  | cons entry rest ih =>
      cases entries' with
      | nil =>
          rw [flatten_cons] at h
          cases h
      | cons entry' rest' =>
          obtain ⟨name, value⟩ := entry
          obtain ⟨name', value'⟩ := entry'
          obtain ⟨hbefore, hrest⟩ := List.pairwise_cons.mp hordered
          obtain ⟨hbefore', hrest'⟩ := List.pairwise_cons.mp hordered'
          obtain ⟨hname, htail⟩ := List.forall_mem_cons.mp hnames
          obtain ⟨hname', htail'⟩ := List.forall_mem_cons.mp hnames'
          rw [flatten_cons, flatten_cons] at h
          dsimp only at hname hname' hbefore hbefore'
          obtain ⟨rfl, hvalues⟩ := name_inj hname.2 hname'.2 (List.cons.inj h).2
          -- the shorter value is the other one, as what is left would hold the next name
          have hsame : value = value' ∧
              flatten separator sign rest = flatten separator sign rest' := by
            rcases List.append_eq_append_iff.mp hvalues with
              ⟨part, rfl, hpart⟩ | ⟨part, rfl, hpart⟩
            · obtain rfl := Free.part_eq_nil hne htail hbefore hfree' hpart
              exact ⟨(List.append_nil value).symm, hpart⟩
            · obtain rfl := Free.part_eq_nil hne htail' hbefore' hfree hpart
              exact ⟨List.append_nil value', hpart.symm⟩
          obtain ⟨rfl, hflat⟩ := hsame
          rw [ih hrest hrest' htail htail' hfree.tail hfree'.tail hflat]

end BybitApi.Delimited
