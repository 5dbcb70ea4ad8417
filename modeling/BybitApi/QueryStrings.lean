import BybitApi.Delimited
import BybitApi.RequestSigning

/-!
# What a query string says

`createQueryStr` puts names and values down as they are.  Nothing in the repository
encodes a value, so one that holds a separator, a name and an equals sign reads as a
value and a further parameter (`query_string_ambiguous`).  Where no value holds a name
that comes behind its own, the string determines the parameters
(`query_string_determines`).
-/

namespace BybitApi

/-- What the callers use as names. -/
structure IsParameterName (key : String) : Prop where
  nonempty : key ≠ ""
  isName : Delimited.IsName '&' '=' key.toList

/-- The value holds, behind a separator, what reads as a parameter with a later name. -/
def HoldsParameter (key value : String) : Prop :=
  ∃ front later back, IsParameterName later ∧ key < later ∧
    value = front ++ "&" ++ queryEntry (later, back)

/-- The parameters have proper names. -/
def NamesParameters (parameters : Parameters) : Prop :=
  ∀ key value, parameters[key]? = some value → IsParameterName key

/-- No value holds a parameter. -/
def HoldsNoParameter (parameters : Parameters) : Prop :=
  ∀ key value, parameters[key]? = some value → ¬ HoldsParameter key value

/-! ### Strings and characters -/

def entryChars (parameter : String × String) : List Char × List Char :=
  (parameter.1.toList, parameter.2.toList)

theorem entryChars_injective : Function.Injective entryChars := by
  intro parameter parameter' h
  obtain ⟨hkey, hvalue⟩ := Prod.mk.inj h
  exact Prod.ext (String.toList_inj.mp hkey) (String.toList_inj.mp hvalue)

theorem toList_queryEntry (parameter : String × String) :
    (queryEntry parameter).toList = parameter.1.toList ++ '=' :: parameter.2.toList := by
  simp [queryEntry]

/-- A query string lacks only the first separator. -/
theorem flatten_entryChars (parameter : String × String) (rest : List (String × String)) :
    Delimited.flatten '&' '=' ((parameter :: rest).map entryChars) =
      '&' :: (String.intercalate "&" ((parameter :: rest).map queryEntry)).toList := by
  induction rest generalizing parameter with
  | nil => simp [Delimited.flatten, Delimited.written, entryChars, toList_queryEntry]
  | cons next rest ih =>
      rw [List.map_cons, entryChars, Delimited.flatten_cons, ih next, List.map_cons,
        List.map_cons, List.map_cons, String.intercalate_cons_cons]
      simp [toList_queryEntry]

theorem intercalate_queryEntry_ne (parameter : String × String) (rest : List (String × String)) :
    String.intercalate "&" ((parameter :: rest).map queryEntry) ≠ "" := by
  intro h
  have hflatten := flatten_entryChars parameter rest
  rw [h] at hflatten
  simp [Delimited.flatten, Delimited.written] at hflatten

/-- The entries of a query string, as characters. -/
theorem flatten_eq_of_intercalate_eq {entries entries' : List (String × String)}
    (h : String.intercalate "&" (entries.map queryEntry) =
      String.intercalate "&" (entries'.map queryEntry)) :
    Delimited.flatten '&' '=' (entries.map entryChars) =
      Delimited.flatten '&' '=' (entries'.map entryChars) := by
  cases entries with
  | nil =>
      cases entries' with
      | nil => rfl
      | cons parameter rest => exact absurd h.symm (intercalate_queryEntry_ne parameter rest)
  | cons parameter rest =>
      cases entries' with
      | nil => exact absurd h (intercalate_queryEntry_ne parameter rest)
      | cons parameter' rest' => rw [flatten_entryChars, flatten_entryChars, h]

/-! ### Parameters -/

theorem ordered_entryChars (parameters : Parameters) :
    (parameters.toList.map entryChars).Pairwise
      fun e e' => String.ofList e.1 < String.ofList e'.1 := by
  rw [List.pairwise_map]
  simpa only [entryChars, String.ofList_toList] using (parameters_once parameters).1

theorem NamesParameters.isName {parameters : Parameters} (h : NamesParameters parameters) :
    ∀ entry ∈ parameters.toList.map entryChars, Delimited.IsName '&' '=' entry.1 := by
  intro entry hentry
  obtain ⟨⟨key, value⟩, hmem, rfl⟩ := List.mem_map.mp hentry
  exact (h key value (((parameters_once parameters).2 key value).mp hmem)).isName

/-- A value that holds no parameter holds none of those that are there. -/
theorem HoldsNoParameter.free {parameters others : Parameters} (h : HoldsNoParameter parameters)
    (hothers : NamesParameters others) :
    Delimited.Free '&' '=' (fun name name' => String.ofList name < String.ofList name')
      (parameters.toList.map entryChars) (others.toList.map entryChars) := by
  intro entry hentry other hother hbefore
  obtain ⟨⟨key, value⟩, hmem, rfl⟩ := List.mem_map.mp hentry
  obtain ⟨⟨later, value'⟩, hmem', rfl⟩ := List.mem_map.mp hother
  rintro ⟨front, back, hvalue⟩
  have hget := ((parameters_once parameters).2 key value).mp hmem
  have hgetLater := ((parameters_once others).2 later value').mp hmem'
  refine h key value hget ⟨String.ofList front, later, String.ofList back,
    hothers later _ hgetLater, ?_, ?_⟩
  · simpa only [entryChars, String.ofList_toList] using hbefore
  · rw [← String.toList_inj]
    simpa [queryEntry, entryChars] using hvalue

theorem createQueryStr_injective {parameters others : Parameters}
    (hnames : NamesParameters parameters) (hnames' : NamesParameters others)
    (hholds : HoldsNoParameter parameters) (hholds' : HoldsNoParameter others)
    (h : createQueryStr parameters = createQueryStr others) : parameters = others := by
  rw [createQueryStr_eq, createQueryStr_eq] at h
  have hentries := Delimited.flatten_injective (by decide) (ordered_entryChars parameters)
    (ordered_entryChars others) hnames.isName hnames'.isName (hholds.free hnames')
    (hholds'.free hnames) (flatten_eq_of_intercalate_eq h)
  exact Std.ExtTreeMap.toList_inj.mp (entryChars_injective.list_map hentries)

/-- A list in key order that has the parameters is the list of parameters. -/
theorem toList_eq_of_once {parameters : Parameters} {entries : List (String × String)}
    (hordered : entries.Pairwise fun p q => p.1 < q.1)
    (hmem : ∀ key value, (key, value) ∈ entries ↔ parameters[key]? = some value) :
    parameters.toList = entries := by
  have hirrefl : Std.Irrefl fun p q : String × String => p.1 < q.1 :=
    ⟨fun p => lt_irrefl p.1⟩
  refine (parameters_once parameters).1.eq_of_mem_iff hordered ?_
  rintro ⟨key, value⟩
  exact ((parameters_once parameters).2 key value).trans (hmem key value).symm

theorem toList_single (key value : String) :
    ((∅ : Parameters).insert key value).toList = [(key, value)] := by
  apply toList_eq_of_once (List.pairwise_singleton _ _)
  intro key' value'
  rw [getElem?_insert_text]
  by_cases hkey : key = key'
  · simp [hkey, eq_comm]
  · simp [hkey, Ne.symm hkey]

theorem toList_pair {key later : String} (h : key < later) {value value' : String}
    {parameters : Parameters}
    (hget : ∀ name, parameters[name]? =
      if later = name then some value' else if key = name then some value else none) :
    parameters.toList = [(key, value), (later, value')] := by
  apply toList_eq_of_once
  · simpa using h
  · intro name text
    rw [hget]
    by_cases hlater : later = name
    · subst hlater
      simp [h.ne, eq_comm]
    · by_cases hkey : key = name
      · simp [hkey, hlater, eq_comm]
      · simp [hkey, hlater, Ne.symm hkey, Ne.symm hlater]

theorem toList_insert_pair {key later : String} (h : key < later) (value value' : String) :
    (((∅ : Parameters).insert key value).insert later value').toList =
      [(key, value), (later, value')] := by
  apply toList_pair h
  intro name
  rw [getElem?_insert_text, getElem?_insert_text]
  rfl

/-- What holds of each parameter there and of a new one. -/
theorem forall_insert {P : String → String → Prop} {parameters : Parameters}
    (h : ∀ key value, parameters[key]? = some value → P key value) {key value : String}
    (hnew : P key value) (key' value' : String)
    (hget : (parameters.insert key value)[key']? = some value') : P key' value' := by
  rw [getElem?_insert_text] at hget
  split at hget
  · next hsame =>
      obtain rfl := Option.some.inj hget
      exact hsame ▸ hnew
  · exact h key' value' hget

theorem namesParameters_single {key : String} (hkey : IsParameterName key) (value : String) :
    NamesParameters ((∅ : Parameters).insert key value) :=
  forall_insert (by simp) hkey

theorem namesParameters_pair {key key' : String} (hkey : IsParameterName key)
    (hkey' : IsParameterName key') (value value' : String) :
    NamesParameters (((∅ : Parameters).insert key value).insert key' value') :=
  forall_insert (namesParameters_single hkey value) hkey'

/-- A value without separators holds no parameter. -/
theorem not_holdsParameter {key value : String} (h : '&' ∉ value.toList) :
    ¬ HoldsParameter key value := by
  rintro ⟨front, later, back, -, -, rfl⟩
  simp at h

theorem holdsNoParameter_pair {key key' value value' : String} (h : '&' ∉ value.toList)
    (h' : '&' ∉ value'.toList) :
    HoldsNoParameter (((∅ : Parameters).insert key value).insert key' value') :=
  forall_insert (forall_insert (by simp) (not_holdsParameter h)) (not_holdsParameter h')

/-- A value that holds a parameter reads as two. -/
theorem createQueryStr_holding {key later : String} (h : key < later) (front back : String) :
    createQueryStr ((∅ : Parameters).insert key (front ++ "&" ++ queryEntry (later, back))) =
      createQueryStr (((∅ : Parameters).insert key front).insert later back) := by
  rw [createQueryStr_eq, createQueryStr_eq, toList_single, toList_insert_pair h]
  simp [queryEntry, String.intercalate_cons_cons, String.append_assoc]

/-- **What a query string determines.**  Two sets of parameters with the same query
    string are the same, provided that no value of theirs holds a parameter; and every
    value that holds one is read as two parameters. -/
theorem query_string_determines :
    (∀ parameters others : Parameters, NamesParameters parameters → NamesParameters others →
      HoldsNoParameter parameters → HoldsNoParameter others →
        createQueryStr parameters = createQueryStr others → parameters = others) ∧
    ∀ key value, IsParameterName key → HoldsParameter key value →
      ∃ parameters others : Parameters, NamesParameters parameters ∧ NamesParameters others ∧
        parameters[key]? = some value ∧ parameters ≠ others ∧
          createQueryStr parameters = createQueryStr others := by
  refine ⟨fun _ _ => createQueryStr_injective, ?_⟩
  rintro key value hkey ⟨front, later, back, hlaterName, hlater, rfl⟩
  refine ⟨(∅ : Parameters).insert key (front ++ "&" ++ queryEntry (later, back)),
    ((∅ : Parameters).insert key front).insert later back,
    namesParameters_single hkey _, namesParameters_pair hkey hlaterName _ _, ?_, ?_,
    createQueryStr_holding hlater front back⟩
  · rw [getElem?_insert_text, if_pos rfl]
  · intro hsame
    have hlists := congrArg Std.ExtTreeMap.toList hsame
    rw [toList_single, toList_insert_pair hlater] at hlists
    simp at hlists

/-- A cursor that holds a limit. -/
theorem cursor_with_limit : "a" ++ "&" ++ queryEntry ("limit", "1") = "a&limit=1" := by
  decide

theorem isParameterName_cursor : IsParameterName "cursor" := ⟨by decide, by decide, by decide⟩

theorem isParameterName_limit : IsParameterName "limit" := ⟨by decide, by decide, by decide⟩

/-- A cursor and a limit without separators, put in in either order; and the cursor that
    holds a limit. -/
theorem query_string_determines_cursor :
    ((∅ : Parameters).insert "cursor" "a").insert "limit" "1" =
        ((∅ : Parameters).insert "limit" "1").insert "cursor" "a" ∧
      ∃ parameters others : Parameters, NamesParameters parameters ∧ NamesParameters others ∧
        parameters["cursor"]? = some "a&limit=1" ∧ parameters ≠ others ∧
          createQueryStr parameters = createQueryStr others := by
  have hlater : "cursor" < "limit" := by decide
  have hlists : (((∅ : Parameters).insert "limit" "1").insert "cursor" "a").toList =
      [("cursor", "a"), ("limit", "1")] := by
    apply toList_pair hlater
    intro name
    rw [getElem?_insert_text, getElem?_insert_text]
    by_cases hlimit : "limit" = name
    · subst hlimit
      rfl
    · simp only [hlimit, if_false]
      rfl
  constructor
  · apply query_string_determines.1
    · exact namesParameters_pair isParameterName_cursor isParameterName_limit _ _
    · exact namesParameters_pair isParameterName_limit isParameterName_cursor _ _
    · exact holdsNoParameter_pair (by decide) (by decide)
    · exact holdsNoParameter_pair (by decide) (by decide)
    · rw [createQueryStr_eq, createQueryStr_eq, toList_insert_pair hlater, hlists]
  · apply query_string_determines.2 _ _ isParameterName_cursor
    exact ⟨"a", "limit", "1", isParameterName_limit, hlater, cursor_with_limit.symm⟩

/-- That cursor is sent as a cursor and a limit. -/
theorem query_string_ambiguous :
    ¬ ∀ parameters others : Parameters, NamesParameters parameters → NamesParameters others →
      createQueryStr parameters = createQueryStr others → parameters = others := by
  intro h
  have hstrings : createQueryStr ((∅ : Parameters).insert "cursor" "a&limit=1") =
      createQueryStr (((∅ : Parameters).insert "cursor" "a").insert "limit" "1") := by
    rw [← cursor_with_limit]
    exact createQueryStr_holding (by decide) "a" "1"
  have hsame := h _ _ (namesParameters_single isParameterName_cursor _)
    (namesParameters_pair isParameterName_cursor isParameterName_limit _ _) hstrings
  have hlists := congrArg Std.ExtTreeMap.toList hsame
  rw [toList_single, toList_insert_pair (by decide)] at hlists
  simp at hlists

end BybitApi
