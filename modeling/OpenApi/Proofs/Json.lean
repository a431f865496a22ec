import OpenApi.Json.Basic

/-!
# Proofs/Json — what an object refers to and holds

A value refers to a text if an object somewhere in it has the text under `$ref` (`Json.Refers`).
Objects are mostly written member by member, each there only if it has a value; what they refer to
and what they hold under a key is read off the members.
-/

namespace OpenApi

namespace Json

/-- **A value refers to a text** — somewhere in it an object has the text under `$ref`. -/
inductive Refers (t : String) : Json → Prop
  | here {members : List (String × Json)} : ("$ref", .str t) ∈ members → Refers t (.obj members)
  | member {members : List (String × Json)} {m : String × Json} :
    m ∈ members → Refers t m.2 → Refers t (.obj members)
  | element {elements : List Json} {e : Json} :
    e ∈ elements → Refers t e → Refers t (.arr elements)

/-- A value under a key refers to a text, as a whole or inside. -/
def RefersAt (key : String) (v : Json) (t : String) : Prop :=
  (key = "$ref" ∧ v = .str t) ∨ v.Refers t

section Refers

variable {t : String}

@[simp] theorem not_refers_null : ¬ Json.null.Refers t := fun h => nomatch h

@[simp] theorem not_refers_bool (b : Bool) : ¬ (Json.bool b).Refers t := fun h => nomatch h

@[simp] theorem not_refers_int (i : Int) : ¬ (Json.int i).Refers t := fun h => nomatch h

@[simp] theorem not_refers_str (s : String) : ¬ (Json.str s).Refers t := fun h => nomatch h

@[simp] theorem refers_arr {elements : List Json} :
    (Json.arr elements).Refers t ↔ ∃ e ∈ elements, e.Refers t := by
  constructor
  · rintro (_ | _ | ⟨he, h⟩)
    exact ⟨_, he, h⟩
  · rintro ⟨e, he, h⟩
    exact .element he h

@[simp] theorem refers_obj {members : List (String × Json)} :
    (Json.obj members).Refers t ↔ ∃ m ∈ members, RefersAt m.1 m.2 t := by
  constructor
  · rintro (h | ⟨hm, h⟩)
    · exact ⟨_, h, Or.inl ⟨rfl, rfl⟩⟩
    · exact ⟨_, hm, Or.inr h⟩
  · rintro ⟨⟨key, v⟩, hm, ⟨hk, hv⟩ | h⟩
    · obtain rfl : key = "$ref" := hk
      obtain rfl : v = .str t := hv
      exact .here hm
    · exact .member hm h

/-- Under any other key only the inside of a value counts. -/
theorem refersAt_of_ne {key : String} (h : key ≠ "$ref") (v : Json) :
    RefersAt key v t ↔ v.Refers t := by simp [RefersAt, h]

/-- Of a value that is no text only the inside counts. -/
theorem refersAt_of_ne_str {v : Json} (h : ∀ s, v ≠ .str s) (key : String) :
    RefersAt key v t ↔ v.Refers t := by simp [RefersAt, h]

@[simp] theorem refersAt_ofOptions {key : String} {ms : List (String × Option Json)} :
    RefersAt key (Json.ofOptions ms) t ↔ (Json.ofOptions ms).Refers t := by
  simp [RefersAt, ofOptions]

@[simp] theorem refersAt_obj {key : String} {members : List (String × Json)} :
    RefersAt key (.obj members) t ↔ (Json.obj members).Refers t := by simp [RefersAt]

@[simp] theorem refersAt_arr {key : String} {elements : List Json} :
    RefersAt key (.arr elements) t ↔ (Json.arr elements).Refers t := by simp [RefersAt]

@[simp] theorem not_refers_ofOptions_nil : ¬ (Json.ofOptions []).Refers t := by
  simp [ofOptions, present]

/-- **An object of members that may be missing refers to what those that are there refer to.** -/
@[simp] theorem refers_ofOptions_cons {key : String} {o : Option Json}
    {ms : List (String × Option Json)} :
    (Json.ofOptions ((key, o) :: ms)).Refers t ↔
      (∃ v, o = some v ∧ RefersAt key v t) ∨ (Json.ofOptions ms).Refers t := by
  cases o with
  | none => simp [ofOptions, present]
  | some v => simp [ofOptions, present]

theorem refers_ofOptions_append {ms ns : List (String × Option Json)} :
    (Json.ofOptions (ms ++ ns)).Refers t ↔
      (Json.ofOptions ms).Refers t ∨ (Json.ofOptions ns).Refers t := by
  simp [ofOptions, present, or_and_right, exists_or]

end Refers

/-! ## Looking up -/

@[simp] theorem get?_ofOptions_nil (key : String) : (Json.ofOptions []).get? key = none := rfl

theorem get?_ofOptions_cons (key k : String) (o : Option Json)
    (ms : List (String × Option Json)) :
    (Json.ofOptions ((k, o) :: ms)).get? key =
      if k = key then o.or ((Json.ofOptions ms).get? key) else (Json.ofOptions ms).get? key := by
  cases o with
  | none => simp [Json.ofOptions, Json.present]
  | some v =>
    simp only [Json.ofOptions, Json.present, List.filterMap_cons, Option.map_some, Json.get?,
      Table.get?, Option.some_or]

theorem get?_ofOptions_of_notMem {ms : List (String × Option Json)} {key : String}
    (h : key ∉ ms.map (·.1)) : (Json.ofOptions ms).get? key = none := by
  induction ms with
  | nil => rfl
  | cons m ms ih =>
    obtain ⟨hm, hms⟩ := not_or.mp fun hor => h (List.mem_cons.mpr hor)
    rw [get?_ofOptions_cons, if_neg (Ne.symm hm), ih hms]

/-- Members under different keys are found under their keys. -/
theorem get?_ofOptions {ms : List (String × Option Json)} {key : String} {o : Option Json}
    (hkeys : (ms.map (·.1)).Nodup) (h : (key, o) ∈ ms) : (Json.ofOptions ms).get? key = o := by
  induction ms with
  | nil => cases h
  | cons m ms ih =>
    obtain ⟨hnew, hkeys⟩ := List.nodup_cons.mp hkeys
    rw [get?_ofOptions_cons]
    obtain rfl | h := List.mem_cons.mp h
    · rw [if_pos rfl, get?_ofOptions_of_notMem hnew, Option.or_none]
    · have hkey : key ∈ ms.map (·.1) := List.mem_map_of_mem h
      rw [if_neg (ne_of_mem_of_not_mem hkey hnew).symm, ih hkeys h]

/-- The keys are those that have a value. -/
theorem keys_ofOptions (ms : List (String × Option Json)) :
    (Json.ofOptions ms).keys = (ms.filter (·.2.isSome)).map (·.1) := by
  rw [ofOptions, keys, present]
  induction ms with
  | nil => rfl
  | cons m ms ih =>
    obtain ⟨key, o⟩ := m
    cases o with
    | none => exact ih
    | some v => exact congrArg (key :: ·) ih

end Json

end OpenApi
