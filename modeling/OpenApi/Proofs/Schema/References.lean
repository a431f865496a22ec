import OpenApi.Proofs.Json
import OpenApi.Proofs.Schema.WellFormed
import OpenApi.Schema.Render

/-!
# Proofs/Schema/References — the references of a schema, collected and rendered

    schema ──references──▸ names
      │                      ‖   (`refers_toJson`)
      ╰──toJson──▸ value ──▸ texts under `$ref`

The names that a schema refers to are collected by one recursion and rendered by another.  On
well-formed schemas the two visit the same nodes.
-/

namespace OpenApi

namespace Schema

variable {t : String}

/-! ## The recursions, list by list -/

theorem propertiesJson_eq_map (ps : List (String × Schema)) :
    propertiesJson ps = ps.map fun p => (p.1, p.2.toJson) := by
  induction ps with
  | nil => rfl
  | cons p ps ih => rw [propertiesJson, ih, List.map_cons]

theorem membersJson_eq_map (ms : List Schema) : membersJson ms = ms.map toJson := by
  induction ms with
  | nil => rfl
  | cons m ms ih => rw [membersJson, ih, List.map_cons]

@[simp] theorem mem_propertyReferences {name : String} {ps : List (String × Schema)} :
    name ∈ propertyReferences ps ↔ ∃ p ∈ ps, name ∈ p.2.references := by
  induction ps with
  | nil => simp [propertyReferences]
  | cons p ps ih => simp [propertyReferences, ih]

@[simp] theorem mem_optionReferences {name : String} {o : Option Schema} :
    name ∈ optionReferences o ↔ ∃ s, o = some s ∧ name ∈ s.references := by
  cases o <;> simp [optionReferences]

@[simp] theorem mem_memberReferences {name : String} {ms : List Schema} :
    name ∈ memberReferences ms ↔ ∃ m ∈ ms, name ∈ m.references := by
  induction ms with
  | nil => simp [memberReferences]
  | cons m ms ih => simp [memberReferences, ih]

@[simp] theorem references_ref (name : String) : (Schema.ref name).references = [name] := rfl

/-- A schema that is no reference refers to the names that the schemas in it refer to. -/
theorem mem_references_of_refName {name : String} {s : Schema} (h : s.refName = none) :
    name ∈ s.references ↔ (∃ p ∈ s.properties, name ∈ p.2.references) ∨
      (∃ a, s.additional = some a ∧ name ∈ a.references) ∨
      (∃ i, s.items = some i ∧ name ∈ i.references) ∨ ∃ m ∈ s.members, name ∈ m.references := by
  obtain ⟨_, _, _, _, _, _, _, refName, _, _⟩ := s
  obtain rfl : refName = none := h
  simp [references]

/-! ## Rendering -/

/-- The members of a schema under the keyword of its composition. -/
def composed (s : Schema) : List (String × Option Json) :=
  match s.kind with
  | .composite mode => [(mode.word, some (.arr (membersJson s.members)))]
  | _ => []

theorem toJson_of_ne_ref {s : Schema} (hk : s.kind ≠ .ref) : s.toJson = .ofOptions (
    [("description", s.metadata.description.map .str),
      ("nullable", if s.metadata.nullable then some (.bool true) else none),
      ("type", s.typeName.map .str),
      ("enum", s.enumValues.map strings),
      ("format", s.metadata.format.map .str),
      ("example", s.metadata.sample.map .str),
      ("items", optionJson s.items),
      ("properties", unlessEmpty (fun ps => .obj (Table.ofList (sortOn (·.1) ps)))
        (propertiesJson s.properties)),
      ("additionalProperties", optionJson s.additional),
      ("required", unlessEmpty strings s.required)] ++ s.composed) := by
  obtain ⟨kind, _, _, _, _, _, _, _, _, _⟩ := s
  cases kind <;> first | exact absurd rfl hk | simp [toJson, composed]

theorem toJson_ref (name : String) :
    (Schema.ref name).toJson = .obj [("$ref", .str (referencePrefix ++ name))] := by
  simp [Schema.ref, toJson, referenceText]

/-- A rendered schema is an object. -/
theorem toJson_ne_str (s : Schema) (text : String) : s.toJson ≠ .str text := by
  by_cases hk : s.kind = .ref
  · obtain ⟨kind, _, _, _, _, _, _, _, _, _⟩ := s
    obtain rfl : kind = .ref := hk
    simp [toJson]
  · simp [toJson_of_ne_ref hk, Json.ofOptions]

theorem refersAt_toJson (s : Schema) (key : String) :
    Json.RefersAt key s.toJson t ↔ s.toJson.Refers t :=
  Json.refersAt_of_ne_str s.toJson_ne_str key

@[simp] theorem not_refers_strings (values : List String) : ¬ (strings values).Refers t := by
  simp [strings]

/-- Properties in ascending order are rendered one by one. -/
theorem ofList_propertiesJson {ps : List (String × Schema)}
    (h : (ps.map (·.1)).Pairwise (· < ·)) :
    Table.ofList (sortOn (·.1) (propertiesJson ps)) = propertiesJson ps := by
  have hkeys : (propertiesJson ps).map (·.1) = ps.map (·.1) := by
    rw [propertiesJson_eq_map, List.map_map]
    rfl
  rw [sortOn_eq_self (hkeys ▸ h), Table.ofList_eq_self (hkeys ▸ h.imp ne_of_lt)]

/-- A list that is written only if it is not empty refers to what the whole list refers to. -/
theorem refers_unlessEmpty {α : Type} {f : List α → Json} {xs : List α}
    (hf : ¬ (f []).Refers t) :
    (∃ v, unlessEmpty f xs = some v ∧ v.Refers t) ↔ (f xs).Refers t := by
  cases xs with
  | nil => simp [unlessEmpty, hf]
  | cons x xs => simp [unlessEmpty]

theorem not_refers_text (o : Option String) : ¬ ∃ v, o.map Json.str = some v ∧ v.Refers t := by
  cases o <;> simp

theorem not_refers_texts (o : Option (List String)) :
    ¬ ∃ v, o.map strings = some v ∧ v.Refers t := by
  cases o <;> simp

theorem not_refers_flag (b : Bool) :
    ¬ ∃ v, (if b then some (Json.bool true) else none) = some v ∧ v.Refers t := by
  cases b <;> simp

theorem not_refers_list {α : Type} {f : List α → Json} {xs : List α}
    (hf : ∀ xs, ¬ (f xs).Refers t) : ¬ ∃ v, unlessEmpty f xs = some v ∧ v.Refers t :=
  mt (refers_unlessEmpty (hf [])).mp (hf xs)

theorem refers_optionJson {o : Option Schema} :
    (∃ v, optionJson o = some v ∧ v.Refers t) ↔ ∃ s, o = some s ∧ s.toJson.Refers t := by
  cases o <;> simp [optionJson]

theorem refers_properties {ps : List (String × Schema)}
    (h : (ps.map (·.1)).Pairwise (· < ·)) :
    (∃ v, unlessEmpty (fun ps => .obj (Table.ofList (sortOn (·.1) ps))) (propertiesJson ps) =
        some v ∧ v.Refers t) ↔ ∃ p ∈ ps, p.2.toJson.Refers t := by
  have hnil : ¬ (Json.obj (Table.ofList (sortOn (·.1) ([] : List (String × Json))))).Refers t := by
    simp [sortOn, sortBy, Table.ofList]
  refine (refers_unlessEmpty (f := fun ps => .obj (Table.ofList (sortOn (·.1) ps))) hnil).trans ?_
  rw [ofList_propertiesJson h]
  simp only [propertiesJson_eq_map, Json.refers_obj, List.mem_map, exists_exists_and_eq_and,
    refersAt_toJson]

theorem word_ne_ref (mode : Composition) : mode.word ≠ "$ref" := by
  cases mode <;> decide

theorem refers_composed {s : Schema} (h : s.members ≠ [] → ∃ mode, s.kind = .composite mode) :
    (Json.ofOptions s.composed).Refers t ↔ ∃ m ∈ s.members, m.toJson.Refers t := by
  rw [composed]
  split
  · next mode _ => simp [Json.refersAt_of_ne (word_ne_ref mode), membersJson_eq_map]
  · next hk =>
    have hnil : s.members = [] := by
      by_contra hne
      obtain ⟨mode, hm⟩ := h hne
      exact hk mode hm
    simp [hnil]

/-- A schema that is no reference refers to what the schemas in it refer to. -/
theorem refers_toJson_of_ne_ref {s : Schema} (hs : s.Regular) (hk : s.kind ≠ .ref) :
    s.toJson.Refers t ↔ (∃ i, s.items = some i ∧ i.toJson.Refers t) ∨
      (∃ p ∈ s.properties, p.2.toJson.Refers t) ∨
      (∃ a, s.additional = some a ∧ a.toJson.Refers t) ∨ ∃ m ∈ s.members, m.toJson.Refers t := by
  rw [toJson_of_ne_ref hk, Json.refers_ofOptions_append, refers_composed hs.members.mp]
  simp (disch := decide) only [Json.refers_ofOptions_cons, Json.refersAt_of_ne, not_refers_text,
    not_refers_texts, not_refers_flag, not_refers_list not_refers_strings, refers_optionJson,
    refers_properties hs.ascending, Json.not_refers_ofOptions_nil, false_or, or_false, or_assoc]

/-- **Rendering shows the references that are collected** — the texts under `$ref` in a rendered
schema are those of the names that the schema refers to. -/
theorem refers_toJson {s : Schema} (h : s.WellFormed) :
    s.toJson.Refers t ↔ ∃ name ∈ s.references, t = referencePrefix ++ name := by
  induction h with
  | @node s hr hp ha hi hm ihp iha ihi ihm =>
    by_cases hk : s.kind = .ref
    · obtain ⟨name, rfl⟩ := (WellFormed.node hr hp ha hi hm).eq_ref hk
      simp [toJson_ref, Json.RefersAt, @eq_comm _ t]
    · have hn : s.refName = none := by simpa using mt hr.refName.mp hk
      rw [refers_toJson_of_ne_ref hr hk]
      constructor
      · rintro (⟨i, hi, h⟩ | ⟨p, hp, h⟩ | ⟨a, ha, h⟩ | ⟨m, hm, h⟩)
        · obtain ⟨name, hname, rfl⟩ := (ihi i hi).mp h
          refine ⟨name, (mem_references_of_refName hn).mpr ?_, rfl⟩
          exact Or.inr (Or.inr (Or.inl ⟨i, hi, hname⟩))
        · obtain ⟨name, hname, rfl⟩ := (ihp p hp).mp h
          refine ⟨name, (mem_references_of_refName hn).mpr ?_, rfl⟩
          exact Or.inl ⟨p, hp, hname⟩
        · obtain ⟨name, hname, rfl⟩ := (iha a ha).mp h
          refine ⟨name, (mem_references_of_refName hn).mpr ?_, rfl⟩
          exact Or.inr (Or.inl ⟨a, ha, hname⟩)
        · obtain ⟨name, hname, rfl⟩ := (ihm m hm).mp h
          refine ⟨name, (mem_references_of_refName hn).mpr ?_, rfl⟩
          exact Or.inr (Or.inr (Or.inr ⟨m, hm, hname⟩))
      · rintro ⟨name, hname, rfl⟩
        rcases (mem_references_of_refName hn).mp hname with
          ⟨p, hp, h⟩ | ⟨a, ha, h⟩ | ⟨i, hi, h⟩ | ⟨m, hm, h⟩
        · exact Or.inr (Or.inl ⟨p, hp, (ihp p hp).mpr ⟨name, h, rfl⟩⟩)
        · exact Or.inr (Or.inr (Or.inl ⟨a, ha, (iha a ha).mpr ⟨name, h, rfl⟩⟩))
        · exact Or.inl ⟨i, hi, (ihi i hi).mpr ⟨name, h, rfl⟩⟩
        · exact Or.inr (Or.inr (Or.inr ⟨m, hm, (ihm m hm).mpr ⟨name, h, rfl⟩⟩))

/-- A schema shows a `$ref` to a name exactly if it refers to the name. -/
theorem refers_toJson_name {s : Schema} (h : s.WellFormed) {name : String} :
    s.toJson.Refers (referencePrefix ++ name) ↔ name ∈ s.references := by
  simp [refers_toJson h, String.append_right_inj]

end Schema

end OpenApi
