import Mathlib.Data.Option.Basic
import OpenApi.Proofs.Schema.References
import OpenApi.Proofs.Tables

/-!
# Proofs/Schema/Rendering — schemas that differ are rendered differently

    schema   kind  type  properties  required  additional  items  members  name  metadata  values
               │     │       │          │          │         │       │       │       │        │
    keys       ╰── type, $ref, allOf …  │          │       items   allOf …  $ref   four     enum
                         properties  required  additionalProperties

A rendering leaves out what has nothing to say, and of a reference it shows the name only.  On
well-formed schemas nothing is lost: what stands under each key gives a field back, and the kind is
told by the type and by which of the keys for references and compositions is there
(`WellFormed.distinguished`).  The order of keys is no difference that a reader of JSON sees, so
renderings are compared up to it (`Json.Alike`).
-/

namespace OpenApi

/-! ## JSON values up to the order of keys -/

/-- **Equal JSON values** — objects are equal if they have equal values under every key. -/
inductive Json.Alike : Json → Json → Prop
  | null : Alike .null .null
  | bool (b : Bool) : Alike (.bool b) (.bool b)
  | int (i : Int) : Alike (.int i) (.int i)
  | str (s : String) : Alike (.str s) (.str s)
  | arr {as bs : List Json} (elements : List.Forall₂ Alike as bs) : Alike (.arr as) (.arr bs)
  | obj {as bs : List (String × Json)}
      (members : ∀ key, Option.Rel Alike (Table.get? key as) (Table.get? key bs)) :
      Alike (.obj as) (.obj bs)

namespace Json

mutual

theorem Alike.refl : ∀ v : Json, v.Alike v
  | .null => .null
  | .bool b => .bool b
  | .int i => .int i
  | .str s => .str s
  | .arr elements => .arr (alike_elements elements)
  | .obj members => .obj (alike_members members)

theorem alike_elements : ∀ vs : List Json, List.Forall₂ Alike vs vs
  | [] => .nil
  | v :: vs => .cons (Alike.refl v) (alike_elements vs)

theorem alike_members : ∀ (ms : List (String × Json)) (key : String),
    Option.Rel Alike (Table.get? key ms) (Table.get? key ms)
  | [], _ => .none
  | (k, v) :: ms, key => by
    rw [Table.get?]
    split
    · exact .some (Alike.refl v)
    · exact alike_members ms key

end

theorem alike_str_iff {s t : String} : Alike (.str s) (.str t) ↔ s = t := by
  constructor
  · rintro ⟨⟩
    rfl
  · rintro rfl
    exact .str s

theorem alike_arr_iff {as bs : List Json} :
    Alike (.arr as) (.arr bs) ↔ List.Forall₂ Alike as bs := by
  constructor
  · intro h
    cases h
    assumption
  · exact .arr

/-- What equal values have under a key is equal. -/
theorem Alike.get? {v w : Json} (h : v.Alike w) (key : String) :
    Option.Rel Alike (v.get? key) (w.get? key) := by
  cases h with
  | obj members => exact members key
  | _ => exact .none

end Json

namespace Schema

/-! ## What stands under the keys -/

/-- The members of a rendered schema that is no reference, each there only if it has a value. -/
def keyed (s : Schema) : List (String × Option Json) :=
  [("description", s.metadata.description.map .str),
    ("nullable", if s.metadata.nullable then some (.bool true) else none),
    ("type", s.typeName.map .str),
    ("enum", s.enumValues.map strings),
    ("format", s.metadata.format.map .str),
    ("example", s.metadata.sample.map .str),
    ("items", optionJson s.items),
    ("properties", unlessEmpty (fun ps => .obj (Table.ofList (sortOn (·.1) ps)))
      (propertiesJson s.properties)),
    ("additionalProperties", optionJson s.additional),
    ("required", unlessEmpty strings s.required)] ++ s.composed

variable {s t : Schema}

theorem toJson_eq_ofOptions (hk : s.kind ≠ .ref) : s.toJson = .ofOptions s.keyed :=
  toJson_of_ne_ref hk

/-- The keys are different, and none of them is that of a reference. -/
theorem keys_keyed (s : Schema) :
    (s.keyed.map (·.1)).Nodup ∧ "$ref" ∉ s.keyed.map (·.1) := by
  obtain ⟨kind, _, _, _, _, _, _, _, _, _⟩ := s
  cases kind with
  | composite mode => cases mode <;> simp [keyed, composed, Composition.word]
  | _ => simp [keyed, composed]

/-- **Under a key, equal renderings have equal values.** -/
theorem alike_under (hs : s.kind ≠ .ref) (ht : t.kind ≠ .ref) (h : s.toJson.Alike t.toJson)
    (key : String) (value : Schema → Option Json) (hv : ∀ u : Schema, (key, value u) ∈ u.keyed) :
    Option.Rel Json.Alike (value s) (value t) := by
  have hkey := h.get? key
  rwa [toJson_eq_ofOptions hs, toJson_eq_ofOptions ht, Json.get?_ofOptions s.keys_keyed.1 (hv s),
    Json.get?_ofOptions t.keys_keyed.1 (hv t)] at hkey

/-- Under the keyword of a composition stand the members of such compositions only. -/
theorem get?_word (hk : s.kind ≠ .ref) (mode : Composition) : s.toJson.get? mode.word =
    if s.kind = .composite mode then some (.arr (membersJson s.members)) else none := by
  rw [toJson_eq_ofOptions hk]
  split
  · next h =>
    refine Json.get?_ofOptions s.keys_keyed.1 (List.mem_append_right _ ?_)
    simp [composed, h]
  · next h =>
    refine Json.get?_ofOptions_of_notMem ?_
    obtain ⟨kind, _, _, _, _, _, _, _, _, _⟩ := s
    cases kind with
    | composite mode' => cases mode <;> cases mode' <;> simp_all [keyed, composed, Composition.word]
    | _ => cases mode <;> simp [keyed, composed, Composition.word]

/-- The key of a reference is there in the renderings of references only. -/
theorem get?_ref (s : Schema) : s.toJson.get? "$ref" =
    if s.kind = .ref then some (.str (referenceText s.refName)) else none := by
  split
  · next h =>
    obtain ⟨kind, _, _, _, _, _, _, _, _, _⟩ := s
    obtain rfl : kind = .ref := h
    simp [toJson, Json.get?, Table.get?]
  · next h => rw [toJson_eq_ofOptions h, Json.get?_ofOptions_of_notMem s.keys_keyed.2]

/-! ## Fields from values -/

section Fields

variable {α : Type} {f : α → Json}

/-- What may be missing is equal if it is rendered to equal values and `f` tells it apart. -/
theorem eq_of_rel_map {o o' : Option α} (hf : ∀ a ∈ o, ∀ b ∈ o', (f a).Alike (f b) → a = b)
    (h : Option.Rel Json.Alike (o.map f) (o'.map f)) : o = o' := by
  rcases o with _ | a <;> rcases o' with _ | b
  · rfl
  · cases h
  · cases h
  · obtain ⟨h⟩ | _ := h
    rw [hf a rfl b rfl h]

/-- Lists are equal if they are rendered to equal values and `f` tells their elements apart. -/
theorem eq_of_forall₂_map {xs ys : List α}
    (hf : ∀ a ∈ xs, ∀ b ∈ ys, (f a).Alike (f b) → a = b)
    (h : List.Forall₂ Json.Alike (xs.map f) (ys.map f)) : xs = ys := by
  rw [List.forall₂_map_left_iff, List.forall₂_map_right_iff] at h
  induction h with
  | nil => rfl
  | cons hab _ ih =>
    rw [hf _ List.mem_cons_self _ List.mem_cons_self hab, ih fun a ha b hb =>
      hf a (List.mem_cons_of_mem _ ha) b (List.mem_cons_of_mem _ hb)]

/-- Of two lists that are left out if they are empty, either both are or their values are equal. -/
theorem alike_of_rel_unlessEmpty {f : List α → Json} {xs ys : List α}
    (h : Option.Rel Json.Alike (unlessEmpty f xs) (unlessEmpty f ys)) :
    (xs = [] ∧ ys = []) ∨ (f xs).Alike (f ys) := by
  rcases xs with _ | ⟨x, xs⟩ <;> rcases ys with _ | ⟨y, ys⟩
  · exact .inl ⟨rfl, rfl⟩
  · cases h
  · cases h
  · obtain ⟨h⟩ | _ := h
    exact .inr h

end Fields

theorem eq_of_rel_flag {b b' : Bool}
    (h : Option.Rel Json.Alike (if b then some (.bool true) else none)
      (if b' then some (.bool true) else none)) : b = b' := by
  cases b <;> cases b' <;> simp_all

theorem eq_of_rel_text {o o' : Option String}
    (h : Option.Rel Json.Alike (o.map .str) (o'.map .str)) : o = o' :=
  eq_of_rel_map (fun _ _ _ _ => Json.alike_str_iff.mp) h

theorem eq_of_alike_strings {values values' : List String}
    (h : (strings values).Alike (strings values')) : values = values' :=
  eq_of_forall₂_map (fun _ _ _ _ => Json.alike_str_iff.mp) (Json.alike_arr_iff.mp h)

theorem eq_of_rel_texts {o o' : Option (List String)}
    (h : Option.Rel Json.Alike (o.map strings) (o'.map strings)) : o = o' :=
  eq_of_rel_map (fun _ _ _ _ => eq_of_alike_strings) h

theorem eq_of_rel_list {values values' : List String}
    (h : Option.Rel Json.Alike (unlessEmpty strings values) (unlessEmpty strings values')) :
    values = values' := by
  obtain ⟨rfl, rfl⟩ | h := alike_of_rel_unlessEmpty h
  · rfl
  · exact eq_of_alike_strings h

/-! ## Schemas from values -/

/-- No schema but this one is well formed and has its rendering. -/
def Distinguished (s : Schema) : Prop :=
  ∀ t : Schema, t.WellFormed → s.toJson.Alike t.toJson → s = t

theorem optionJson_eq_map (o : Option Schema) : optionJson o = o.map toJson := by
  cases o <;> rfl

theorem get?_propertiesJson (key : String) (ps : List (String × Schema)) :
    Table.get? key (propertiesJson ps) = (Table.get? key ps).map toJson := by
  rw [propertiesJson_eq_map, Table.get?_map]

theorem eq_of_rel_optionJson {o o' : Option Schema} (hs : ∀ s, o = some s → s.Distinguished)
    (ht : ∀ t, o' = some t → t.WellFormed)
    (h : Option.Rel Json.Alike (optionJson o) (optionJson o')) : o = o' := by
  rw [optionJson_eq_map, optionJson_eq_map] at h
  exact eq_of_rel_map (fun s hso t hto => hs s hso t (ht t hto)) h

theorem eq_of_alike_members {ms ns : List Schema} (hs : ∀ m ∈ ms, m.Distinguished)
    (ht : ∀ n ∈ ns, n.WellFormed)
    (h : List.Forall₂ Json.Alike (membersJson ms) (membersJson ns)) : ms = ns := by
  rw [membersJson_eq_map, membersJson_eq_map] at h
  exact eq_of_forall₂_map (fun m hm n hn => hs m hm n (ht n hn)) h

theorem eq_of_rel_properties {ps qs : List (String × Schema)}
    (hps : (ps.map (·.1)).Pairwise (· < ·)) (hqs : (qs.map (·.1)).Pairwise (· < ·))
    (hs : ∀ p ∈ ps, p.2.Distinguished) (ht : ∀ q ∈ qs, q.2.WellFormed)
    (h : Option.Rel Json.Alike
      (unlessEmpty (fun ps => .obj (Table.ofList (sortOn (·.1) ps))) (propertiesJson ps))
      (unlessEmpty (fun ps => .obj (Table.ofList (sortOn (·.1) ps))) (propertiesJson qs))) :
    ps = qs := by
  obtain ⟨hp, hq⟩ | h := alike_of_rel_unlessEmpty h
  · rw [propertiesJson_eq_map, List.map_eq_nil_iff] at hp hq
    rw [hp, hq]
  · rw [ofList_propertiesJson hps, ofList_propertiesJson hqs] at h
    have hget : ∀ key, Table.get? key ps = Table.get? key qs := by
      intro key
      have hkey := h.get? key
      rw [Json.get?, Json.get?, get?_propertiesJson, get?_propertiesJson] at hkey
      exact eq_of_rel_map (fun s hso t hto => hs _ (Table.mem_of_get?_eq_some hso) t
        (ht _ (Table.mem_of_get?_eq_some hto))) hkey
    have hsame := (Table.Same.of_get? (hps.imp ne_of_lt) (hqs.imp ne_of_lt) hget).sorted
    rwa [sortOn_eq_self hps, sortOn_eq_self hqs] at hsame

/-! ## The kind -/

/-- A scalar type has a name of its own. -/
theorem word_ne_object (kind : PrimitiveKind) : "object" ≠ kind.word ∧ "array" ≠ kind.word := by
  cases kind <;> decide

/-- Kinds of schemas that name the same type are equal, if no kind is that of a reference and both
are the same composition or none. -/
theorem kind_eq_of_names {k k' : SchemaKind} {typeName : Option String} (hk : k ≠ .ref)
    (hk' : k' ≠ .ref) (h : k.Names typeName) (h' : k'.Names typeName)
    (hmode : ∀ mode, k = .composite mode ↔ k' = .composite mode) : k = k' := by
  cases k <;> cases k' <;>
    simp_all [SchemaKind.Names, (word_ne_object _).1, (word_ne_object _).2]

theorem ref_iff_of_alike (h : s.toJson.Alike t.toJson) : s.kind = .ref ↔ t.kind = .ref := by
  have hkey := h.get? "$ref"
  rw [get?_ref, get?_ref] at hkey
  split at hkey <;> split at hkey <;> simp_all

/-- A rendered reference shows its name. -/
theorem eq_of_alike_ref {name name' : String}
    (h : (Schema.ref name).toJson.Alike (Schema.ref name').toJson) : name = name' := by
  have hkey := h.get? "$ref"
  rw [toJson_ref, toJson_ref] at hkey
  obtain ⟨htext⟩ | _ := hkey
  exact (String.append_right_inj _).mp (Json.alike_str_iff.mp htext)

/-- **Schemas of one rendering are of one kind.** -/
theorem kind_eq_of_alike (hs : s.kind ≠ .ref) (ht : t.kind ≠ .ref) (hsr : s.Regular)
    (htr : t.Regular) (htype : s.typeName = t.typeName) (h : s.toJson.Alike t.toJson) :
    s.kind = t.kind := by
  refine kind_eq_of_names hs ht hsr.typeName (htype ▸ htr.typeName) fun mode => ?_
  have hmode := h.get? mode.word
  rw [get?_word hs, get?_word ht] at hmode
  split at hmode <;> split at hmode <;> simp_all

/-- Schemas of one kind and one rendering have the same members. -/
theorem members_eq_of_alike (hk : s.kind = t.kind) (hs : s.kind ≠ .ref) (hsr : s.Regular)
    (htr : t.Regular) (hm : ∀ m ∈ s.members, m.Distinguished) (htm : ∀ m ∈ t.members, m.WellFormed)
    (h : s.toJson.Alike t.toJson) : s.members = t.members := by
  by_cases hmode : ∃ mode, s.kind = .composite mode
  · obtain ⟨mode, hmode⟩ := hmode
    have hkey := h.get? mode.word
    rw [get?_word hs, get?_word (hk ▸ hs), if_pos hmode, if_pos (hk ▸ hmode)] at hkey
    obtain ⟨hkey⟩ | _ := hkey
    exact eq_of_alike_members hm htm (Json.alike_arr_iff.mp hkey)
  · have hsn := mt hsr.members.mp hmode
    have htn := mt htr.members.mp (hk ▸ hmode)
    rw [not_not.mp hsn, not_not.mp htn]

/-- Schemas of one rendering have the same metadata. -/
theorem metadata_eq_of_alike (hs : s.kind ≠ .ref) (ht : t.kind ≠ .ref)
    (h : s.toJson.Alike t.toJson) : s.metadata = t.metadata := by
  have hdescription := eq_of_rel_text <|
    alike_under hs ht h "description" (fun u => u.metadata.description.map .str)
      fun u => by simp [keyed]
  have hformat := eq_of_rel_text <|
    alike_under hs ht h "format" (fun u => u.metadata.format.map .str) fun u => by simp [keyed]
  have hsample := eq_of_rel_text <|
    alike_under hs ht h "example" (fun u => u.metadata.sample.map .str) fun u => by simp [keyed]
  have hnullable := eq_of_rel_flag <|
    alike_under hs ht h "nullable"
      (fun u => if u.metadata.nullable then some (.bool true) else none) fun u => by simp [keyed]
  cases hms : s.metadata
  cases hmt : t.metadata
  simp_all

/-- **Well-formed schemas that are rendered as equal values are equal.** -/
theorem WellFormed.distinguished (hs : s.WellFormed) : s.Distinguished := by
  induction hs with
  | @node s hr hp ha hi hm ihp iha ihi ihm =>
    intro t ht h
    have htr := ht.regular
    have href := ref_iff_of_alike h
    by_cases hk : s.kind = .ref
    · obtain ⟨name, rfl⟩ := (WellFormed.node hr hp ha hi hm).eq_ref hk
      obtain ⟨name', rfl⟩ := ht.eq_ref (href.mp hk)
      rw [eq_of_alike_ref h]
    have hk' : t.kind ≠ .ref := mt href.mpr hk
    have htype : s.typeName = t.typeName := eq_of_rel_text <|
      alike_under hk hk' h "type" (fun u => u.typeName.map .str) fun u => by simp [keyed]
    have hkind := kind_eq_of_alike hk hk' hr htr htype h
    have hproperties : s.properties = t.properties :=
      eq_of_rel_properties hr.ascending htr.ascending ihp ht.properties <|
        alike_under hk hk' h "properties" (fun u => unlessEmpty
          (fun ps => .obj (Table.ofList (sortOn (·.1) ps))) (propertiesJson u.properties))
          fun u => by simp [keyed]
    have hrequired : s.required = t.required := eq_of_rel_list <|
      alike_under hk hk' h "required" (fun u => unlessEmpty strings u.required)
        fun u => by simp [keyed]
    have hadditional : s.additional = t.additional :=
      eq_of_rel_optionJson iha ht.additional <|
        alike_under hk hk' h "additionalProperties" (fun u => optionJson u.additional)
          fun u => by simp [keyed]
    have hitems : s.items = t.items := eq_of_rel_optionJson ihi ht.items <|
      alike_under hk hk' h "items" (fun u => optionJson u.items) fun u => by simp [keyed]
    have henum : s.enumValues = t.enumValues := eq_of_rel_texts <|
      alike_under hk hk' h "enum" (fun u => u.enumValues.map strings) fun u => by simp [keyed]
    have hmembers := members_eq_of_alike hkind hk hr htr ihm ht.members h
    have hmetadata := metadata_eq_of_alike hk hk' h
    have hname : s.refName = none := by simpa using mt hr.refName.mp hk
    have hname' : t.refName = none := by simpa using mt htr.refName.mp hk'
    cases s
    cases t
    simp_all

end Schema

end OpenApi
