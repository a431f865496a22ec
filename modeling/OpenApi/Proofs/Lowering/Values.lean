import OpenApi.Proofs.Descriptor.Values
import OpenApi.Proofs.Lowering.Runs
import OpenApi.Proofs.Trees

/-!
# Proofs/Lowering/Values — a lowering keeps the values

    d ──lower──▸ s, definitions ──stored in──▸ r
    │            │
    values of d  =  values that validate against s in r

One induction for each direction.  A value that fits the schema with references opened to a depth
is a value of the descriptor, by induction on the depth and then over the descriptor
(`takes_of_accepts`).  A value of the descriptor fits from some depth on, by induction over the
derivation that it is one (`validates_of_takes`).  Neither asks at which use site the descriptor was
lowered, so a named type means the same embedded and behind a reference.
-/

namespace OpenApi

variable {r : Registry}

/-- All definitions are stored. -/
def Registry.Holds (r : Registry) (defs : List Definition) : Prop :=
  ∀ x ∈ defs, r.get? x.name = some x.schema

namespace Registry.Holds

theorem append {defs₁ defs₂ : List Definition} :
    r.Holds (defs₁ ++ defs₂) ↔ r.Holds defs₁ ∧ r.Holds defs₂ := List.forall_mem_append

end Registry.Holds

/-- **A schema of a descriptor** — made at some use site, with the named types in it stored. -/
def Descriptor.LowersIn (r : Registry) (d : Descriptor) (s : Schema) : Prop :=
  ∃ embed path defs, (d.lower embed path).Run defs s ∧ r.Holds defs

/-! ## Serialized fields and variants -/

theorem Variant.mem_serialized {τ : Type} {variants : List (Variant τ)} {x : Variant τ} :
    x ∈ serialized variants ↔ x ∈ variants ∧ x.skip = false := by
  simp [serialized]

namespace Field

variable {τ : Type} {fields : List (Field τ)}

/-- The fields that are serialized. -/
def serialized (fields : List (Field τ)) : List (Field τ) := fields.filter (!·.skip)

/-- The names that a serialized structure must have. -/
def required (fields : List (Field τ)) : List String :=
  ((serialized fields).filter (!·.forceOptional)).map (·.name)

theorem mem_serialized {f : Field τ} : f ∈ serialized fields ↔ f ∈ fields ∧ f.skip = false := by
  simp [serialized]

theorem mem_required {name : String} :
    name ∈ required fields ↔
      ∃ f ∈ fields, f.skip = false ∧ f.forceOptional = false ∧ f.name = name := by
  simp [required, mem_serialized, and_assoc]

theorem serialized_cons (f : Field τ) (fields : List (Field τ)) :
    serialized (f :: fields) = if f.skip then serialized fields else f :: serialized fields := by
  rw [serialized, List.filter_cons]
  cases f.skip <;> rfl

end Field

namespace Descriptor

/-! ## Schemas form by form -/

namespace LowersIn

variable {s : Schema}

theorem primitive {kind : PrimitiveKind} {format : Option String}
    (h : (primitive kind format).LowersIn r s) : s = Schema.primitive kind.word format := by
  obtain ⟨_, _, _, hrun, -⟩ := h
  exact (run_primitive.mp hrun).2

theorem array {element : Descriptor} (h : (array element).LowersIn r s) :
    ∃ i, element.LowersIn r i ∧ s = Schema.array i none := by
  obtain ⟨_, _, _, hrun, hr⟩ := h
  obtain ⟨i, hi, hs⟩ := run_array.mp hrun
  exact ⟨i, ⟨_, _, _, hi, hr⟩, hs⟩

theorem optional {inner : Descriptor} (h : (optional inner).LowersIn r s) :
    ∃ i, inner.LowersIn r i ∧ s = i.withMetadata { nullable := true } := by
  obtain ⟨_, _, _, hrun, hr⟩ := h
  obtain ⟨i, hi, hs⟩ := run_optional.mp hrun
  exact ⟨i, ⟨_, _, _, hi, hr⟩, hs⟩

theorem map {value : Descriptor} (h : (map value).LowersIn r s) :
    ∃ i, value.LowersIn r i ∧ s = Schema.mapOf i none := by
  obtain ⟨_, _, _, hrun, hr⟩ := h
  obtain ⟨i, hi, hs⟩ := run_map.mp hrun
  exact ⟨i, ⟨_, _, _, hi, hr⟩, hs⟩

theorem any (h : any.LowersIn r s) : s = Schema.any := by
  obtain ⟨_, _, _, hrun, -⟩ := h
  exact (run_any.mp hrun).2

theorem reference {name : String} (h : (reference name).LowersIn r s) : s = Schema.ref name := by
  obtain ⟨_, _, _, hrun, -⟩ := h
  exact (run_reference.mp hrun).2

theorem enum {name : String} {tagging : Tagging} {variants : List (Variant Descriptor)}
    {description : Option String} (hbare : ∀ x ∈ variants, x.skip = false → x.hasPayload = false)
    (h : (enum name tagging variants description).LowersIn r s) :
    s = Schema.stringOf ((Variant.serialized variants).map (·.name)) description := by
  obtain ⟨_, _, _, hrun, -⟩ := h
  exact (eq_stringOf_of_run_enum hbare hrun).2

/-- **A named type is embedded or stored** — with metadata that does not make it nullable. -/
theorem named {name : String} {underlying : Descriptor} {description format sample : Option String}
    {inline : Bool} (h : (named name underlying description format sample inline).LowersIn r s) :
    ∃ i m, underlying.LowersIn r i ∧ m.nullable = false ∧
      (s = i.withMetadata m ∨ (s = Schema.ref name ∧ r.get? name = some (i.withMetadata m))) := by
  obtain ⟨_, _, _, hrun, hr⟩ := h
  obtain ⟨defs, i, t, hi, rfl, ⟨-, rfl, rfl⟩ | ⟨-, rfl, rfl⟩⟩ := run_named.mp hrun
  · exact ⟨i, _, ⟨_, _, _, hi, hr⟩, rfl, Or.inl rfl⟩
  · obtain ⟨hdefs, hlast⟩ := Registry.Holds.append.mp hr
    exact ⟨i, _, ⟨_, _, _, hi, hdefs⟩, rfl, Or.inr ⟨rfl, hlast _ (List.mem_singleton.mpr rfl)⟩⟩

theorem members {path : DescriptorPath} {mode : Composition} {index : Nat}
    {members : List Descriptor} {defs : List Definition} {ss : List Schema}
    (h : (lowerMembers path mode index members).Run defs ss) (hr : r.Holds defs) :
    List.Forall₂ (LowersIn r) members ss := by
  induction members generalizing index defs ss with
  | nil =>
    obtain ⟨-, rfl⟩ := run_lowerMembers_nil.mp h
    exact .nil
  | cons member members ih =>
    obtain ⟨defs₁, i, defs₂, is, hi, his, rfl, rfl⟩ := run_lowerMembers_cons.mp h
    obtain ⟨hr₁, hr₂⟩ := Registry.Holds.append.mp hr
    exact .cons ⟨_, _, _, hi, hr₁⟩ (ih his hr₂)

theorem composite {mode : Composition} {members : List Descriptor}
    (h : (composite mode members).LowersIn r s) :
    ∃ ss, List.Forall₂ (LowersIn r) members ss ∧ s = Schema.composite mode ss none := by
  obtain ⟨_, _, _, hrun, hr⟩ := h
  obtain ⟨-, ss, hss, hs⟩ := run_composite.mp hrun
  exact ⟨ss, LowersIn.members hss hr, hs⟩

/-- The property of a field: a schema of its type with the field's metadata on top. -/
def Property (r : Registry) (f : Field Descriptor) (p : String × Schema) : Prop :=
  p.1 = f.name ∧ ∃ i, f.type.LowersIn r i ∧ p.2 = i.withMetadata f.metadata

theorem fields {embed : Bool} {path : DescriptorPath} {seen : List String}
    {fields : List (Field Descriptor)} {defs : List Definition}
    {p : List (String × Schema) × List String}
    (h : (lowerFields embed path seen fields).Run defs p) (hr : r.Holds defs) :
    List.Forall₂ (Property r) (Field.serialized fields) p.1 ∧ p.2 = Field.required fields := by
  induction fields generalizing seen defs p with
  | nil =>
    obtain ⟨-, rfl⟩ := run_lowerFields_nil.mp h
    exact ⟨.nil, rfl⟩
  | cons f fields ih =>
    rcases run_lowerFields_cons.mp h with
      ⟨hskip, h⟩ | ⟨hskip, -, defs₁, i, defs₂, q, hi, hq, rfl, rfl⟩
    · rw [Field.required, Field.serialized_cons, if_pos hskip]
      exact ih h hr
    · obtain ⟨hr₁, hr₂⟩ := Registry.Holds.append.mp hr
      obtain ⟨hprops, hrequired⟩ := ih hq hr₂
      rw [Field.required, Field.serialized_cons, if_neg (by simp [hskip])]
      refine ⟨.cons ⟨rfl, i, ⟨_, _, _, hi, hr₁⟩, rfl⟩ hprops, ?_⟩
      dsimp only
      rw [hrequired, Field.required, List.filter_cons]
      cases f.forceOptional <;> rfl

theorem object {name : Option String} {fields : List (Field Descriptor)}
    (h : (object name fields).LowersIn r s) :
    ∃ properties, List.Forall₂ (Property r) (Field.serialized fields) properties ∧
      s = Schema.object properties (Field.required fields) none := by
  obtain ⟨_, _, _, hrun, hr⟩ := h
  obtain ⟨p, hp, rfl⟩ := run_object.mp hrun
  obtain ⟨hprops, hrequired⟩ := LowersIn.fields hp hr
  exact ⟨p.1, hprops, by rw [hrequired]⟩

end LowersIn

end Descriptor

/-! ## Named types -/

/-- **What a registry has for a named type** — a schema of what it stands for, not made nullable. -/
def Registry.Keeps (r : Registry) (name : String) (d : Descriptor) : Prop :=
  d.ChoiceFree ∧ ∃ i m, d.LowersIn r i ∧ m.nullable = false ∧ r.get? name = some (i.withMetadata m)

/-- **A registry is made of named types** — every entry comes from one, and each of them is
kept. -/
structure Registry.Backs (r : Registry) (types : String → Descriptor → Prop) : Prop where
  made : ∀ name s, r.get? name = some s → ∃ d, types name d
  kept : ∀ name d, types name d → r.Keeps name d

/-! ## The two directions -/

variable {types : String → Descriptor → Prop}

/-- A reference that means something has been opened at least once. -/
theorem Registry.exists_of_reads {n : Nat} {name : String} {v : Value}
    (h : r.reads n name v = true) :
    ∃ m < n, ∃ s, r.get? name = some s ∧ s.accepts (r.reads m) v = true := by
  cases n with
  | zero => exact absurd h Bool.false_ne_true
  | succ m => exact ⟨m, Nat.lt_succ_self m, Registry.reads_succ_iff.mp h⟩

theorem takes_composite {refs : String → Value → Bool} {mode : Composition}
    {members : List Descriptor} {s : Schema} {v : Value} (hmode : mode ≠ .oneOf)
    (hs : (Descriptor.composite mode members).LowersIn r s)
    (ih : ∀ d ∈ members, ∀ i, d.LowersIn r i → i.accepts refs v = true → d.Takes types v)
    (hv : s.accepts refs v = true) : (Descriptor.composite mode members).Takes types v := by
  obtain ⟨ss, hss, rfl⟩ := hs.composite
  cases mode with
  | allOf =>
    refine .allOf fun d hmem => ?_
    obtain ⟨i, hi, hdi⟩ := exists_right_of_forall₂ hss hmem
    exact ih d hmem i hdi (Schema.accepts_allOf_iff.mp hv i hi)
  | anyOf =>
    obtain ⟨i, hi, hv⟩ := Schema.accepts_anyOf_iff.mp hv
    obtain ⟨d, hmem, hdi⟩ := exists_left_of_forall₂ hss hi
    exact .anyOf hmem (ih d hmem i hdi hv)
  | oneOf => exact absurd rfl hmode

theorem takes_object {refs : String → Value → Bool} {name : Option String}
    {fields : List (Field Descriptor)} {s : Schema} {v : Value}
    (hs : (Descriptor.object name fields).LowersIn r s)
    (ih : ∀ f ∈ fields, f.skip = false → ∀ i x, f.type.LowersIn r i → i.accepts refs x = true →
      f.type.Takes types x)
    (hv : s.accepts refs v = true) : (Descriptor.object name fields).Takes types v := by
  obtain ⟨properties, hprops, rfl⟩ := hs.object
  obtain ⟨ms, rfl, hrequired, htyped⟩ := Schema.accepts_object_iff.mp hv
  refine .object name (fun f hf live hopt => hrequired f.name ?_)
    fun f hf live m hm hname hnull => ?_
  · exact Field.mem_required.mpr ⟨f, hf, live, hopt, rfl⟩
  · obtain ⟨p, hp, hpf, i, hi, hpi⟩ :=
      exists_right_of_forall₂ hprops (Field.mem_serialized.mpr ⟨hf, live⟩)
    have hv := htyped p hp m hm (hname.trans hpf.symm)
    rw [hpi] at hv
    exact ih f hf live i m.2 hi ((Schema.accepts_withMetadata_iff.mp hv).resolve_left hnull)

/-- **What fits the schema is a value of the descriptor** — each reference on the way to it is
opened less deep than the one before. -/
theorem takes_of_accepts (hr : r.Backs types) (n : Nat) (d : Descriptor) {s : Schema} {v : Value}
    (hd : d.ChoiceFree) (hs : d.LowersIn r s) (hv : s.accepts (r.reads n) v = true) :
    d.Takes types v := by
  induction n using Nat.strong_induction_on generalizing d s v with
  | _ n ihn =>
  -- A stored schema of a named type is opened at a smaller depth.
  have hopen : ∀ {name : String} {u : Descriptor} {v : Value}, r.Keeps name u →
      r.reads n name v = true → u.Takes types v := by
    rintro name u v ⟨hu, i, m, hi, hm, hget⟩ hv
    obtain ⟨k, hk, t, ht, hv⟩ := Registry.exists_of_reads hv
    obtain rfl : i.withMetadata m = t := Option.some.inj (hget.symm.trans ht)
    refine ihn k hk u hu hi ?_
    simpa [hm] using Schema.accepts_withMetadata_iff.mp hv
  induction d using Descriptor.tree generalizing s v with
  | primitive kind format =>
    rw [hs.primitive, Schema.accepts_primitive_iff, Value.hasType_word_iff] at hv
    exact .primitive format hv
  | array element ih =>
    obtain ⟨i, hi, rfl⟩ := hs.array
    obtain ⟨xs, rfl, hxs⟩ := Schema.accepts_array_iff.mp hv
    exact .array fun x hx => ih hd.of_array hi (hxs x hx)
  | optional inner ih =>
    obtain ⟨i, hi, rfl⟩ := hs.optional
    rcases Schema.accepts_withMetadata_iff.mp hv with ⟨-, rfl⟩ | hv
    · exact .null inner
    · exact .present (ih hd.of_optional hi hv)
  | map value ih =>
    obtain ⟨i, hi, rfl⟩ := hs.map
    obtain ⟨ms, rfl, hms⟩ := Schema.accepts_mapOf_iff.mp hv
    exact .map fun m hm => ih hd.of_map hi (hms m hm)
  | tuple items ih => nomatch hd
  | any => exact .any v
  | composite mode members ih =>
    obtain ⟨hmode, hmembers⟩ := hd.of_composite
    exact takes_composite hmode hs (fun d hmem _ hi => ih d hmem (hmembers d hmem) hi) hv
  | object name fields ih =>
    exact takes_object hs (fun f hf live _ _ hi => ih f hf (hd.of_object f hf live) hi) hv
  | enum name tagging variants description ih =>
    rw [hs.enum hd.of_enum] at hv
    obtain ⟨_, hmem, rfl⟩ := Schema.accepts_stringOf_iff.mp hv
    obtain ⟨x, hx, rfl⟩ := List.mem_map.mp hmem
    obtain ⟨hx, live⟩ := Variant.mem_serialized.mp hx
    exact .enum name tagging description hx live (hd.of_enum x hx live)
  | named name underlying description format sample inline ih =>
    obtain ⟨i, m, hi, hm, rfl | ⟨rfl, hget⟩⟩ := hs.named
    · have hv : i.accepts (r.reads n) v = true := by
        simpa [hm] using Schema.accepts_withMetadata_iff.mp hv
      exact .named _ _ _ _ _ (ih hd.of_named hi hv)
    · rw [Schema.accepts_ref] at hv
      exact .named _ _ _ _ _ (hopen ⟨hd.of_named, i, m, hi, hm, hget⟩ hv)
  | reference name =>
    rw [hs.reference, Schema.accepts_ref] at hv
    obtain ⟨_, -, t, ht, -⟩ := Registry.exists_of_reads hv
    obtain ⟨u, hu⟩ := hr.made name t ht
    exact .reference hu (hopen (hr.kept name u hu) hv)

/-- **A value of the descriptor validates against the schema.** -/
theorem validates_of_takes (hr : r.Backs types) {d : Descriptor} {s : Schema} {v : Value}
    (h : d.Takes types v) (hd : d.ChoiceFree) (hs : d.LowersIn r s) : r.Validates s v := by
  -- The stored schema of a named type validates what the schema it is made from does.
  have hopen : ∀ {name : String} {u : Descriptor} {v : Value}, r.Keeps name u →
      (∀ {i : Schema}, u.ChoiceFree → u.LowersIn r i → r.Validates i v) →
      r.Validates (.ref name) v := by
    rintro name u v ⟨hu, i, m, hi, -, hget⟩ hv
    exact Registry.validates_ref_iff.mpr
      ⟨_, hget, Registry.validates_withMetadata_iff.mpr (Or.inr (hv hu hi))⟩
  induction h generalizing s with
  | primitive format hv =>
    rw [hs.primitive, Registry.validates_primitive_iff]
    exact Value.hasType_word_iff.mpr hv
  | array h ih =>
    obtain ⟨i, hi, rfl⟩ := hs.array
    exact Registry.validates_array_iff.mpr ⟨_, rfl, fun x hx => ih x hx hd.of_array hi⟩
  | null inner =>
    obtain ⟨i, hi, rfl⟩ := hs.optional
    exact Registry.validates_withMetadata_iff.mpr (Or.inl ⟨rfl, rfl⟩)
  | present h ih =>
    obtain ⟨i, hi, rfl⟩ := hs.optional
    exact Registry.validates_withMetadata_iff.mpr (Or.inr (ih hd.of_optional hi))
  | map h ih =>
    obtain ⟨i, hi, rfl⟩ := hs.map
    exact Registry.validates_mapOf_iff.mpr ⟨_, rfl, fun m hm => ih m hm hd.of_map hi⟩
  | any v =>
    rw [hs.any]
    exact Registry.validates_any v
  | allOf h ih =>
    obtain ⟨ss, hss, rfl⟩ := hs.composite
    refine Registry.validates_allOf_iff.mpr fun i hi => ?_
    obtain ⟨d, hmem, hdi⟩ := exists_left_of_forall₂ hss hi
    exact ih d hmem (hd.of_composite.2 d hmem) hdi
  | anyOf hmem h ih =>
    obtain ⟨ss, hss, rfl⟩ := hs.composite
    obtain ⟨i, hi, hdi⟩ := exists_right_of_forall₂ hss hmem
    exact Registry.validates_anyOf hi (ih (hd.of_composite.2 _ hmem) hdi)
  | object name required typed ih =>
    obtain ⟨properties, hprops, rfl⟩ := hs.object
    refine Registry.validates_object_iff.mpr ⟨_, rfl, fun n hn => ?_, fun p hp m hm hmp => ?_⟩
    · obtain ⟨f, hf, live, hopt, rfl⟩ := Field.mem_required.mp hn
      exact required f hf live hopt
    · obtain ⟨f, hf, hpf, i, hi, hpi⟩ := exists_left_of_forall₂ hprops hp
      obtain ⟨hf, live⟩ := Field.mem_serialized.mp hf
      rw [hpi, Registry.validates_withMetadata_iff]
      by_cases hnull : f.metadata.nullable = true ∧ m.2 = .null
      · exact Or.inl hnull
      · exact Or.inr (ih f hf live m hm (hmp.trans hpf) hnull (hd.of_object f hf live) hi)
  | enum name tagging description hx live bare =>
    rw [hs.enum hd.of_enum, Registry.validates_stringOf_iff]
    exact ⟨_, List.mem_map.mpr ⟨_, Variant.mem_serialized.mpr ⟨hx, live⟩, rfl⟩, rfl⟩
  | named name description format sample inline h ih =>
    obtain ⟨i, m, hi, hm, rfl | ⟨rfl, hget⟩⟩ := hs.named
    · exact Registry.validates_withMetadata_iff.mpr (Or.inr (ih hd.of_named hi))
    · exact hopen ⟨hd.of_named, i, m, hi, hm, hget⟩ ih
  | reference h hv ih =>
    rw [hs.reference]
    exact hopen (hr.kept _ _ h) ih

end OpenApi
