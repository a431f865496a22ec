import OpenApi.Proofs.Descriptor.Offences

/-!
# Proofs/Lowering/Payloads — what a tag finds in a payload

    payload    named … (optional (… core))     the form of the core    `Joins`, `HasField`
                       │ embedded                       │
    schema     metadata on that of the core    its kind and properties

A tag can join the schema of a payload if that is an object, an `allOf` or a reference, and has no
property of the tag's name.  Metadata on the way changes neither, so the schema shows there what the
core of the payload is (`presents_of_lower`).
-/

namespace OpenApi.Descriptor

variable {embed : Bool} {path : DescriptorPath}

/-! ## Keys of objects -/

/-- The properties of a structure are its serialized fields. -/
theorem names_of_lowerFields {fields : List (Field Descriptor)} :
    ∀ {seen : List String} {defs : List Definition} {p : List (String × Schema) × List String},
      (lowerFields embed path seen fields).Run defs p → p.1.map (·.1) = liveNames fields := by
  induction fields with
  | nil =>
    intro seen defs p h
    obtain ⟨-, rfl⟩ := run_lowerFields_nil.mp h
    rfl
  | cons f fields ih =>
    intro seen defs p h
    obtain ⟨skip, rest⟩ | ⟨live, -, _, _, _, _, -, rest, -, rfl⟩ := run_lowerFields_cons.mp h
    · simpa [liveNames, skip] using ih rest
    · simpa [liveNames, live] using ih rest

/-! ## Payloads -/

/-- **The schema of a payload looks to a tag as its core says**: whether the tag can join it, and
which keys it has. -/
structure Presents (d : Descriptor) (s : Schema) : Prop where
  joins : (s.kind = .ref ∨ s.kind = .object ∨ s.kind = .composite .allOf) ↔ d.core.Joins
  defines : ∀ key, key ∈ s.properties.map (·.1) ↔ d.core.HasField key

/-- Metadata changes neither. -/
theorem Presents.withMetadata {d : Descriptor} {s : Schema} {m : Metadata} (h : d.Presents s)
    (hs : s.WellFormed) : d.Presents (s.withMetadata m) := by
  rw [Schema.withMetadata]
  split
  · exact h
  · split
    · next href =>
      obtain ⟨name, rfl⟩ := hs.eq_ref (of_decide_eq_true href)
      exact ⟨by simpa [Schema.ref] using h.joins, h.defines⟩
    · exact ⟨h.joins, h.defines⟩

/-- The keys of an object are the names it is made with. -/
theorem mem_names_object {properties : List (String × Schema)} {required : List String}
    {description : Option String} {key : String} :
    key ∈ (Schema.object properties required description).properties.map (·.1) ↔
      key ∈ properties.map (·.1) :=
  ((sortOn_perm (·.1) properties).map (·.1)).mem_iff

theorem presents_enum {name : String} {tagging : Tagging} {variants : List (Variant Descriptor)}
    {description : Option String} {s : Schema}
    (h : ((enum name tagging variants description).lower embed path).outcome = .ok s) :
    (enum name tagging variants description).Presents s := by
  by_cases bear : Variant.BearPayload variants
  · have hlayout := layout_of_lower bear h
    cases tagging with
    | external =>
      obtain ⟨ss, -, rfl⟩ := hlayout
      exact ⟨iff_of_true (.inr (.inl rfl)) bear, fun key => iff_of_false List.not_mem_nil id⟩
    | internal tagKey =>
      obtain ⟨ss, -, rfl⟩ := hlayout
      exact ⟨iff_of_false (by simp [Schema.composite]) id,
        fun key => iff_of_false List.not_mem_nil id⟩
    | adjacent tagKey contentKey =>
      obtain ⟨-, ss, -, rfl⟩ := hlayout
      refine ⟨iff_of_true (.inr (.inl rfl)) bear, fun key => mem_names_object.trans ?_⟩
      simp [core, HasField, bear]
    | untagged =>
      obtain ⟨ss, -, rfl⟩ := hlayout
      exact ⟨iff_of_false (by simp [Schema.composite]) id,
        fun key => iff_of_false List.not_mem_nil id⟩
  · rw [eq_stringOf_of_lower bear h]
    refine ⟨iff_of_false (by simp [Schema.stringOf]) ?_,
      fun key => iff_of_false List.not_mem_nil ?_⟩
    · cases tagging <;> simp [core, Joins, bear]
    · cases tagging <;> simp [core, HasField, bear]

/-- **An embedded payload looks as its core says.** -/
theorem presents_of_lower {d : Descriptor} {s : Schema} (h : (d.lower true path).outcome = .ok s) :
    d.Presents s := by
  induction d using chainInduction generalizing path s with
  | content d hcore =>
    cases d with
    | primitive kind format =>
      obtain rfl := Except.ok.inj h
      exact ⟨iff_of_false (by simp [Schema.primitive]) id,
        fun key => iff_of_false List.not_mem_nil id⟩
    | array element =>
      obtain ⟨i, -, hs⟩ := Journal.bind_eq_ok_iff.mp h
      obtain rfl := Except.ok.inj hs
      exact ⟨iff_of_false (by simp [Schema.array]) id, fun key => iff_of_false List.not_mem_nil id⟩
    | optional inner => exact hcore.elim
    | map value =>
      obtain ⟨i, -, hs⟩ := Journal.bind_eq_ok_iff.mp h
      obtain rfl := Except.ok.inj hs
      exact ⟨iff_of_true (.inr (.inl rfl)) trivial, fun key => iff_of_false List.not_mem_nil id⟩
    | tuple items =>
      rw [lower] at h
      obtain ⟨ss, -, rfl⟩ := Lowering.tuple_eq_ok h
      exact ⟨iff_of_false (by simp [Schema.array]) id, fun key => iff_of_false List.not_mem_nil id⟩
    | any =>
      obtain rfl := Except.ok.inj h
      exact ⟨iff_of_false (by simp [Schema.any]) id, fun key => iff_of_false List.not_mem_nil id⟩
    | composite mode members =>
      obtain ⟨-, ss, -, rfl⟩ := run_composite.mp (Journal.run_of_outcome h)
      refine ⟨?_, fun key => iff_of_false List.not_mem_nil id⟩
      cases mode <;> simp [Schema.composite, core, Joins]
    | object name fields =>
      obtain ⟨p, hp, rfl⟩ := run_object.mp (Journal.run_of_outcome h)
      refine ⟨iff_of_true (.inr (.inl rfl)) trivial, fun key => mem_names_object.trans ?_⟩
      rw [names_of_lowerFields hp]
      rfl
    | enum name tagging variants description => exact presents_enum h
    | named name underlying description format sample inline => exact hcore.elim
    | reference name =>
      obtain rfl := Except.ok.inj h
      exact ⟨iff_of_true (.inl rfl) trivial, fun key => iff_of_false List.not_mem_nil id⟩
  | optional inner ih =>
    obtain ⟨i, hi, hs⟩ := Journal.bind_eq_ok_iff.mp h
    obtain rfl := Except.ok.inj hs
    have hp := (ih hi).withMetadata (m := { nullable := true }) (wellFormed_of_lower hi)
    exact ⟨hp.joins, hp.defines⟩
  | named name underlying description format sample inline ih =>
    rw [lower] at h
    obtain ⟨i, hi, hs⟩ := Journal.bind_eq_ok_iff.mp h
    obtain rfl := Except.ok.inj hs
    have hp := (ih hi).withMetadata (m := { description, format, sample }) (wellFormed_of_lower hi)
    exact ⟨hp.joins, hp.defines⟩

end OpenApi.Descriptor
