import OpenApi.Lowering.Basic
import OpenApi.Proofs.Journal
import OpenApi.Proofs.Lowering.Parts
import OpenApi.Proofs.Schema.WellFormed
import OpenApi.Proofs.Tables
import OpenApi.Proofs.Trees

/-!
# Proofs/Lowering/WellFormed — a lowering asks for well-formed schemas only

Whatever a descriptor is, every schema that its lowering stores and the one that it ends in are well
formed at every depth (`yields_lower`), and so are those stored before a failure.  The parts of
structures, tuples and sum types are treated list by list, given that the descriptors in them are
fine; induction over descriptors ties the knot.
-/

namespace OpenApi

/-- All that a lowering stores is well formed, and what it ends in is as it should be. -/
abbrev Lowering.Yields {α : Type} (Q : α → Prop) (l : Lowering α) : Prop :=
  l.Ensures (fun d : Definition => d.schema.WellFormed) Q

namespace Lowering

variable {α : Type}

theorem yields_unsupported {Q : α → Prop} (path : DescriptorPath) (fault : ShapeFault) :
    Yields Q (unsupported path fault) := Journal.Ensures.fail

theorem yields_require (condition : Bool) (path : DescriptorPath) (fault : ShapeFault) :
    Yields (fun _ => condition = true) (require condition path fault) := by
  rw [require]
  split
  · next h => exact .pure h
  · exact yields_unsupported path fault

theorem yields_tuple {path : DescriptorPath} {description : Option String} {nonempty : Bool}
    {members : Lowering (List Schema)}
    (h : members.Yields fun ss => (nonempty = true → ss ≠ []) ∧ ∀ s ∈ ss, s.WellFormed) :
    (tuple path description nonempty members).Yields Schema.WellFormed := by
  rw [tuple]
  refine .bind (yields_require _ _ _) fun _ hne => .bind h fun ss hss => .pure ?_
  exact .array _ (.composite _ _ (hss.1 hne) hss.2)

/-- The properties of a structure and the names that are required, none of them among those
given. -/
structure FieldsFine (seen : List String) (result : List (String × Schema) × List String) :
    Prop where
  nodup : (result.1.map (·.1)).Nodup
  fresh : ∀ name ∈ result.1.map (·.1), name ∉ seen
  wellFormed : ∀ p ∈ result.1, p.2.WellFormed
  required : result.2.Sublist (result.1.map (·.1))

theorem yields_object {description : Option String}
    {fields : Lowering (List (String × Schema) × List String)} {seen : List String}
    (h : fields.Yields (FieldsFine seen)) :
    (object description fields).Yields fun s => s.WellFormed ∧ s.kind = .object := by
  rw [object]
  refine .bind h fun result hr => .pure ⟨?_, rfl⟩
  exact .object _ hr.nodup hr.wellFormed (hr.required.nodup hr.nodup) hr.required.subset

end Lowering

namespace Variant

variable {τ : Type}

theorem nodup_of_repeatedName? : ∀ {names seen : List String}, repeatedName? seen names = none →
    names.Nodup ∧ ∀ n ∈ names, n ∉ seen
  | [], _, _ => ⟨List.nodup_nil, fun _ hn => nomatch hn⟩
  | n :: ns, seen, h => by
    rw [repeatedName?] at h
    split at h
    · cases h
    · next hn =>
      obtain ⟨hnodup, hfresh⟩ := nodup_of_repeatedName? h
      refine ⟨List.nodup_cons.mpr ⟨fun hm => hfresh n hm List.mem_cons_self, hnodup⟩, ?_⟩
      intro m hm
      rcases List.mem_cons.mp hm with rfl | hm
      · exact hn
      · exact fun hs => hfresh m hm (List.mem_cons_of_mem _ hs)

/-- **Serialized variants exist and have different names** — past the check. -/
theorem yields_check (enum : String) (variants : List (Variant τ)) (path : DescriptorPath) :
    (check enum variants path).Yields fun _ =>
      serialized variants ≠ [] ∧ ((serialized variants).map (·.name)).Nodup := by
  rw [check]
  refine .bind (Lowering.yields_require _ _ _) fun _ hne => ?_
  have hne' : serialized variants ≠ [] := by simpa using hne
  split
  · exact Lowering.yields_unsupported _ _
  · next h => exact .pure ⟨hne', (nodup_of_repeatedName? h).1⟩

theorem wellFormed_tagProperty (enum : String) {names : List String} (hne : names ≠ [])
    (hnd : names.Nodup) : (tagProperty enum names).WellFormed := .stringOf _ hne hnd

/-- One more required property, under a new name, spoils no object. -/
theorem wellFormed_insertProperty {tagKey : String} {tag payload : Schema} (metadata : Metadata)
    (htag : tag.WellFormed) (hp : payload.WellFormed) (hk : payload.kind = .object)
    (hnew : tagKey ∉ payload.properties.map (·.1)) :
    ({ payload with
        properties := sortOn (·.1) (payload.properties ++ [(tagKey, tag)])
        required := payload.required ++ [tagKey]
        metadata } : Schema).WellFormed := by
  have hr := hp.regular
  have hnodup : ((payload.properties ++ [(tagKey, tag)]).map (·.1)).Nodup := by
    rw [List.map_append]
    exact Table.nodup_push (hr.ascending.imp ne_of_lt) hnew
  have hkeys := (sortOn_perm (·.1) (payload.properties ++ [(tagKey, tag)])).map (·.1)
  refine .node ⟨hr.typeName, ascending_sortOn hnodup, ?_, ?_, fun he => absurd hk he, hr.items,
    hr.members, hr.refName, fun he => by simp [hk] at he, hr.enumValues⟩ ?_ hp.additional hp.items
    hp.members
  · exact Table.nodup_push hr.required_nodup fun hn => hnew (hr.required_subset hn)
  · intro n hn
    rw [hkeys.mem_iff, List.map_append]
    rcases List.mem_append.mp hn with hn | hn
    · exact List.mem_append_left _ (hr.required_subset hn)
    · exact List.mem_append_right _ (by simpa using hn)
  · intro p hp'
    rcases List.mem_append.mp (mem_sortOn.mp hp') with hm | hm
    · exact hp.properties p hm
    · exact List.mem_singleton.mp hm ▸ htag

/-- One more member spoils no composition. -/
theorem wellFormed_insertMember {mode : Composition} {member payload : Schema}
    (metadata : Metadata) (hm : member.WellFormed) (hp : payload.WellFormed)
    (hk : payload.kind = .composite mode) :
    ({ payload with members := payload.members ++ [member], metadata } : Schema).WellFormed := by
  have hr := hp.regular
  refine .node ⟨hr.typeName, hr.ascending, hr.required_nodup, hr.required_subset, hr.object,
    hr.items, ?_, hr.refName, fun he => by simp [hk] at he, hr.enumValues⟩ hp.properties
    hp.additional hp.items ?_
  · simp [hk]
  · simpa [or_imp, forall_and] using ⟨hp.members, hm⟩

/-- **The tag joins an object or an `allOf` without spoiling it.** -/
theorem yields_tagged {tagKey : String} {tag payload : Schema} (description : Option String)
    (path : DescriptorPath) (htag : tag.WellFormed) (hp : payload.WellFormed)
    (hk : payload.kind = .object ∨ payload.kind = .composite .allOf) :
    (tagged tagKey tag description payload path).Yields Schema.WellFormed := by
  rw [tagged]
  split
  · next hall =>
    have htagObject : (tagObject tagKey tag).WellFormed :=
      .object _ (by simp) (by simpa using htag) (by simp) (by simp)
    exact .pure (wellFormed_insertMember _ htagObject hp hall)
  · next hall =>
    split
    · exact Lowering.yields_unsupported _ _
    · next hclash =>
      have hnew : tagKey ∉ payload.properties.map (·.1) := by
        rwa [Table.get?_isSome_iff] at hclash
      have htable : payload.propertyTable = payload.properties :=
        Table.ofList_eq_self (hp.regular.ascending.imp ne_of_lt)
      dsimp only
      rw [htable]
      exact .pure (wellFormed_insertProperty _ htag hp (hk.resolve_right hall) hnew)

theorem yields_joinable {payload : Schema} (path : DescriptorPath) (hp : payload.WellFormed) :
    (joinable payload path).Yields fun s =>
      s.WellFormed ∧ (s.kind = .object ∨ s.kind = .composite .allOf) := by
  rw [joinable]
  split
  · exact .pure ⟨.composite _ _ (by simp) (by simpa using hp), Or.inr rfl⟩
  · split
    · next hk => exact .pure ⟨hp, hk⟩
    · exact Lowering.yields_unsupported _ _

end Variant

/-! ## Lists of parts -/

namespace Descriptor

/-- The lowering of a descriptor is fine, wherever it stands. -/
def Fine (d : Descriptor) : Prop :=
  ∀ embed path, (d.lower embed path).Yields Schema.WellFormed

/-- The descriptors in a variant are fine. -/
def FineIn (v : Variant Descriptor) : Prop :=
  (∀ i ∈ v.items, i.type.Fine) ∧ ∀ f ∈ v.fields, f.type.Fine

theorem yields_lowerMembers (path : DescriptorPath) (mode : Composition) (index : Nat)
    {members : List Descriptor} (h : ∀ m ∈ members, m.Fine) :
    (lowerMembers path mode index members).Yields fun ss =>
      ss.length = members.length ∧ ∀ s ∈ ss, s.WellFormed := by
  have hmember : ∀ p ∈ members.zipIdx index,
      (lowerMember path mode p).Yields Schema.WellFormed := fun p hp =>
    h p.1 (List.fst_mem_of_mem_zipIdx hp) _ _
  rw [lowerMembers_eq_sequence, ← List.length_zipIdx (i := index)]
  exact .sequence_map hmember

theorem yields_lowerItems (embed : Bool) (path : DescriptorPath) (index : Nat)
    {items : List (TupleItem Descriptor)} (h : ∀ i ∈ items, i.type.Fine) :
    (lowerItems embed path index items).Yields fun ss =>
      ss.length = items.length ∧ ∀ s ∈ ss, s.WellFormed := by
  have hitem : ∀ p ∈ items.zipIdx index,
      (lowerItem embed path p).Yields Schema.WellFormed := fun p hp =>
    .bind (h p.1 (List.fst_mem_of_mem_zipIdx hp) _ _) fun s hs => .pure (hs.withMetadata _)
  rw [lowerItems_eq_sequence, ← List.length_zipIdx (i := index)]
  exact .sequence_map hitem

theorem yields_lowerFields (embed : Bool) (path : DescriptorPath) :
    ∀ (seen : List String) {fields : List (Field Descriptor)}, (∀ f ∈ fields, f.type.Fine) →
      (lowerFields embed path seen fields).Yields (Lowering.FieldsFine seen)
  | seen, [], _ => by
    rw [lowerFields]
    exact .pure ⟨List.nodup_nil, by simp, by simp, List.Sublist.slnil⟩
  | seen, ⟨name, type, metadata, forceOptional, skip, inline⟩ :: fields, h => by
    obtain ⟨hf, hfs⟩ := List.forall_mem_cons.mp h
    rw [lowerFields]
    split
    · exact yields_lowerFields embed path seen hfs
    · split
      · exact Lowering.yields_unsupported _ _
      · next hnew =>
        refine .bind (hf _ _) fun s hs =>
          .bind (yields_lowerFields embed path (name :: seen) hfs) fun result hr => .pure ?_
        constructor
        · exact List.nodup_cons.mpr
            ⟨fun hm => hr.fresh name hm List.mem_cons_self, hr.nodup⟩
        · intro n hn
          rcases List.mem_cons.mp hn with rfl | hn
          · exact hnew
          · exact fun hs => hr.fresh n hn (List.mem_cons_of_mem _ hs)
        · exact List.forall_mem_cons.mpr ⟨hs.withMetadata _, hr.wellFormed⟩
        · split
          · exact hr.required.cons _
          · exact hr.required.cons_cons _

/-! ## Payloads -/

theorem yields_lowerPayload (path : DescriptorPath) {v : Variant Descriptor} (h : FineIn v) :
    (lowerPayload path v).Yields Schema.WellFormed := by
  obtain ⟨hi, hf⟩ := h
  rw [lowerPayload.eq_def]
  split
  · exact (Lowering.yields_object (yields_lowerFields _ _ _ hf)).imp fun _ hs => hs.1
  · exact Lowering.yields_unsupported _ _
  · exact .bind ((List.forall_mem_cons.mp hi).1 _ _) fun s hs => .pure (hs.withMetadata _)
  · exact .bind ((List.forall_mem_cons.mp hi).1 _ _) fun s hs => .pure (hs.withMetadata _)
  · next hne _ _ =>
    refine Lowering.yields_tuple ((yields_lowerItems _ _ 0 hi).imp fun ss hss => ⟨fun _ he => ?_,
      hss.2⟩)
    exact hne (List.length_eq_zero_iff.mp (by rw [← hss.1, he, List.length_nil]))

/-- A serialized variant is one of the variants. -/
theorem fineIn_of_mem_serialized {variants : List (Variant Descriptor)}
    (h : ∀ v ∈ variants, FineIn v) {v : Variant Descriptor} (hv : v ∈ Variant.serialized variants) :
    FineIn v := h v (List.mem_of_mem_filter hv)

theorem yields_lowerPayloads (path : DescriptorPath) {variants : List (Variant Descriptor)}
    (h : ∀ v ∈ variants, FineIn v) :
    (lowerPayloads path variants).Yields fun ss =>
      ss.length = ((Variant.serialized variants).filter (·.hasPayload)).length ∧
        ∀ s ∈ ss, s.WellFormed := by
  rw [lowerPayloads_eq_sequence]
  exact .sequence_map fun v hv =>
    yields_lowerPayload _ (fineIn_of_mem_serialized h (List.mem_of_mem_filter hv))

theorem yields_lowerExternal (path : DescriptorPath) {variants : List (Variant Descriptor)}
    (h : ∀ v ∈ variants, FineIn v) :
    (lowerExternal path variants).Yields fun ss =>
      ss.length = (Variant.serialized variants).length ∧ ∀ s ∈ ss, s.WellFormed := by
  rw [lowerExternal_eq_sequence]
  refine .sequence_map fun v hv => ?_
  rw [lowerBranch]
  split
  · exact yields_lowerPayload _ (fineIn_of_mem_serialized h hv)
  · exact .pure (.stringOf _ (by simp) (by simp))

theorem yields_lowerUntagged (path : DescriptorPath) {v : Variant Descriptor} (h : FineIn v) :
    (lowerUntagged path v).Yields fun s =>
      s.WellFormed ∧ (s.kind = .object ∨ s.kind = .composite .allOf) := by
  obtain ⟨hi, hf⟩ := h
  rw [lowerUntagged.eq_def]
  split
  · exact .pure ⟨.object _ (by simp) (by simp) (by simp) (by simp), Or.inl rfl⟩
  · exact (Lowering.yields_object (yields_lowerFields _ _ _ hf)).imp
      fun _ hs => ⟨hs.1, Or.inl hs.2⟩
  · exact .bind ((List.forall_mem_cons.mp hi).1 _ _) fun s hs => Variant.yields_joinable _ hs
  · exact .bind ((List.forall_mem_cons.mp hi).1 _ _) fun s hs => Variant.yields_joinable _ hs
  · exact Lowering.yields_unsupported _ _
  · exact Lowering.yields_unsupported _ _

theorem yields_lowerInternal (enum tagKey : String) (path : DescriptorPath)
    {variants : List (Variant Descriptor)} (h : ∀ v ∈ variants, FineIn v) :
    (lowerInternal enum tagKey path variants).Yields fun ss =>
      ss.length = (Variant.serialized variants).length ∧ ∀ s ∈ ss, s.WellFormed := by
  rw [lowerInternal_eq_sequence]
  refine .sequence_map fun v hv => ?_
  have htag : (Variant.tagProperty enum [v.name]).WellFormed :=
    Variant.wellFormed_tagProperty enum (by simp) (by simp)
  exact .bind (yields_lowerUntagged _ (fineIn_of_mem_serialized h hv)) fun payload hp =>
    Variant.yields_tagged _ _ htag hp.1 hp.2

/-! ## Descriptors -/

/-- The branches of an enum, one for each of some variants, fit a composition if there are any. -/
theorem wellFormed_branches {ss : List Schema} {vs : List (Variant Descriptor)}
    (description : Option String) (hvs : vs ≠ []) (hlength : ss.length = vs.length)
    (hss : ∀ s ∈ ss, s.WellFormed) : (Schema.composite .oneOf ss description).WellFormed := by
  refine .composite _ _ (fun he => hvs ?_) hss
  rwa [he, List.length_nil, eq_comm, List.length_eq_zero_iff] at hlength

/-- Every tagging makes a well-formed schema of well-formed payloads. -/
theorem yields_lowerEnum (embed : Bool) (path : DescriptorPath) (name : String) (tagging : Tagging)
    {variants : List (Variant Descriptor)} (description : Option String)
    (ih : ∀ v ∈ variants, FineIn v) :
    ((enum name tagging variants description).lower embed path).Yields Schema.WellFormed := by
  rw [lower]
  refine .bind (Variant.yields_check _ _ _) fun _ hlive => ?_
  have hnames : (Variant.serialized variants).map (·.name) ≠ [] := by simpa using hlive.1
  dsimp only
  split
  · exact .pure (.stringOf _ hnames hlive.2)
  · next hany =>
    split
    · refine .bind (yields_lowerExternal _ ih) fun ss hss => .pure ?_
      exact .mapOf _ (wellFormed_branches _ hlive.1 hss.1 hss.2)
    · refine .bind (yields_lowerInternal _ _ _ ih) fun ss hss => .pure ?_
      exact wellFormed_branches _ hlive.1 hss.1 hss.2
    · next tagKey contentKey =>
      refine .bind (Lowering.yields_require _ _ _) fun _ hkeys =>
        .bind (yields_lowerPayloads _ ih) fun ss hss => .pure ?_
      have hne : tagKey ≠ contentKey := by simpa using hkeys
      have hpayload : (Variant.serialized variants).filter (·.hasPayload) ≠ [] := by
        simpa [List.filter_eq_nil_iff] using hany
      have htag := Variant.wellFormed_tagProperty name hnames hlive.2
      have hcontent := wellFormed_branches description hpayload hss.1 hss.2
      exact .object _ (by simpa using hne) (by simpa using ⟨htag, hcontent⟩)
        (by simpa using hne) (by simp)
    · split
      · exact .bind (Lowering.yields_unsupported (Q := fun _ => False) _ _) fun _ h => h.elim
      · next hnone =>
        have hall : (Variant.serialized variants).filter (·.hasPayload) =
            Variant.serialized variants := by
          rw [List.filter_eq_self]
          simpa using hnone
        refine .bind (yields_lowerPayloads _ ih) fun ss hss => .pure ?_
        exact wellFormed_branches _ hlive.1 (hall ▸ hss.1) hss.2

/-- **A lowering yields well-formed schemas** — the one it ends in and all that it stores, wherever
the descriptor stands. -/
theorem yields_lower (d : Descriptor) : d.Fine := by
  induction d using Descriptor.tree with
  | primitive kind format =>
    intro embed path
    rw [lower]
    exact .pure (.primitive kind format)
  | array element ih =>
    intro embed path
    rw [lower]
    exact .bind (ih _ _) fun s hs => .pure (.array _ hs)
  | optional inner ih =>
    intro embed path
    rw [lower]
    exact .bind (ih _ _) fun s hs => .pure (hs.withMetadata _)
  | map value ih =>
    intro embed path
    rw [lower]
    exact .bind (ih _ _) fun s hs => .pure (.mapOf _ hs)
  | tuple items ih =>
    intro embed path
    rw [lower]
    refine Lowering.yields_tuple ((yields_lowerItems _ _ 0 ih).imp fun ss hss =>
      ⟨fun hne he => ?_, hss.2⟩)
    have hnil : items = [] := List.length_eq_zero_iff.mp (by rw [← hss.1, he, List.length_nil])
    simp [hnil] at hne
  | any =>
    intro embed path
    rw [lower]
    exact .pure .any
  | composite mode members ih =>
    intro embed path
    rw [lower]
    refine .bind (Lowering.yields_require _ _ _) fun _ hne =>
      .bind (yields_lowerMembers path mode 0 ih) fun ss hss =>
        .pure (.composite _ _ (fun he => ?_) hss.2)
    have hnil : members = [] := List.length_eq_zero_iff.mp (by rw [← hss.1, he, List.length_nil])
    simp [hnil] at hne
  | object name fields ih =>
    intro embed path
    rw [lower]
    exact (Lowering.yields_object (yields_lowerFields _ _ _ ih)).imp fun _ hs => hs.1
  | enum name tagging variants description ih =>
    intro embed path
    exact yields_lowerEnum embed path name tagging description ih
  | named name underlying description format sample inline ih =>
    intro embed path
    rw [lower]
    refine .bind (ih _ _) fun s hs => ?_
    have hs' := hs.withMetadata { description, format, sample }
    dsimp only
    split
    · exact .pure hs'
    · exact .bind (.tell (Q := fun _ => True) hs' trivial) fun _ _ => .pure (.ref name)
  | reference name =>
    intro embed path
    rw [lower]
    exact .pure (.ref name)

theorem fineIn (v : Variant Descriptor) : FineIn v :=
  ⟨fun i _ => yields_lower i.type, fun f _ => yields_lower f.type⟩

end Descriptor

end OpenApi
