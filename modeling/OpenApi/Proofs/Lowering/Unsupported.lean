import OpenApi.Proofs.Journal.Rejects
import OpenApi.Proofs.Lowering.Payloads

/-!
# Proofs/Lowering/Unsupported — which shapes have no schema

    descriptor   d  ──▸  c₁, c₂, …          at paths (`Descriptor.parts`)
    lowering     rules of d, then c₁, c₂, …  up to the first failure

A lowering goes down the tree of a descriptor and fails at the first rule that is broken.  So it
fails exactly if a rule is broken anywhere, and its failure names the place and the rule
(`rejects_lower`): what a form rejects is what it checks itself and what its parts reject, and the
forms are taken one by one, with the path of each part.

Under a tag the lowering looks at the schema of a payload, and the rules at the descriptor: both
see the same (`presents_of_lower`).
-/

namespace OpenApi

namespace Lowering

variable {α : Type} {path : DescriptorPath} {fault : ShapeFault}

theorem rejects_require {condition : Bool} :
    (require condition path fault).Rejects fun e => condition = false ∧ e = ⟨path, fault⟩ := by
  rw [require]
  cases condition with
  | true => exact .pure (by simp)
  | false => exact .fail ⟨rfl, rfl⟩

theorem rejects_tuple {Q : UnsupportedShape → Prop} {description : Option String} {nonempty : Bool}
    {members : Lowering (List Schema)} (h : members.Rejects Q) :
    (tuple path description nonempty members).Rejects fun e =>
      (nonempty = false ∧ e = ⟨path, .emptyTuple⟩) ∨ Q e :=
  rejects_require.bind fun _ _ => h.map _

theorem rejects_object {Q : UnsupportedShape → Prop} {description : Option String}
    {fields : Lowering (List (String × Schema) × List String)} (h : fields.Rejects Q) :
    (object description fields).Rejects Q := h.map _

end Lowering

/-! ## Names that are used twice -/

/-- **A name is used twice** in some names that stand behind others. -/
def Repeats (seen names : List String) (name : String) : Prop :=
  (name ∈ names ∧ name ∈ seen) ∨ List.Duplicate name names

theorem repeats_cons {seen names : List String} {n name : String} :
    Repeats seen (n :: names) name ↔ (name = n ∧ n ∈ seen) ∨ Repeats (n :: seen) names name := by
  simp only [Repeats, List.duplicate_cons_iff, List.mem_cons]
  constructor
  · rintro (⟨rfl | mem, used⟩ | ⟨rfl, mem⟩ | twice)
    · exact .inl ⟨rfl, used⟩
    · exact .inr (.inl ⟨mem, .inr used⟩)
    · exact .inr (.inl ⟨mem, .inl rfl⟩)
    · exact .inr (.inr twice)
  · rintro (⟨rfl, used⟩ | ⟨mem, rfl | used⟩ | twice)
    · exact .inl ⟨.inl rfl, used⟩
    · exact .inr (.inl ⟨rfl, mem⟩)
    · exact .inl ⟨.inr mem, used⟩
    · exact .inr (.inr twice)

theorem not_repeats_nil {seen : List String} {name : String} : ¬ Repeats seen [] name := by
  simp [Repeats]

theorem repeats_of_nil_seen {names : List String} {name : String} :
    Repeats [] names name ↔ List.Duplicate name names := by
  simp [Repeats]

namespace Variant

/-- The search for a repeated name finds one that is used twice. -/
theorem repeats_of_repeatedName? {names : List String} {name : String} :
    ∀ {seen : List String}, repeatedName? seen names = some name → Repeats seen names name := by
  induction names with
  | nil => exact fun h => nomatch h
  | cons n names ih =>
    intro seen h
    rw [repeatedName?] at h
    split at h
    · next used =>
      obtain rfl := Option.some.inj h
      exact repeats_cons.mpr (.inl ⟨rfl, used⟩)
    · exact repeats_cons.mpr (.inr (ih h))

/-- **Serialized variants are refused if there are none, or for a name that is used twice.** -/
theorem rejects_check {τ : Type} {enum : String} {variants : List (Variant τ)}
    {path : DescriptorPath} :
    (check enum variants path).Rejects fun e =>
      (serialized variants = [] ∧ e = ⟨path, .noVariants enum⟩) ∨
        ∃ name, List.Duplicate name ((serialized variants).map (·.name)) ∧
          e = ⟨path, .repeatedVariant name⟩ := by
  refine (Lowering.rejects_require.bind (Q := fun e => ∃ name,
    List.Duplicate name ((serialized variants).map (·.name)) ∧ e = ⟨path, .repeatedVariant name⟩)
    fun _ _ => ?_).of_iff (by simp)
  split
  · next name found =>
    exact .fail ⟨name, repeats_of_nil_seen.mp (repeats_of_repeatedName? found), rfl⟩
  · next found =>
    refine .pure fun e => ?_
    rintro ⟨name, twice, -⟩
    exact twice.not_nodup (nodup_of_repeatedName? found).1

end Variant

namespace Descriptor

variable {embed : Bool} {path : DescriptorPath}

/-- **The parts of a descriptor are refused as they should be**, for every use site. -/
def PartsFine (places : Places) : Prop :=
  ∀ q ∈ places, ∀ embed, (q.2.lower embed q.1).Rejects (q.2.Unsupported q.1)

/-- What is wrong with some parts. -/
abbrev AnyUnsupported (places : Places) (e : UnsupportedShape) : Prop :=
  ∃ q ∈ places, q.2.Unsupported q.1 e

/-! ## Lists of parts -/

/-- **Fields are refused for a name that is used twice, or for what is wrong with their types.** -/
theorem rejects_lowerFields {fields : List (Field Descriptor)} :
    ∀ {seen : List String}, PartsFine (fieldParts path fields) →
      (lowerFields embed path seen fields).Rejects fun e =>
        (∃ name, Repeats seen (liveNames fields) name ∧ e = ⟨path, .repeatedField name⟩) ∨
          AnyUnsupported (fieldParts path fields) e := by
  induction fields with
  | nil =>
    intro seen _
    exact .pure (by simp [liveNames, fieldParts, AnyUnsupported, not_repeats_nil])
  | cons f fields ih =>
    intro seen h
    obtain ⟨name, type, metadata, forceOptional, skip, inline⟩ := f
    rw [lowerFields]
    cases skip with
    | true => exact ih h
    | false =>
      have hnames : liveNames (⟨name, type, metadata, forceOptional, false, inline⟩ :: fields) =
        name :: liveNames fields := rfl
      have hparts : fieldParts path
          (⟨name, type, metadata, forceOptional, false, inline⟩ :: fields) =
        (path.enter name, type) :: fieldParts path fields := rfl
      rw [hparts] at h
      obtain ⟨htype, hfields⟩ := List.forall_mem_cons.mp h
      simp only [hnames, hparts, repeats_cons]
      rw [if_neg Bool.false_ne_true]
      split
      · next used =>
        exact .fail (.inl ⟨name, .inl ⟨rfl, used⟩, rfl⟩)
      · next fresh =>
        refine ((htype (embed || inline)).bind fun s _ => (ih hfields).map _).of_iff fun e => ?_
        simp only [fresh, AnyUnsupported, List.exists_mem_cons_iff, and_false, false_or]
        exact or_left_comm

theorem rejects_lowerItems {items : List (TupleItem Descriptor)}
    (h : PartsFine (itemParts path items)) :
    (lowerItems embed path 0 items).Rejects (AnyUnsupported (itemParts path items)) := by
  rw [lowerItems_eq_sequence]
  refine (Journal.Rejects.sequence_map (Q := fun p =>
    p.1.type.Unsupported (path.enter ("[" ++ toString p.2 ++ "]"))) fun p hp => ?_).of_iff
    fun e => ?_
  · exact (h _ (List.mem_map_of_mem hp) embed).map _
  · simp [AnyUnsupported, itemParts]

theorem rejects_lowerMembers {mode : Composition} {members : List Descriptor}
    (h : PartsFine (memberParts path mode members)) :
    (lowerMembers path mode 0 members).Rejects
      (AnyUnsupported (memberParts path mode members)) := by
  rw [lowerMembers_eq_sequence]
  refine (Journal.Rejects.sequence_map (Q := fun p =>
    p.1.Unsupported (path.enter (mode.word ++ "[" ++ toString p.2 ++ "]"))) fun p hp => ?_).of_iff
    fun e => ?_
  · exact h _ (List.mem_map_of_mem hp) false
  · simp [AnyUnsupported, memberParts]

/-! ## Variants -/

/-- What is wrong with a variant at its path: a rule that it breaks, or one of its parts. -/
def VariantUnsupported (path : DescriptorPath) (tagging : Tagging) (v : Variant Descriptor)
    (e : UnsupportedShape) : Prop :=
  (∃ fault, v.Breaks tagging fault ∧ e = ⟨path, fault⟩) ∨ AnyUnsupported (variantParts path v) e

variable {tagging : Tagging} {v : Variant Descriptor}

/-- **The payload of a variant is refused as the rules say**, where it stands beside a tag. -/
theorem rejects_lowerPayload (tagged : ∀ tagKey, tagging ≠ .internal tagKey) (made : v.Made)
    (payload : v.hasPayload = true) (h : PartsFine (variantParts path v)) :
    (lowerPayload path v).Rejects (VariantUnsupported path tagging v) := by
  cases made with
  | unit name description skip => cases payload
  | newtype name type description skip inline =>
    refine ((h (path, type) List.mem_cons_self inline).map _).of_iff fun e => ?_
    simp [VariantUnsupported, Variant.breaks_ofNewtype_iff, tagged, AnyUnsupported]
  | tuple name items description skip inline =>
    unfold VariantUnsupported
    simp only [Variant.breaks_ofTuple_iff]
    obtain _ | ⟨⟨type, note⟩, _ | ⟨item, items⟩⟩ := items
    · exact .fail (.inl ⟨_, .inl ⟨tagged, rfl, rfl⟩, rfl⟩)
    · refine ((h (path, type) List.mem_cons_self inline).map _).of_iff fun e => ?_
      simp [tagged, AnyUnsupported]
    · refine (Lowering.rejects_tuple (rejects_lowerItems h)).of_iff fun e => ?_
      rw [variantParts_ofTuple (by simp)]
      simp [tagged]
  | struct name fields description skip inline =>
    rw [variantParts_ofStruct] at h
    refine (Lowering.rejects_object (rejects_lowerFields h)).of_iff fun e => ?_
    simp [VariantUnsupported, Variant.breaks_ofStruct_iff, tagged, repeats_of_nil_seen]

/-! ## Tagged variants -/

section Tagged

variable {enum tagKey : String} {tag s t : Schema} {description : Option String}

/-- The tag is refused for a property of its name, which an `allOf` has none of. -/
theorem rejects_tagged (path : DescriptorPath) (hs : s.WellFormed) :
    (Variant.tagged tagKey tag description s path).Rejects fun e =>
      tagKey ∈ s.properties.map (·.1) ∧ e = ⟨path, .tagClash tagKey⟩ := by
  have htable : s.propertyTable = s.properties :=
    Table.ofList_eq_self (hs.regular.ascending.imp ne_of_lt)
  rw [Variant.tagged, htable]
  split
  · next hk =>
    have hnone : s.properties = [] := (hs.regular.object (by simp [hk])).1
    exact .pure (by simp [hnone])
  · split
    · next clash =>
      rw [Table.get?_isSome_iff] at clash
      exact .fail ⟨clash, rfl⟩
    · next fresh =>
      rw [Table.get?_isSome_iff] at fresh
      exact .pure fun e he => fresh he.1

theorem rejects_joinable :
    (Variant.joinable s path).Rejects fun e =>
      ¬ (s.kind = .ref ∨ s.kind = .object ∨ s.kind = .composite .allOf) ∧
        e = ⟨path, .nonObjectPayload⟩ := by
  rw [Variant.joinable]
  split
  · next href => exact .pure fun e he => he.1 (.inl (of_decide_eq_true href))
  · next href =>
    split
    · next hkind => exact .pure fun e he => he.1 (.inr hkind)
    · next hkind =>
      refine .fail ⟨?_, rfl⟩
      rintro (hk | hk)
      · exact href (decide_eq_true hk)
      · exact hkind hk

/-- What is made ready for a tag has the keys it had. -/
theorem properties_of_joinable (hs : s.WellFormed) (h : (Variant.joinable s path).outcome = .ok t) :
    t.WellFormed ∧ t.properties = s.properties := by
  obtain ⟨href, rfl⟩ | ⟨rfl, -⟩ := Variant.joinable_eq_ok h
  · obtain ⟨name, rfl⟩ := hs.eq_ref href
    exact ⟨.composite _ _ (List.cons_ne_nil _ _) (List.forall_mem_singleton.mpr hs), rfl⟩
  · exact ⟨hs, rfl⟩

/-- **A single payload is refused under a tag as the rules say.** -/
theorem rejects_single {d : Descriptor} (h : (d.lower true path).Rejects (d.Unsupported path)) :
    ((d.lower true path >>= fun payload => Variant.joinable payload path) >>= fun payload =>
      Variant.tagged tagKey tag description payload path).Rejects fun e =>
        (∃ fault, Variant.PayloadBreaks d tagKey fault ∧ e = ⟨path, fault⟩) ∨
          d.Unsupported path e := by
  rw [bind_assoc]
  refine (h.bind (Q := fun e : UnsupportedShape => (¬ d.core.Joins ∧
    e = ⟨path, .nonObjectPayload⟩) ∨ (d.core.HasField tagKey ∧ e = ⟨path, .tagClash tagKey⟩))
    fun s hs => ?_).of_iff fun e => ?_
  · have hp := presents_of_lower hs
    rw [← hp.joins, ← hp.defines]
    refine rejects_joinable.bind fun t ht => ?_
    obtain ⟨hwf, hprops⟩ := properties_of_joinable (wellFormed_of_lower hs) ht
    exact hprops ▸ rejects_tagged path hwf
  · simp only [Variant.PayloadBreaks, or_and_right, and_assoc, exists_or, exists_eq_left,
      exists_and_left]
    exact or_comm

/-- **A tagged variant is refused as the rules say.** -/
theorem rejects_lowerTagged {x : Variant Descriptor} (made : x.Made)
    (h : PartsFine (variantParts (path.enter x.name) x)) :
    (lowerTagged enum tagKey path x).Rejects
      (VariantUnsupported (path.enter x.name) (.internal tagKey) x) := by
  unfold VariantUnsupported
  cases made with
  | unit name description skip =>
    have hobject : (Schema.object [] [] none).WellFormed :=
      .object none List.nodup_nil (fun _ hp => nomatch hp) List.nodup_nil (List.nil_subset _)
    refine (rejects_tagged (path.enter name) hobject).of_iff fun e => ?_
    simp [Variant.breaks_ofUnit_iff, AnyUnsupported, Schema.object, sortOn, sortBy]
  | newtype name type description skip inline =>
    refine (rejects_single (h (path.enter name, type) List.mem_cons_self true)).of_iff fun e => ?_
    simp [Variant.breaks_ofNewtype_iff, AnyUnsupported]
  | tuple name items description skip inline =>
    simp only [Variant.breaks_ofTuple_iff]
    by_cases hone : items.length = 1
    · obtain ⟨⟨type, note⟩, rfl⟩ := List.length_eq_one_iff.mp hone
      refine (rejects_single (h (path.enter name, type) List.mem_cons_self true)).of_iff
        fun e => ?_
      simp [AnyUnsupported]
    · have several : lowerUntagged (path.enter name)
          (.ofTuple name items description skip inline) =
            Lowering.unsupported (path.enter name) .tuplePayload := by
        obtain _ | ⟨_, _ | ⟨_, _⟩⟩ := items
        · rfl
        · exact absurd rfl hone
        · rfl
      rw [lowerTagged, Variant.name_ofTuple, several, Lowering.unsupported,
        Journal.bind_of_error rfl]
      exact .fail (.inl ⟨_, .inr ⟨tagKey, rfl, .inl ⟨hone, rfl⟩⟩, rfl⟩)
  | struct name fields description skip inline =>
    rw [variantParts_ofStruct] at h
    refine ((Lowering.rejects_object (rejects_lowerFields h)).bind
      (Q := fun e : UnsupportedShape => tagKey ∈ liveNames fields ∧
        e = ⟨path.enter name, .tagClash tagKey⟩) fun s hs => ?_).of_iff fun e => ?_
    · obtain ⟨p, hp, rfl⟩ := Journal.run_bind_pure.mp (Journal.run_of_outcome hs)
      have hwf := wellFormed_of_lowerUntagged
        (x := .ofStruct name fields description skip inline) hs
      refine (rejects_tagged (path.enter name) hwf).of_iff fun e => ?_
      rw [mem_names_object, names_of_lowerFields hp]
    · rw [or_right_comm]
      simp [Variant.breaks_ofStruct_iff, repeats_of_nil_seen, or_and_right, exists_or]

end Tagged

/-! ## Descriptors -/

section Enum

variable {name : String} {variants : List (Variant Descriptor)} {description : Option String}
  {e : UnsupportedShape}

theorem unsupported_enum_iff :
    (enum name tagging variants description).Unsupported path e ↔
      ((Variant.serialized variants = [] ∧ e = ⟨enumPath path name, .noVariants name⟩) ∨
        ∃ variant, List.Duplicate variant ((Variant.serialized variants).map (·.name)) ∧
          e = ⟨enumPath path name, .repeatedVariant variant⟩) ∨
      Variant.BearPayload variants ∧
        ((∃ key, tagging = .adjacent key key ∧ e = ⟨enumPath path name, .equalKeys⟩) ∨
          ∃ v ∈ Variant.serialized variants,
            VariantUnsupported ((enumPath path name).enter v.name) tagging v e) := by
  rw [unsupported_iff, offends_enum_iff]
  simp only [mem_parts_enum, VariantUnsupported, AnyUnsupported]
  constructor
  · rintro ((check | ⟨bear, keys | ⟨v, live, breaks⟩⟩) | ⟨q, ⟨bear, v, live, part⟩, below⟩)
    · exact .inl check
    · exact .inr ⟨bear, .inl keys⟩
    · exact .inr ⟨bear, .inr ⟨v, live, .inl breaks⟩⟩
    · exact .inr ⟨bear, .inr ⟨v, live, .inr ⟨q, part, below⟩⟩⟩
  · rintro (check | ⟨bear, keys | ⟨v, live, breaks | ⟨q, part, below⟩⟩⟩)
    · exact .inl (.inl check)
    · exact .inl (.inr ⟨bear, .inl keys⟩)
    · exact .inl (.inr ⟨bear, .inr ⟨v, live, breaks⟩⟩)
    · exact .inr ⟨q, ⟨bear, v, live, part⟩, below⟩

/-- A variant without a payload breaks a rule only where nothing is tagged. -/
theorem not_unsupported_of_bare {p : DescriptorPath} (made : v.Made) (bare : v.hasPayload = false)
    (tagged : tagging ≠ .untagged) : ¬ VariantUnsupported p tagging v e := by
  cases made with
  | unit name description skip =>
    simp [VariantUnsupported, Variant.breaks_ofUnit_iff, tagged, AnyUnsupported]
  | _ => cases bare

section Branches

variable {p : DescriptorPath} (made : ∀ v ∈ Variant.serialized variants, v.Made)
  (h : ∀ v ∈ Variant.serialized variants, PartsFine (variantParts (p.enter v.name) v))

include made h

theorem rejects_lowerExternal :
    (lowerExternal p variants).Rejects fun e => ∃ v ∈ Variant.serialized variants,
      VariantUnsupported (p.enter v.name) .external v e := by
  rw [lowerExternal_eq_sequence]
  refine .sequence_map fun v live => ?_
  rw [lowerBranch]
  split
  · next payload => exact rejects_lowerPayload (by simp) (made v live) payload (h v live)
  · next bare =>
    exact .pure fun e =>
      not_unsupported_of_bare (made v live) (Bool.eq_false_iff.mpr bare) (by simp)

theorem rejects_lowerInternal {tagKey : String} :
    (lowerInternal name tagKey p variants).Rejects fun e => ∃ v ∈ Variant.serialized variants,
      VariantUnsupported (p.enter v.name) (.internal tagKey) v e := by
  rw [lowerInternal_eq_sequence]
  exact .sequence_map fun v live => rejects_lowerTagged (made v live) (h v live)

theorem rejects_lowerPayloads (tagging : Tagging) (tagged : ∀ tagKey, tagging ≠ .internal tagKey) :
    (lowerPayloads p variants).Rejects fun e =>
      ∃ v ∈ (Variant.serialized variants).filter (·.hasPayload),
        VariantUnsupported (p.enter v.name) tagging v e := by
  rw [lowerPayloads_eq_sequence]
  refine .sequence_map fun v hv => ?_
  obtain ⟨live, payload⟩ := List.mem_filter.mp hv
  exact rejects_lowerPayload tagged (made v live) payload (h v live)

theorem rejects_adjacent {tagKey contentKey : String} {f : List Schema → Schema} :
    (do
      Lowering.require (tagKey ≠ contentKey) p .equalKeys
      let payloads ← lowerPayloads p variants
      pure (f payloads) : Lowering Schema).Rejects fun e =>
      (∃ key, Tagging.adjacent tagKey contentKey = .adjacent key key ∧ e = ⟨p, .equalKeys⟩) ∨
        ∃ v ∈ Variant.serialized variants,
          VariantUnsupported (p.enter v.name) (.adjacent tagKey contentKey) v e := by
  have payloads := rejects_lowerPayloads made h (.adjacent tagKey contentKey)
    fun _ => Tagging.noConfusion
  refine (Lowering.rejects_require.bind fun _ _ => payloads.map _).of_iff fun e => or_congr ?_ ?_
  · constructor
    · rintro ⟨equal, rfl⟩
      obtain rfl : tagKey = contentKey := by simpa using equal
      exact ⟨tagKey, rfl, rfl⟩
    · rintro ⟨key, keys, rfl⟩
      obtain ⟨rfl, rfl⟩ := Tagging.adjacent.inj keys
      exact ⟨by simp, rfl⟩
  · constructor
    · rintro ⟨v, hv, wrong⟩
      exact ⟨v, (List.mem_filter.mp hv).1, wrong⟩
    · rintro ⟨v, live, wrong⟩
      refine ⟨v, List.mem_filter.mpr ⟨live, ?_⟩, wrong⟩
      by_contra bare
      exact not_unsupported_of_bare (made v live) (Bool.eq_false_iff.mpr bare)
        Tagging.noConfusion wrong

theorem rejects_untagged {f : List Schema → Schema} :
    (do
      match (Variant.serialized variants).find? (!·.hasPayload) with
      | some v => Lowering.unsupported (p.enter v.name) .untaggedUnit
      | none => pure ()
      let branches ← lowerPayloads p variants
      pure (f branches) : Lowering Schema).Rejects fun e => ∃ v ∈ Variant.serialized variants,
        VariantUnsupported (p.enter v.name) .untagged v e := by
  have payloads := rejects_lowerPayloads made h .untagged fun _ => Tagging.noConfusion
  dsimp only
  split
  · next v found =>
    rw [Lowering.unsupported, Journal.bind_of_error rfl]
    have bare : v.style = .unit := by
      simpa [Variant.hasPayload] using List.find?_some found
    exact .fail ⟨v, List.mem_of_find?_eq_some found, .inl ⟨_, .untaggedUnit bare, rfl⟩⟩
  · next all =>
    refine (payloads.map f).of_iff fun e => ?_
    rw [List.filter_eq_self.mpr fun v live => by simpa using List.find?_eq_none.mp all v live]

end Branches

/-- **An enum is refused as the rules say.** -/
theorem rejects_lower_enum (made : ∀ v ∈ variants, v.Made)
    (h : PartsFine ((enum name tagging variants description).parts path)) :
    ((enum name tagging variants description).lower embed path).Rejects
      ((enum name tagging variants description).Unsupported path) := by
  rw [lower]
  refine (Variant.rejects_check.bind (Q := fun e => Variant.BearPayload variants ∧
    ((∃ key, tagging = .adjacent key key ∧ e = ⟨enumPath path name, .equalKeys⟩) ∨
      ∃ v ∈ Variant.serialized variants,
        VariantUnsupported ((enumPath path name).enter v.name) tagging v e))
    fun _ _ => ?_).of_iff fun e => unsupported_enum_iff.symm
  dsimp only
  split
  · next bare =>
    refine .pure fun e => ?_
    rintro ⟨⟨v, live, payload⟩, -⟩
    simp only [Bool.not_eq_true', List.any_eq_false] at bare
    exact bare v live payload
  · next some =>
    have bear : Variant.BearPayload variants := by
      simpa [Variant.BearPayload] using some
    have madeLive : ∀ v ∈ Variant.serialized variants, v.Made :=
      fun v live => made v (List.mem_filter.mp live).1
    have fine : ∀ v ∈ Variant.serialized variants,
        PartsFine (variantParts ((enumPath path name).enter v.name) v) :=
      fun v live q part => h q (mem_parts_enum.mpr ⟨bear, v, live, part⟩)
    simp only [bear, true_and]
    cases tagging with
    | external =>
      refine ((rejects_lowerExternal madeLive fine).map _).of_iff fun e => ?_
      simp
    | internal tagKey =>
      refine ((rejects_lowerInternal madeLive fine).map _).of_iff fun e => ?_
      simp
    | adjacent tagKey contentKey => exact rejects_adjacent madeLive fine
    | untagged =>
      refine (rejects_untagged madeLive fine).of_iff fun e => ?_
      simp

end Enum

/-- **A descriptor is refused for what is wrong with it, and for nothing else.** -/
theorem rejects_lower (d : Descriptor) : ∀ (embed : Bool) (path : DescriptorPath), d.MadeAt path →
    (d.lower embed path).Rejects (d.Unsupported path) := by
  induction d using Descriptor.tree with
  | primitive kind format =>
    exact fun embed path _ => .pure fun e => not_unsupported_of_leaf rfl fun _ h => by cases h
  | any =>
    exact fun embed path _ => .pure fun e => not_unsupported_of_leaf rfl fun _ h => by cases h
  | reference name =>
    exact fun embed path _ => .pure fun e => not_unsupported_of_leaf rfl fun _ h => by cases h
  | array element ih =>
    intro embed path made
    exact ((ih false _ (made.part List.mem_cons_self)).map _).of_iff
      fun e => (unsupported_iff_part rfl fun _ h => by cases h).symm
  | optional inner ih =>
    intro embed path made
    exact ((ih embed _ (made.part List.mem_cons_self)).map _).of_iff
      fun e => (unsupported_iff_part rfl fun _ h => by cases h).symm
  | map value ih =>
    intro embed path made
    exact ((ih false _ (made.part List.mem_cons_self)).map _).of_iff
      fun e => (unsupported_iff_part rfl fun _ h => by cases h).symm
  | tuple items ih =>
    intro embed path made
    have fine : PartsFine (itemParts path items) := fun q part embed => by
      obtain ⟨i, mem, type⟩ := type_of_mem_itemParts part
      exact type ▸ ih i mem embed q.1 (type ▸ made.part part)
    refine (Lowering.rejects_tuple (rejects_lowerItems fine)).of_iff fun e => ?_
    rw [unsupported_iff, offends_tuple_iff]
    simp [parts]
  | composite mode members ih =>
    intro embed path made
    have fine : PartsFine (memberParts path mode members) := fun q part embed =>
      ih q.2 (mem_of_mem_memberParts part) embed q.1 (made.part part)
    refine (Lowering.rejects_require.bind fun _ _ => (rejects_lowerMembers fine).map _).of_iff
      fun e => ?_
    rw [unsupported_iff, offends_composite_iff]
    simp [parts]
  | object name fields ih =>
    intro embed path made
    have fine : PartsFine (fieldParts (objectPath path name) fields) := fun q part embed => by
      obtain ⟨f, mem, type⟩ := type_of_mem_fieldParts part
      exact type ▸ ih f mem embed q.1 (type ▸ made.part part)
    refine (Lowering.rejects_object (rejects_lowerFields fine)).of_iff fun e => ?_
    rw [unsupported_iff, offends_object_iff]
    simp [parts, repeats_of_nil_seen]
  | enum name tagging variants description ih =>
    intro embed path made
    refine rejects_lower_enum (made _ _ _ _ _ (.here _ _)) fun q part embed => ?_
    obtain ⟨-, v, live, below⟩ := mem_parts_enum.mp part
    obtain ⟨hitems, hfields⟩ := ih v (List.mem_filter.mp live).1
    obtain ⟨i, mem, type⟩ | ⟨f, mem, type⟩ := type_of_mem_variantParts below
    · exact type ▸ hitems i mem embed q.1 (type ▸ made.part part)
    · exact type ▸ hfields f mem embed q.1 (type ▸ made.part part)
  | named name underlying description format sample inline ih =>
    intro embed path made
    rw [lower]
    refine ((ih embed _ (made.part List.mem_cons_self)).bind (Q := fun _ => False)
      fun s _ => ?_).of_iff fun e => ?_
    · dsimp only
      split
      · exact .pure fun _ => id
      · exact (Journal.Rejects.tell fun _ => id).map _
    · rw [or_false]
      exact (unsupported_iff_part rfl fun _ h => by cases h).symm

/-- **No item is missing where the variants are made properly** — a lowering that lacks one has met
a variant that is made by hand. -/
theorem not_madeAt_of_noItem {d : Descriptor} {embed : Bool} {path p : DescriptorPath}
    (h : (d.lower embed path).outcome = .error ⟨p, .noItem⟩) : ¬ d.MadeAt path := by
  intro made
  obtain ⟨_, _, -, offends⟩ := (rejects_lower d embed path made).sound _ h
  cases offends with
  | variant _ _ breaks => cases breaks

end Descriptor

/-- Unless the registry refuses, a lowering that is carried out fails as it did. -/
theorem carryOut_eq_shape_iff {α : Type} {r : Registry} {l : Lowering α} {e : UnsupportedShape}
    (stored : ∀ e, (r.carryOut l).2 ≠ .error (.registry e)) :
    (r.carryOut l).2 = .error (.shape e) ↔ l.outcome = .error e := by
  have carried : ∀ refused, (r.registerAll l.steps).2 ≠ .error refused := fun refused h => by
    refine stored refused ?_
    rw [Registry.carryOut, ← Prod.eta (r.registerAll l.steps), h]
  cases h : (r.registerAll l.steps).2 with
  | error refused => exact absurd h (carried refused)
  | ok u =>
    rw [Registry.carryOut, ← Prod.eta (r.registerAll l.steps), h]
    simp [Journal.mapError_eq_error_iff]

/-- **Synthesis fails exactly for the unsupported shapes, and says which one it met** — for every
use site, path and registry on which no registration is refused. -/
theorem carryOut_unsupported_iff (d : Descriptor) (embed : Bool) (path : DescriptorPath)
    (r : Registry) (made : d.MadeAt path)
    (stored : ∀ e, (r.carryOut (d.lower embed path)).2 ≠ .error (.registry e)) :
    ((∃ e, (r.carryOut (d.lower embed path)).2 = .error (.shape e)) ↔
      ∃ e, d.Unsupported path e) ∧
    ∀ e, (r.carryOut (d.lower embed path)).2 = .error (.shape e) → d.Unsupported path e := by
  have rejects := Descriptor.rejects_lower d embed path made
  simp only [carryOut_eq_shape_iff stored]
  refine ⟨⟨?_, ?_⟩, rejects.sound⟩
  · rintro ⟨e, he⟩
    exact ⟨e, rejects.sound e he⟩
  · rintro ⟨e, he⟩
    exact rejects.complete e he

open Descriptor in
/-- An optional structure has the key of the tag: the variant is refused, at its own path. -/
theorem carryOut_unsupported_iff_sole :
    (∃ e, (Registry.carryOut {} ((sole (.optional clashing)).lower false [])).2 =
      .error (.shape e)) ∧
    (sole (.optional clashing)).Unsupported [] ⟨["E", "P"], .tagClash "kind"⟩ := by
  have field : (string none).MadeAt ["E", "P", "kind"] :=
    madeAt_of_parts (fun _ _ _ _ h => by cases h) (List.forall_mem_nil _)
  have content : clashing.MadeAt ["E", "P"] :=
    madeAt_of_parts (fun _ _ _ _ h => by cases h) (List.forall_mem_singleton.mpr field)
  have option : (optional clashing).MadeAt ["E", "P"] :=
    madeAt_of_parts (fun _ _ _ _ h => by cases h) (List.forall_mem_singleton.mpr content)
  have made : (sole (.optional clashing)).MadeAt [] := by
    refine madeAt_of_parts (fun _ _ _ _ h v hv => ?_) (List.forall_mem_singleton.mpr option)
    cases h
    obtain rfl := List.mem_singleton.mp hv
    exact .newtype ..
  exact ⟨⟨_, rfl⟩, (carryOut_unsupported_iff _ false [] {} made fun e h => by cases h).2 _ rfl⟩

end OpenApi
