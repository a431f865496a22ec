import OpenApi.Descriptor.Builtin
import OpenApi.Proofs.Lowering.InternalTag
import OpenApi.Proofs.Lowering.Values
import OpenApi.Proofs.Schema.Alternatives

/-!
# Proofs/Lowering/TaggedValues — values of internally tagged enums

    {tag: "A", a: …}  ──fits──▸  {tag: "A"} + properties of A  ╮
    {tag: "B", b: …}  ──fits──▸  {tag: "B"} + properties of B  ┤ one `oneOf`
    {tag: "C"}        ──fits──▸  {tag: "C"}                    ╯

Where all variants are structures, a branch takes the values that carry the tag of its variant and
fit the structure (`accepts_tagged_iff`).  The variants have different names, so no value fits two
branches, and the `oneOf` is a plain choice: it takes exactly the tagged values of the variants
(`validates_internal_iff`).
-/

open Filter

namespace OpenApi

/-- Elements beside others that are pairwise related are so themselves, if the relation carries
over. -/
theorem pairwise_of_forall₂ {α β : Type} {R : α → β → Prop} {S : α → α → Prop} {T : β → β → Prop}
    {xs : List α} {ys : List β} (h : List.Forall₂ R xs ys) (hxs : xs.Pairwise S)
    (hT : ∀ {a b c d}, R a c → R b d → S a b → T c d) : ys.Pairwise T := by
  induction h with
  | nil => exact .nil
  | cons hxy hrest ih =>
    obtain ⟨hx, hxs⟩ := List.pairwise_cons.mp hxs
    refine List.pairwise_cons.mpr ⟨fun y hy => ?_, ih hxs⟩
    obtain ⟨x, hmem, hxy'⟩ := exists_left_of_forall₂ hrest hy
    exact hT hxy hxy' (hx x hmem)

/-- **A value carries a tag** — an object that holds the name, and nothing else, under the key. -/
def Value.IsTagged (key name : String) (v : Value) : Prop :=
  ∃ ms, v = .object ms ∧ (∃ m ∈ ms, m.1 = key) ∧ ∀ m ∈ ms, m.1 = key → m.2 = .string name

theorem Value.IsTagged.unique {key a b : String} {v : Value} (ha : v.IsTagged key a)
    (hb : v.IsTagged key b) : a = b := by
  obtain ⟨ms, rfl, ⟨m, hm, hkey⟩, hname⟩ := ha
  obtain ⟨_, ⟨⟩, -, hname'⟩ := hb
  exact Value.string.inj ((hname m hm hkey).symm.trans (hname' m hm hkey))

/-- Among members with different keys, the tag is the one that is found under the key. -/
theorem Value.isTagged_object_iff {key name : String} {ms : List (String × Value)}
    (h : (ms.map (·.1)).Nodup) :
    (object ms).IsTagged key name ↔ Table.get? key ms = some (.string name) := by
  rw [Table.get?_eq_some_iff h]
  constructor
  · rintro ⟨_, ⟨⟩, ⟨m, hm, rfl⟩, hname⟩
    exact hname m hm rfl ▸ hm
  · intro hmem
    refine ⟨ms, rfl, ⟨_, hmem, rfl⟩, fun m hm hkey => ?_⟩
    rw [List.inj_on_of_nodup_map h hm hmem hkey]

/-! ## Structures -/

namespace Schema

/-- **An object of named properties** that admits no null, and anything where it names no
property. -/
structure IsStructure (s : Schema) : Prop where
  kind : s.kind = .object
  typeName : s.typeName = some "object"
  additional : s.additional = none
  enumValues : s.enumValues = none
  nullable : s.metadata.nullable = false

theorem isStructure_object (properties : List (String × Schema)) (required : List String)
    (description : Option String) : (object properties required description).IsStructure :=
  ⟨rfl, rfl, rfl, rfl, rfl⟩

namespace IsStructure

variable {s t : Schema} {refs : String → Value → Bool} {v : Value}

theorem withMetadata (h : s.IsStructure) {m : Metadata} (hm : m.nullable = false) :
    (s.withMetadata m).IsStructure := by
  have href : s.isRef = false := by simp [isRef, h.kind]
  rw [Schema.withMetadata, href, if_neg Bool.false_ne_true]
  split
  · exact h
  · exact ⟨h.kind, h.typeName, h.additional, h.enumValues, by simp [Metadata.over, h.nullable, hm]⟩

theorem accepts_iff (h : s.IsStructure) :
    s.accepts refs v = true ↔
      ∃ ms, v = .object ms ∧ (∀ name ∈ s.required, ∃ m ∈ ms, m.1 = name) ∧
        ∀ p ∈ s.properties, ∀ m ∈ ms, m.1 = p.1 → p.2.accepts refs m.2 = true := by
  rw [Schema.accepts_iff (by simp [h.kind]), h.kind, h.typeName, h.additional, h.enumValues,
    h.nullable]
  cases v <;>
    simp [SchemaKind.holds, Value.hasKeys, Value.hasType, Value.elements, Value.members, and_comm]

/-- **A tagged branch takes the values of the structure that carry the tag.** -/
theorem accepts_tagged_iff (h : s.IsStructure) (hwf : s.WellFormed) {enum tagKey name : String}
    {description : Option String} {path : DescriptorPath}
    (ht : (Variant.tagged tagKey (Variant.tagProperty enum [name]) description s path).outcome =
      .ok t) :
    t.accepts refs v = true ↔ v.IsTagged tagKey name ∧ s.accepts refs v = true := by
  have htag : ∀ w : Value, (Variant.tagProperty enum [name]).accepts refs w = true ↔
      w = .string name := by
    simp [Variant.tagProperty, accepts_stringOf_iff]
  obtain ⟨metadata, hmetadata, ⟨hall, -⟩ | ⟨-, -, rfl⟩⟩ := Variant.tagged_eq_ok hwf ht
  · rw [h.kind] at hall
    cases hall
  · have hnull : metadata.nullable = s.metadata.nullable := by rw [hmetadata]
    have hs : ({ s with
        properties := sortOn (·.1) (s.properties ++ [(tagKey, Variant.tagProperty enum [name])])
        required := s.required ++ [tagKey]
        metadata } : Schema).IsStructure :=
      ⟨h.kind, h.typeName, h.additional, h.enumValues, hnull.trans h.nullable⟩
    rw [hs.accepts_iff, h.accepts_iff]
    simp only [mem_sortOn, List.mem_append, List.mem_singleton]
    constructor
    · rintro ⟨ms, rfl, hrequired, htyped⟩
      refine ⟨⟨ms, rfl, hrequired tagKey (Or.inr rfl), fun m hm hkey => ?_⟩, ms, rfl,
        fun n hn => hrequired n (Or.inl hn), fun p hp => htyped p (Or.inl hp)⟩
      exact (htag m.2).mp (htyped _ (Or.inr rfl) m hm hkey)
    · rintro ⟨⟨ms, rfl, hkey, hname⟩, _, ⟨⟩, hrequired, htyped⟩
      refine ⟨ms, rfl, ?_, ?_⟩
      · rintro n (hn | rfl)
        · exact hrequired n hn
        · exact hkey
      · rintro p (hp | rfl) m hm hmp
        · exact htyped p hp m hm hmp
        · exact (htag m.2).mpr (hname m hm hmp)

end IsStructure

end Schema

namespace Descriptor

/-- **A payload that leads to a structure**, through any number of names. -/
inductive ReachesObject : Descriptor → Prop
  | object (name : Option String) (fields : List (Field Descriptor)) :
    ReachesObject (.object name fields)
  | named (name : String) {underlying : Descriptor} (description format sample : Option String)
    (inline : Bool) (underlying_reaches : underlying.ReachesObject) :
    ReachesObject (.named name underlying description format sample inline)

variable {path : DescriptorPath} {s t : Schema}

theorem ReachesObject.isStructure {d : Descriptor} (hd : d.ReachesObject)
    (h : (d.lower true path).outcome = .ok s) : s.IsStructure := by
  induction hd generalizing path s with
  | object name fields =>
    rw [lower, Lowering.object] at h
    obtain ⟨p, -, hp⟩ := Journal.bind_eq_ok_iff.mp h
    obtain rfl := Except.ok.inj hp
    exact Schema.isStructure_object _ _ _
  | named name description format sample inline hreaches ih =>
    rw [lower] at h
    obtain ⟨i, hi, hs⟩ := Journal.bind_eq_ok_iff.mp h
    obtain rfl := Except.ok.inj hs
    exact (ih hi).withMetadata rfl

/-- The tag joins a structure if the single payload, where there is one, leads to a structure. -/
theorem isStructure_of_lowerUntagged {x : Variant Descriptor}
    (hx : ∀ d, x.single? = some d → d.ReachesObject)
    (h : (lowerUntagged path x).outcome = .ok t) : t.IsStructure := by
  rcases lowerUntagged_eq_ok h with ⟨-, _, _, rfl⟩ | ⟨d, s, hsingle, hs, ht⟩
  · exact Schema.isStructure_object _ _ _
  · have hstructure := (hx d hsingle).isStructure hs
    rcases Variant.joinable_eq_ok ht with ⟨href, -⟩ | ⟨rfl, -⟩
    · rw [hstructure.kind] at href
      cases href
    · exact hstructure

/-- **A branch is tagged for its variant** — it takes the values that carry the name of the variant
and fit what its tag has joined. -/
def TaggedFor (tagKey : String) (path : DescriptorPath) (x : Variant Descriptor) (b : Schema) :
    Prop :=
  ∃ t, (lowerUntagged (path.enter x.name) x).outcome = .ok t ∧
    ∀ refs v, b.accepts refs v = true ↔ v.IsTagged tagKey x.name ∧ t.accepts refs v = true

theorem taggedFor_of_lowerTagged {enum tagKey : String} {x : Variant Descriptor} {b : Schema}
    (hx : ∀ d, x.single? = some d → d.ReachesObject)
    (h : (lowerTagged enum tagKey path x).outcome = .ok b) : TaggedFor tagKey path x b := by
  obtain ⟨t, ht, hb⟩ := lowerTagged_eq_ok h
  have hstructure := isStructure_of_lowerUntagged hx ht
  exact ⟨t, ht, fun _ _ => hstructure.accepts_tagged_iff (wellFormed_of_lowerUntagged ht) hb⟩

section Branches

variable {tagKey : String} {xs : List (Variant Descriptor)} {bs : List Schema}

/-- **Branches exclude each other**, since their variants have different names. -/
theorem pairwise_branches (hnames : (xs.map (·.name)).Nodup)
    (h : List.Forall₂ (TaggedFor tagKey path) xs bs) :
    bs.Pairwise fun b c => ∀ refs v, ¬ (b.accepts refs v = true ∧ c.accepts refs v = true) := by
  refine pairwise_of_forall₂ h (List.pairwise_map.mp hnames) ?_
  rintro x y b c ⟨t, -, hb⟩ ⟨u, -, hc⟩ hne refs v ⟨hbv, hcv⟩
  exact hne (((hb refs v).mp hbv).1.unique ((hc refs v).mp hcv).1)

theorem accepts_branches_iff {refs : String → Value → Bool} {v : Value}
    {description : Option String} (hnames : (xs.map (·.name)).Nodup)
    (h : List.Forall₂ (TaggedFor tagKey path) xs bs) :
    (Schema.composite .oneOf bs description).accepts refs v = true ↔
      ∃ x ∈ xs, ∃ t, (lowerUntagged (path.enter x.name) x).outcome = .ok t ∧
        v.IsTagged tagKey x.name ∧ t.accepts refs v = true := by
  have hexclude := (pairwise_branches hnames h).imp fun hbc => hbc refs v
  rw [Schema.accepts_oneOf_iff_exists hexclude]
  constructor
  · rintro ⟨b, hb, hbv⟩
    obtain ⟨x, hx, t, ht, hiff⟩ := exists_left_of_forall₂ h hb
    exact ⟨x, hx, t, ht, (hiff refs v).mp hbv⟩
  · rintro ⟨x, hx, t, ht, htagged⟩
    obtain ⟨b, hb, u, hu, hiff⟩ := exists_right_of_forall₂ h hx
    obtain rfl := Except.ok.inj (hu.symm.trans ht)
    exact ⟨b, hb, (hiff refs v).mpr htagged⟩

/-- The variant does not depend on how deep references are opened: the value names it. -/
theorem validates_branches_iff {r : Registry} {v : Value} {description : Option String}
    (hnames : (xs.map (·.name)).Nodup) (h : List.Forall₂ (TaggedFor tagKey path) xs bs) :
    r.Validates (.composite .oneOf bs description) v ↔
      ∃ x ∈ xs, ∃ t, (lowerUntagged (path.enter x.name) x).outcome = .ok t ∧
        v.IsTagged tagKey x.name ∧ r.Validates t v := by
  constructor
  · intro hv
    obtain ⟨depth, hdepth⟩ := hv.exists
    obtain ⟨x, hx, t, ht, htag, -⟩ := (accepts_branches_iff hnames h).mp hdepth
    refine ⟨x, hx, t, ht, htag, hv.mono fun k hk => ?_⟩
    obtain ⟨y, hy, u, hu, htag', hfits⟩ := (accepts_branches_iff hnames h).mp hk
    obtain rfl : y = x := List.inj_on_of_nodup_map hnames hy hx (htag'.unique htag)
    obtain rfl := Except.ok.inj (hu.symm.trans ht)
    exact hfits
  · rintro ⟨x, hx, t, ht, htag, hv⟩
    exact hv.mono fun k hk => (accepts_branches_iff hnames h).mpr ⟨x, hx, t, ht, htag, hk⟩

end Branches

end Descriptor

open Descriptor in
/-- **An internally tagged enum of structures takes the tagged values of its variants**: the objects
that hold the name of a serialized variant under the key of the tag and validate against the
variant's own object, as it is without the tag.  No value fits two branches, whatever references
mean. -/
theorem validates_internal_iff {r₀ : Registry} {name tagKey : String}
    {variants : List (Variant Descriptor)} {description : Option String} {s : Schema}
    (hpayload : ∃ x ∈ Variant.serialized variants, x.hasPayload = true)
    (hobject : ∀ x ∈ Variant.serialized variants, ∀ d, x.single? = some d → d.ReachesObject)
    (h : (r₀.synthesize (.enum name (.internal tagKey) variants description)).2 = .ok s) :
    (∀ (r : Registry) v, r.Validates s v ↔
        ∃ x ∈ Variant.serialized variants, ∃ t, (lowerUntagged [name, x.name] x).outcome = .ok t ∧
          v.IsTagged tagKey x.name ∧ r.Validates t v) ∧
      ∃ branches, s = Schema.composite .oneOf branches description ∧
        branches.Pairwise fun b c =>
          ∀ refs v, ¬ (b.accepts refs v = true ∧ c.accepts refs v = true) := by
  have hlower := Registry.outcome_of_synthesize h
  have hnames := (live_of_lower hlower).2
  obtain ⟨branches, hbranches, rfl⟩ := layout_of_lower hpayload hlower
  have htagged : List.Forall₂ (TaggedFor tagKey [name]) (Variant.serialized variants) branches :=
    ((List.forall₂_and_left _ _).mpr ⟨hobject, hbranches⟩).imp
      fun x b ⟨hx, hb⟩ => taggedFor_of_lowerTagged hx hb
  exact ⟨fun r v => validates_branches_iff hnames htagged, branches, rfl,
    pairwise_branches hnames htagged⟩

namespace Descriptor

/-- A named structure of one text. -/
def login : Descriptor :=
  .named "Login" (.object none [{ name := "user", type := string none }]) none none none false

/-- A named structure, a structure of its own and a bare name. -/
def messages : List (Variant Descriptor) :=
  [.ofNewtype "Login" login none false false,
    .ofStruct "Text" [{ name := "body", type := string none }] none false false,
    .ofUnit "Ping" none false]

/-- A sum type of these. -/
def message : Descriptor := .enum "Message" (.internal "kind") messages none

end Descriptor

open Descriptor in
/-- A login fits if it says that it is one, and a kind that no variant has fits nothing. -/
theorem validates_internal_iff_message :
    ∃ s, (Registry.synthesize {} message).2 = .ok s ∧
      Registry.Validates {} s (.object [("kind", .string "Login"), ("user", .string "a")]) ∧
      ¬ Registry.Validates {} s (.object [("kind", .string "Quit")]) := by
  obtain ⟨s, hs⟩ : ∃ s, (Registry.synthesize {} message).2 = .ok s := ⟨_, rfl⟩
  have hobject : ∀ x ∈ Variant.serialized messages, ∀ d, x.single? = some d →
      d.ReachesObject := by
    intro x hx d hd
    have hlive : x ∈ [_, _, _] := hx
    simp only [List.mem_cons, List.not_mem_nil, or_false] at hlive
    rcases hlive with rfl | rfl | rfl
    · obtain rfl := Option.some.inj hd
      exact .named _ _ _ _ _ (.object _ _)
    · cases hd
    · cases hd
  have htag : ∀ {name : String} {rest : List (String × Value)},
      ((("kind", Value.string name) :: rest).map (·.1)).Nodup →
        (Value.object (("kind", .string name) :: rest)).IsTagged "kind" name :=
    fun hnodup => (Value.isTagged_object_iff hnodup).mpr rfl
  obtain ⟨hiff, -⟩ := validates_internal_iff ⟨_, List.mem_cons_self, rfl⟩ hobject hs
  refine ⟨s, hs, (hiff {} _).mpr ⟨_, List.mem_cons_self, _, rfl, htag (by simp), ?_⟩, fun hv => ?_⟩
  · refine Registry.validates_object_iff.mpr ⟨_, rfl, by simp, fun p hp m hm hkey => ?_⟩
    obtain rfl := List.mem_singleton.mp hp
    simp only [List.mem_cons, List.not_mem_nil, or_false] at hm
    rcases hm with rfl | rfl
    · exact absurd hkey (by decide)
    · exact Registry.validates_primitive_iff.mpr rfl
  · obtain ⟨x, hx, -, -, hname, -⟩ := (hiff {} _).mp hv
    have hquit : x.name = "Quit" := hname.unique (htag (by simp))
    have hmem := List.mem_map_of_mem (f := Variant.name) hx
    rw [hquit] at hmem
    exact absurd hmem (by decide)

end OpenApi
