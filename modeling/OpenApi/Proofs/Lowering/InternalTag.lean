import OpenApi.Proofs.Lowering.Layout
import OpenApi.Proofs.Registry.Independence

/-!
# Proofs/Lowering/InternalTag — where the tag of an internally tagged variant goes

    payload, embedded    what the tag joins        the branch
    ──────────────────   ──────────────────        ──────────────────────
    object               the object                one more property
    `allOf` of members   the `allOf`               one more member
    reference            `allOf` of the reference  one more member

The tag must be the only property of its name, and null carries no tag.  What a branch makes of both
is read off its payload (`internal_branches`): a new property is refused if the payload has one of
its name, but a new member of an `allOf` is not, and whether the payload admits null is not asked.
-/

namespace OpenApi

/-! ## Where a schema declares a property -/

namespace Schema

mutual

/-- **The schemas that a property of some name is declared with**, in the schema itself and in the
members of an `allOf`, but not behind references. -/
def declared (key : String) : Schema → List Schema
  | ⟨kind, _, properties, _, _, _, members, _, _, _⟩ =>
    (properties.filter fun p => decide (p.1 = key)).map (·.2) ++
      if kind = .composite .allOf then declaredIn key members else []

/-- The schemas that a property of some name is declared with in some schemas. -/
def declaredIn (key : String) : List Schema → List Schema
  | [] => []
  | s :: members => s.declared key ++ declaredIn key members

end

variable {key : String} {s : Schema}

theorem declaredIn_append (members members' : List Schema) :
    declaredIn key (members ++ members') = declaredIn key members ++ declaredIn key members' := by
  induction members with
  | nil => rfl
  | cons s members ih =>
    rw [List.cons_append, declaredIn, declaredIn, ih, List.append_assoc]

theorem declared_of_allOf (h : s.kind = .composite .allOf) :
    s.declared key =
      (s.properties.filter fun p => decide (p.1 = key)).map (·.2) ++ declaredIn key s.members := by
  obtain ⟨kind, _, properties, _, _, _, members, _, _, _⟩ := s
  rw [declared, if_pos h]

theorem declared_of_ne_allOf (h : s.kind ≠ .composite .allOf) :
    s.declared key = (s.properties.filter fun p => decide (p.1 = key)).map (·.2) := by
  obtain ⟨kind, _, properties, _, _, _, members, _, _, _⟩ := s
  rw [declared, if_neg h, List.append_nil]

theorem filter_key_eq_nil {properties : List (String × Schema)}
    (h : key ∉ properties.map (·.1)) : (properties.filter fun p => decide (p.1 = key)) = [] := by
  refine List.filter_eq_nil_iff.mpr fun p hp hkey => h ?_
  exact of_decide_eq_true hkey ▸ List.mem_map_of_mem hp

/-- An `allOf` around a reference declares nothing itself. -/
theorem declared_around_ref {name : String} (hs : s.WellFormed) (hk : s.kind = .composite .allOf)
    (hm : s.members = [ref name]) : s.declared key = [] := by
  have hprops : s.properties = [] := (hs.regular.object (by simp [hk])).1
  rw [declared_of_allOf hk, hprops, hm]
  rfl

/-! ## Metadata on a schema -/

theorem nullable_withMetadata (hs : s.WellFormed) (m : Metadata) :
    (s.withMetadata m).metadata.nullable = (s.metadata.nullable || m.nullable) := by
  rw [withMetadata]
  split
  · next hempty =>
    have hm : m.nullable = false := by
      rw [Metadata.isEmpty] at hempty
      simp_all
    rw [hm, Bool.or_false]
  · split
    · next href =>
      have hbare : s.metadata = {} := hs.regular.bare (of_decide_eq_true href)
      rw [hbare]
      rfl
    · rfl

/-- Metadata makes an `allOf` only of a reference. -/
theorem allOf_of_withMetadata {m : Metadata} (hs : s.WellFormed)
    (h : (s.withMetadata m).kind = .composite .allOf) :
    (s.kind = .composite .allOf ∧ (s.withMetadata m).members = s.members) ∨
      ∃ name, (s.withMetadata m).members = [ref name] := by
  rw [withMetadata] at h ⊢
  split at h
  · next hempty =>
    rw [if_pos hempty]
    exact Or.inl ⟨h, rfl⟩
  · next hempty =>
    rw [if_neg hempty]
    split at h
    · next href =>
      obtain ⟨name, rfl⟩ := hs.eq_ref (of_decide_eq_true href)
      exact Or.inr ⟨name, rfl⟩
    · next href =>
      rw [if_neg href]
      exact Or.inl ⟨h, rfl⟩

end Schema

/-! ## What the tag joins -/

/-- The payload that the tag of a variant has to join, if that is a single value. -/
def Variant.single? {τ : Type} : Variant τ → Option τ
  | ⟨_, .newtype, ⟨type, _⟩ :: _, _, _, _, _⟩ | ⟨_, .tuple, [⟨type, _⟩], _, _, _, _⟩ => some type
  | _ => none

namespace Variant

variable {path : DescriptorPath} {s t : Schema}

theorem joinable_eq_ok (h : (joinable s path).outcome = .ok t) :
    (s.kind = .ref ∧ t = Schema.composite .allOf [s] none) ∨
      t = s ∧ (s.kind = .object ∨ s.kind = .composite .allOf) := by
  rw [joinable] at h
  split at h
  · next href => exact Or.inl ⟨of_decide_eq_true href, (Except.ok.inj h).symm⟩
  · split at h
    · next hkind => exact Or.inr ⟨(Except.ok.inj h).symm, hkind⟩
    · cases h

/-- **The tag joins a payload in one of two ways** — with the description of the variant on top, and
without a look at null. -/
theorem tagged_eq_ok {tagKey : String} {tag : Schema} {description : Option String}
    (hs : s.WellFormed) (h : (tagged tagKey tag description s path).outcome = .ok t) :
    ∃ metadata : Metadata,
      metadata =
        { s.metadata with description := nonEmptyOr description s.metadata.description } ∧
      ((s.kind = .composite .allOf ∧
          t = { s with members := s.members ++ [tagObject tagKey tag], metadata }) ∨
        (s.kind ≠ .composite .allOf ∧ tagKey ∉ s.properties.map (·.1) ∧
          t = { s with
            properties := sortOn (·.1) (s.properties ++ [(tagKey, tag)])
            required := s.required ++ [tagKey]
            metadata })) := by
  have htable : s.propertyTable = s.properties :=
    Table.ofList_eq_self (hs.regular.ascending.imp ne_of_lt)
  rw [tagged, htable] at h
  refine ⟨_, rfl, ?_⟩
  split at h
  · next hk => exact Or.inl ⟨hk, (Except.ok.inj h).symm⟩
  · next hk =>
    split at h
    · cases h
    · next hclash =>
      rw [Table.get?_isSome_iff] at hclash
      exact Or.inr ⟨hk, hclash, (Except.ok.inj h).symm⟩

/-- **The tag is declared once more**, after the places where the payload declares its name. -/
theorem declared_tagged {tagKey : String} {tag : Schema} {description : Option String}
    (hs : s.WellFormed) (h : (tagged tagKey tag description s path).outcome = .ok t) :
    t.declared tagKey = s.declared tagKey ++ [tag] := by
  obtain ⟨metadata, -, ⟨hk, rfl⟩ | ⟨hk, hnew, rfl⟩⟩ := tagged_eq_ok hs h
  · have htag : (tagObject tagKey tag).declared tagKey = [tag] := by
      rw [tagObject, Schema.declared_of_ne_allOf (by simp [Schema.object])]
      simp [Schema.object, sortOn, sortBy, insertBy]
    rw [Schema.declared_of_allOf hk, Schema.declared_of_allOf (by exact hk),
      Schema.declaredIn_append, Schema.declaredIn, Schema.declaredIn, htag, List.append_nil,
      List.append_assoc]
  · have hperm := sortOn_perm (·.1) (s.properties ++ [(tagKey, tag)])
    have hone : ((sortOn (·.1) (s.properties ++ [(tagKey, tag)])).filter
        fun p => decide (p.1 = tagKey)) = [(tagKey, tag)] := by
      have hfilter := hperm.filter fun p => decide (p.1 = tagKey)
      rw [List.filter_append, Schema.filter_key_eq_nil hnew] at hfilter
      simpa using hfilter
    rw [Schema.declared_of_ne_allOf (s := s) hk, Schema.filter_key_eq_nil hnew,
      Schema.declared_of_ne_allOf (by exact hk), hone]
    rfl

end Variant

namespace Descriptor

variable {path : DescriptorPath} {t : Schema}

theorem wellFormed_of_lower {d : Descriptor} {embed : Bool}
    (h : (d.lower embed path).outcome = .ok t) : t.WellFormed :=
  (yields_lower d embed path).value t h

theorem wellFormed_of_lowerUntagged {x : Variant Descriptor}
    (h : (lowerUntagged path x).outcome = .ok t) : t.WellFormed :=
  ((yields_lowerUntagged path (fineIn x)).value t h).1

/-- The tag joins an object of the variant's own, or its single payload. -/
theorem lowerUntagged_eq_ok {x : Variant Descriptor}
    (h : (lowerUntagged path x).outcome = .ok t) :
    (x.single? = none ∧ ∃ properties required, t = Schema.object properties required none) ∨
      ∃ d s, x.single? = some d ∧ (d.lower true path).outcome = .ok s ∧
        (Variant.joinable s path).outcome = .ok t := by
  rw [lowerUntagged.eq_def] at h
  split at h
  · exact Or.inl ⟨rfl, [], [], (Except.ok.inj h).symm⟩
  · obtain ⟨⟨properties, required⟩, -, h⟩ := Journal.bind_eq_ok_iff.mp h
    exact Or.inl ⟨rfl, properties, required, (Except.ok.inj h).symm⟩
  · obtain ⟨s, hs, h⟩ := Journal.bind_eq_ok_iff.mp h
    exact Or.inr ⟨_, s, rfl, hs, h⟩
  · obtain ⟨s, hs, h⟩ := Journal.bind_eq_ok_iff.mp h
    exact Or.inr ⟨_, s, rfl, hs, h⟩
  · cases h
  · cases h

/-! ## Embedded payloads -/

/-- Whether a payload is optional, if the names on it are put aside. -/
def admitsNull : Descriptor → Bool
  | .optional _ => true
  | .named _ underlying _ _ _ _ => underlying.admitsNull
  | _ => false

/-- Whether a payload is an `allOf`, if the names on it and null are put aside. -/
def conjoins : Descriptor → Bool
  | .composite .allOf _ => true
  | .optional inner => inner.conjoins
  | .named _ underlying _ _ _ _ => underlying.conjoins
  | _ => false

/-- **What an embedded descriptor shows of itself** — whether it admits null, and that it is an
`allOf` by itself unless it is a reference. -/
structure Shows (d : Descriptor) (s : Schema) : Prop where
  nullable : s.metadata.nullable = d.admitsNull
  allOf : s.kind = .composite .allOf → d.conjoins = true ∨ ∃ name, s.members = [Schema.ref name]

theorem shows_enum {name : String} {tagging : Tagging} {variants : List (Variant Descriptor)}
    {description : Option String} {embed : Bool}
    (h : ((enum name tagging variants description).lower embed path).outcome = .ok t) :
    (enum name tagging variants description).Shows t := by
  by_cases hpayload : ∃ x ∈ Variant.serialized variants, x.hasPayload = true
  · have hlayout := layout_of_lower hpayload h
    cases tagging with
    | external =>
      obtain ⟨ss, -, rfl⟩ := hlayout
      exact ⟨rfl, nofun⟩
    | internal tagKey =>
      obtain ⟨ss, -, rfl⟩ := hlayout
      exact ⟨rfl, nofun⟩
    | adjacent tagKey contentKey =>
      obtain ⟨-, ss, -, rfl⟩ := hlayout
      exact ⟨rfl, nofun⟩
    | untagged =>
      obtain ⟨ss, -, rfl⟩ := hlayout
      exact ⟨rfl, nofun⟩
  · rw [eq_stringOf_of_lower hpayload h]
    exact ⟨rfl, nofun⟩

theorem Shows.withMetadata {d d' : Descriptor} {m : Metadata} (h : d.Shows t) (ht : t.WellFormed)
    (hnull : d'.admitsNull = (d.admitsNull || m.nullable)) (hall : d'.conjoins = d.conjoins) :
    d'.Shows (t.withMetadata m) := by
  constructor
  · rw [Schema.nullable_withMetadata ht, h.nullable, hnull]
  · intro hk
    rcases Schema.allOf_of_withMetadata ht hk with ⟨hk, hmembers⟩ | hname
    · rw [hall, hmembers]
      exact h.allOf hk
    · exact Or.inr hname

/-- **An embedded descriptor shows what it is.** -/
theorem shows_of_lower {d : Descriptor} (h : (d.lower true path).outcome = .ok t) : d.Shows t := by
  induction d using Descriptor.tree generalizing path t with
  | primitive kind format =>
    obtain rfl := Except.ok.inj h
    exact ⟨rfl, fun hk => SchemaKind.noConfusion hk⟩
  | array element =>
    obtain ⟨i, -, hi⟩ := Journal.bind_eq_ok_iff.mp h
    obtain rfl := Except.ok.inj hi
    exact ⟨rfl, fun hk => SchemaKind.noConfusion hk⟩
  | optional inner ih =>
    obtain ⟨i, hi, ht⟩ := Journal.bind_eq_ok_iff.mp h
    obtain rfl := Except.ok.inj ht
    exact (ih hi).withMetadata (wellFormed_of_lower hi) (Bool.or_true _).symm rfl
  | map value =>
    obtain ⟨i, -, hi⟩ := Journal.bind_eq_ok_iff.mp h
    obtain rfl := Except.ok.inj hi
    exact ⟨rfl, fun hk => SchemaKind.noConfusion hk⟩
  | tuple items =>
    rw [lower, Lowering.tuple] at h
    obtain ⟨_, -, h⟩ := Journal.bind_eq_ok_iff.mp h
    obtain ⟨ss, -, hs⟩ := Journal.bind_eq_ok_iff.mp h
    obtain rfl := Except.ok.inj hs
    exact ⟨rfl, fun hk => SchemaKind.noConfusion hk⟩
  | any =>
    obtain rfl := Except.ok.inj h
    exact ⟨rfl, fun hk => SchemaKind.noConfusion hk⟩
  | composite mode members =>
    rw [lower] at h
    obtain ⟨_, -, h⟩ := Journal.bind_eq_ok_iff.mp h
    obtain ⟨ss, -, hs⟩ := Journal.bind_eq_ok_iff.mp h
    obtain rfl := Except.ok.inj hs
    refine ⟨rfl, fun hk => Or.inl ?_⟩
    obtain rfl : mode = .allOf := SchemaKind.composite.inj hk
    rfl
  | object name fields =>
    rw [lower, Lowering.object] at h
    obtain ⟨p, -, hp⟩ := Journal.bind_eq_ok_iff.mp h
    obtain rfl := Except.ok.inj hp
    exact ⟨rfl, fun hk => SchemaKind.noConfusion hk⟩
  | enum name tagging variants description => exact shows_enum h
  | named name underlying description format sample inline ih =>
    rw [lower] at h
    obtain ⟨i, hi, ht⟩ := Journal.bind_eq_ok_iff.mp h
    obtain rfl := Except.ok.inj ht
    exact (ih hi).withMetadata (wellFormed_of_lower hi) (Bool.or_false _).symm rfl
  | reference name =>
    obtain rfl := Except.ok.inj h
    exact ⟨rfl, fun hk => SchemaKind.noConfusion hk⟩

/-! ## Branches -/

variable {x : Variant Descriptor} {b : Schema}

/-- What the tag joins shows what the payload is. -/
theorem shows_of_lowerUntagged (h : (lowerUntagged path x).outcome = .ok t) :
    t.metadata.nullable = x.single?.any admitsNull ∧
      (t.kind = .composite .allOf →
        x.single?.any conjoins = true ∨ ∃ name, t.members = [Schema.ref name]) := by
  rcases lowerUntagged_eq_ok h with ⟨hsingle, _, _, rfl⟩ | ⟨d, s, hsingle, hs, ht⟩
  · rw [hsingle]
    exact ⟨rfl, nofun⟩
  · have hshows := shows_of_lower hs
    rw [hsingle, Option.any_some, Option.any_some]
    rcases Variant.joinable_eq_ok ht with ⟨href, rfl⟩ | ⟨rfl, -⟩
    · obtain ⟨name, rfl⟩ := (wellFormed_of_lower hs).eq_ref href
      exact ⟨hshows.nullable, fun _ => Or.inr ⟨name, rfl⟩⟩
    · exact ⟨hshows.nullable, hshows.allOf⟩

theorem lowerTagged_eq_ok {enum tagKey : String}
    (h : (lowerTagged enum tagKey path x).outcome = .ok b) :
    ∃ t, (lowerUntagged (path.enter x.name) x).outcome = .ok t ∧
      (Variant.tagged tagKey (Variant.tagProperty enum [x.name]) x.description t
        (path.enter x.name)).outcome = .ok b := Journal.bind_eq_ok_iff.mp h

/-- **What is known of a branch** — it admits null if its payload does, and the tag is declared
after the places where the payload declares a property of its name, of which only an `allOf` has
any. -/
theorem branch_of_lowerTagged {enum tagKey : String}
    (h : (lowerTagged enum tagKey path x).outcome = .ok b) :
    b.metadata.nullable = x.single?.any admitsNull ∧
      ∃ t, (lowerUntagged (path.enter x.name) x).outcome = .ok t ∧
        b.declared tagKey = t.declared tagKey ++ [Variant.tagProperty enum [x.name]] ∧
        (x.single?.any conjoins = false → t.declared tagKey = []) := by
  obtain ⟨t, ht, hb⟩ := lowerTagged_eq_ok h
  have hwf := wellFormed_of_lowerUntagged ht
  obtain ⟨hnull, hall⟩ := shows_of_lowerUntagged ht
  have hdeclared := Variant.declared_tagged hwf hb
  obtain ⟨metadata, hmetadata, hway⟩ := Variant.tagged_eq_ok hwf hb
  have hnullable : metadata.nullable = t.metadata.nullable := by rw [hmetadata]
  refine ⟨?_, t, ht, hdeclared, fun hnone => ?_⟩
  · rw [← hnull, ← hnullable]
    rcases hway with ⟨-, rfl⟩ | ⟨-, -, rfl⟩ <;> rfl
  · rcases hway with ⟨hk, -⟩ | ⟨hk, hnew, -⟩
    · rcases hall hk with hsome | ⟨name, hmembers⟩
      · rw [hnone] at hsome
        cases hsome
      · exact Schema.declared_around_ref hwf hk hmembers
    · rw [Schema.declared_of_ne_allOf hk, Schema.filter_key_eq_nil hnew, List.map_nil]

end Descriptor

open Descriptor in
/-- **The branches of an internally tagged enum**, one for each serialized variant: a branch admits
null exactly if the payload of its variant is optional, and it declares the tag once, after all that
its payload declares under the name of the tag.  Only an `allOf` payload declares anything there. -/
theorem internal_branches {r₀ : Registry} {name tagKey : String}
    {variants : List (Variant Descriptor)} {description : Option String} {s : Schema}
    (hpayload : ∃ x ∈ Variant.serialized variants, x.hasPayload = true)
    (h : (r₀.synthesize (.enum name (.internal tagKey) variants description)).2 = .ok s) :
    ∃ branches, s = Schema.composite .oneOf branches description ∧
      List.Forall₂
        (fun x b => b.metadata.nullable = x.single?.any admitsNull ∧
          ∃ t, (lowerUntagged [name, x.name] x).outcome = .ok t ∧
            b.declared tagKey = t.declared tagKey ++ [Variant.tagProperty name [x.name]] ∧
            (x.single?.any conjoins = false → t.declared tagKey = []))
        (Variant.serialized variants) branches := by
  obtain ⟨branches, hbranches, hs⟩ := layout_of_lower hpayload (Registry.outcome_of_synthesize h)
  exact ⟨branches, hs, hbranches.imp fun _ _ => branch_of_lowerTagged⟩

open Descriptor in
/-- The tag of an event is declared once in either branch. -/
theorem internal_branches_event :
    ∃ sent lost, (Registry.synthesize {} event).2 = .ok (.composite .oneOf [sent, lost] none) ∧
      sent.declared "kind" = [Variant.tagProperty "Event" ["Sent"]] ∧
      lost.declared "kind" = [Variant.tagProperty "Event" ["Lost"]] := by
  obtain ⟨s, hs⟩ : ∃ s, (Registry.synthesize {} event).2 = .ok s := ⟨_, rfl⟩
  obtain ⟨branches, rfl, hbranches⟩ := internal_branches ⟨_, List.mem_cons_self, rfl⟩ hs
  obtain _ | ⟨⟨-, t, -, hsent, ht⟩, _ | ⟨⟨-, u, -, hlost, hu⟩, _ | _⟩⟩ := hbranches
  rw [ht rfl] at hsent
  rw [hu rfl] at hlost
  exact ⟨_, _, hs, hsent, hlost⟩

namespace Descriptor

/-- A structure of one text under the key of a tag. -/
def clashing : Descriptor := .object none [{ name := "kind", type := string none }]

/-- An internally tagged enum of one payload. -/
def sole (payload : Descriptor) : Descriptor :=
  .enum "E" (.internal "kind") [.ofNewtype "P" payload none false false] none

end Descriptor

open Descriptor in
/-- **What is not refused** — an `allOf` that declares the key of the tag itself, and an optional
structure.  Bare, the same structure is refused. -/
theorem internal_branches_unchecked :
    (∃ e, (Registry.synthesize {} (sole clashing)).2 = .error e) ∧
    (∃ b, (Registry.synthesize {} (sole (.composite .allOf [clashing]))).2 =
        .ok (.composite .oneOf [b] none) ∧
      b.declared "kind" =
        [Schema.primitive "string" none, Variant.tagProperty "E" ["P"]]) ∧
    ∃ b, (Registry.synthesize {} (sole (.optional (.object none [])))).2 =
        .ok (.composite .oneOf [b] none) ∧
      b.metadata.nullable = true :=
  ⟨⟨_, rfl⟩, ⟨_, rfl, rfl⟩, ⟨_, rfl, rfl⟩⟩

end OpenApi
