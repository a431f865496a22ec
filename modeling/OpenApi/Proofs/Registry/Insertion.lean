import OpenApi.Proofs.Lowering.Paths
import OpenApi.Proofs.Lowering.Visits
import OpenApi.Proofs.Registry.Independence

/-!
# Proofs/Registry/Insertion — which names come in, and in what order

    walk         … b … a … b … c
    definitions    ⟨b⟩ ⟨a⟩ ⟨b⟩ ⟨c⟩
    registry       b   a       c

A lowering defines the stored types of the walk, one after the other, and a registry that was empty
keeps the first of each name.  So its names are those of the stored types, each at its first place,
and the schema under a name is that of any stored type with this name (`synthesize_insertion`).
-/

namespace OpenApi

/-- The names in a registry that was empty are those that were stored, each at its first place. -/
theorem Registry.keys_of_registerAll {defs : List Definition} {r : Registry}
    (h : Registry.registerAll {} defs = (r, .ok ())) : r.names = distinct (defs.map (·.name)) := by
  have hkeys := (registerAll_eq_ok_iff_joinAll.mp h).1.keys
  rwa [List.map_map] at hkeys

namespace Descriptor

theorem DefinedBy.schema? {t : StoredType} {x : Definition} (h : DefinedBy t x) :
    ∃ content, t.underlying.schema? = some content ∧
      x.schema = content.withMetadata t.metadata := by
  obtain ⟨-, path, content, ho, hx⟩ := h
  refine ⟨content, ?_, hx⟩
  rw [Descriptor.schema?, outcome_lower_eq_ok ho []]
  rfl

end Descriptor

open Descriptor in
/-- **The names of a registry follow the walk.**  A descriptor that is synthesized on an empty
registry leaves the names of its stored types there, each at its first place in the walk; the schema
under a name is that of the underlying type with what the name says about it; and embedding a type
leaves out none of the stored types below it. -/
theorem Registry.synthesize_insertion {d : Descriptor} {r : Registry} {s : Schema}
    (h : Registry.synthesize {} d = (r, .ok s)) :
    r.names = distinct (d.storedTypes.map (·.name)) ∧
      (∀ t ∈ d.storedTypes, ∃ content, t.underlying.schema? = some content ∧
        r.get? t.name = some (content.withMetadata t.metadata)) ∧
      ∀ e, (true, e) ∈ d.walk false → ∀ u ∈ e.walk true, ∀ t, u.stored? = some t →
        t.name ∈ r.names := by
  obtain ⟨defs, hrun, hdefs⟩ := synthesize_eq_ok h
  have hdefined := definedBy_of_lower hrun
  have hnames : defs.map (·.name) = d.storedTypes.map (·.name) := by
    rw [← List.forall₂_eq_eq_eq, List.forall₂_map_left_iff, List.forall₂_map_right_iff]
    exact hdefined.flip.imp fun x t htx => htx.1
  have hkeys : r.names = distinct (d.storedTypes.map (·.name)) := by
    rw [← hnames]
    exact keys_of_registerAll hdefs
  refine ⟨hkeys, fun t ht => ?_, fun e he u hu t ht => ?_⟩
  · obtain ⟨x, hx, htx⟩ := exists_right_of_forall₂ hdefined ht
    obtain ⟨content, hcontent, hschema⟩ := htx.schema?
    refine ⟨content, hcontent, ?_⟩
    rw [← hschema, ← htx.1]
    exact (registerAll_eq_ok hdefs).1 x hx
  · rw [hkeys, mem_distinct]
    exact List.mem_map_of_mem (List.mem_filterMap.mpr ⟨u, walk_subset he hu, ht⟩)

namespace Descriptor

/-- An identifier, which says what its text looks like. -/
def identifier : Descriptor := .named "Id" (string none) none (some "uuid") none false

/-- A letter, with an identifier, that of the letter it replies to, and a text of its own. -/
def letter : Descriptor :=
  .named "Letter"
    (.object none
      [{ name := "id", type := identifier }, { name := "reply", type := identifier },
        { name := "subject", type := .named "Line" (string none) none none none false,
          inline := true }])
    none none none false

/-- The cases of a mail. -/
def mailCases : Descriptor :=
  .enum "Mail" (.internal "kind")
    [.ofNewtype "Sent" letter none false false, .ofUnit "Lost" none false] none

/-- A sum type whose tag joins the letter. -/
def mail : Descriptor := .named "Mail" mailCases none none none false

theorem storedTypes_mail : mail.storedTypes =
    [⟨"Id", string none, { format := "uuid" }⟩, ⟨"Id", string none, { format := "uuid" }⟩,
      ⟨"Mail", mailCases, {}⟩] := by
  simp [storedTypes, mail, mailCases, letter, identifier, string, walk_eq _ (.named _ _ _ _ _ _),
    walk_eq _ (.object _ _), walk_eq _ (.enum _ _ _ _), walk_eq _ (.primitive _ _), uses,
    fieldUses, itemUses, variantUses, Variant.serialized, Variant.ofNewtype, Variant.ofUnit,
    Variant.payloadItems, Tagging.embedsSingle, Use.stored?, List.filterMap_cons]

end Descriptor

open Descriptor in
/-- A letter is embedded in a mail, and so is its text; its identifiers are stored. -/
theorem Registry.synthesize_insertion_mail :
    ∃ r s, Registry.synthesize {} mail = (r, .ok s) ∧ r.names = ["Id", "Mail"] ∧
      r.get? "Id" = some ((Schema.primitive "string" none).withMetadata { format := "uuid" }) := by
  have hok : (Registry.synthesize {} mail).2.isOk = true := by decide +kernel
  rcases h : Registry.synthesize {} mail with ⟨r, e | s⟩
  · rw [h] at hok
    cases hok
  · obtain ⟨hnames, hstored, -⟩ := Registry.synthesize_insertion h
    rw [storedTypes_mail] at hnames hstored
    obtain ⟨content, hcontent, hget⟩ := hstored _ List.mem_cons_self
    obtain rfl := Option.some.inj hcontent
    exact ⟨r, s, rfl, hnames, hget⟩

end OpenApi
