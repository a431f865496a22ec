import OpenApi.Proofs.Assembly.Dangling
import OpenApi.Proofs.Pointer
import OpenApi.Proofs.Registry.History

/-!
# Proofs/Assembly/Pointers — where the references of a document lead

    components ─ schemas ─┬─ Pet      ◂─── #/components/schemas/Pet
                          ├─ a
                          │  ╰─ b     ◂─── #/components/schemas/a/b
                          ╰─ a/b           (nothing leads here)

A `$ref` in a document is the name of a stored schema behind the place of the schemas.  The name is
written as it is, but read as a pointer: in a name with a slash or an escape the first piece is
looked up, and the others are followed from there (`Build.at?_document`).  So a reference leads to
its schema if the name is plain, and else to another place.
-/

namespace OpenApi

open Schema (referencePrefix)

/-- A name is stored once, whatever has been done to a registry. -/
theorem Registry.Reachable.nodup_names {r : Registry} (h : r.Reachable) : r.names.Nodup := by
  induction h with
  | empty => exact List.nodup_nil
  | synthesize d _ ih => exact (Gathers.synthesize _ d).nodup_names ih
  | freeze _ ih => exact ih
  | assemble api options _ ih =>
    obtain ⟨s, hs, ⟨-, heq⟩ | ⟨-, heq⟩⟩ := gathers_assemble api options _
    · exact heq ▸ hs.nodup_names ih
    · exact heq ▸ hs.nodup_names ih

namespace Build

variable {b : Build} {api : Api} {options : AssemblyOptions} {paths : Json}

/-- **What stands at a place behind the schemas** — the rest of the place is followed in the schema
whose name comes first. -/
theorem at?_document {doc : Document} (h : b.document api paths = .ok doc)
    (hn : b.registry.names.Nodup) (name : String) (rest : Pointer) :
    doc.toJson.at? ("components" :: "schemas" :: name :: rest) =
      (b.registry.get? name).bind fun s => s.toJson.at? rest := by
  have hcomponents : doc.toJson.child? "components" = some b.components := components_document h
  have hschemas : b.components.child? "schemas" = Schema.unlessEmpty
    (fun es => .obj (es.map fun e => (e.1, e.2.toJson))) b.registry.all := schemas_components b
  have hget : Table.get? name b.registry.all = b.registry.get? name := Table.get?_sortOn name hn
  rw [Json.at?, hcomponents, Option.bind_some, Json.at?, hschemas, ← hget]
  cases b.registry.all with
  | nil => rfl
  | cons e es =>
    dsimp only [Schema.unlessEmpty]
    rw [Option.bind_some, Json.at?, Json.child?, Table.get?_map, Option.bind_map]
    rfl

/-- **Where the reference to a stored schema leads.** -/
theorem target?_document {doc : Document} (h : b.document api paths = .ok doc)
    (hn : b.registry.names.Nodup) {name first : String} {rest : Pointer}
    (hname : Pointer.tokens name.toList = first :: rest) :
    doc.target? (referencePrefix ++ name) =
      (b.registry.get? first).bind fun s => s.toJson.at? rest := by
  rw [Document.target?, Pointer.ofReference?_name, hname, Option.bind_some]
  exact at?_document h hn first rest

/-- Each reference of a document is the text of a stored schema's name. -/
theorem Rendered.exists_stored (h : b.Rendered paths) {doc : Document}
    (hdoc : (b.finish api options paths).outcome = .ok doc) {t : String}
    (ht : doc.toJson.Refers t) :
    ∃ name schema, t = referencePrefix ++ name ∧ b.registry.freeze.get? name = some schema := by
  obtain ⟨name, hname, rfl⟩ := h.references_of_finish hdoc ht
  rw [schemaNames_document (finish_eq_ok hdoc).2] at hname
  have hstored : (b.registry.freeze.get? name).isSome = true :=
    Table.get?_isSome_iff.mpr (((sortOn_perm _ _).map _).mem_iff.mp hname)
  obtain ⟨schema, hschema⟩ := Option.isSome_iff_exists.mp hstored
  exact ⟨name, schema, rfl, hschema⟩

end Build

/-- **Where the references of a document lead.**  Each is the name of a stored schema behind a
prefix, and is read as the place of that schema exactly if the name is plain; then it leads there.
Of any other name the first piece is looked up, and the rest is followed in what is stored there. -/
theorem assemble_pointers {r : Registry} (hr : r.Reachable) {api : Api}
    {options : AssemblyOptions} {doc : Document}
    (hdoc : (assemble api options r).outcome = .ok doc) {t : String} (ht : doc.toJson.Refers t) :
    ∃ name schema, t = referencePrefix ++ name ∧
      (assemble api options r).registry.get? name = some schema ∧
      (Pointer.ofReference? t = some ["components", "schemas", name] ↔ Pointer.Plain name) ∧
      (Pointer.Plain name → doc.target? t = some schema.toJson) ∧
      ∃ first rest, Pointer.tokens name.toList = first :: rest ∧
        doc.target? t =
          ((assemble api options r).registry.get? first).bind fun s => s.toJson.at? rest := by
  have hnodup := (hr.assemble api options).nodup_names
  cases h : (Build.ofApi api r).carryOut
      (renderPaths options.defaultResponseDescription api.paths) with
  | mk b o =>
    cases o with
    | error e =>
      rw [(assemble_of_error h).1] at hdoc
      cases hdoc
    | ok paths =>
      rw [(assemble_of_ok h).1] at hdoc
      rw [(assemble_of_ok h).2] at hnodup ⊢
      have hb : b.Rendered paths := .of_carryOut hr.wellFormed rfl h
      obtain ⟨name, schema, rfl, hschema⟩ := hb.exists_stored hdoc ht
      have htarget := fun first rest (h : Pointer.tokens name.toList = first :: rest) =>
        Build.target?_document (Build.finish_eq_ok hdoc).2 hnodup h
      refine ⟨name, schema, rfl, hschema, ?_, fun hplain => ?_, ?_⟩
      · rw [Pointer.ofReference?_name, ← Pointer.tokens_eq_singleton_iff]
        simp
      · rw [htarget name [] ((Pointer.tokens_eq_singleton_iff name).mpr hplain), hschema]
        rfl
      · obtain ⟨first, rest, htokens⟩ := List.exists_cons_of_ne_nil
          (Pointer.tokens_ne_nil name.toList)
        exact ⟨first, rest, htokens, htarget first rest htokens⟩

/-- The reference to a pet leads to the schema of pets. -/
theorem assemble_pointers_pet :
    (assemble (.returning (.named "Pet" .any none none none false)) {} {}).outcome =
        .ok Document.pets ∧
      Document.pets.toJson.Refers "#/components/schemas/Pet" ∧
      Document.pets.target? "#/components/schemas/Pet" = some Schema.any.toJson := by
  have hpets : (assemble (.returning (.named "Pet" .any none none none false)) {} {}).outcome =
      .ok Document.pets := rfl
  have hrefers : Document.pets.toJson.Refers "#/components/schemas/Pet" := by
    simp [Document.pets, Document.toJson, contentOf, jsonMediaType, Json.RefersAt]
  obtain ⟨name, schema, ht, hschema, -, hplain, -⟩ := assemble_pointers .empty hpets hrefers
  obtain rfl : "Pet" = name := (String.append_right_inj referencePrefix).mp ht
  obtain rfl : Schema.any = schema := Option.some.inj hschema
  exact ⟨hpets, hrefers, hplain (by decide)⟩

/-- A text or a number, under names with a slash and with what looks like an escape. -/
def Descriptor.slashed : Descriptor :=
  .composite .oneOf
    [.named "a/b" (string none) none none none false,
      .named "a~1b" (number none) none none none false]

/-- The document of an operation that returns one of the two. -/
def Document.slashed : Document where
  members :=
    [("openapi", .str "3.0.3"), ("info", .obj [("title", .str "Pets"), ("version", .str "1")]),
      ("paths", .obj [("/pets", .obj [("get", .obj [("responses", .obj [("200", .obj
        [("description", .str "OK"), ("content", contentOf (.obj [("oneOf", .arr
          [.obj [("$ref", .str "#/components/schemas/a/b")],
            .obj [("$ref", .str "#/components/schemas/a~1b")]])]))])])])])]),
      ("components", .obj [("schemas", .obj
        [("a/b", .obj [("type", .str "string")]), ("a~1b", .obj [("type", .str "number")])])])]

/-- **References that do not lead to their schemas** — one with a slash leads nowhere, and one with
what looks like an escape leads to the schema of the other. -/
theorem assemble_pointers_slash :
    let assembled := assemble (.returning .slashed) {} {}
    assembled.outcome = .ok Document.slashed ∧
      (Document.slashed.toJson.Refers "#/components/schemas/a/b" ∧
        assembled.registry.get? "a/b" = some (Schema.primitive "string" none) ∧
        Document.slashed.target? "#/components/schemas/a/b" = none) ∧
      Document.slashed.toJson.Refers "#/components/schemas/a~1b" ∧
        assembled.registry.get? "a~1b" = some (Schema.primitive "number" none) ∧
        Document.slashed.target? "#/components/schemas/a~1b" =
          some (Schema.primitive "string" none).toJson := by
  refine ⟨rfl, ⟨?_, rfl, rfl⟩, ?_, rfl, rfl⟩ <;>
    simp [Document.slashed, Document.toJson, contentOf, jsonMediaType, Json.RefersAt]

end OpenApi
