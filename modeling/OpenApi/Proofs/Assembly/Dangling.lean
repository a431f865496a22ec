import OpenApi.Proofs.Assembly.Document
import OpenApi.Proofs.Assembly.References
import OpenApi.Proofs.Registry.References

/-!
# Proofs/Assembly/Dangling — no reference of a document dangles

    `$ref` in the paths ──▸ noted schemas ──╮
                                            ├──▸ names of `components.schemas`
    `$ref` in the schemas ─▸ stored schemas ╯

What rendered paths refer to has been noted (`accounts_renderPaths`), and the references that a
schema shows are those it is checked for (`Schema.refers_toJson`).  So an assembly ends in the check
of references exactly when a rendered reference dangles, and a document that comes out has none
(`assemble_references`).
-/

namespace OpenApi

open Schema (referencePrefix)

/-! ## The parts of a document -/

section Parts

variable {t : String}

@[simp] theorem not_refers_described (key value : String) (o : Option String)
    (hk : key ≠ "$ref") : ¬ (described key value o).Refers t := by
  simp (disch := decide) only [described, Json.refers_ofOptions_cons, Json.refersAt_of_ne,
    Json.refersAt_of_ne hk, Option.some.injEq, exists_eq_left', Schema.not_refers_text,
    Json.not_refers_str, Json.not_refers_ofOptions_nil, or_false, not_false_eq_true]

theorem not_refers_info (i : ApiInfo) : ¬ i.render.Refers t := by
  simp (disch := decide) only [ApiInfo.render, Json.refers_ofOptions_cons, Json.refersAt_of_ne,
    Option.some.injEq, exists_eq_left', Schema.not_refers_text, Json.not_refers_str,
    Json.not_refers_ofOptions_nil, or_false, not_false_eq_true]

theorem not_refers_tags {tags : List Tag} {rendered : List Json}
    (h : renderTags tags = .ok rendered) : ¬ (Json.arr rendered).Refers t := by
  rw [renderTags] at h
  cases ht : tagTable [] tags with
  | error e =>
    rw [ht] at h
    cases h
  | ok table =>
    rw [ht] at h
    obtain rfl := Except.ok.inj h
    rw [Json.refers_arr]
    rintro ⟨v, hv, hr⟩
    obtain ⟨p, -, rfl⟩ := List.mem_map.mp hv
    exact not_refers_described _ _ _ (by decide) hr

theorem not_refers_servers (servers : List Server) :
    ¬ (Json.arr (servers.map (·.render))).Refers t := by
  rw [Json.refers_arr]
  rintro ⟨v, hv, hr⟩
  obtain ⟨s, -, rfl⟩ := List.mem_map.mp hv
  exact not_refers_described _ _ _ (by decide) hr

theorem not_refers_scheme (key : String) (s : SecurityScheme) :
    ¬ Json.RefersAt key s.render t := by
  cases s <;>
    simp (disch := decide) only [SecurityScheme.render, Json.refersAt_ofOptions,
      Json.refers_ofOptions_cons, Json.refersAt_of_ne, Option.some.injEq, exists_eq_left',
      Schema.not_refers_text, Json.not_refers_str, Json.not_refers_ofOptions_nil, or_false,
      not_false_eq_true]

end Parts

namespace Build

variable {b : Build} {api : Api} {options : AssemblyOptions} {paths : Json} {t : String}

/-- The components refer to what the stored schemas refer to. -/
theorem refers_components :
    b.components.Refers t ↔ ∃ e ∈ b.registry.entries, e.2.toJson.Refers t := by
  have hnone : ¬ (Json.obj []).Refers t := by simp
  have hschemes : ¬ ∃ v, Schema.unlessEmpty
      (fun es : List (String × SecurityScheme) => .obj (es.map fun e => (e.1, e.2.render)))
      (sortOn (·.1) b.schemes) = some v ∧ v.Refers t := by
    rw [Schema.refers_unlessEmpty (by simp)]
    simp [not_refers_scheme]
  have hschemas : (∃ v, Schema.unlessEmpty
      (fun es : List (String × Schema) => .obj (es.map fun e => (e.1, e.2.toJson)))
      b.registry.all = some v ∧ v.Refers t) ↔
        ∃ e ∈ b.registry.entries, e.2.toJson.Refers t := by
    rw [Schema.refers_unlessEmpty (by simp)]
    simp [Registry.all, Schema.refersAt_toJson]
  simp (disch := decide) only [components, Json.refers_ofOptions_cons, Json.refersAt_of_ne,
    hschemas, hschemes, Json.not_refers_ofOptions_nil, or_false]

/-- **A document refers to what its paths and the stored schemas refer to.** -/
theorem refers_document {doc : Document} (h : b.document api paths = .ok doc) :
    doc.toJson.Refers t ↔
      paths.Refers t ∨ ∃ e ∈ b.registry.entries, e.2.toJson.Refers t := by
  obtain ⟨tags, ht, hdoc⟩ := document_eq_ok h
  have htags : ¬ ∃ v, Schema.unlessEmpty Json.arr tags = some v ∧ v.Refers t := by
    rw [Schema.refers_unlessEmpty (by simp)]
    exact not_refers_tags ht
  have hservers : ¬ ∃ v, Schema.unlessEmpty Json.arr (api.servers.map (·.render)) = some v ∧
      v.Refers t := by
    rw [Schema.refers_unlessEmpty (by simp)]
    exact not_refers_servers api.servers
  rw [hdoc]
  simp (disch := decide) only [Json.refers_ofOptions_cons, Json.refersAt_of_ne,
    Option.some.injEq, exists_eq_left', Json.not_refers_str, not_refers_info, htags, hservers,
    refers_components, Json.not_refers_ofOptions_nil, false_or, or_false]

/-! ## Dangling references -/

/-- **A name dangles** — a rendered path or a stored schema has a `$ref` to it, and no schema is
stored under it. -/
def Dangles (b : Build) (paths : Json) (name : String) : Prop :=
  (paths.Refers (referencePrefix ++ name) ∨
      ∃ e ∈ b.registry.entries, e.2.toJson.Refers (referencePrefix ++ name)) ∧
    name ∉ b.registry.names

/-- **A build in which the paths are rendered** — its schemas are well formed, and those it has
noted are what the paths refer to. -/
structure Rendered (b : Build) (paths : Json) : Prop where
  stored : b.registry.WellFormed
  noted : ∀ s ∈ b.emitted, s.WellFormed
  refers : ∀ t, paths.Refers t ↔ ∃ s ∈ b.emitted, s.toJson.Refers t

namespace Rendered

theorem of_carryOut {b' : Build} {default : String} {ps : List Path}
    (hr : b.registry.WellFormed) (hb : b.emitted = [])
    (h : b.carryOut (renderPaths default ps) = (b', .ok paths)) : b'.Rendered paths := by
  have hstored := wellFormed_carryOut hr default ps
  rw [h] at hstored
  obtain ⟨hsteps, hvalue⟩ := carryOut_eq_ok_iff.mp h
  have hmem : ∀ s, s ∈ b'.emitted ↔ Step.emit s ∈ (renderPaths default ps).steps := by
    intro s
    rw [mem_emitted_of_steps hsteps, hb]
    simp
  have hwell := (ensures_renderPaths Step.covers_wellFormed default ps).step
  refine ⟨hstored, fun s hs => hwell _ ((hmem s).mp hs), fun t => ?_⟩
  have haccount : Json.RefersAt "" paths t ↔ False ∨ Emits (renderPaths default ps).steps t :=
    accounts_renderPaths default ps "" _ _ (Journal.run_of_outcome hvalue) t
  rw [Json.refersAt_of_ne (by decide), false_or] at haccount
  rw [haccount, Emits]
  simp [hmem]

/-- **What dangles is what the check misses.** -/
theorem dangles_iff (h : b.Rendered paths) {name : String} :
    b.Dangles paths name ↔ b.registry.freeze.Misses b.emitted name := by
  have hentries : (∃ e ∈ b.registry.entries, e.2.toJson.Refers (referencePrefix ++ name)) ↔
      ∃ e ∈ b.registry.entries, name ∈ e.2.references :=
    exists_congr fun e => and_congr_right fun hm => Schema.refers_toJson_name (h.stored e hm)
  have hemitted : (∃ s ∈ b.emitted, s.toJson.Refers (referencePrefix ++ name)) ↔
      ∃ s ∈ b.emitted, name ∈ s.references :=
    exists_congr fun s => and_congr_right fun hm => Schema.refers_toJson_name (h.noted s hm)
  rw [Dangles, Registry.Misses, h.refers, hentries, hemitted, Registry.entries_freeze, or_comm]
  rfl

/-- Whatever a rendered path or a stored schema refers to is the text of a name. -/
theorem eq_text (h : b.Rendered paths)
    (ht : paths.Refers t ∨ ∃ e ∈ b.registry.entries, e.2.toJson.Refers t) :
    ∃ name, t = referencePrefix ++ name := by
  rcases ht with ht | ⟨e, hm, ht⟩
  · obtain ⟨s, hs, ht⟩ := (h.refers t).mp ht
    exact ((Schema.refers_toJson (h.noted s hs)).mp ht).imp fun _ hn => hn.2
  · exact ((Schema.refers_toJson (h.stored e hm)).mp ht).imp fun _ hn => hn.2

/-- **Each reference of a document names one of its schemas.** -/
theorem references_of_finish (h : b.Rendered paths) {doc : Document}
    (hdoc : (b.finish api options paths).outcome = .ok doc) (ht : doc.toJson.Refers t) :
    ∃ name ∈ doc.schemaNames, t = referencePrefix ++ name := by
  obtain ⟨hcheck, hdoc⟩ := finish_eq_ok hdoc
  have hrefers := (refers_document hdoc).mp ht
  obtain ⟨name, rfl⟩ := h.eq_text hrefers
  have hstored : name ∈ b.registry.names := by
    by_contra hn
    exact Registry.check_eq_ok_iff.mp hcheck name (h.dangles_iff.mp ⟨hrefers, hn⟩)
  refine ⟨name, ?_, rfl⟩
  rw [schemaNames_document hdoc]
  exact ((sortOn_perm _ _).map _).mem_iff.mpr hstored

/-- **A build ends in a dangling reference exactly at the least name that dangles.** -/
theorem finish_eq_dangling_iff (h : b.Rendered paths) {name : String} :
    (b.finish api options paths).outcome = .error (.registry (.dangling name)) ↔
      IsLeast {n | b.Dangles paths n} name := by
  rw [finish_eq_error_registry, Registry.check_eq_error_iff]
  simp [h.dangles_iff]

theorem exists_dangling (h : b.Rendered paths) {name : String} (hname : b.Dangles paths name) :
    ∃ least, (b.finish api options paths).outcome = .error (.registry (.dangling least)) := by
  cases hcheck : b.registry.freeze.check b.emitted with
  | ok u =>
    exact absurd (h.dangles_iff.mp hname) (Registry.check_eq_ok_iff.mp hcheck name)
  | error e =>
    obtain ⟨least, rfl, -⟩ := Registry.check_eq_error_iff.mp hcheck
    exact ⟨least, finish_eq_error_registry.mpr hcheck⟩

end Rendered

end Build

/-- **No dangling references, and no false alarms** — on every reachable registry.  Each `$ref` in
a document names one of its schemas; and once the paths are rendered, the assembly ends in a
dangling reference exactly if some name dangles, and then in the least one. -/
theorem assemble_references {r : Registry} (hr : r.Reachable) (api : Api)
    (options : AssemblyOptions) :
    (∀ doc, (assemble api options r).outcome = .ok doc → ∀ t, doc.toJson.Refers t →
        ∃ name ∈ doc.schemaNames, t = referencePrefix ++ name) ∧
      ∀ b paths, (Build.ofApi api r).carryOut
          (renderPaths options.defaultResponseDescription api.paths) = (b, .ok paths) →
        ((∃ name, (assemble api options r).outcome = .error (.registry (.dangling name))) ↔
            ∃ name, b.Dangles paths name) ∧
          ∀ name, (assemble api options r).outcome = .error (.registry (.dangling name)) →
            IsLeast {n | b.Dangles paths n} name := by
  cases h : (Build.ofApi api r).carryOut
      (renderPaths options.defaultResponseDescription api.paths) with
  | mk b o =>
    cases o with
    | error e =>
      rw [(assemble_of_error h).1]
      exact ⟨fun doc hdoc => (nomatch hdoc), fun b' paths h' => nomatch h'⟩
    | ok paths =>
      have hb : b.Rendered paths := .of_carryOut hr.wellFormed rfl h
      rw [(assemble_of_ok h).1]
      refine ⟨fun doc hdoc t ht => hb.references_of_finish hdoc ht, ?_⟩
      rintro b' paths' ⟨⟩
      refine ⟨⟨?_, ?_⟩, fun name hname => hb.finish_eq_dangling_iff.mp hname⟩
      · rintro ⟨name, hname⟩
        exact ⟨name, (hb.finish_eq_dangling_iff.mp hname).1⟩
      · rintro ⟨name, hname⟩
        exact hb.exists_dangling hname

/-- An API with one operation, which returns a value of the given shape. -/
def Api.returning (d : Descriptor) : Api where
  info := { title := "Pets", version := "1" }
  paths := [⟨[.literal "pets"], [(.get, { responses := [(200, { schema := some d })] })], [],
    none, none⟩]

/-- The document of an operation that returns a value of a named type without any structure. -/
def Document.pets : Document where
  members :=
    [("openapi", .str "3.0.3"), ("info", .obj [("title", .str "Pets"), ("version", .str "1")]),
      ("paths", .obj [("/pets", .obj [("get", .obj [("responses", .obj [("200", .obj
        [("description", .str "OK"), ("content",
          contentOf (.obj [("$ref", .str "#/components/schemas/Pet")]))])])])])]),
      ("components", .obj [("schemas", .obj [("Pet", .obj [])])])]

/-- A named type is found among the schemas; a reference to a name that is defined nowhere
dangles. -/
theorem assemble_references_pet :
    ((assemble (.returning (.named "Pet" .any none none none false)) {} {}).outcome =
        .ok Document.pets ∧ Document.pets.toJson.Refers "#/components/schemas/Pet" ∧
        ∃ name ∈ Document.pets.schemaNames, "#/components/schemas/Pet" = referencePrefix ++ name) ∧
      ∃ b paths, (Build.ofApi (.returning (.reference "Pet")) {}).carryOut
          (renderPaths "OK" (Api.returning (.reference "Pet")).paths) = (b, .ok paths) ∧
        (assemble (.returning (.reference "Pet")) {} {}).outcome =
            .error (.registry (.dangling "Pet")) ∧
          IsLeast {n | b.Dangles paths n} "Pet" := by
  have hpets : (assemble (.returning (.named "Pet" .any none none none false)) {} {}).outcome =
      .ok Document.pets := rfl
  have hrefers : Document.pets.toJson.Refers "#/components/schemas/Pet" := by
    simp [Document.pets, Document.toJson, contentOf, jsonMediaType, Json.RefersAt]
  have hdangling : (assemble (.returning (.reference "Pet")) {} {}).outcome =
      .error (.registry (.dangling "Pet")) := rfl
  obtain ⟨hnames, -⟩ := assemble_references .empty
    (.returning (.named "Pet" .any none none none false)) {}
  obtain ⟨-, hleast⟩ := assemble_references .empty (.returning (.reference "Pet")) {}
  refine ⟨⟨hpets, hrefers, hnames _ hpets _ hrefers⟩, _, _, rfl, hdangling, ?_⟩
  exact (hleast _ _ rfl).2 _ hdangling

end OpenApi
