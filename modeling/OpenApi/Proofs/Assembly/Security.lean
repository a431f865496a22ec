import OpenApi.Proofs.Assembly.Occurrences
import OpenApi.Proofs.Assembly.Requirements
import OpenApi.Proofs.Assembly.SecuritySteps
import OpenApi.Proofs.Registry.References

/-!
# Proofs/Assembly/Security — security schemes of a document

    declared schemes ─────────────╮
    schemes that references carry ┴──▸ `components.securitySchemes`  ⊇  names in `security`
    names of references ──────────────────────────────────────────────────╯

A build in which the paths are rendered holds the schemes that are declared or carried by a used
reference, and the names of all used references (`Build.Secured`): wherever they stand, so a name
may be used before it is defined.  So two definitions of a name that differ leave no document, and
under the `error` policy the unknown name that is reported is the least of all
(`assemble_security`).
-/

namespace OpenApi

/-! ## Definitions and uses -/

namespace Api

/-- **A scheme is defined under a name** — declared by the API, or carried by a reference that is
used somewhere. -/
def Defines (api : Api) (name : String) (scheme : SecurityScheme) : Prop :=
  (name, scheme) ∈ Table.ofList api.securitySchemes ∨
    ∃ r, Path.Uses api.paths r ∧ r.name = name ∧ r.scheme = some scheme

/-- Some operation refers to a name. -/
def RefersTo (api : Api) (name : String) : Prop := ∃ r, Path.Uses api.paths r ∧ r.name = name

/-- A name is referred to and not defined anywhere. -/
def Undefined (api : Api) (name : String) : Prop :=
  api.RefersTo name ∧ ∀ scheme, ¬ api.Defines name scheme

/-- A name is defined twice with different settings. -/
def Conflicting (api : Api) (name : String) : Prop :=
  ∃ scheme scheme', api.Defines name scheme ∧ api.Defines name scheme' ∧ scheme ≠ scheme'

end Api

/-- **A name occurs in a `security` entry** of rendered paths, in callbacks at any depth. -/
def Json.Requires (rendered : Json) (name : String) : Prop :=
  ∃ w t m op entries q, Json.PathsIn w rendered ∧ w.HasOperation t m op ∧
    ("security", .arr entries) ∈ op.members ∧ q ∈ entries ∧ name ∈ q.keys

theorem Path.asksFor_declare {ps : List Path} {name : String} {scheme : SecurityScheme} :
    Path.AsksFor ps (.declare name scheme) ↔
      ∃ r, Path.Uses ps r ∧ r.name = name ∧ r.scheme = some scheme := by
  refine exists_congr fun r => and_congr_right fun _ => ?_
  simp only [SecurityReference.AsksFor, reduceCtorEq, Step.declare.injEq, false_or]
  constructor
  · rintro ⟨scheme', hr, rfl, rfl⟩
    exact ⟨rfl, hr⟩
  · rintro ⟨rfl, hr⟩
    exact ⟨scheme, hr, rfl, rfl⟩

theorem Path.asksFor_refer {ps : List Path} {name : String} :
    Path.AsksFor ps (.refer name) ↔ ∃ r, Path.Uses ps r ∧ r.name = name := by
  refine exists_congr fun r => and_congr_right fun _ => ?_
  simp [SecurityReference.AsksFor, eq_comm]

/-! ## The build -/

/-- **A build holds the security of an API** — every scheme that is defined, each name once, and
every name that is referred to. -/
structure Build.Secured (b : Build) (api : Api) : Prop where
  schemes : ∀ name scheme, (name, scheme) ∈ b.schemes ↔ api.Defines name scheme
  nodup : (b.schemes.map (·.1)).Nodup
  referred : ∀ name, name ∈ b.referred ↔ api.RefersTo name

namespace Build

variable {b b' : Build} {api : Api} {options : AssemblyOptions} {r : Registry} {paths : Json}
  {default name : String}

theorem nodup_keys_ofApi (api : Api) (r : Registry) :
    ((Build.ofApi api r).schemes.map (·.1)).Nodup := by
  rw [ofApi, Table.keys_ofList]
  exact nodup_distinct _

/-- **A build with rendered paths holds the security of the API.** -/
theorem Secured.of_carryOut
    (h : (Build.ofApi api r).carryOut (renderPaths default api.paths) = (b, .ok paths)) :
    b.Secured api := by
  obtain ⟨hsteps, houtcome⟩ := carryOut_eq_ok_iff.mp h
  have hcarries := CarriesOut.of_steps hsteps
  have hasks := secures_renderPaths default api.paths
  have hmem : ∀ s : Step, s.OfSecurity →
      (s ∈ (renderPaths default api.paths).steps ↔ Path.AsksFor api.paths s) := fun s hs =>
    ⟨fun h => hasks.only s h hs, hasks.all paths houtcome s⟩
  refine ⟨fun name scheme => ?_, hcarries.schemes.nodup_keys (nodup_keys_ofApi api r),
    fun name => ?_⟩
  · simp only [hcarries.schemes.mem_iff, List.mem_filterMap, Step.declaration?_eq_some_iff,
      exists_eq_right]
    rw [hmem (.declare name scheme) trivial, Path.asksFor_declare]
    rfl
  · simp only [hcarries.referred, List.mem_append, List.mem_filterMap,
      Step.reference?_eq_some_iff, exists_eq_right]
    rw [hmem (.refer name) trivial, Path.asksFor_refer]
    simp only [ofApi, List.not_mem_nil, false_or]
    rfl

/-- A build holds one scheme under each name. -/
theorem Secured.not_conflicting (h : b.Secured api) : ¬ api.Conflicting name := by
  rintro ⟨scheme, scheme', hs, hs', hne⟩
  have hget := (Table.get?_eq_some_iff h.nodup).mpr ((h.schemes name scheme).mpr hs)
  have hget' := (Table.get?_eq_some_iff h.nodup).mpr ((h.schemes name scheme').mpr hs')
  exact hne (Option.some.inj (hget.symm.trans hget'))

/-- **Steps end in a conflict only if they declare a scheme that differs** from one that is there
already or declared among them. -/
theorem declares_of_conflict {ss : List Step}
    (h : b.steps ss = (b', .error (.api (.conflictingScheme name)))) :
    ∃ scheme scheme', scheme ≠ scheme' ∧ .declare name scheme ∈ ss ∧
      ((name, scheme') ∈ b.schemes ∨ .declare name scheme' ∈ ss) := by
  induction ss generalizing b with
  | nil => cases h
  | cons s ss ih =>
    rw [steps] at h
    split at h
    · next b₁ hb =>
      obtain ⟨scheme, scheme', hne, hscheme, hscheme'⟩ := ih h
      refine ⟨scheme, scheme', hne, List.mem_cons_of_mem _ hscheme, ?_⟩
      rcases hscheme' with hscheme' | hscheme'
      · rcases step_eq_ok hb with ⟨d, r, -, -, rfl⟩ | ⟨_, -, rfl⟩ |
          ⟨n, s', rfl, ⟨-, rfl⟩ | ⟨-, rfl⟩⟩ | ⟨_, -, rfl⟩
        · exact .inl hscheme'
        · exact .inl hscheme'
        · exact .inl hscheme'
        · refine (List.mem_append.mp hscheme').imp_right fun hs => ?_
          obtain ⟨rfl, rfl⟩ := Prod.mk.inj (List.mem_singleton.mp hs)
          exact List.mem_cons_self
        · exact .inl hscheme'
      · exact .inr (List.mem_cons_of_mem _ hscheme')
    · next e hb =>
      obtain rfl := Except.error.inj (Prod.mk.inj h).2
      cases s with
      | define d =>
        rw [step] at hb
        split at hb <;> cases hb
      | emit schema => cases hb
      | refer n => cases hb
      | declare n scheme =>
        rw [step] at hb
        split at hb
        · cases hb
        · next existing hn =>
          split at hb
          · cases hb
          · next hne =>
            obtain ⟨rfl⟩ := AssemblyError.api.inj (Except.error.inj hb)
            exact ⟨scheme, existing, Ne.symm hne, List.mem_cons_self,
              .inl (Table.mem_of_get?_eq_some hn)⟩

/-! ## The end of a build -/

theorem mem_unknownSchemes : name ∈ b.unknownSchemes ↔
    name ∈ b.referred ∧ name ∉ b.schemes.map (·.1) := by
  rw [unknownSchemes, mem_sortOn, mem_distinct, List.mem_filter, Option.isNone_iff_eq_none,
    Table.get?_eq_none_iff]

/-- **The unknown names are those that are referred to and not defined.** -/
theorem Secured.mem_unknownSchemes (h : b.Secured api) :
    name ∈ b.unknownSchemes ↔ api.Undefined name := by
  rw [Build.mem_unknownSchemes, h.referred]
  refine and_congr_right fun _ => ?_
  simp [h.schemes]

/-- The first unknown name is the least. -/
theorem Secured.isLeast_of_unknownSchemes (h : b.Secured api) {names : List String}
    (hunknown : b.unknownSchemes = name :: names) : IsLeast {n | api.Undefined n} name := by
  have hsorted : b.unknownSchemes.Pairwise (· ≤ ·) := pairwise_sortOn id _
  have hundefined : {n | api.Undefined n} = {n | n ∈ b.unknownSchemes} :=
    Set.ext fun n => h.mem_unknownSchemes.symm
  rw [hunknown] at hsorted hundefined
  rw [hundefined]
  exact Registry.isLeast_of_pairwise hsorted

/-- Tags are in order, or two of one name differ. -/
theorem document_eq_error {e : ApiFault} (h : b.document api paths = .error e) :
    ∃ name, e = .conflictingTag name := by
  have htable : ∀ (tags : List Tag) (known : List (String × Tag)) (e : ApiFault),
      tagTable known tags = .error e → ∃ name, e = .conflictingTag name := by
    intro tags
    induction tags with
    | nil => exact fun known e h => nomatch h
    | cons t tags ih =>
      intro known e h
      rw [tagTable] at h
      split at h
      · exact ih _ e h
      · split at h
        · exact ih _ e h
        · exact ⟨t.name, (Except.error.inj h).symm⟩
  rcases bind_eq_error_iff.mp h with h | ⟨_, -, h⟩
  · rcases bind_eq_error_iff.mp h with h | ⟨_, -, h⟩
    · exact htable _ _ e h
    · cases h
  · cases h

/-- **How a build ends after the check of references** — in an unknown name if there is one and the
policy says so, and else as its document does. -/
theorem finish_of_check (h : b.registry.freeze.check b.emitted = .ok ()) :
    (∃ name names, options.unknownSchemes = .error ∧ b.unknownSchemes = name :: names ∧
        (b.finish api options paths).outcome = .error (.api (.unknownScheme name))) ∨
      ((options.unknownSchemes = .error → b.unknownSchemes = []) ∧
        (b.finish api options paths).outcome =
          ((b.on b.registry.freeze).document api paths).mapError .api) := by
  rw [finish]
  dsimp only
  rw [h]
  dsimp only
  split
  · next name names hunknown hpolicy => exact .inl ⟨name, names, hpolicy, hunknown, rfl⟩
  · next hnot =>
    refine .inr ⟨fun hpolicy => ?_, ?_⟩
    · cases hunknown : b.unknownSchemes with
      | nil => rfl
      | cons name names => exact absurd hpolicy (hnot name names hunknown)
    · split
      · next hdoc => rw [hdoc]; rfl
      · next hdoc => rw [hdoc]; rfl

/-- The security schemes of a document are those of its build, in ascending order of names. -/
theorem schemes_document {doc : Document} (h : b.document api paths = .ok doc) :
    (doc.toJson.get? "components").bind (Json.get? "securitySchemes") =
      Schema.unlessEmpty (fun es => .obj (es.map fun e => (e.1, e.2.render)))
        (sortOn (·.1) b.schemes) := by
  obtain ⟨tags, -, hdoc⟩ := document_eq_ok h
  simp [hdoc, components, Json.get?_ofOptions_cons]

end Build

/-! ## The result -/

section Result

variable {api : Api} {options : AssemblyOptions} {r : Registry} {default name : String}

/-- A name in a `security` entry is that of a used reference. -/
theorem Json.Requires.uses {ps : List Path} {rendered : Json} (h : rendered.Requires name)
    (hr : (renderPaths default ps).outcome = .ok rendered) :
    ∃ r, Path.Uses ps r ∧ r.name = name := by
  obtain ⟨w, t, m, v, entries, q, hw, hop, hsecurity, hq, hname⟩ := h
  obtain ⟨qs, hlisted, houtcome⟩ := listed_of_pathsIn hw hr
  obtain ⟨op, hdeclared, hrendering⟩ := rendering_of_hasOperation houtcome hop
  obtain ⟨parts, hparts, rfl⟩ := Operation.rendering_eq_ok hrendering
  have hsome : Schema.unlessEmpty .arr parts.security = some (.arr entries) :=
    Operation.eq_of_mem_members hsecurity (by simp [Operation.members])
  obtain rfl := Json.arr.inj (Schema.eq_of_unlessEmpty hsome)
  have hrequirements := Journal.sequence_eq_ok_iff.mp hparts.security
  rw [List.forall₂_map_left_iff] at hrequirements
  obtain ⟨requirement, hmem, hvalue⟩ := exists_left_of_forall₂ hrequirements hq
  rw [SecurityRequirement.outcome_render] at hvalue
  obtain rfl := Except.ok.inj hvalue
  obtain ⟨reference, href, rfl⟩ :=
    List.mem_map.mp (SecurityRequirement.mem_keys_value.mp hname)
  obtain ⟨p, hp, ho⟩ := List.mem_flatMap.mp hdeclared
  exact ⟨reference, ⟨qs, hlisted, p, (List.mem_filter.mp hp).1, _, ho, requirement, hmem, href⟩,
    rfl⟩

/-- **An assembly ends in a conflict only if two definitions of a name differ.** -/
theorem conflicting_of_assemble
    (h : (assemble api options r).outcome = .error (.api (.conflictingScheme name))) :
    api.Conflicting name := by
  have hasks := secures_renderPaths options.defaultResponseDescription api.paths
  rcases hb : (Build.ofApi api r).carryOut
      (renderPaths options.defaultResponseDescription api.paths) with ⟨b, e | paths⟩
  · rw [(assemble_of_error hb).1] at h
    obtain rfl := Except.error.inj h
    rw [Build.carryOut] at hb
    split at hb
    · next b' e hsteps =>
      obtain ⟨-, he⟩ := Prod.mk.inj hb
      obtain rfl := Except.error.inj he
      obtain ⟨scheme, scheme', hne, hs, hs'⟩ := Build.declares_of_conflict hsteps
      refine ⟨scheme, scheme', .inr ?_, ?_, hne⟩
      · exact Path.asksFor_declare.mp (hasks.only _ hs trivial)
      · exact hs'.imp_right fun hs' => Path.asksFor_declare.mp (hasks.only _ hs' trivial)
    · exact absurd trivial (hasks.failure _ (Prod.mk.inj hb).2)
  · rw [(assemble_of_ok hb).1] at h
    cases hcheck : b.registry.freeze.check b.emitted with
    | error e =>
      rw [Build.finish_eq_error_registry.mpr hcheck] at h
      cases h
    | ok u =>
      rcases Build.finish_of_check hcheck with ⟨n, ns, -, -, hfinish⟩ | ⟨-, hfinish⟩
      · rw [hfinish] at h
        cases h
      · rw [hfinish] at h
        obtain ⟨e, hdoc, he⟩ := Journal.mapError_eq_error_iff.mp h
        obtain ⟨n, rfl⟩ := Build.document_eq_error hdoc
        cases he

/-- **A document has the security of its API.** -/
theorem exists_schemes_of_assemble {doc : Document}
    (h : (assemble api options r).outcome = .ok doc) :
    ∃ es : List (String × SecurityScheme),
      (doc.toJson.get? "components").bind (Json.get? "securitySchemes") =
        Schema.unlessEmpty (fun es => .obj (es.map fun e => (e.1, e.2.render))) es ∧
      (es.map (·.1)).Pairwise (· < ·) ∧
      (∀ name scheme, (name, scheme) ∈ es ↔ api.Defines name scheme) ∧
      (options.unknownSchemes = .error → ∀ rendered, doc.toJson.get? "paths" = some rendered →
        ∀ name, rendered.Requires name → name ∈ es.map (·.1)) := by
  rcases hb : (Build.ofApi api r).carryOut
      (renderPaths options.defaultResponseDescription api.paths) with ⟨b, e | paths⟩
  · rw [(assemble_of_error hb).1] at h
    cases h
  · have hsecured := Build.Secured.of_carryOut hb
    rw [(assemble_of_ok hb).1] at h
    obtain ⟨hcheck, hdoc⟩ := Build.finish_eq_ok h
    refine ⟨sortOn (·.1) b.schemes, Build.schemes_document hdoc, ascending_sortOn hsecured.nodup,
      fun name scheme => ?_, fun hpolicy rendered hpaths name hname => ?_⟩
    · rw [mem_sortOn, hsecured.schemes]
    · have hrendered := Build.paths_document hdoc
      obtain rfl := Option.some.inj (hrendered.symm.trans hpaths)
      have huses := hname.uses (Build.carryOut_eq_ok_iff.mp hb).2
      have hunknown : b.unknownSchemes = [] := by
        rcases Build.finish_of_check hcheck with ⟨n, ns, -, -, hfinish⟩ | ⟨hnone, -⟩
        · rw [hfinish] at h
          cases h
        · exact hnone hpolicy
      rw [((sortOn_perm _ _).map _).mem_iff]
      by_contra hnot
      have hmem : name ∈ b.unknownSchemes :=
        Build.mem_unknownSchemes.mpr ⟨(hsecured.referred name).mpr huses, hnot⟩
      rw [hunknown] at hmem
      exact absurd hmem List.not_mem_nil

/-- **An assembly whose references hold ends in an unknown name exactly if there is one and the
policy refuses it** — and in the least. -/
theorem unknown_of_assemble {b : Build} {paths : Json}
    (hb : (Build.ofApi api r).carryOut
      (renderPaths options.defaultResponseDescription api.paths) = (b, .ok paths))
    (hcheck : b.registry.freeze.check b.emitted = .ok ()) :
    (assemble api options r).outcome = .error (.api (.unknownScheme name)) ↔
      options.unknownSchemes = .error ∧ IsLeast {n | api.Undefined n} name := by
  have hsecured := Build.Secured.of_carryOut hb
  rw [(assemble_of_ok hb).1]
  rcases Build.finish_of_check hcheck with ⟨n, ns, hpolicy, hunknown, hfinish⟩ | ⟨hnone, hfinish⟩
  · have hleast := hsecured.isLeast_of_unknownSchemes hunknown
    rw [hfinish]
    constructor
    · intro h
      obtain ⟨rfl⟩ := AssemblyError.api.inj (Except.error.inj h)
      exact ⟨hpolicy, hleast⟩
    · rintro ⟨-, hname⟩
      rw [hname.unique hleast]
  · rw [hfinish]
    constructor
    · intro h
      obtain ⟨e, hdoc, he⟩ := Journal.mapError_eq_error_iff.mp h
      obtain ⟨n, rfl⟩ := Build.document_eq_error hdoc
      cases he
    · rintro ⟨hpolicy, hname, -⟩
      have hmem := hsecured.mem_unknownSchemes.mpr hname
      rw [hnone hpolicy] at hmem
      exact absurd hmem List.not_mem_nil

/-- Of the names without a definition one is the least. -/
theorem exists_isLeast_undefined {b : Build} (h : b.Secured api) (hname : api.Undefined name) :
    ∃ least, IsLeast {n | api.Undefined n} least := by
  cases hunknown : b.unknownSchemes with
  | nil =>
    have hmem := h.mem_unknownSchemes.mpr hname
    rw [hunknown] at hmem
    exact absurd hmem List.not_mem_nil
  | cons least names => exact ⟨least, h.isLeast_of_unknownSchemes hunknown⟩

/-- **Security names are accounted for.**  The security schemes of a document are those that are
declared or carried by a reference, in callbacks at any depth, and under the `error` policy they
have every name that occurs in a `security` entry.  An assembly ends in a conflict only if two
definitions of a name differ, and if they do it comes to no document.  If the paths are rendered and
the references hold, then it ends in an unknown name exactly if the policy is `error` and some name
is referred to without a definition anywhere, and then in the least one. -/
theorem assemble_security (api : Api) (options : AssemblyOptions) (r : Registry) :
    (∀ doc, (assemble api options r).outcome = .ok doc → ∃ es : List (String × SecurityScheme),
      (doc.toJson.get? "components").bind (Json.get? "securitySchemes") =
        Schema.unlessEmpty (fun es => .obj (es.map fun e => (e.1, e.2.render))) es ∧
      (es.map (·.1)).Pairwise (· < ·) ∧
      (∀ name scheme, (name, scheme) ∈ es ↔ api.Defines name scheme) ∧
      (options.unknownSchemes = .error → ∀ rendered, doc.toJson.get? "paths" = some rendered →
        ∀ name, rendered.Requires name → name ∈ es.map (·.1))) ∧
    (∀ name, (assemble api options r).outcome = .error (.api (.conflictingScheme name)) →
      api.Conflicting name ∧ (AssemblyError.api (.conflictingScheme name)).message =
        "Security scheme '" ++ name ++ "' is defined twice with different settings.") ∧
    (∀ name, api.Conflicting name → ∃ e, (assemble api options r).outcome = .error e) ∧
    ∀ b paths, (Build.ofApi api r).carryOut
        (renderPaths options.defaultResponseDescription api.paths) = (b, .ok paths) →
      b.registry.freeze.check b.emitted = .ok () →
      ((∃ name, (assemble api options r).outcome = .error (.api (.unknownScheme name))) ↔
        options.unknownSchemes = .error ∧ ∃ name, api.Undefined name) ∧
      ∀ name, (assemble api options r).outcome = .error (.api (.unknownScheme name)) →
        IsLeast {n | api.Undefined n} name := by
  refine ⟨fun doc => exists_schemes_of_assemble,
    fun name h => ⟨conflicting_of_assemble h, rfl⟩, fun name hname => ?_,
    fun b paths hb hcheck => ⟨⟨?_, ?_⟩, fun name h => ((unknown_of_assemble hb hcheck).mp h).2⟩⟩
  · rcases hb : (Build.ofApi api r).carryOut
        (renderPaths options.defaultResponseDescription api.paths) with ⟨b, e | paths⟩
    · exact ⟨e, (assemble_of_error hb).1⟩
    · exact absurd hname (Build.Secured.of_carryOut hb).not_conflicting
  · rintro ⟨name, h⟩
    obtain ⟨hpolicy, hleast⟩ := (unknown_of_assemble hb hcheck).mp h
    exact ⟨hpolicy, name, hleast.1⟩
  · rintro ⟨hpolicy, name, hname⟩
    obtain ⟨least, hleast⟩ := exists_isLeast_undefined (Build.Secured.of_carryOut hb) hname
    exact ⟨least, (unknown_of_assemble hb hcheck).mpr ⟨hpolicy, hleast⟩⟩

/-- An operation that answers without a body, with some requirements and callbacks. -/
def Operation.securedBy (security : List SecurityRequirement)
    (callbacks : List (String × List Path)) : Operation Path :=
  { responses := [(204, {})], security, callbacks }

/-- An API whose first path uses some names, of which a callback of the second path defines
`oauth`. -/
def Api.usingNames (names : List String) : Api where
  info := { title := "Pets", version := "1" }
  paths := [⟨[.literal "pets"], [(.get, .securedBy [.ofNames names] [])], [], none, none⟩,
    ⟨[.literal "hooks"], [(.post, .securedBy [] [("sent", [⟨[.literal "done"],
      [(.put, .securedBy [⟨[{ name := "oauth", scheme := some (.http .bearer none none) }]⟩] [])],
      [], none, none⟩])])], [], none, none⟩]

/-- A name may be used before its definition in a callback; of two names without one the least is
reported. -/
theorem assemble_security_oauth :
    (∃ doc, (assemble (.usingNames ["oauth"]) { unknownSchemes := .error } {}).outcome = .ok doc ∧
      ∃ es : List (String × SecurityScheme),
        (doc.toJson.get? "components").bind (Json.get? "securitySchemes") =
          Schema.unlessEmpty (fun es => .obj (es.map fun e => (e.1, e.2.render))) es ∧
        ("oauth", .http .bearer none none) ∈ es) ∧
    (assemble (.usingNames ["oauth", "key", "basic"]) { unknownSchemes := .error } {}).outcome =
      .error (.api (.unknownScheme "basic")) ∧
    IsLeast {n | (Api.usingNames ["oauth", "key", "basic"]).Undefined n} "basic" := by
  refine ⟨?_, rfl, ?_⟩
  · obtain ⟨doc, hdoc⟩ : ∃ doc, (assemble (.usingNames ["oauth"]) { unknownSchemes := .error }
        {}).outcome = .ok doc := ⟨_, rfl⟩
    obtain ⟨es, hes, -, hmem, -⟩ := (assemble_security _ _ _).1 doc hdoc
    have huses : Path.Uses (Api.usingNames ["oauth"]).paths
        { name := "oauth", scheme := some (.http .bearer none none) } :=
      ⟨_, .callback (List.mem_cons_of_mem _ List.mem_cons_self) List.mem_cons_self
        List.mem_cons_self .self, _, List.mem_cons_self, _, List.mem_cons_self, _,
        List.mem_cons_self, List.mem_cons_self⟩
    exact ⟨doc, hdoc, es, hes, (hmem _ _).mpr (.inr ⟨_, huses, rfl, rfl⟩)⟩
  · exact ((assemble_security _ { unknownSchemes := .error } {}).2.2.2 _ _ rfl rfl).2 _ rfl

end Result

end OpenApi
