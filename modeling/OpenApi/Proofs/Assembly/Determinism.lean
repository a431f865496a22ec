import OpenApi.Proofs.Assembly.Confluence
import OpenApi.Proofs.Assembly.Document
import OpenApi.Proofs.Assembly.OrderIndependence
import OpenApi.Proofs.Schema.References

/-!
# Proofs/Assembly/Determinism — an assembly does not depend on the order of declarations

    Api ──Reordered── Api'
     │                 │
     ▼                 ▼
    document ──────── document'      equal, apart from the order of paths

Paths in another order ask for the same steps in some order, and steps in another order leave a
build that holds the same.  What is read off a build in the end is sorted (`assemble_reordered`).
-/

namespace OpenApi

open Journal (SameEnd)

/-! ## Reading builds that hold the same -/

/-- The elements of a list, sorted and without repeats, do not show its order. -/
theorem sortOn_distinct {xs ys : List String} (h : ∀ a, a ∈ xs ↔ a ∈ ys) :
    sortOn id (distinct xs) = sortOn id (distinct ys) := by
  have hp : (distinct xs).Perm (distinct ys) := by
    refine (List.perm_ext_iff_of_nodup (nodup_distinct xs) (nodup_distinct ys)).mpr fun a => ?_
    rw [mem_distinct, mem_distinct, h]
  refine sortOn_eq_of_perm hp ?_
  rw [List.map_id]
  exact nodup_distinct xs

namespace Build.Same

variable {b c : Build}

theorem freeze (h : b.Same c) : (b.on b.registry.freeze).Same (c.on c.registry.freeze) :=
  ⟨rfl, h.entries, h.schemes, h.emitted, h.referred⟩

theorem contains (h : b.Same c) (name : String) :
    b.registry.contains name = c.registry.contains name := by
  rw [Registry.contains, Registry.contains, Registry.get?, Registry.get?, h.entries.get?]

theorem check (h : b.Same c) :
    b.registry.freeze.check b.emitted = c.registry.freeze.check c.emitted := by
  have hnames : b.registry.freeze.danglingNames b.emitted =
      c.registry.freeze.danglingNames c.emitted := by
    have hcontains : ∀ name, b.registry.freeze.contains name = c.registry.freeze.contains name :=
      h.contains
    simp only [Registry.danglingNames]
    refine sortOn_distinct fun name => ?_
    rw [List.mem_filter, List.mem_filter, hcontains, Schema.mem_memberReferences,
      Schema.mem_memberReferences]
    simp only [List.mem_append, List.mem_map, Registry.entries_freeze, h.entries.perm.mem_iff,
      h.emitted.mem_iff]
  rw [Registry.check, Registry.check, hnames]

theorem unknownSchemes (h : b.Same c) : b.unknownSchemes = c.unknownSchemes := by
  refine sortOn_distinct fun name => ?_
  rw [List.mem_filter, List.mem_filter, h.referred.mem_iff, h.schemes.get?]

theorem components (h : b.Same c) : b.components = c.components := by
  rw [Build.components, Build.components, Registry.all, Registry.all, h.entries.sorted,
    h.schemes.sorted]

/-- **Renderings that come to the same are carried out to the same.** -/
theorem carryOut {place : Place} {r r' : Rendering Json} (h : b.Same c) (hr : AkinAt place r r') :
    (∃ b' d c' e, b.carryOut r = (b', .error d) ∧ c.carryOut r' = (c', .error e)) ∨
      ∃ b' v c' w, b.carryOut r = (b', .ok v) ∧ c.carryOut r' = (c', .ok w) ∧ b'.Same c' ∧
        Json.AgreesAt place v w := by
  obtain @⟨ss, ts, v, w, hp, hvw⟩ | @⟨ss, ts, d, e⟩ := hr
  · cases hb : b.steps ss with
    | mk b' o =>
      cases hc : c.steps ts with
      | mk c' o' =>
        cases o with
        | ok u =>
          obtain ⟨c₁, hc₁, hs⟩ := steps_perm hb hp h
          refine Or.inr ⟨b', v, c₁, w, ?_, ?_, hs, hvw⟩
          · exact Build.carryOut_eq_ok_iff.mpr ⟨hb, rfl⟩
          · exact Build.carryOut_eq_ok_iff.mpr ⟨hc₁, rfl⟩
        | error d =>
          cases o' with
          | ok u =>
            obtain ⟨b₁, hb₁, -⟩ := steps_perm hc hp.symm h.symm
            rw [hb] at hb₁
            cases hb₁
          | error e =>
            exact Or.inl ⟨b', d, c', e, by simp only [Build.carryOut, hb],
              by simp only [Build.carryOut, hc]⟩
  · have hfail : ∀ (b : Build) (ss : List Step) (e : AssemblyError), ∃ b' e',
        b.carryOut (⟨ss, .error e⟩ : Rendering Json) = (b', .error e') := by
      intro b ss e
      cases hs : b.steps ss with
      | mk b' o =>
        cases o with
        | ok u => exact ⟨b', e, by simp only [Build.carryOut, hs]⟩
        | error d => exact ⟨b', d, by simp only [Build.carryOut, hs]⟩
    obtain ⟨b', d', hb⟩ := hfail b ss d
    obtain ⟨c', e', hc⟩ := hfail c ts e
    exact Or.inl ⟨b', d', c', e', hb, hc⟩

end Build.Same

/-! ## The parts of a document -/

/-- Tags make a table iff they can all join it. -/
theorem tagTable_eq_ok_iff {known table : List (String × Tag)} {tags : List Tag} :
    tagTable known tags = .ok table ↔
      Table.JoinAll (fun _ => True) known (tags.map fun t => (t.name, t)) table := by
  induction tags generalizing known with
  | nil => simp [tagTable, @eq_comm _ table]
  | cons t tags ih =>
    rw [List.map_cons, Table.joinAll_cons, tagTable]
    split
    · next hn =>
      rw [ih]
      constructor
      · exact fun h => ⟨_, .new hn trivial, h⟩
      · rintro ⟨t₁, hj, h⟩
        cases hj with
        | known hk => rw [hn] at hk; cases hk
        | new _ _ => exact h
    · next existing hn =>
      split
      · next he =>
        rw [ih]
        constructor
        · exact fun h => ⟨_, .known (he ▸ hn), h⟩
        · rintro ⟨t₁, hj, h⟩
          cases hj with
          | known _ => exact h
          | new hk _ => rw [hn] at hk; cases hk
      · next he =>
        refine ⟨fun h => (nomatch h), ?_⟩
        rintro ⟨t₁, hj, -⟩
        cases hj with
        | known hk => exact absurd (Option.some.inj (hn.symm.trans hk)) he
        | new hk _ => rw [hn] at hk; cases hk

/-- **Tags may come in any order.** -/
theorem renderTags_perm {tags tags' : List Tag} (h : tags.Perm tags') :
    SameEnd (· = ·) (renderTags tags) (renderTags tags') := by
  rw [renderTags, renderTags]
  have hone : ∀ {ts ts' : List Tag} {table : List (String × Tag)}, ts.Perm ts' →
      tagTable [] ts = .ok table → ∃ table', tagTable [] ts' = .ok table' ∧
        Table.Same table table' := by
    intro ts ts' table hp ht
    obtain ⟨table', hj, hs⟩ := (tagTable_eq_ok_iff.mp ht).perm (hp.map _) (.refl [])
    exact ⟨table', tagTable_eq_ok_iff.mpr hj, hs⟩
  have htables : SameEnd Table.Same (tagTable [] tags) (tagTable [] tags') := by
    cases ht : tagTable [] tags with
    | ok table =>
      obtain ⟨table', ht', hs⟩ := hone h ht
      rw [ht']
      exact .ok hs
    | error e =>
      cases ht' : tagTable [] tags' with
      | ok table' =>
        obtain ⟨table, ht₁, -⟩ := hone h.symm ht'
        rw [ht] at ht₁
        cases ht₁
      | error e' => exact .error
  exact htables.bind fun table table' hs => .ok (by rw [hs.sorted])

/-- **Documents of builds that hold the same agree up to the order of paths.** -/
theorem Build.Same.document {b c : Build} (h : b.Same c) {api api' : Api}
    (hapi : api.Reordered api') {v w : Json} (hvw : Json.AgreesAt .paths v w) :
    SameEnd (fun d d' => d.sortPaths = d'.sortPaths) (b.document api v) (c.document api' w) := by
  rw [Build.document, Build.document, h.components, hapi.info, hapi.servers]
  refine (renderTags_perm hapi.tags).bind ?_
  rintro tags _ rfl
  refine .ok ?_
  have hpaths : Place.document.under "paths" = .paths := by simp [Place.under]
  have hroot : Json.AgreesAt .document
      (.ofOptions ([("openapi", some (.str Document.formatVersion)),
        ("info", some api.info.render), ("tags", Schema.unlessEmpty .arr tags),
        ("servers", Schema.unlessEmpty .arr (api.servers.map (·.render)))] ++
        [("paths", some v)] ++ [("components", some c.components)]))
      (.ofOptions ([("openapi", some (.str Document.formatVersion)),
        ("info", some api.info.render), ("tags", Schema.unlessEmpty .arr tags),
        ("servers", Schema.unlessEmpty .arr (api.servers.map (·.render)))] ++
        [("paths", some w)] ++ [("components", some c.components)])) :=
    .of_options (by decide) (List.rel_append
      (forall₂_members_concat _ (hpaths ▸ .some hvw)) (forall₂_members _))
  exact hroot

/-- **Builds that hold the same are finished to the same.** -/
theorem Build.Same.finish {b c : Build} (h : b.Same c) {api api' : Api}
    (hapi : api.Reordered api') (options : AssemblyOptions) {v w : Json}
    (hvw : Json.AgreesAt .paths v w) :
    SameEnd (fun d d' => d.sortPaths = d'.sortPaths) (b.finish api options v).outcome
      (c.finish api' options w).outcome := by
  have hdoc : SameEnd (fun d d' => d.sortPaths = d'.sortPaths)
      ((b.on b.registry.freeze).document api v) ((c.on c.registry.freeze).document api' w) :=
    h.freeze.document hapi hvw
  rw [Build.finish, Build.finish, ← h.check, ← h.unknownSchemes]
  dsimp only
  split
  · exact .error
  · split
    · exact .error
    · rcases hdoc.cases with ⟨d, e, hd, he⟩ | ⟨d, e, hd, he, hs⟩
      · rw [hd, he]
        exact .error
      · rw [hd, he]
        exact .ok hs

/-! ## The order of the paths -/

/-- The templates of some paths, each at the place of the first path that has it. -/
def Path.templates (ps : List Path) : List String := distinct (ps.filterMap Path.template?)

/-- The parameters that the segments of a path imply. -/
def Path.implied (p : Path) : List Parameter :=
  match templateOf p.segments with
  | .ok (_, implied) => implied
  | .error _ => []

theorem Path.implied_eq {p : Path} {t : String} {implied : List Parameter}
    (h : templateOf p.segments = .ok (t, implied)) : p.implied = implied := by
  rw [Path.implied, h]

/-- One path merged into the items, and the others after it. -/
theorem mergeParts_path_eq_ok {items result : List (String × PathItem)} {default : String}
    {p : Path} {ps : List Path} (h : mergeParts items (pathParts default (p :: ps)) = .ok result) :
    ∃ t item, p.template? = some t ∧
      ((Table.get? t items).getD {}).add t p.implied (p.part default) = .ok item ∧
      mergeParts (Table.insert t item items) (pathParts default ps) = .ok result := by
  rw [pathParts] at h
  obtain ⟨t, implied, item, ht, hadd, hmerge⟩ := mergeParts_cons_eq_ok h
  rw [template_part] at ht
  obtain rfl := Path.implied_eq ht
  exact ⟨t, item, Path.template?_eq_some_iff.mpr ⟨_, ht⟩, hadd, hmerge⟩

theorem keys_mergeParts {items result : List (String × PathItem)} {default : String}
    {ps : List Path} (h : mergeParts items (pathParts default ps) = .ok result) :
    result.map (·.1) = (ps.filterMap Path.template?).foldl
      (fun seen t => if t ∈ seen then seen else seen ++ [t]) (items.map (·.1)) := by
  induction ps generalizing items with
  | nil =>
    obtain rfl := Except.ok.inj h
    rfl
  | cons p ps ih =>
    obtain ⟨t, item, htemplate, -, hmerge⟩ := mergeParts_path_eq_ok h
    rw [ih hmerge, List.filterMap_cons_some htemplate, List.foldl_cons, Table.keys_insert]
    split
    · rw [List.append_nil]
    · rfl

/-- **Rendered paths stand in the order of their declaration** — those of a document and those of
each callback, which are rendered the same way. -/
theorem keys_renderPaths {default : String} {ps : List Path} {ss : List Step} {v : Json}
    (h : (renderPaths default ps).Run ss v) : v.keys = Path.templates ps := by
  rw [renderPaths, renderParts] at h
  obtain ⟨ss₁, items, ss₂, hitems, hrest, rfl⟩ := Journal.run_bind.mp h
  obtain ⟨-, hmerge⟩ := Journal.run_ofExcept.mp hitems
  obtain ⟨ss₃, rendered, ss₄, hrendered, hpure, rfl⟩ := Journal.run_bind.mp hrest
  obtain ⟨-, rfl⟩ := Journal.run_pure.mp hpure
  have hkeys := Journal.keys_sequenceTable hrendered.outcome
  rw [List.map_map] at hkeys
  rw [Json.keys, hkeys]
  exact keys_mergeParts (Journal.mapError_eq_ok_iff.mp hmerge)

/-- The paths of an assembled document stand in the order of their declaration. -/
theorem pathKeys_assemble {api : Api} {options : AssemblyOptions} {r : Registry} {doc : Document}
    (h : (assemble api options r).outcome = .ok doc) : doc.pathKeys = Path.templates api.paths := by
  obtain ⟨rendered, hrendered, hpaths⟩ := renderPaths_of_assemble h
  rw [Document.pathKeys, hpaths, Option.map_some, Option.getD_some]
  exact keys_renderPaths (Journal.run_of_outcome hrendered)

/-! ## Assemblies -/

/-- Tables of security schemes with different names in another order hold the same. -/
theorem same_ofList {ps qs : List (String × SecurityScheme)} (h : Rearranged (·.1) ps qs) :
    Table.Same (Table.ofList ps) (Table.ofList qs) := by
  rcases h with rfl | ⟨hp, hn⟩
  · exact .refl _
  · have hn' : (qs.map (·.1)).Nodup := (hp.map (·.1)).nodup_iff.mp hn
    rw [Table.ofList_eq_self hn, Table.ofList_eq_self hn']
    refine .of_get? hn hn' fun k => Option.ext fun v => ?_
    rw [Table.get?_eq_some_iff hn, Table.get?_eq_some_iff hn', hp.mem_iff]

/-- **An assembly does not depend on the order of declarations.**  For an API and the same API in
another order it fails on both or ends well on both; then the documents are the same up to the order
of their paths, and the registries hold the same.  The paths of a document, and those of each
callback, stand in the order of their declaration. -/
theorem assemble_reordered {api api' : Api} (h : api.Reordered api') (options : AssemblyOptions)
    (r : Registry) :
    (((∃ e, (assemble api options r).outcome = .error e) ∧
        ∃ e, (assemble api' options r).outcome = .error e) ∨
      ∃ doc doc', (assemble api options r).outcome = .ok doc ∧
        (assemble api' options r).outcome = .ok doc' ∧ doc.sortPaths = doc'.sortPaths ∧
        doc.pathKeys = Path.templates api.paths ∧ doc'.pathKeys = Path.templates api'.paths ∧
        (assemble api options r).registry.all = (assemble api' options r).registry.all) ∧
      ∀ default ps ss v, (renderPaths default ps).Run ss v → v.keys = Path.templates ps := by
  refine ⟨?_, fun default ps ss v hrun => keys_renderPaths hrun⟩
  have hsame : (Build.ofApi api r).Same (Build.ofApi api' r) :=
    ⟨rfl, .refl _, same_ofList h.securitySchemes, List.Perm.refl _, List.Perm.refl _⟩
  rcases hsame.carryOut (akin_renderPaths options.defaultResponseDescription h.paths) with
    ⟨b, d, c, e, hb, hc⟩ | ⟨b, v, c, w, hb, hc, hbc, hvw⟩
  · exact Or.inl ⟨⟨d, (assemble_of_error hb).1⟩, e, (assemble_of_error hc).1⟩
  · obtain ⟨hout, hreg⟩ := assemble_of_ok hb
    obtain ⟨hout', hreg'⟩ := assemble_of_ok hc
    rcases (hbc.finish h options hvw).cases with ⟨d, e, hd, he⟩ | ⟨doc, doc', hd, hd', hs⟩
    · exact Or.inl ⟨⟨d, hout.trans hd⟩, e, hout'.trans he⟩
    · refine Or.inr ⟨doc, doc', hout.trans hd, hout'.trans hd', hs, ?_, ?_, ?_⟩
      · exact pathKeys_assemble (hout.trans hd)
      · exact pathKeys_assemble (hout'.trans hd')
      · rw [hreg, hreg', Registry.all, Registry.all]
        exact hbc.entries.sorted

/-- A path with one operation, which returns a value of a named type. -/
def Path.ofType (name : String) : Path :=
  ⟨[.literal name], [(.get, { responses :=
    [(200, { schema := some (.named name .any none none none false) })] })], [], none, none⟩

/-- Two types with a tag and a path each, in the given order. -/
def Api.ofTypes (first second : String) : Api where
  info := { title := "Pets", version := "1" }
  paths := [.ofType first, .ofType second]
  tags := [{ name := first }, { name := second }]

theorem assemble_reordered_pair :
    ∃ doc doc', (assemble (.ofTypes "pets" "owners") {} {}).outcome = .ok doc ∧
      (assemble (.ofTypes "owners" "pets") {} {}).outcome = .ok doc' ∧
      doc.sortPaths = doc'.sortPaths ∧ doc.pathKeys = ["/pets", "/owners"] ∧
      doc'.pathKeys = ["/owners", "/pets"] ∧
      (assemble (.ofTypes "pets" "owners") {} {}).registry.all =
        (assemble (.ofTypes "owners" "pets") {} {}).registry.all := by
  have hpets : (Path.ofType "pets").template? = some "/pets" := rfl
  have howners : (Path.ofType "owners").template? = some "/owners" := rfl
  have hpaths : ReorderedPaths [.ofType "pets", .ofType "owners"]
      [.ofType "owners", .ofType "pets"] := by
    refine .rearrange (.refl _) (List.Perm.swap _ _ _) fun t => ?_
    simp only [List.filter_cons, hpets, howners]
    by_cases ht : "/pets" = t
    · have ht' : ¬ "/owners" = t := fun h => absurd (ht.trans h.symm) (by decide)
      simp [ht, ht']
    · simp [ht]
  have h : (Api.ofTypes "pets" "owners").Reordered (.ofTypes "owners" "pets") :=
    ⟨rfl, hpaths, List.Perm.swap _ _ _, rfl, .refl _ _⟩
  obtain ⟨⟨⟨e, he⟩, -⟩ | hok, -⟩ := assemble_reordered h {} {}
  · have hok : (assemble (.ofTypes "pets" "owners") {} {}).outcome.isOk = true := rfl
    rw [he] at hok
    cases hok
  · exact hok

end OpenApi
