import OpenApi.Proofs.Assembly.Gathering
import OpenApi.Proofs.Assembly.Templates

/-!
# Proofs/Assembly/MergedPaths — what merged paths are rendered to

    paths ──▸ templates, each once ──▸ item ── summary, description    the first that is there
                                        ├──── methods                 every one declared, in order
                                        │       ╰─ operation ── callbacks ── paths ──▸ …
                                        ╰──── parameters

Rendered paths show every operation that is declared under a template, and show it once.  The paths
of a callback are rendered by the same function, so what holds of paths holds of those in callbacks
at any depth (`Path.Listed`).
-/

namespace OpenApi

/-! ## Methods in writing order -/

theorem Method.mem_all (m : Method) : m ∈ Method.all := by
  cases m <;> decide

theorem Method.word_injective : Function.Injective Method.word := by
  intro m n h
  cases m <;> cases n <;> first | rfl | exact absurd h (by decide)

/-- Sorted operations stand in the order of all methods. -/
theorem methods_sortOn {α : Type} {os : List (Method × α)} (hn : (os.map (·.1)).Nodup) :
    (sortOn (·.1.position) os).map (·.1) = Method.all.filter (· ∈ os.map (·.1)) := by
  have hpositions : (os.map (·.1.position)).Nodup := by
    have := hn.map position_injective
    rwa [List.map_map] at this
  have hsorted : (((sortOn (·.1.position) os).map (·.1)).map Method.position).Pairwise (· < ·) := by
    rw [List.map_map]
    exact ascending_sortOn hpositions
  refine eq_of_ascending hsorted ?_ fun m => ?_
  · rw [List.pairwise_map]
    exact List.Pairwise.filter _ (by decide)
  · simp [Method.mem_all]

/-! ## Items -/

namespace PathItem

variable {item : PathItem} {operations : List (Method × Json)} {parameters : List Json}

/-- The members of a path item whose operations and parameters are rendered. -/
def members (item : PathItem) (operations : List (Method × Json)) (parameters : List Json) :
    List (String × Option Json) :=
  [("summary", item.summary.map .str), ("description", item.description.map .str)] ++
    operations.map (fun o => (o.1.word, some o.2)) ++
    [("parameters", Schema.unlessEmpty .arr parameters)]

theorem render_eq_ok {v : Json} (h : item.render.outcome = .ok v) :
    ∃ operations parameters,
      (Journal.sequenceTable (sortOn (·.1.position) item.operations)).outcome = .ok operations ∧
        (renderParameters (item.parameters.map (·.2))).outcome = .ok parameters ∧
        v = .ofOptions (item.members operations parameters) := by
  rw [render] at h
  obtain ⟨operations, hoperations, h⟩ := Journal.bind_eq_ok_iff.mp h
  obtain ⟨parameters, hparameters, h⟩ := Journal.bind_eq_ok_iff.mp h
  exact ⟨operations, parameters, hoperations, hparameters, (Except.ok.inj h).symm⟩

/-- A method is written as no other member of an item. -/
theorem word_notMem (m : Method) : m.word ∉ ["summary", "description", "parameters"] := by
  cases m <;> decide

theorem nodup_keys_members (hn : (operations.map (·.1)).Nodup) :
    ((item.members operations parameters).map (·.1)).Nodup := by
  have hwords : (operations.map (·.1.word)).Nodup := by
    have := hn.map Method.word_injective
    rwa [List.map_map] at this
  have hkeys : (item.members operations parameters).map (·.1) =
      ["summary", "description"] ++ (operations.map (·.1.word) ++ ["parameters"]) := by
    simp [members]
  have hperm : ((item.members operations parameters).map (·.1)).Perm
      (["summary", "description"] ++ (["parameters"] ++ operations.map (·.1.word))) :=
    hkeys ▸ List.perm_append_comm.append_left _
  rw [hperm.nodup_iff, ← List.append_assoc, List.nodup_append', List.disjoint_right]
  refine ⟨by decide, hwords, fun word hw => ?_⟩
  obtain ⟨o, -, rfl⟩ := List.mem_map.mp hw
  exact word_notMem o.1

/-- Of the keys of an item, those of methods are the methods of its operations. -/
theorem methodKeys_members :
    (Json.ofOptions (item.members operations parameters)).keys.filter
      (· ∈ Method.all.map Method.word) = operations.map (·.1.word) := by
  have hmethod : ∀ m : Method, m.word ∈ Method.all.map Method.word := fun m =>
    List.mem_map_of_mem m.mem_all
  have hother : "summary" ∉ Method.all.map Method.word ∧
      "description" ∉ Method.all.map Method.word ∧
      "parameters" ∉ Method.all.map Method.word := by
    decide
  generalize Method.all.map Method.word = words at hmethod hother
  simp [Json.keys_ofOptions, members, List.filter_map, Function.comp_def, hmethod, hother]

end PathItem

/-! ## Operations and their callbacks -/

theorem Schema.unlessEmpty_of_mem {α : Type} {f : List α → Json} {xs : List α} {a : α}
    (h : a ∈ xs) : unlessEmpty f xs = some (f xs) := by
  cases xs with
  | nil => cases h
  | cons b xs => rfl

theorem Schema.eq_of_unlessEmpty {α : Type} {f : List α → Json} {xs : List α} {v : Json}
    (h : unlessEmpty f xs = some v) : v = f xs := by
  cases xs with
  | nil => cases h
  | cons b xs => exact (Option.some.inj h).symm

/-- The rendered parts of an operation. -/
structure Operation.Parts where
  security : List Json
  body : Option Json
  responses : List (String × Json)
  parameters : List Json
  callbacks : List (String × Json)

/-- **Parts of an operation** — each rendered on its own. -/
structure Operation.Renders (default : String) (op : Operation Path) (parts : Operation.Parts) :
    Prop where
  security : (Journal.sequence (op.security.map (·.render))).outcome = .ok parts.security
  body : (Journal.sequenceOption (op.body.map (·.render))).outcome = .ok parts.body
  responses : (Journal.sequenceTable ((sortOn (·.1) op.responses).map fun r =>
    (toString r.1, r.2.render default))).outcome = .ok parts.responses
  parameters : (renderParameters (Parameter.distinctByKey op.parameters)).outcome =
    .ok parts.parameters
  callbacks : (Journal.sequenceTable (sortOn (·.1) (op.callbacks.map fun c =>
    (c.1, renderPaths default c.2)))).outcome = .ok parts.callbacks

namespace Operation

variable {default : String} {op : Operation Path} {parts : Operation.Parts} {v : Json}

/-- The members of an operation whose parts are rendered. -/
def members (op : Operation Path) (parts : Operation.Parts) : List (String × Option Json) :=
  [("tags", Schema.unlessEmpty Schema.strings op.tags),
    ("summary", op.summary.map .str),
    ("operationId", op.operationId.map .str),
    ("description", op.description.map .str),
    ("deprecated", if op.deprecated then some (.bool true) else none),
    ("security", Schema.unlessEmpty .arr parts.security),
    ("requestBody", parts.body),
    ("responses", some (.obj parts.responses)),
    ("parameters", Schema.unlessEmpty .arr parts.parameters),
    ("callbacks", Schema.unlessEmpty .obj parts.callbacks)]

theorem nodup_keys_members (op : Operation Path) (parts : Operation.Parts) :
    ((op.members parts).map (·.1)).Nodup := by
  change ["tags", "summary", "operationId", "description", "deprecated", "security",
    "requestBody", "responses", "parameters", "callbacks"].Nodup
  decide

theorem rendering_eq_ok (h : (op.rendering default).outcome = .ok v) :
    ∃ parts, op.Renders default parts ∧ v = .ofOptions (op.members parts) := by
  rw [rendering, renderOperation] at h
  dsimp only at h
  split at h
  · obtain ⟨_, hfail, -⟩ := Journal.bind_eq_ok_iff.mp h
    cases hfail
  · obtain ⟨security, hsecurity, h⟩ := Journal.bind_eq_ok_iff.mp h
    obtain ⟨body, hbody, h⟩ := Journal.bind_eq_ok_iff.mp h
    obtain ⟨responses, hresponses, h⟩ := Journal.bind_eq_ok_iff.mp h
    obtain ⟨parameters, hparameters, h⟩ := Journal.bind_eq_ok_iff.mp h
    obtain ⟨callbacks, hcallbacks, h⟩ := Journal.bind_eq_ok_iff.mp h
    exact ⟨⟨security, body, responses, parameters, callbacks⟩,
      ⟨hsecurity, hbody, hresponses, hparameters, hcallbacks⟩, (Except.ok.inj h).symm⟩

/-- A member of a rendered operation is found under its key. -/
theorem get?_of_mem_members {key : String} {o : Option Json} (h : (key, o) ∈ op.members parts) :
    (Json.ofOptions (op.members parts)).get? key = o :=
  Json.get?_ofOptions (nodup_keys_members op parts) h

end Operation

/-- **The callbacks of a rendered operation** are rendered, each under its name. -/
theorem callbacks_of_rendering {default : String} {op : Operation Path} {v : Json}
    (h : (op.rendering default).outcome = .ok v) :
    ∀ c ∈ op.callbacks, ∃ w, (renderPaths default c.2).outcome = .ok w ∧
      ((op.callbacks.map (·.1)).Nodup → (v.get? "callbacks").bind (Json.get? c.1) = some w) := by
  intro c hc
  obtain ⟨parts, hparts, rfl⟩ := Operation.rendering_eq_ok h
  have hmem : (c.1, renderPaths default c.2) ∈ sortOn (·.1)
      (op.callbacks.map fun c => (c.1, renderPaths default c.2)) :=
    mem_sortOn.mpr (List.mem_map.mpr ⟨c, hc, rfl⟩)
  obtain ⟨⟨name, w⟩, hw, rfl, houtcome⟩ :=
    exists_right_of_forall₂ (Journal.sequenceTable_eq_ok_iff.mp hparts.callbacks) hmem
  refine ⟨w, houtcome, fun hn => ?_⟩
  have hkeys : (parts.callbacks.map (·.1)).Nodup := by
    rw [Journal.keys_sequenceTable hparts.callbacks, ((sortOn_perm _ _).map _).nodup_iff,
      List.map_map]
    exact hn
  have hentry : (Json.obj parts.callbacks).get? c.1 = some w :=
    (Table.get?_eq_some_iff hkeys).mpr hw
  have hmember : (Json.ofOptions (op.members parts)).get? "callbacks" =
      Schema.unlessEmpty .obj parts.callbacks :=
    Operation.get?_of_mem_members (by simp [Operation.members])
  rw [hmember, Schema.unlessEmpty_of_mem hw]
  exact hentry

/-! ## Paths -/

/-- **An item shows the operations of some paths** — each method once and in writing order, with
the rendering of its operation, and the first summary and description. -/
structure Path.Shown (default : String) (ps : List Path) (item : Json) : Prop where
  once : ((ps.flatMap (·.operations)).map (·.1)).Nodup
  methods : item.keys.filter (· ∈ Method.all.map Method.word) =
    (Method.all.filter (· ∈ (ps.flatMap (·.operations)).map (·.1))).map Method.word
  operations : ∀ o ∈ ps.flatMap (·.operations), ∃ v, item.get? o.1.word = some v ∧
    (o.2.rendering default).outcome = .ok v ∧
    ∀ c ∈ o.2.callbacks, ∃ w, (renderPaths default c.2).outcome = .ok w ∧
      ((o.2.callbacks.map (·.1)).Nodup → (v.get? "callbacks").bind (Json.get? c.1) = some w)
  summary : item.get? "summary" = (ps.findSome? (·.summary)).map .str
  description : item.get? "description" = (ps.findSome? (·.description)).map .str

/-- **Rendered paths show all paths** — under each template, at the place of the first path that has
it, an item that shows the operations of the paths with this template. -/
structure Path.Merged (default : String) (ps : List Path) (rendered : Json) : Prop where
  named : ∀ p ∈ ps, p.template?.isSome
  items : ∃ members, rendered = .obj members ∧ members.map (·.1) = Path.templates ps ∧
    ∀ m ∈ members, Path.Shown default (Path.withTemplate ps m.1) m.2

variable {default : String} {ps : List Path}

/-- The members of an item that takes in some paths have different keys. -/
theorem PathItem.Gathers.nodup_keys_members {item : PathItem}
    (hg : ({} : PathItem).Gathers default ps item) {operations : List (Method × Json)}
    (h : (Journal.sequenceTable (sortOn (·.1.position) item.operations)).outcome = .ok operations)
    (parameters : List Json) : ((item.members operations parameters).map (·.1)).Nodup := by
  refine PathItem.nodup_keys_members ?_
  rw [Journal.keys_sequenceTable h]
  exact ((sortOn_perm _ _).map _).nodup_iff.mpr (hg.nodup List.nodup_nil)

theorem PathItem.Gathers.shown {item : PathItem} {v : Json}
    (hg : ({} : PathItem).Gathers default ps item) (hv : item.render.outcome = .ok v) :
    Path.Shown default ps v := by
  obtain ⟨operations, parameters, hoperations, -, rfl⟩ := PathItem.render_eq_ok hv
  have honce : (item.operations.map (·.1)).Nodup := hg.nodup List.nodup_nil
  have hmethods : item.operations.map (·.1) = (ps.flatMap (·.operations)).map (·.1) := hg.methods
  have hwritten : operations.map (·.1) =
      Method.all.filter (· ∈ (ps.flatMap (·.operations)).map (·.1)) := by
    rw [Journal.keys_sequenceTable hoperations, methods_sortOn honce, hmethods]
  have hkeys := hg.nodup_keys_members hoperations parameters
  refine ⟨hmethods ▸ honce, ?_, fun o ho => ?_, ?_, ?_⟩
  · rw [PathItem.methodKeys_members, ← hwritten, List.map_map]
    rfl
  · have hmem : (o.1, o.2.rendering default) ∈ sortOn (·.1.position) item.operations := by
      rw [mem_sortOn, hg.operations]
      exact List.mem_map.mpr ⟨o, ho, rfl⟩
    obtain ⟨⟨_, w⟩, hw, rfl, houtcome⟩ :=
      exists_right_of_forall₂ (Journal.sequenceTable_eq_ok_iff.mp hoperations) hmem
    refine ⟨w, Json.get?_ofOptions hkeys ?_, houtcome, callbacks_of_rendering houtcome⟩
    refine List.mem_append_left _ (List.mem_append_right _ ?_)
    exact List.mem_map.mpr ⟨_, hw, rfl⟩
  · rw [Json.get?_ofOptions hkeys (o := item.summary.map .str) (by simp [PathItem.members]),
      hg.summary, Option.none_or]
  · rw [Json.get?_ofOptions hkeys (o := item.description.map .str) (by simp [PathItem.members]),
      hg.description, Option.none_or]

theorem named_of_mergeParts {items result : List (String × PathItem)}
    (h : mergeParts items (pathParts default ps) = .ok result) : ∀ p ∈ ps, p.template?.isSome := by
  induction ps generalizing items with
  | nil => exact fun p hp => nomatch hp
  | cons p ps ih =>
    obtain ⟨t, item, hp, -, hmerge⟩ := mergeParts_path_eq_ok h
    exact List.forall_mem_cons.mpr ⟨Option.isSome_of_eq_some hp, ih hmerge⟩

/-- **Merged paths are the items of their templates** — each takes in the paths that have its
template. -/
theorem gathers_items {items : List (String × PathItem)}
    (h : mergeParts [] (pathParts default ps) = .ok items) :
    items.map (·.1) = Path.templates ps ∧
      ∀ i ∈ items, ({} : PathItem).Gathers default (Path.withTemplate ps i.1) i.2 := by
  have hkeys : items.map (·.1) = Path.templates ps := keys_mergeParts h
  have hnodup : (items.map (·.1)).Nodup := hkeys ▸ nodup_distinct _
  refine ⟨hkeys, fun i hi => ?_⟩
  have hg := gathers_mergeParts h i.1
  rwa [(Table.get?_eq_some_iff hnodup).mpr hi] at hg

/-- **Every operation is declared under a template**, and no others are. -/
theorem Path.exists_declared_iff {α : Type} {items : List (String × α)}
    (hkeys : items.map (·.1) = Path.templates ps) (hnamed : ∀ p ∈ ps, p.template?.isSome)
    {o : Method × Operation Path} :
    (∃ i ∈ items, o ∈ Path.declared ps i.1) ↔ ∃ p ∈ ps, o ∈ p.operations := by
  constructor
  · rintro ⟨i, -, ho⟩
    obtain ⟨p, hp, ho⟩ := List.mem_flatMap.mp ho
    exact ⟨p, (List.mem_filter.mp hp).1, ho⟩
  · rintro ⟨p, hp, ho⟩
    obtain ⟨t, ht⟩ := Option.isSome_iff_exists.mp (hnamed p hp)
    have hmem : t ∈ items.map (·.1) := by
      rw [hkeys, Path.templates, mem_distinct]
      exact List.mem_filterMap.mpr ⟨p, hp, ht⟩
    obtain ⟨i, hi, rfl⟩ := List.mem_map.mp hmem
    exact ⟨i, hi, List.mem_flatMap.mpr ⟨p, List.mem_filter.mpr ⟨hp, decide_eq_true ht⟩, ho⟩⟩

/-- **Rendered paths are rendered items** — one for each template, in the order of declaration. -/
theorem gathered_of_renderPaths {rendered : Json}
    (h : (renderPaths default ps).outcome = .ok rendered) :
    (∀ p ∈ ps, p.template?.isSome) ∧ ∃ members, rendered = .obj members ∧
      members.map (·.1) = Path.templates ps ∧ ∀ m ∈ members, ∃ item : PathItem,
        ({} : PathItem).Gathers default (Path.withTemplate ps m.1) item ∧
        item.render.outcome = .ok m.2 := by
  rw [renderPaths, renderParts] at h
  obtain ⟨items, hitems, h⟩ := Journal.bind_eq_ok_iff.mp h
  obtain ⟨members, hmembers, h⟩ := Journal.bind_eq_ok_iff.mp h
  obtain rfl := Except.ok.inj h
  have hmerge := Journal.mapError_eq_ok_iff.mp hitems
  obtain ⟨hkeys, hgathers⟩ := gathers_items hmerge
  refine ⟨named_of_mergeParts hmerge, members, rfl, ?_, fun m hm => ?_⟩
  · rw [Journal.keys_sequenceTable hmembers, List.map_map]
    exact hkeys
  · obtain ⟨_, hrendering, hkey, hvalue⟩ :=
      exists_left_of_forall₂ (Journal.sequenceTable_eq_ok_iff.mp hmembers) hm
    obtain ⟨i, hi, rfl⟩ := List.mem_map.mp hrendering
    exact ⟨i.2, hkey ▸ hgathers i hi, hvalue⟩

/-- **Rendered paths show all paths.** -/
theorem merged_of_renderPaths {rendered : Json}
    (h : (renderPaths default ps).outcome = .ok rendered) : Path.Merged default ps rendered := by
  obtain ⟨hnamed, members, rfl, hkeys, hitems⟩ := gathered_of_renderPaths h
  refine ⟨hnamed, members, rfl, hkeys, fun m hm => ?_⟩
  obtain ⟨item, hg, hv⟩ := hitems m hm
  exact hg.shown hv

/-! ## Paths in callbacks -/

/-- **A list of paths of some paths** — they themselves, or those of a callback at any depth. -/
inductive Path.Listed (qs : List Path) : List Path → Prop
  | self : Listed qs qs
  | callback {ps : List Path} {p : Path} {o : Method × Operation Path} {c : String × List Path}
    (hp : p ∈ ps) (ho : o ∈ p.operations) (hc : c ∈ o.2.callbacks) (h : Listed qs c.2) :
    Listed qs ps

/-- Every operation of merged paths is rendered. -/
theorem Path.Merged.rendering {rendered : Json} (h : Path.Merged default ps rendered) {p : Path}
    (hp : p ∈ ps) {o : Method × Operation Path} (ho : o ∈ p.operations) :
    ∃ v, (o.2.rendering default).outcome = .ok v := by
  obtain ⟨members, -, hkeys, hshown⟩ := h.items
  obtain ⟨m, hm, ho⟩ := (Path.exists_declared_iff hkeys h.named).mpr ⟨p, hp, ho⟩
  obtain ⟨v, -, hv, -⟩ := (hshown m hm).operations o ho
  exact ⟨v, hv⟩

/-- With some paths those in their callbacks are rendered. -/
theorem Path.Listed.rendered {qs : List Path} (h : Path.Listed qs ps) {v : Json}
    (hv : (renderPaths default ps).outcome = .ok v) :
    ∃ w, (renderPaths default qs).outcome = .ok w := by
  induction h generalizing v with
  | self => exact ⟨v, hv⟩
  | callback hp ho hc _ ih =>
    obtain ⟨w, hw⟩ := (merged_of_renderPaths hv).rendering hp ho
    obtain ⟨u, hu, -⟩ := callbacks_of_rendering hw _ hc
    exact ih hu

/-! ## Repeated methods -/

/-- **Two paths with one template and one method are not merged** — then no operation is rendered
at all. -/
theorem renderPaths_of_clash (default : String) (hps : ∀ p ∈ ps, p.template?.isSome)
    (hclash : Path.Clash ps) : ∃ m t, (Path.methods ps t).Duplicate m ∧
      renderPaths default ps = Journal.fail (.api (.repeatedOperation m t)) := by
  cases hmerge : mergeParts [] (pathParts default ps) with
  | ok items =>
    obtain ⟨t, ht⟩ := hclash.exists_not_nodup
    have hg := gathers_mergeParts hmerge t
    have hmethods : (((Table.get? t items).getD {}).operations).map (·.1) = Path.methods ps t :=
      hg.methods
    exact absurd (hmethods ▸ hg.nodup List.nodup_nil) ht
  | error e =>
    obtain ⟨m, t, rfl, hm⟩ := mergeParts_eq_error hps hmerge
    refine ⟨m, t, hm, ?_⟩
    rw [renderPaths, renderParts, hmerge]
    rfl

/-! ## The result -/

/-- **Merging loses and repeats no operation.**  Rendered paths, in a document or in a callback,
show every operation under its template once.  If two paths with one template share a method, then
they are not rendered but for the refusal of a repeated operation, which is that of an assembly with
these paths, and an assembly with these paths in a callback comes to no document.  Slashes at the
ends of literal segments do not matter, nor do segments of slashes. -/
theorem renderPaths_merged (default : String) (ps : List Path) :
    (∀ rendered, (renderPaths default ps).outcome = .ok rendered →
      Path.Merged default ps rendered) ∧
    (∀ (api : Api) (options : AssemblyOptions) (r : Registry) (doc : Document),
      (assemble api options r).outcome = .ok doc → ∃ rendered,
        doc.toJson.get? "paths" = some rendered ∧
        Path.Merged options.defaultResponseDescription api.paths rendered) ∧
    ((∀ p ∈ ps, p.template?.isSome) → Path.Clash ps →
      ∃ m t, (Path.methods ps t).Duplicate m ∧
        renderPaths default ps = Journal.fail (.api (.repeatedOperation m t)) ∧
        (AssemblyError.api (.repeatedOperation m t)).message =
          "Operation " ++ m.word.toUpper ++ " " ++ t ++ " is declared more than once." ∧
        ∀ (api : Api) (options : AssemblyOptions) (r : Registry),
          options.defaultResponseDescription = default →
          (api.paths = ps →
            (assemble api options r).outcome = .error (.api (.repeatedOperation m t))) ∧
          (Path.Listed ps api.paths → ∃ e, (assemble api options r).outcome = .error e)) ∧
    ∀ ss ss', PathSegment.Respelled ss ss' → templateOf ss = templateOf ss' := by
  refine ⟨fun _ => merged_of_renderPaths, fun api options r doc hdoc => ?_, fun hps hclash => ?_,
    fun _ _ => templateOf_respelled⟩
  · obtain ⟨rendered, hrendered, hpaths⟩ := renderPaths_of_assemble hdoc
    exact ⟨rendered, hpaths, merged_of_renderPaths hrendered⟩
  · obtain ⟨m, t, hm, hfail⟩ := renderPaths_of_clash default hps hclash
    refine ⟨m, t, hm, hfail, rfl, fun api options r hdefault =>
      ⟨fun hpaths => ?_, fun hlisted => ?_⟩⟩
    · refine (assemble_of_error (b := Build.ofApi api r) ?_).1
      rw [hdefault, hpaths, hfail]
      rfl
    · cases houtcome : (assemble api options r).outcome with
      | error e => exact ⟨e, rfl⟩
      | ok doc =>
        obtain ⟨v, hv, -⟩ := renderPaths_of_assemble houtcome
        obtain ⟨w, hw⟩ := hlisted.rendered (hdefault ▸ hv)
        rw [hfail] at hw
        cases hw

/-- A path with operations of some methods, each of which answers without a body. -/
def Path.answering (segment : String) (ms : List Method) : Path :=
  ⟨[.literal segment], ms.map fun m => (m, { responses := [(204, {})] }), [], none, none⟩

/-- Two paths with different methods are merged, whatever the slashes around their segments, and
two with one method are not. -/
theorem renderPaths_merged_items :
    (∃ rendered item,
      Path.Merged "Done." [.answering "items" [.delete], .answering "/items/" [.patch, .get]]
        rendered ∧ rendered = .obj [("/items", item)] ∧ item.keys = ["get", "delete", "patch"]) ∧
    (∃ m t, renderPaths "Done." [.answering "items" [.get], .answering "/items" [.put, .get]] =
      Journal.fail (.api (.repeatedOperation m t))) ∧
    templateOf [.literal ("" ++ "items" ++ "")] =
      templateOf [.literal ("/" ++ "items" ++ "/")] := by
  have hnone : PathSegment.OnlySlashes "" := by simp [PathSegment.OnlySlashes]
  have hone : PathSegment.OnlySlashes "/" := by simp [PathSegment.OnlySlashes]
  refine ⟨?_, ?_, ?_⟩
  · obtain ⟨rendered, item, hok, hitem, hkeys⟩ : ∃ rendered item,
        (renderPaths "Done." [.answering "items" [.delete],
          .answering "/items/" [.patch, .get]]).outcome = .ok rendered ∧
        rendered = .obj [("/items", item)] ∧ item.keys = ["get", "delete", "patch"] :=
      ⟨_, _, rfl, rfl, rfl⟩
    exact ⟨rendered, item, (renderPaths_merged _ _).1 rendered hok, hitem, hkeys⟩
  · have hclash : Path.Clash [.answering "items" [.get], .answering "/items" [.put, .get]] :=
      ⟨_, _, "/items", .get, List.Sublist.refl _, rfl, rfl, by decide, by decide⟩
    obtain ⟨m, t, -, hfail, -⟩ := (renderPaths_merged "Done." _).2.2.1 (by decide) hclash
    exact ⟨m, t, hfail⟩
  · exact (renderPaths_merged "Done." []).2.2.2 _ _ (.literal "items" hnone hnone hone hone .nil)

end OpenApi
