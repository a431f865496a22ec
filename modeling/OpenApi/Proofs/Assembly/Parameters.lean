import Mathlib.Logic.Relator
import OpenApi.Proofs.Assembly.Occurrences

/-!
# Proofs/Assembly/Parameters — exact parameter lists

    declared    q₁  p₂  q₁'  p₁        in order, with repeated keys
    kept        q₁  p₂       p₁        the first of each key
    written     p₁  p₂       q₁        by name, then by location

The parameters of a path item are those of all its paths, in order, what the segments of a path
imply before what is declared for it.  An operation has its own.  Both lists are *exact*: one entry
for each key, which shows the first parameter with it (`renderPaths_parameters`).  An exact list
is determined by the declared parameters (`Parameter.Exact.unique`), so neither list has a say in
the other.
-/

namespace OpenApi

/-! ## Exact lists -/

namespace Parameter

/-- **What is kept of some parameters** — the first under each key, ascending by name and
location. -/
structure Kept (declared kept : List Parameter) : Prop where
  ascending : (kept.map fun p => toLex (p.name, p.location.word)).Pairwise (· < ·)
  keys : ∀ k, k ∈ kept.map key ↔ k ∈ declared.map key
  first : ∀ p ∈ kept, declared.find? (·.key = p.key) = some p

/-- **An entry shows a parameter** — under its name and location, and as required if it is in the
path. -/
structure ShownBy (p : Parameter) (entry : Json) : Prop where
  rendering : p.render.outcome = .ok entry
  name : entry.get? "name" = some (.str p.name)
  location : entry.get? "in" = some (.str p.location.word)
  required : p.location = .path → entry.get? "required" = some (.bool true)

/-- **A list is exact for some parameters** — it shows what is kept of them, and nothing stands for
the empty list. -/
def Exact (declared : List Parameter) (list : Option Json) : Prop :=
  ∃ kept entries, list = Schema.unlessEmpty .arr entries ∧ Kept declared kept ∧
    List.Forall₂ ShownBy kept entries

/-- Whether an entry has a location and a name. -/
def entryHas (key : ParameterLocation × String) (entry : Json) : Bool :=
  decide (entry.get? "name" = some (.str key.2) ∧ entry.get? "in" = some (.str key.1.word))

/-- **A list fills a placeholder** — exactly one of its entries is the parameter in the path with
this name, and it is required. -/
def Fills (name : String) (list : Option Json) : Prop :=
  ∃ entries entry, list = some (.arr entries) ∧ entries.filter (entryHas (.path, name)) = [entry] ∧
    entry.get? "required" = some (.bool true)

variable {declared kept kept' ps : List Parameter} {p : Parameter} {entry : Json}
  {list list' : Option Json}

/-! ### What is kept -/

/-- The key of a parameter, in the order of writing. -/
theorem key_eq_iff {p q : Parameter} : p.key = q.key ↔
    toLex (p.name, p.location.word) = toLex (q.name, q.location.word) := by
  rw [toLex.injective.eq_iff, key, key, Prod.mk.injEq, Prod.mk.injEq, word_injective.eq_iff,
    and_comm]

/-- What is left of some parameters, each with its key. -/
theorem table_distinctByKey (ps : List Parameter) :
    (distinctByKey ps).map (fun p => (p.key, p)) =
      ps.foldl (fun t p => Table.insertNew p.key p t) [] := by
  rw [distinctByKey, foldl_insertNew_map, List.map_map]
  have hkeyed : ∀ e ∈ ps.foldl (fun t p => Table.insertNew p.key p t) [],
      (e.2.key, e.2) = e := fun e he =>
    Prod.ext (mem_insertNews (List.forall_mem_nil _) he).symm rfl
  exact (List.map_congr_left hkeyed).trans (List.map_id _)

theorem nodup_keys_distinctByKey (ps : List Parameter) :
    ((distinctByKey ps).map key).Nodup := by
  have htable : (((distinctByKey ps).map fun p => (p.key, p)).map (·.1)).Nodup := by
    rw [table_distinctByKey]
    exact Table.nodup_keys_insertNews (t := []) List.nodup_nil ps
  rwa [List.map_map] at htable

/-- **The first of each key is left.** -/
theorem mem_distinctByKey : p ∈ distinctByKey ps ↔ ps.find? (·.key = p.key) = some p := by
  have hkeys : (((distinctByKey ps).map fun p => (p.key, p)).map (·.1)).Nodup := by
    rw [List.map_map]
    exact nodup_keys_distinctByKey ps
  have hmem : p ∈ distinctByKey ps ↔
      (p.key, p) ∈ (distinctByKey ps).map fun p => (p.key, p) := by
    rw [List.mem_map]
    exact ⟨fun h => ⟨p, h, rfl⟩, fun ⟨q, hq, he⟩ => (Prod.mk.inj he).2 ▸ hq⟩
  rw [hmem, ← Table.get?_eq_some_iff hkeys, table_distinctByKey, Table.get?_insertNews]
  rfl

theorem exists_first (h : p ∈ ps) : ∃ q, ps.find? (·.key = p.key) = some q ∧ q.key = p.key := by
  have hsome : (ps.find? (·.key = p.key)).isSome := List.find?_isSome.mpr ⟨p, h, by simp⟩
  obtain ⟨q, hq⟩ := Option.isSome_iff_exists.mp hsome
  exact ⟨q, hq, by simpa using List.find?_some hq⟩

/-- **Sorting what is left keeps it** — its keys differ, so it comes out strictly ascending. -/
theorem kept_sortBy (declared : List Parameter) :
    Kept declared (sortBy below (distinctByKey declared)) := by
  have hwords : ((distinctByKey declared).map fun p => toLex (p.name, p.location.word)).Nodup := by
    refine (List.nodup_map_iff_inj_on (nodup_keys_distinctByKey declared).of_map).mpr ?_
    intro p hp q hq h
    exact List.inj_on_of_nodup_map (nodup_keys_distinctByKey declared) hp hq (key_eq_iff.mpr h)
  refine ⟨?_, fun k => ?_, fun p hp => mem_distinctByKey.mp (mem_sortBy.mp hp)⟩
  · rw [sortBy_below]
    exact ascending_sortOn hwords
  · simp only [List.mem_map, mem_sortBy, mem_distinctByKey]
    constructor
    · rintro ⟨p, hp, rfl⟩
      exact ⟨p, List.mem_of_find?_eq_some hp, rfl⟩
    · rintro ⟨p, hp, rfl⟩
      obtain ⟨q, hq, hkey⟩ := exists_first hp
      exact ⟨q, hkey ▸ hq, hkey⟩

theorem Kept.mem_iff (h : Kept declared kept) :
    p ∈ kept ↔ declared.find? (·.key = p.key) = some p := by
  refine ⟨h.first p, fun hp => ?_⟩
  have hkey : p.key ∈ kept.map key :=
    (h.keys _).mpr (List.mem_map_of_mem (List.mem_of_find?_eq_some hp))
  obtain ⟨q, hq, hqp⟩ := List.mem_map.mp hkey
  have hfirst := h.first q hq
  rw [hqp, hp] at hfirst
  rwa [Option.some.inj hfirst]

/-- **What is kept is determined** — by its elements, as it is strictly ascending. -/
theorem Kept.unique (h : Kept declared kept) (h' : Kept declared kept') : kept = kept' :=
  eq_of_ascending h.ascending h'.ascending fun _ => h.mem_iff.trans h'.mem_iff.symm

/-! ### What is written -/

theorem shownBy_of_render (h : p.render.outcome = .ok entry) : p.ShownBy entry := by
  have hrender := h
  rw [render] at h
  obtain ⟨schema, -, h⟩ := Journal.bind_eq_ok_iff.mp h
  obtain rfl := Except.ok.inj h
  refine ⟨hrender, ?_, ?_, fun hpath => ?_⟩
  · simp [Json.get?_ofOptions_cons]
  · simp [Json.get?_ofOptions_cons]
  · simp [Json.get?_ofOptions_cons, hpath]

/-- The key of a parameter is read off its entry. -/
theorem ShownBy.entryHas_iff (h : p.ShownBy entry) {k : ParameterLocation × String} :
    entryHas k entry ↔ p.key = k := by
  obtain ⟨location, name⟩ := k
  rw [entryHas, decide_eq_true_eq, h.name, h.location, key, Prod.mk.injEq, Option.some_inj,
    Option.some_inj, Json.str.injEq, Json.str.injEq, word_injective.eq_iff, and_comm]

/-- **A parameter list is written exactly.** -/
theorem exact_of_renderParameters {entries : List Json}
    (h : (renderParameters (distinctByKey declared)).outcome = .ok entries) :
    Exact declared (Schema.unlessEmpty .arr entries) := by
  rw [renderParameters, Journal.sequence_eq_ok_iff, List.forall₂_map_left_iff] at h
  exact ⟨_, entries, rfl, kept_sortBy declared, h.imp fun _ _ => shownBy_of_render⟩

/-- **The declared parameters determine their list.** -/
theorem Exact.unique (h : Exact declared list) (h' : Exact declared list') : list = list' := by
  obtain ⟨kept, entries, rfl, hkept, hshown⟩ := h
  obtain ⟨kept', entries', rfl, hkept', hshown'⟩ := h'
  obtain rfl := hkept.unique hkept'
  have hone : Relator.RightUnique ShownBy := fun p e e' he he' =>
    Except.ok.inj (he.rendering.symm.trans he'.rendering)
  rw [hone.forall₂ hshown hshown']

/-- Of the entries for parameters with different keys, one has the key of each parameter. -/
theorem filter_of_shownBy {entries : List Json} {k : ParameterLocation × String}
    (h : List.Forall₂ ShownBy kept entries) (hn : (kept.map key).Nodup) (hk : k ∈ kept.map key) :
    ∃ (p : Parameter) (entry : Json), p.key = k ∧ p.ShownBy entry ∧
      entries.filter (entryHas k) = [entry] := by
  induction h with
  | nil => cases hk
  | @cons q entry kept entries hq hrest ih =>
    obtain ⟨hnew, hn⟩ := List.nodup_cons.mp hn
    by_cases hkey : q.key = k
    · refine ⟨q, entry, hkey, hq, ?_⟩
      rw [List.filter_cons_of_pos (hq.entryHas_iff.mpr hkey), List.filter_eq_nil_iff.mpr]
      intro e he hde
      obtain ⟨r, hr, hre⟩ := exists_left_of_forall₂ hrest he
      have hrkey : r.key = q.key := (hre.entryHas_iff.mp hde).trans hkey.symm
      exact hnew (hrkey ▸ List.mem_map_of_mem hr)
    · obtain ⟨r, e, hr, hshown, hfilter⟩ :=
        ih hn ((List.mem_cons.mp hk).resolve_left (Ne.symm hkey))
      exact ⟨r, e, hr, hshown,
        (List.filter_cons_of_neg fun h => hkey (hq.entryHas_iff.mp h)).trans hfilter⟩

/-- **An exact list fills the placeholder of each parameter in the path.** -/
theorem Exact.fills (h : Exact declared list) (hp : p ∈ declared) (hpath : p.location = .path) :
    Fills p.name list := by
  obtain ⟨kept, entries, rfl, hkept, hshown⟩ := h
  have hn : (kept.map key).Nodup := by
    refine List.pairwise_map.mpr ((List.pairwise_map.mp hkept.ascending).imp fun hlt heq => ?_)
    exact hlt.ne (key_eq_iff.mp heq)
  have hkey : (.path, p.name) ∈ kept.map key := by
    rw [hkept.keys, ← hpath]
    exact List.mem_map_of_mem hp
  obtain ⟨q, entry, hq, hentry, hfilter⟩ := filter_of_shownBy hshown hn hkey
  have hmem : entry ∈ entries := List.mem_of_mem_filter (hfilter ▸ List.mem_singleton_self entry)
  exact ⟨entries, entry, Schema.unlessEmpty_of_mem hmem, hfilter,
    hentry.required (Prod.mk.inj hq).1⟩

end Parameter

/-! ## Placeholders -/

theorem parameter_of_renderSegments {segments : List PathSegment} {texts : List String}
    {implied : List Parameter} (h : renderSegments segments = .ok (texts, implied))
    {type : Descriptor} {name : Option String} (hs : .parameter type name ∈ segments) :
    ∃ n, parameterName type name = .ok n ∧ "\x7b" ++ n ++ "\x7d" ∈ texts ∧
      { name := n, location := .path, schema := some type, required := true } ∈ implied := by
  induction segments generalizing texts implied with
  | nil => cases hs
  | cons s segments ih =>
    rw [renderSegments] at h
    obtain ⟨⟨text, ps⟩, hsegment, h⟩ := bind_eq_ok_iff.mp h
    obtain ⟨⟨rest, qs⟩, hrest, h⟩ := bind_eq_ok_iff.mp h
    obtain ⟨rfl, rfl⟩ := Prod.mk.inj (Except.ok.inj h)
    rcases List.mem_cons.mp hs with rfl | hs
    · rw [PathSegment.render] at hsegment
      obtain ⟨n, hn, hsegment⟩ := bind_eq_ok_iff.mp hsegment
      obtain ⟨rfl, rfl⟩ := Prod.mk.inj (Except.ok.inj hsegment)
      exact ⟨n, hn, List.mem_cons_self, List.mem_append_left _ (List.mem_singleton_self _)⟩
    · obtain ⟨n, hn, htext, hparameter⟩ := ih hrest hs
      exact ⟨n, hn, List.mem_cons_of_mem _ htext, List.mem_append_right _ hparameter⟩

/-- **A placeholder of a template has its parameter** among those the path carries. -/
theorem Path.exists_placeholder {p : Path} {t : String} (h : p.template? = some t)
    {type : Descriptor} {name : Option String} (hs : .parameter type name ∈ p.segments) :
    ∃ n texts, parameterName type name = .ok n ∧ t = "/" ++ "/".intercalate texts ∧
      "\x7b" ++ n ++ "\x7d" ∈ texts ∧
      { name := n, location := .path, schema := some type, required := true } ∈ p.carried := by
  obtain ⟨implied, htemplate⟩ := Path.template?_eq_some_iff.mp h
  have himplied := Path.implied_eq htemplate
  rw [templateOf] at htemplate
  obtain ⟨⟨texts, ps⟩, hsegments, htemplate⟩ := bind_eq_ok_iff.mp htemplate
  obtain ⟨rfl, rfl⟩ := Prod.mk.inj (Except.ok.inj htemplate)
  obtain ⟨n, hn, htext, hparameter⟩ := parameter_of_renderSegments hsegments hs
  refine ⟨n, _, hn, rfl, List.mem_filter.mpr ⟨htext, ?_⟩, ?_⟩
  · simp
  · exact List.mem_append_left _ (himplied ▸ hparameter)

/-! ## Items -/

/-- **The lists of an item are exact** — its own for the parameters of its paths, with one for every
placeholder of their template, and those of its operations for theirs. -/
structure Path.ItemExact (ps : List Path) (t : String) (item : Json) : Prop where
  parameters : Parameter.Exact (ps.flatMap (·.carried)) (item.get? "parameters")
  placeholders : ∀ p ∈ ps, ∀ type name, .parameter type name ∈ p.segments → ∃ n texts,
    parameterName type name = .ok n ∧ t = "/" ++ "/".intercalate texts ∧
      "\x7b" ++ n ++ "\x7d" ∈ texts ∧ Parameter.Fills n (item.get? "parameters")
  operations : ∀ o ∈ ps.flatMap (·.operations), ∃ v, item.get? o.1.word = some v ∧
    Parameter.Exact o.2.parameters (v.get? "parameters")

/-- **All parameter lists of rendered paths are exact** — of every item and its operations. -/
structure Path.ListsExact (ps : List Path) (rendered : Json) : Prop where
  templates : rendered.keys = Path.templates ps
  items : ∀ m ∈ rendered.members, Path.ItemExact (Path.withTemplate ps m.1) m.1 m.2

variable {default : String} {ps : List Path}

theorem Operation.exact_of_rendering {op : Operation Path} {v : Json}
    (h : (op.rendering default).outcome = .ok v) :
    Parameter.Exact op.parameters (v.get? "parameters") := by
  obtain ⟨parts, hparts, rfl⟩ := Operation.rendering_eq_ok h
  rw [Operation.get?_of_mem_members (o := Schema.unlessEmpty .arr parts.parameters)
    (by simp [Operation.members])]
  exact Parameter.exact_of_renderParameters hparts.parameters

theorem PathItem.Gathers.itemExact {item : PathItem} {v : Json} {t : String}
    (hg : ({} : PathItem).Gathers default ps item) (hv : item.render.outcome = .ok v)
    (ht : ∀ p ∈ ps, p.template? = some t) : Path.ItemExact ps t v := by
  have hexact : Parameter.Exact (ps.flatMap (·.carried)) (v.get? "parameters") := by
    obtain ⟨operations, parameters, hoperations, hparameters, rfl⟩ := PathItem.render_eq_ok hv
    have hlist : item.parameters.map (·.2) =
        Parameter.distinctByKey (ps.flatMap (·.carried)) := by
      rw [Parameter.distinctByKey, foldl_insertNew_map, hg.parameters]
    rw [Json.get?_ofOptions (hg.nodup_keys_members hoperations parameters)
      (o := Schema.unlessEmpty .arr parameters) (by simp [PathItem.members])]
    exact Parameter.exact_of_renderParameters (hlist ▸ hparameters)
  refine ⟨hexact, fun p hp type name hs => ?_, fun o ho => ?_⟩
  · obtain ⟨n, texts, hn, htexts, htext, hparameter⟩ := Path.exists_placeholder (ht p hp) hs
    exact ⟨n, texts, hn, htexts, htext,
      hexact.fills (List.mem_flatMap.mpr ⟨p, hp, hparameter⟩) rfl⟩
  · obtain ⟨w, hw, hrendering, -⟩ := (hg.shown hv).operations o ho
    exact ⟨w, hw, Operation.exact_of_rendering hrendering⟩

theorem listsExact_of_renderPaths {rendered : Json}
    (h : (renderPaths default ps).outcome = .ok rendered) : Path.ListsExact ps rendered := by
  obtain ⟨-, members, rfl, hkeys, hitems⟩ := gathered_of_renderPaths h
  refine ⟨hkeys, fun m hm => ?_⟩
  obtain ⟨item, hg, hv⟩ := hitems m hm
  exact hg.itemExact hv fun p hp => of_decide_eq_true (List.mem_filter.mp hp).2

/-! ## The result -/

/-- **Parameter lists are exact.**  This holds of rendered paths, and at any depth of the paths of a
document.  A list is that of the same parameters in any other paths: the list of an item does not
depend on the operations, nor that of an operation on the item. -/
theorem renderPaths_parameters (default : String) (ps : List Path) :
    (∀ rendered, (renderPaths default ps).outcome = .ok rendered →
      Path.ListsExact ps rendered) ∧
    (∀ (api : Api) (options : AssemblyOptions) (r : Registry) (doc : Document),
      (assemble api options r).outcome = .ok doc → ∃ rendered,
        doc.toJson.get? "paths" = some rendered ∧ ∀ w, Json.PathsIn w rendered →
          ∃ qs, Path.Listed qs api.paths ∧ Path.ListsExact qs w) ∧
    ∀ ps' rendered rendered' t item item',
      (renderPaths default ps).outcome = .ok rendered →
      (renderPaths default ps').outcome = .ok rendered' →
      (t, item) ∈ rendered.members → (t, item') ∈ rendered'.members →
      ((Path.withTemplate ps t).flatMap (·.carried) =
          (Path.withTemplate ps' t).flatMap (·.carried) →
        item.get? "parameters" = item'.get? "parameters") ∧
      ∀ m op op', (m, op) ∈ Path.declared ps t → (m, op') ∈ Path.declared ps' t →
        op.parameters = op'.parameters →
        (item.get? m.word).bind (Json.get? "parameters") =
          (item'.get? m.word).bind (Json.get? "parameters") := by
  refine ⟨fun _ => listsExact_of_renderPaths, fun api options r doc hdoc => ?_,
    fun ps' rendered rendered' t item item' h h' ht ht' => ⟨fun hcarried => ?_, ?_⟩⟩
  · obtain ⟨rendered, hrendered, hpaths⟩ := renderPaths_of_assemble hdoc
    refine ⟨rendered, hpaths, fun w hw => ?_⟩
    obtain ⟨qs, hqs, houtcome⟩ := listed_of_pathsIn hw hrendered
    exact ⟨qs, hqs, listsExact_of_renderPaths houtcome⟩
  · have hexact := ((listsExact_of_renderPaths h).items _ ht).parameters
    rw [hcarried] at hexact
    exact hexact.unique ((listsExact_of_renderPaths h').items _ ht').parameters
  · intro m op op' hop hop' hsame
    obtain ⟨v, hv, hexact⟩ := ((listsExact_of_renderPaths h).items _ ht).operations _ hop
    obtain ⟨v', hv', hexact'⟩ := ((listsExact_of_renderPaths h').items _ ht').operations _ hop'
    rw [hv, hv', Option.bind_some, Option.bind_some]
    exact hexact.unique (hsame ▸ hexact')

/-- A path to a pet by its `id`, with an operation; both have parameters of their own. -/
def Path.toPet (m : Method) (own parameters : List Parameter) : Path :=
  ⟨[.literal "pets", .parameter (Descriptor.string none) (some "id")],
    [(m, { responses := [(204, {})], parameters })], own, none, none⟩

/-- Two paths to a pet: `id` in the query and in the path are two parameters, and the placeholder
counts before what is declared for it. -/
theorem renderPaths_parameters_pet : ∃ rendered item entries,
    rendered = .obj [("/pets/\x7bid\x7d", item)] ∧ item.get? "parameters" = some (.arr entries) ∧
      entries.map (Json.get? "in") =
        [some (.str "header"), some (.str "path"), some (.str "query")] ∧
      entries.map (Json.get? "deprecated") = [none, none, some (.bool true)] ∧
      Path.ListsExact
        [.toPet .get [{ name := "id", location := .query, deprecated := true }]
          [{ name := "id", location := .query }],
          .toPet .put [.query "id" none, { name := "id", location := .path, deprecated := true },
            .header "etag"] []] rendered := by
  obtain ⟨rendered, item, entries, hok, hitem, hlist, hin, hdeprecated⟩ :
      ∃ rendered item entries, (renderPaths "OK"
        [.toPet .get [{ name := "id", location := .query, deprecated := true }]
          [{ name := "id", location := .query }],
          .toPet .put [.query "id" none, { name := "id", location := .path, deprecated := true },
            .header "etag"] []]).outcome = .ok rendered ∧
        rendered = .obj [("/pets/\x7bid\x7d", item)] ∧
        item.get? "parameters" = some (.arr entries) ∧
        entries.map (Json.get? "in") =
          [some (.str "header"), some (.str "path"), some (.str "query")] ∧
        entries.map (Json.get? "deprecated") = [none, none, some (.bool true)] :=
    ⟨_, _, _, rfl, rfl, rfl, rfl, rfl⟩
  exact ⟨rendered, item, entries, hitem, hlist, hin, hdeprecated,
    (renderPaths_parameters "OK" _).1 rendered hok⟩

end OpenApi
