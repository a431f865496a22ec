import OpenApi.Proofs.Assembly.MergedPaths

/-!
# Proofs/Assembly/Occurrences — paths and operations in rendered paths

    paths ── template ── item ── method ── operation ── callbacks ── name ──▸ paths

Read from outside, rendered paths are objects in objects.  Whatever stands at the place of an
operation in them is the rendering of an operation that is declared there, and whatever stands at
the place of paths, at any depth, is the rendering of a declared list of paths
(`rendering_of_hasOperation`, `listed_of_pathsIn`).
-/

namespace OpenApi

/-! ## Places in rendered paths -/

namespace Json

/-- The members of an object; other values have none. -/
def members : Json → List (String × Json)
  | .obj members => members
  | _ => []

theorem mem_members_ofOptions {ms : List (String × Option Json)} {key : String} {v : Json} :
    (key, v) ∈ (Json.ofOptions ms).members ↔ (key, some v) ∈ ms := by
  rw [ofOptions, members, present, List.mem_filterMap]
  constructor
  · rintro ⟨⟨k, o⟩, hm, h⟩
    obtain ⟨w, rfl, hw⟩ := Option.map_eq_some_iff.mp h
    obtain ⟨rfl, rfl⟩ := Prod.mk.inj hw
    exact hm
  · exact fun h => ⟨_, h, rfl⟩

/-- **An operation in rendered paths** — the value under a method in the item of a template. -/
def HasOperation (paths : Json) (template : String) (m : Method) (v : Json) : Prop :=
  ∃ item, (template, item) ∈ paths.members ∧ (m.word, v) ∈ item.members

/-- **Paths in rendered paths** — they themselves, or those of a callback at any depth. -/
inductive PathsIn (w : Json) : Json → Prop
  | self : PathsIn w w
  | callback {paths op callbacks inner : Json} {template name : String} {m : Method}
    (hop : paths.HasOperation template m op) (hcallbacks : ("callbacks", callbacks) ∈ op.members)
    (hinner : (name, inner) ∈ callbacks.members) (h : PathsIn w inner) : PathsIn w paths

end Json

/-! ## What stands there -/

variable {default : String} {ps : List Path} {rendered : Json}

/-- A value under a method in a rendered item is that of an operation. -/
theorem PathItem.rendered_of_mem_members {item : PathItem} {v w : Json} {m : Method}
    (h : item.render.outcome = .ok v) (hw : (m.word, w) ∈ v.members) :
    ∃ r, (m, r) ∈ item.operations ∧ r.outcome = .ok w := by
  obtain ⟨operations, parameters, hoperations, -, rfl⟩ := PathItem.render_eq_ok h
  have hword := PathItem.word_notMem m
  simp only [List.mem_cons, List.not_mem_nil, or_false, not_or] at hword
  simp only [Json.mem_members_ofOptions, PathItem.members, List.mem_append, List.mem_cons,
    List.not_mem_nil, or_false, Prod.mk.injEq, hword, false_and, false_or, List.mem_map] at hw
  obtain ⟨⟨m', w'⟩, hmem, hm, hv⟩ := hw
  obtain rfl := Method.word_injective hm
  obtain rfl := Option.some.inj hv
  obtain ⟨⟨m'', r⟩, hr, rfl, houtcome⟩ :=
    exists_left_of_forall₂ (Journal.sequenceTable_eq_ok_iff.mp hoperations) hmem
  exact ⟨r, mem_sortOn.mp hr, houtcome⟩

/-- **An operation in rendered paths is declared there** — under its template, with its method. -/
theorem rendering_of_hasOperation (h : (renderPaths default ps).outcome = .ok rendered)
    {t : String} {m : Method} {v : Json} (hv : rendered.HasOperation t m v) :
    ∃ op, (m, op) ∈ Path.declared ps t ∧ (op.rendering default).outcome = .ok v := by
  obtain ⟨-, members, rfl, -, hitems⟩ := gathered_of_renderPaths h
  obtain ⟨v', hitem, hm⟩ := hv
  obtain ⟨item, hg, houtcome⟩ := hitems _ hitem
  obtain ⟨r, hr, hrv⟩ := PathItem.rendered_of_mem_members houtcome hm
  rw [hg.operations] at hr
  obtain ⟨⟨m', op⟩, hop, heq⟩ := List.mem_map.mp hr
  obtain ⟨rfl, rfl⟩ := Prod.mk.inj heq
  exact ⟨op, hop, hrv⟩

/-- A value under a key of a rendered operation is what the key is given. -/
theorem Operation.eq_of_mem_members {op : Operation Path} {parts : Operation.Parts} {key : String}
    {o : Option Json} {v : Json} (h : (key, v) ∈ (Json.ofOptions (op.members parts)).members)
    (ho : (key, o) ∈ op.members parts) : o = some v :=
  (get?_of_mem_members ho).symm.trans (get?_of_mem_members (Json.mem_members_ofOptions.mp h))

/-- A value in the callbacks of a rendered operation is the rendering of one of them. -/
theorem Operation.rendered_of_mem_callbacks {op : Operation Path} {v callbacks w : Json}
    {name : String} (h : (op.rendering default).outcome = .ok v)
    (hcallbacks : ("callbacks", callbacks) ∈ v.members) (hw : (name, w) ∈ callbacks.members) :
    ∃ qs, (name, qs) ∈ op.callbacks ∧ (renderPaths default qs).outcome = .ok w := by
  obtain ⟨parts, hparts, rfl⟩ := Operation.rendering_eq_ok h
  have hsome : Schema.unlessEmpty .obj parts.callbacks = some callbacks :=
    Operation.eq_of_mem_members hcallbacks (by simp [Operation.members])
  obtain rfl := Schema.eq_of_unlessEmpty hsome
  obtain ⟨⟨_, r⟩, hr, rfl, houtcome⟩ :=
    exists_left_of_forall₂ (Journal.sequenceTable_eq_ok_iff.mp hparts.callbacks) hw
  obtain ⟨⟨name', qs⟩, hqs, heq⟩ := List.mem_map.mp (mem_sortOn.mp hr)
  obtain ⟨rfl, rfl⟩ := Prod.mk.inj heq
  exact ⟨qs, hqs, houtcome⟩

/-- **Paths in rendered paths are listed there** — by induction over the callbacks around them. -/
theorem listed_of_pathsIn {w : Json} (hw : Json.PathsIn w rendered)
    (h : (renderPaths default ps).outcome = .ok rendered) :
    ∃ qs, Path.Listed qs ps ∧ (renderPaths default qs).outcome = .ok w := by
  induction hw generalizing ps with
  | self => exact ⟨ps, .self, h⟩
  | callback hop hcallbacks hinner _ ih =>
    obtain ⟨op, hdeclared, hoperation⟩ := rendering_of_hasOperation h hop
    obtain ⟨cs, hcs, hrendered⟩ :=
      Operation.rendered_of_mem_callbacks hoperation hcallbacks hinner
    obtain ⟨qs, hqs, houtcome⟩ := ih hrendered
    obtain ⟨p, hp, ho⟩ := List.mem_flatMap.mp hdeclared
    exact ⟨qs, .callback (List.mem_filter.mp hp).1 ho hcs hqs, houtcome⟩

end OpenApi
