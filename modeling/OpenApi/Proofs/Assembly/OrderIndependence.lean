import OpenApi.Proofs.Assembly.Items
import OpenApi.Proofs.Assembly.Reordering

/-!
# Proofs/Assembly/OrderIndependence — paths rendered in another order

Everything that is sorted before it is rendered comes out equal; what is merged by templates comes
to the same.  By induction over the reordering, paths in another order are rendered to values that
agree up to the order of the paths in them, by the same steps in some order
(`akin_renderPaths`).
-/

namespace OpenApi

open Journal (SameEnd)

/-! ## Operations -/

theorem SecurityRequirement.render_rearranged {r r' : SecurityRequirement}
    (h : Rearranged (·.name) r.references r'.references) : r.render = r'.render := by
  rw [SecurityRequirement.render, SecurityRequirement.render, h.sortOn_eq]

theorem agrees_unlessEmpty {place : Place} {ms ns : List (String × Json)}
    (hplace : place ≠ .paths)
    (h : List.Forall₂ (fun m n => m.1 = n.1 ∧ Json.AgreesAt (place.under m.1) m.2 n.2) ms ns) :
    Option.Rel (Json.AgreesAt place) (Schema.unlessEmpty .obj ms)
      (Schema.unlessEmpty .obj ns) := by
  cases h with
  | nil => exact .none
  | cons hm h => exact .some (.of_members hplace (.cons hm h))

/-- **An operation in another order is rendered to the same** — given that of its callbacks. -/
theorem Operation.Reordered.render {π : Type} {op op' : Operation π} (h : op.Reordered op')
    (default : String) {callbacks callbacks' : List (String × Rendering Json)}
    (hc : List.Forall₂ (fun c c' => c.1 = c'.1 ∧ AkinAt .paths c.2 c'.2)
      (sortOn (·.1) callbacks) (sortOn (·.1) callbacks')) :
    AkinAt .operation (renderOperation default op callbacks)
      (renderOperation default op' callbacks') := by
  have hsecurity : op.security.map (·.render) = op'.security.map (·.render) := by
    rw [← List.forall₂_eq_eq_eq, List.forall₂_map_left_iff, List.forall₂_map_right_iff]
    exact h.security.imp fun r r' hr => SecurityRequirement.render_rearranged hr
  have hparameters := renderParameters_distinctByKey h.parameters.find?_eq
  rw [renderOperation, renderOperation, h.responses.isEmpty_eq, hsecurity, h.body,
    h.responses.sortOn_eq, hparameters, h.tags, h.summary, h.description, h.operationId,
    h.deprecated]
  dsimp only
  split
  · exact .error
  · refine .bind (.refl (fun _ => rfl) _) fun security _ hs => ?_
    obtain rfl := hs
    refine .bind (.refl (fun _ => rfl) _) fun body _ hb => ?_
    obtain rfl := hb
    refine .bind (.refl (fun _ => rfl) _) fun responses _ hr => ?_
    obtain rfl := hr
    refine .bind (.refl (fun _ => rfl) _) fun parameters _ hp => ?_
    obtain rfl := hp
    refine .bind (.sequenceTable hc) fun cs cs' hcs => .pure ?_
    have hplace : Place.operation.under "callbacks" = .callbacks := by simp [Place.under]
    refine .of_options (by decide)
      (forall₂_members_concat [_, _, _, _, _, _, _, _, _] ?_)
    rw [hplace]
    exact agrees_unlessEmpty (by decide) hcs

/-! ## Paths -/

/-- Parts with different templates change places anywhere in a list. -/
theorem mergeParts_exchange {parts parts' : List PathPart}
    (h : Exchange PathPart.Passes parts parts') {items items' : List (String × PathItem)}
    (hi : AkinItems items items') :
    SameEnd AkinItems (mergeParts items parts) (mergeParts items' parts') := by
  obtain @⟨before, after, p, q, hpq⟩ := h
  induction before generalizing items items' with
  | nil => exact mergeParts_swap hpq after hi
  | cons part before ih =>
    rw [List.cons_append, List.cons_append, mergeParts_cons, mergeParts_cons]
    refine .bind (hi.mergePart_self part) ?_
    rintro ⟨t, i⟩ ⟨-, i'⟩ ⟨rfl, -, hij⟩
    exact ih (hi.insert hij t)

theorem akin_renderParts_exchanges {parts parts' : List PathPart}
    (h : Relation.ReflTransGen (Exchange PathPart.Passes) parts parts') :
    AkinAt .paths (renderParts parts) (renderParts parts') := by
  induction h with
  | refl => exact .refl _ _
  | tail _ hs ih =>
    exact (ih.trans (akin_renderParts (mergeParts_exchange hs .nil))).imp
      fun _ _ ⟨_, hab, hbc⟩ => hab.trans hbc

theorem Path.template?_eq_some_iff {p : Path} {t : String} :
    p.template? = some t ↔ ∃ i, templateOf p.segments = .ok (t, i) := by
  rw [Path.template?]
  split
  · next template i h => simp [h]
  · next e h => simp [h]

theorem template_part (default : String) (p : Path) :
    (p.part default).template = templateOf p.segments := by
  obtain ⟨segments, operations, parameters, summary, description⟩ := p
  rfl

theorem passes_part {p q : Path} (h : ∀ t, p.template? = some t → q.template? ≠ some t)
    (default : String) : (p.part default).Passes (q.part default) := by
  rintro s i t j hs ht rfl
  rw [template_part] at hs ht
  exact h s (Path.template?_eq_some_iff.mpr ⟨i, hs⟩) (Path.template?_eq_some_iff.mpr ⟨j, ht⟩)

/-- What some paths contribute comes to the same: part by part, and then in another order. -/
def AkinPaths (default : String) (ps ps' : List Path) : Prop :=
  ∃ parts, List.Forall₂ PathPart.Akin (pathParts default ps) parts ∧
    Relation.ReflTransGen (Exchange PathPart.Passes) parts (pathParts default ps')

theorem AkinPaths.render {default : String} {ps ps' : List Path} (h : AkinPaths default ps ps') :
    AkinAt .paths (renderPaths default ps) (renderPaths default ps') := by
  obtain ⟨parts, hparts, hchain⟩ := h
  have hone := akin_renderParts (mergeParts_akin hparts .nil)
  exact (hone.trans (akin_renderParts_exchanges hchain)).imp
    fun _ _ ⟨_, hab, hbc⟩ => hab.trans hbc

/-- The callbacks of two operations come to the same one by one, in the order of their names. -/
def AkinCallbacks (default : String) (cs cs' : List (String × List Path)) : Prop :=
  List.Forall₂ (fun c c' => c.1 = c'.1 ∧ AkinAt .paths c.2 c'.2)
    (sortOn (·.1) (callbackParts default cs)) (sortOn (·.1) (callbackParts default cs'))

section Lists

variable {default : String}

theorem akin_part {segments : List PathSegment} {os os' : List (Method × Operation Path)}
    {ps ps' : List Parameter} {summary description : Option String}
    (ho : AkinOperations (operationParts default os) (operationParts default os'))
    (hp : Rearranged Parameter.key ps ps') :
    (Path.part default ⟨segments, os, ps, summary, description⟩).Akin
      (Path.part default ⟨segments, os', ps', summary, description⟩) :=
  ⟨rfl, ho, hp.find?_eq, rfl, rfl⟩

theorem operationParts_cons (m : Method) (op : Operation Path)
    (os : List (Method × Operation Path)) : operationParts default ((m, op) :: os) =
      (m, renderOperation default op (callbackParts default op.callbacks)) ::
        operationParts default os := rfl

theorem AkinOperations.cons {m : Method} {op op' : Operation Path}
    {os os' : List (Method × Operation Path)} (h : op.Reordered op')
    (hc : AkinCallbacks default op.callbacks op'.callbacks)
    (ho : AkinOperations (operationParts default os) (operationParts default os')) :
    AkinOperations (operationParts default ((m, op) :: os))
      (operationParts default ((m, op') :: os')) := by
  obtain ⟨os₁, hos, hp⟩ := ho
  rw [operationParts_cons, operationParts_cons]
  exact ⟨(m, renderOperation default op' (callbackParts default op'.callbacks)) :: os₁,
    .cons ⟨rfl, h.render default hc⟩ hos, hp.cons _⟩

theorem AkinOperations.rearrange {os os₁ os' : List (Method × Operation Path)}
    (h : AkinOperations (operationParts default os) (operationParts default os₁))
    (hr : Rearranged (·.1) os₁ os') :
    AkinOperations (operationParts default os) (operationParts default os') := by
  obtain ⟨parts, hparts, hp⟩ := h
  refine ⟨parts, hparts, hp.trans ?_⟩
  rw [operationParts_eq_map, operationParts_eq_map]
  exact hr.perm.map _

theorem AkinCallbacks.cons {name : String} {ps ps' : List Path}
    {cs cs' : List (String × List Path)} (h : AkinPaths default ps ps')
    (hc : AkinCallbacks default cs cs') :
    AkinCallbacks default ((name, ps) :: cs) ((name, ps') :: cs') := by
  rw [AkinCallbacks, callbackParts, callbackParts, sortOn_cons, sortOn_cons]
  exact forall₂_insertOn (a := (name, renderPaths default ps))
    (b := (name, renderPaths default ps')) rfl h.render hc

theorem AkinCallbacks.rearrange {cs cs₁ cs' : List (String × List Path)}
    (h : AkinCallbacks default cs cs₁) (hr : Rearranged (·.1) cs₁ cs') :
    AkinCallbacks default cs cs' := by
  have hr' : Rearranged (·.1) (callbackParts default cs₁) (callbackParts default cs') := by
    rw [callbackParts_eq_map, callbackParts_eq_map]
    refine hr.imp (congrArg _) fun ⟨hp, hn⟩ => ⟨hp.map _, ?_⟩
    rw [List.map_map]
    exact hn
  rw [AkinCallbacks, ← hr'.sortOn_eq]
  exact h

theorem AkinPaths.cons {p p' : Path} {ps ps' : List Path}
    (hp : (p.part default).Akin (p'.part default)) (h : AkinPaths default ps ps') :
    AkinPaths default (p :: ps) (p' :: ps') := by
  obtain ⟨parts, hparts, hchain⟩ := h
  exact ⟨p'.part default :: parts, .cons hp hparts,
    hchain.lift (p'.part default :: ·) fun _ _ hs => hs.cons _⟩

theorem AkinPaths.rearrange {ps ps₁ ps' : List Path} (h : AkinPaths default ps ps₁)
    (hp : ps₁.Perm ps')
    (hf : ∀ t, ps₁.filter (·.template? = some t) = ps'.filter (·.template? = some t)) :
    AkinPaths default ps ps' := by
  obtain ⟨parts, hparts, hchain⟩ := h
  have hpaths : Relation.ReflTransGen
      (Exchange fun p q : Path => ∀ t, p.template? = some t → q.template? ≠ some t) ps₁ ps' :=
    exchanges_of_filter Path.template? (fun _ _ h => h) hp hf
  refine ⟨parts, hparts, hchain.trans ?_⟩
  rw [pathParts_eq_map, pathParts_eq_map]
  exact hpaths.lift (List.map (·.part default)) fun _ _ hs =>
    hs.map fun _ _ hpq => passes_part hpq default

end Lists

/-- **Paths in another order contribute the same** — by induction over the reordering, with one
statement for each kind of list. -/
theorem akinPaths_of_reordered (default : String) {ps ps' : List Path}
    (h : ReorderedPaths ps ps') : AkinPaths default ps ps' :=
  ReorderedPaths.rec
    (motive_1 := fun p p' _ => (p.part default).Akin (p'.part default))
    (motive_2 := fun os os' _ =>
      AkinOperations (operationParts default os) (operationParts default os'))
    (motive_3 := fun cs cs' _ => AkinCallbacks default cs cs')
    (motive_4 := fun ps ps' _ => AkinPaths default ps ps')
    (fun _ hp ho => akin_part ho hp) (.refl _)
    (fun h _ _ hc ho => .cons h hc ho) (fun _ hr h => h.rearrange hr) .nil
    (fun _ _ h hc => .cons h hc) (fun _ hr h => h.rearrange hr) ⟨[], .nil, .refl⟩
    (fun _ _ hp h => .cons hp h) (fun _ hp hf h => h.rearrange hp hf) h

/-- **Paths in another order are rendered to the same** — up to the order of the paths in the
values, by the same steps in some order. -/
theorem akin_renderPaths (default : String) {ps ps' : List Path} (h : ReorderedPaths ps ps') :
    AkinAt .paths (renderPaths default ps) (renderPaths default ps') :=
  (akinPaths_of_reordered default h).render

end OpenApi
