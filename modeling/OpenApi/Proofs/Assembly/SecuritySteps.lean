import OpenApi.Proofs.Assembly.MergedPaths
import OpenApi.Proofs.Journal.Asks

/-!
# Proofs/Assembly/SecuritySteps — what rendered paths ask for in security

    paths ── operation ── requirement ── reference ──▸ refer to its name, declare its scheme
                 ╰──────── callbacks ── paths ──▸ …

Rendered paths ask for the steps of the references that their operations use, in callbacks at any
depth, and for no others about security (`asks_renderPaths`).  Nothing else in them is about
security, their failures included.
-/

namespace OpenApi

open Journal (Asks Silent)

/-! ## Steps and failures -/

/-- A step is about a security scheme. -/
def Step.OfSecurity : Step → Prop
  | .declare _ _ => True
  | .refer _ => True
  | _ => False

/-- A failure is about a security scheme. -/
def AssemblyError.OfSecurity : AssemblyError → Prop
  | .api (.conflictingScheme _) => True
  | .api (.unknownScheme _) => True
  | _ => False

/-- **A rendering asks for these steps of security** — and fails for other reasons only. -/
abbrev Rendering.Secures {α : Type} (Q : Step → Prop) (r : Rendering α) : Prop :=
  Asks Step.OfSecurity (fun e : AssemblyError => ¬ e.OfSecurity) Q r

/-- The steps that a reference stands for. -/
def SecurityReference.AsksFor (r : SecurityReference) (s : Step) : Prop :=
  s = .refer r.name ∨ ∃ scheme, r.scheme = some scheme ∧ s = .declare r.name scheme

/-- **A reference is used in some paths** — in a requirement of an operation, in callbacks at any
depth. -/
def Path.Uses (ps : List Path) (r : SecurityReference) : Prop :=
  ∃ qs, Path.Listed qs ps ∧ ∃ p ∈ qs, ∃ o ∈ p.operations, ∃ q ∈ o.2.security, r ∈ q.references

/-- The steps of all references that are used in some paths. -/
def Path.AsksFor (ps : List Path) (s : Step) : Prop := ∃ r, Path.Uses ps r ∧ r.AsksFor s

/-- The steps of all references of an operation and in its callbacks. -/
def Operation.AsksFor (op : Operation Path) (s : Step) : Prop :=
  (∃ q ∈ op.security, ∃ r ∈ q.references, r.AsksFor s) ∨ ∃ c ∈ op.callbacks, Path.AsksFor c.2 s

theorem Path.asksFor_iff {ps : List Path} {s : Step} :
    Path.AsksFor ps s ↔ ∃ p ∈ ps, ∃ o ∈ p.operations, o.2.AsksFor s := by
  constructor
  · rintro ⟨r, ⟨qs, _ | ⟨hp, ho, hc, hlisted⟩, huses⟩, hs⟩
    · obtain ⟨p, hp, o, ho, q, hq, hr⟩ := huses
      exact ⟨p, hp, o, ho, .inl ⟨q, hq, r, hr, hs⟩⟩
    · exact ⟨_, hp, _, ho, .inr ⟨_, hc, r, ⟨qs, hlisted, huses⟩, hs⟩⟩
  · rintro ⟨p, hp, o, ho, ⟨q, hq, r, hr, hs⟩ | ⟨c, hc, r, ⟨qs, hlisted, huses⟩, hs⟩⟩
    · exact ⟨r, ⟨ps, .self, p, hp, o, ho, q, hq, hr⟩, hs⟩
    · exact ⟨r, ⟨qs, .callback hp ho hc hlisted, huses⟩, hs⟩

/-! ## Single parts -/

theorem silent_renderDescriptor (d : Descriptor) :
    Rendering.Secures (fun _ => False) (renderDescriptor d) := by
  rw [renderDescriptor]
  refine (Asks.embed_silent _ (fun _ => id) fun _ => id).after fun schema => ?_
  exact (Asks.tell_silent id).after fun _ => .pure

theorem silent_optional (o : Option Descriptor) :
    Rendering.Secures (fun _ => False) (Journal.sequenceOption (o.map renderDescriptor)) :=
  .sequenceOption_silent silent_renderDescriptor

theorem silent_body (o : Option RequestBody) :
    Rendering.Secures (fun _ => False) (Journal.sequenceOption (o.map (·.render))) :=
  .sequenceOption_silent fun b => (silent_renderDescriptor b.schema).map _

theorem silent_responses (default : String) (rs : List (Int × Response)) :
    Rendering.Secures (fun _ => False)
      (Journal.sequenceTable (rs.map fun r => (toString r.1, r.2.render default))) :=
  .sequenceTable_silent fun r _ => (silent_optional r.2.schema).map _

theorem silent_parameters (ps : List Parameter) :
    Rendering.Secures (fun _ => False) (renderParameters ps) :=
  .sequence_silent fun p _ => (silent_optional p.schema).map _

theorem SecurityReference.secures (r : SecurityReference) :
    Rendering.Secures r.AsksFor r.render := by
  obtain ⟨name, scopes, _ | scheme⟩ := r
  · refine ((Asks.tell _).map _).of_iff fun s => ?_
    simp [AsksFor]
  · refine ((Asks.tell _).bind fun _ _ => (Asks.tell _).map _).of_iff fun s => ?_
    simp [AsksFor, or_comm]

theorem SecurityRequirement.secures (q : SecurityRequirement) :
    Rendering.Secures (fun s => ∃ r ∈ q.references, r.AsksFor s) q.render := by
  refine ((Asks.sequence_map fun r _ => r.secures).map _).of_iff fun s => ?_
  simp only [mem_sortOn]

/-! ## Operations, items and paths -/

section Paths

variable {default : String} {ps : List Path}

theorem Operation.secures {op : Operation Path} (h : ∀ c ∈ op.callbacks,
    Rendering.Secures (Path.AsksFor c.2) (renderPaths default c.2)) :
    Rendering.Secures op.AsksFor (op.rendering default) := by
  rw [rendering, renderOperation, sortOn_map]
  dsimp only
  split
  · have hfail : Rendering.Secures op.AsksFor
        (Journal.fail (.api .noResponses) : Rendering Json) := .fail id
    exact hfail
  · have hcallbacks : Rendering.Secures
        (fun s => ∃ c ∈ sortOn (·.1) op.callbacks, Path.AsksFor c.2 s)
        (Journal.sequenceTable ((sortOn (·.1) op.callbacks).map fun c =>
          (c.1, renderPaths default c.2))) :=
      Asks.sequenceTable_map fun c hc => h c (mem_sortOn.mp hc)
    refine ((Asks.sequence_map fun q _ => SecurityRequirement.secures q).bind fun _ _ =>
      (silent_body _).after fun _ => (silent_responses _ _).after fun _ =>
        (silent_parameters _).after fun _ => hcallbacks.map _).of_iff fun s => ?_
    simp only [AsksFor, mem_sortOn]

theorem PathItem.Gathers.secures {item : PathItem}
    (hg : ({} : PathItem).Gathers default ps item)
    (h : ∀ o ∈ ps.flatMap (·.operations),
      Rendering.Secures o.2.AsksFor (o.2.rendering default)) :
    Rendering.Secures (fun s => ∃ o ∈ ps.flatMap (·.operations), o.2.AsksFor s) item.render := by
  rw [PathItem.render, hg.operations, List.nil_append, sortOn_map]
  refine ((Asks.sequenceTable_map fun o ho => h o (mem_sortOn.mp ho)).bind fun _ _ =>
    (silent_parameters _).map _).of_iff fun s => ?_
  simp only [mem_sortOn, or_false]

/-- A path has no template only if a parameter has no name. -/
theorem templateOf_eq_error {segments : List PathSegment} {e : ApiFault}
    (h : templateOf segments = .error e) : e = .anonymousParameter := by
  have hsegments : renderSegments segments = .error e := by
    rcases bind_eq_error_iff.mp h with h | ⟨_, _, h⟩
    · exact h
    · cases h
  clear h
  induction segments with
  | nil => cases hsegments
  | cons s segments ih =>
    rcases bind_eq_error_iff.mp hsegments with h | ⟨_, -, h⟩
    · cases s with
      | literal text => cases h
      | parameter type name =>
        rcases bind_eq_error_iff.mp h with h | ⟨_, _, h⟩
        · rw [parameterName] at h
          split at h <;> cases h
          rfl
        · cases h
    · rcases bind_eq_error_iff.mp h with h | ⟨_, _, h⟩
      · exact ih h
      · cases h

/-- Merging fails for no reason of security. -/
theorem not_ofSecurity_of_mergeParts {items : List (String × PathItem)} {e : ApiFault}
    (h : mergeParts items (pathParts default ps) = .error e) :
    ¬ (AssemblyError.api e).OfSecurity := by
  induction ps generalizing items with
  | nil => cases h
  | cons p ps ih =>
    rw [pathParts, mergeParts] at h
    rcases bind_eq_error_iff.mp h with h | ⟨⟨t, implied⟩, -, h⟩
    · rw [template_part] at h
      rw [templateOf_eq_error h]
      exact id
    · rcases bind_eq_error_iff.mp h with h | ⟨item, -, h⟩
      · obtain ⟨m, rfl, -⟩ := add_eq_error h
        exact id
      · exact ih h

/-- Paths ask for what their operations ask for. -/
theorem secures_renderPaths_of (h : ∀ p ∈ ps, ∀ o ∈ p.operations,
    Rendering.Secures o.2.AsksFor (o.2.rendering default)) :
    Rendering.Secures (Path.AsksFor ps) (renderPaths default ps) := by
  rw [renderPaths, renderParts]
  cases hmerge : mergeParts [] (pathParts default ps) with
  | error e =>
    have hfail : Rendering.Secures (Path.AsksFor ps) (Journal.fail (.api e) : Rendering Json) :=
      .fail (not_ofSecurity_of_mergeParts hmerge)
    exact hfail
  | ok items =>
    obtain ⟨hkeys, hgathers⟩ := gathers_items hmerge
    have hdeclared : ∀ o, (∃ i ∈ items, o ∈ Path.declared ps i.1) ↔ ∃ p ∈ ps, o ∈ p.operations :=
      fun _ => Path.exists_declared_iff hkeys (named_of_mergeParts hmerge)
    have hitems : ∀ i ∈ items, Rendering.Secures
        (fun s => ∃ o ∈ Path.declared ps i.1, o.2.AsksFor s) i.2.render := by
      intro i hi
      refine (hgathers i hi).secures fun o ho => ?_
      obtain ⟨p, hp, ho⟩ := (hdeclared o).mp ⟨i, hi, ho⟩
      exact h p hp o ho
    refine (Asks.after (.pure : Silent _ _ (pure items : Rendering _)) fun _ =>
      (Asks.sequenceTable_map (f := fun i : String × PathItem => (i.1, i.2.render)) hitems).map
        _).of_iff fun s => ?_
    rw [Path.asksFor_iff]
    constructor
    · rintro ⟨i, hi, o, ho, hs⟩
      obtain ⟨p, hp, ho⟩ := (hdeclared o).mp ⟨i, hi, ho⟩
      exact ⟨p, hp, o, ho, hs⟩
    · rintro ⟨p, hp, o, ho, hs⟩
      obtain ⟨i, hi, ho⟩ := (hdeclared o).mpr ⟨p, hp, ho⟩
      exact ⟨i, hi, o, ho, hs⟩

/-- **What paths ask for in security** — by induction over the paths in callbacks. -/
theorem secures_renderPaths (default : String) (ps : List Path) :
    Rendering.Secures (Path.AsksFor ps) (renderPaths default ps) := by
  have hoperations : ∀ p : Path, ∀ o ∈ p.operations,
      Rendering.Secures o.2.AsksFor (o.2.rendering default) := by
    intro p
    induction p using Path.tree with
    | node p ih =>
      exact fun o ho => Operation.secures fun c hc => secures_renderPaths_of (ih o ho c hc)
  exact secures_renderPaths_of fun p _ => hoperations p

end Paths

end OpenApi
