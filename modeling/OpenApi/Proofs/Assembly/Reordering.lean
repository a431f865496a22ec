import OpenApi.Assembly.Basic
import OpenApi.Proofs.Exchange
import OpenApi.Proofs.Trees

/-!
# Proofs/Assembly/Reordering — the same declarations in another order

    Api ── tags, security schemes, paths
     ╰─ Path ── parameters, operations
         ╰─ Operation ── responses, parameters, security references, callbacks ─╮
             ▲                                                                  │
             ╰──────────────────────── paths of a callback ─────────────────────╯

Two declarations say the same if one comes from the other by putting maps, tags, parameters and
security references into another order, anywhere, and paths as long as those with one template stay
in order.
-/

namespace OpenApi

/-- The template of a path, if its parameters have names. -/
def Path.template? (p : Path) : Option String :=
  match templateOf p.segments with
  | .ok (template, _) => some template
  | .error _ => none

/-- **An operation in another order** — of its responses, of its parameters and of the references
in its security requirements.  The callbacks are left to `Path.Reordered`. -/
structure Operation.Reordered {π : Type} (op op' : Operation π) : Prop where
  responses : Rearranged (·.1) op.responses op'.responses
  parameters : Rearranged Parameter.key op.parameters op'.parameters
  security : List.Forall₂ (fun r r' => Rearranged (·.name) r.references r'.references)
    op.security op'.security
  tags : op'.tags = op.tags
  summary : op'.summary = op.summary
  description : op'.description = op.description
  operationId : op'.operationId = op.operationId
  deprecated : op'.deprecated = op.deprecated
  body : op'.body = op.body

mutual

/-- **A path in another order** — of its parameters and operations, and inside these. -/
inductive Path.Reordered : Path → Path → Prop
  | intro {segments : List PathSegment} {operations operations' : List (Method × Operation Path)}
    {parameters parameters' : List Parameter} {summary description : Option String} :
    ReorderedOperations operations operations' →
    Rearranged Parameter.key parameters parameters' →
    Path.Reordered ⟨segments, operations, parameters, summary, description⟩
      ⟨segments, operations', parameters', summary, description⟩

/-- The operations of a path in another order. -/
inductive ReorderedOperations :
    List (Method × Operation Path) → List (Method × Operation Path) → Prop
  | nil : ReorderedOperations [] []
  | cons {m : Method} {op op' : Operation Path} {os os' : List (Method × Operation Path)} :
    op.Reordered op' → ReorderedCallbacks op.callbacks op'.callbacks →
    ReorderedOperations os os' → ReorderedOperations ((m, op) :: os) ((m, op') :: os')
  | rearrange {os os₁ os' : List (Method × Operation Path)} : ReorderedOperations os os₁ →
    Rearranged (·.1) os₁ os' → ReorderedOperations os os'

/-- The callbacks of an operation in another order. -/
inductive ReorderedCallbacks : List (String × List Path) → List (String × List Path) → Prop
  | nil : ReorderedCallbacks [] []
  | cons {name : String} {ps ps' : List Path} {cs cs' : List (String × List Path)} :
    ReorderedPaths ps ps' → ReorderedCallbacks cs cs' →
    ReorderedCallbacks ((name, ps) :: cs) ((name, ps') :: cs')
  | rearrange {cs cs₁ cs' : List (String × List Path)} : ReorderedCallbacks cs cs₁ →
    Rearranged (·.1) cs₁ cs' → ReorderedCallbacks cs cs'

/-- **Paths in another order** — those with one template stay in order. -/
inductive ReorderedPaths : List Path → List Path → Prop
  | nil : ReorderedPaths [] []
  | cons {p p' : Path} {ps ps' : List Path} : p.Reordered p' → ReorderedPaths ps ps' →
    ReorderedPaths (p :: ps) (p' :: ps')
  | rearrange {ps ps₁ ps' : List Path} : ReorderedPaths ps ps₁ → ps₁.Perm ps' →
    (∀ t, ps₁.filter (·.template? = some t) = ps'.filter (·.template? = some t)) →
    ReorderedPaths ps ps'

end

/-! ## The order itself -/

theorem Operation.Reordered.refl {π : Type} (op : Operation π) : op.Reordered op :=
  ⟨.refl _ _, .refl _ _, List.forall₂_same.mpr fun r _ => .refl _ r.references, rfl, rfl, rfl, rfl,
    rfl, rfl⟩

theorem reorderedPaths_refl {ps : List Path} (h : ∀ p ∈ ps, p.Reordered p) :
    ReorderedPaths ps ps := by
  induction ps with
  | nil => exact .nil
  | cons p ps ih =>
    obtain ⟨hp, hps⟩ := List.forall_mem_cons.mp h
    exact .cons hp (ih hps)

theorem reorderedCallbacks_refl {cs : List (String × List Path)}
    (h : ∀ c ∈ cs, ∀ p ∈ c.2, p.Reordered p) : ReorderedCallbacks cs cs := by
  induction cs with
  | nil => exact .nil
  | cons c cs ih =>
    obtain ⟨hc, hcs⟩ := List.forall_mem_cons.mp h
    exact .cons (reorderedPaths_refl hc) (ih hcs)

theorem reorderedOperations_refl {os : List (Method × Operation Path)}
    (h : ∀ o ∈ os, ∀ c ∈ o.2.callbacks, ∀ p ∈ c.2, p.Reordered p) : ReorderedOperations os os := by
  induction os with
  | nil => exact .nil
  | cons o os ih =>
    obtain ⟨ho, hos⟩ := List.forall_mem_cons.mp h
    exact .cons (.refl o.2) (reorderedCallbacks_refl ho) (ih hos)

theorem Path.Reordered.refl (p : Path) : p.Reordered p := by
  induction p using Path.tree with
  | node p ih =>
    obtain ⟨segments, operations, parameters, summary, description⟩ := p
    exact .intro (reorderedOperations_refl ih) (.refl _ _)

theorem ReorderedPaths.refl (ps : List Path) : ReorderedPaths ps ps :=
  reorderedPaths_refl fun p _ => .refl p

/-- **An API in another order** — of its tags and security schemes, and inside its paths. -/
structure Api.Reordered (api api' : Api) : Prop where
  info : api'.info = api.info
  paths : ReorderedPaths api.paths api'.paths
  tags : api.tags.Perm api'.tags
  servers : api'.servers = api.servers
  securitySchemes : Rearranged (·.1) api.securitySchemes api'.securitySchemes

end OpenApi
