import OpenApi.Assembly.Paths
import OpenApi.Proofs.Journal
import OpenApi.Proofs.Order
import OpenApi.Proofs.Trees

/-!
# Proofs/Assembly/Parts — what the rendering of some paths is put together from

The renderings of paths, operations and callbacks call each other.  Here each is written as a map
over the list it works on (`operations_part`), so that induction over paths applies, and every
operation that a merge keeps is traced back to a path (`mem_operations_of_mergeParts`).  A first use
is `ensures_renderPaths`: what holds of the steps of each single descriptor, and of what security
references ask for, holds of all steps.
-/

namespace OpenApi

/-! ## The recursion, list by list -/

theorem callbackParts_eq_map (default : String) (cs : List (String × List Path)) :
    callbackParts default cs = cs.map fun c => (c.1, renderPaths default c.2) := by
  induction cs with
  | nil => rfl
  | cons c cs ih => rw [callbackParts, ih, List.map_cons, renderPaths]

theorem operationParts_eq_map (default : String) (os : List (Method × Operation Path)) :
    operationParts default os = os.map fun o =>
      (o.1, renderOperation default o.2
        (o.2.callbacks.map fun c => (c.1, renderPaths default c.2))) := by
  induction os with
  | nil => rfl
  | cons o os ih => rw [operationParts, ih, List.map_cons, callbackParts_eq_map]; rfl

theorem pathParts_eq_map (default : String) (ps : List Path) :
    pathParts default ps = ps.map (·.part default) := by
  induction ps with
  | nil => rfl
  | cons p ps ih => rw [pathParts, ih, List.map_cons]

/-- **The operations of a path, each with the renderings of its callbacks.** -/
theorem operations_part (default : String) (p : Path) :
    (p.part default).operations = p.operations.map fun o =>
      (o.1, renderOperation default o.2
        (o.2.callbacks.map fun c => (c.1, renderPaths default c.2))) := by
  obtain ⟨segments, operations, parameters, summary, description⟩ := p
  exact operationParts_eq_map default operations

theorem renderPaths_eq (default : String) (ps : List Path) :
    renderPaths default ps = renderParts (ps.map (·.part default)) := by
  rw [renderPaths, pathParts_eq_map]

/-! ## Where the operations of a merged item come from -/

/-- **Operations are added if their methods are new and different.** -/
theorem addOperations_eq_ok_iff {template : String}
    {known rest result : List (Method × Rendering Json)} :
    addOperations template known rest = .ok result ↔
      ((rest.map (·.1)).Nodup ∧ ∀ o ∈ rest, o.1 ∉ known.map (·.1)) ∧ result = known ++ rest := by
  induction rest generalizing known with
  | nil => simp [addOperations, @eq_comm _ result]
  | cons o rest ih =>
    rw [addOperations]
    split
    · next h =>
      rw [Table.get?_isSome_iff] at h
      exact ⟨fun he => (nomatch he), fun hc => absurd h (hc.1.2 o List.mem_cons_self)⟩
    · next h =>
      rw [Table.get?_isSome_iff] at h
      rw [ih, List.append_assoc, List.singleton_append, List.map_cons, List.nodup_cons,
        List.forall_mem_cons]
      simp only [List.map_append, List.map_cons, List.map_nil, List.mem_append, not_or,
        List.mem_singleton, h, not_false_eq_true, true_and]
      refine and_congr_left fun _ => ⟨fun ⟨hn, hr⟩ => ⟨⟨?_, hn⟩, fun p hp => (hr p hp).1⟩,
        fun ⟨⟨ho, hn⟩, hr⟩ => ⟨hn, fun p hp => ⟨hr p hp, ?_⟩⟩⟩
      · intro hm
        obtain ⟨p, hp, he⟩ := List.mem_map.mp hm
        exact (hr p hp).2 he
      · exact fun he => ho (List.mem_map.mpr ⟨p, hp, he⟩)

/-- The item with the contributions of one more path. -/
def PathItem.extend (item : PathItem) (implied : List Parameter) (part : PathPart) : PathItem where
  operations := item.operations ++ part.operations
  parameters := (implied ++ part.parameters).foldl
    (fun table p => Table.insertNew p.key p table) item.parameters
  summary := item.summary <|> part.summary
  description := item.description <|> part.description

theorem PathItem.add_eq_ok_iff {item item' : PathItem} {template : String}
    {implied : List Parameter} {part : PathPart} :
    item.add template implied part = .ok item' ↔
      ((part.operations.map (·.1)).Nodup ∧
        ∀ o ∈ part.operations, o.1 ∉ item.operations.map (·.1)) ∧
      item' = item.extend implied part := by
  rw [PathItem.add]
  cases ho : addOperations template item.operations part.operations with
  | error e =>
    refine ⟨fun h => (nomatch h), fun ⟨h, _⟩ => ?_⟩
    rw [addOperations_eq_ok_iff.mpr ⟨h, rfl⟩] at ho
    cases ho
  | ok operations =>
    obtain ⟨h, rfl⟩ := addOperations_eq_ok_iff.mp ho
    exact ⟨fun he => ⟨h, (Except.ok.inj he).symm⟩, fun ⟨_, he⟩ => congrArg _ he.symm⟩

/-- One part merged into the items, and the others after it. -/
theorem mergeParts_cons_eq_ok {items result : List (String × PathItem)} {part : PathPart}
    {parts : List PathPart} (h : mergeParts items (part :: parts) = .ok result) :
    ∃ template implied item, part.template = .ok (template, implied) ∧
      ((Table.get? template items).getD {}).add template implied part = .ok item ∧
      mergeParts (Table.insert template item items) parts = .ok result := by
  rw [mergeParts] at h
  obtain ⟨⟨template, implied⟩, ht, h⟩ := bind_eq_ok_iff.mp h
  obtain ⟨item, hi, h⟩ := bind_eq_ok_iff.mp h
  exact ⟨template, implied, item, ht, hi, h⟩

/-- **Merging invents no operation** — each one of an item belongs to a part. -/
theorem mem_operations_of_mergeParts {P : Method × Rendering Json → Prop}
    {items result : List (String × PathItem)} {parts : List PathPart}
    (h : mergeParts items parts = .ok result)
    (hitems : ∀ i ∈ items, ∀ o ∈ i.2.operations, P o)
    (hparts : ∀ part ∈ parts, ∀ o ∈ part.operations, P o) :
    ∀ i ∈ result, ∀ o ∈ i.2.operations, P o := by
  induction parts generalizing items with
  | nil =>
    obtain rfl := Except.ok.inj h
    exact hitems
  | cons part parts ih =>
    obtain ⟨hpart, hrest⟩ := List.forall_mem_cons.mp hparts
    obtain ⟨template, implied, item, -, hadd, hmerge⟩ := mergeParts_cons_eq_ok h
    refine ih hmerge (fun i hi o ho => ?_) hrest
    obtain ⟨-, rfl⟩ := PathItem.add_eq_ok_iff.mp hadd
    rcases Table.mem_insert hi with rfl | hi
    · rcases List.mem_append.mp ho with ho | ho
      · cases hg : Table.get? template items with
        | none => simp [hg] at ho
        | some known =>
          rw [hg] at ho
          exact hitems _ (Table.mem_of_get?_eq_some hg) o ho
      · exact hpart o ho
    · exact hitems i hi o ho

/-! ## All steps of a rendering -/

/-- A statement about steps that holds of all that single descriptors and security references ask
for. -/
structure Step.Covers (S : Step → Prop) : Prop where
  descriptor : ∀ d, ∀ s ∈ (renderDescriptor d).steps, S s
  declare : ∀ name scheme, S (.declare name scheme)
  refer : ∀ name, S (.refer name)

namespace Step.Covers

variable {S : Step → Prop}

theorem renderDescriptor (h : Covers S) (d : Descriptor) :
    (renderDescriptor d).Ensures S fun _ => True := ⟨h.descriptor d, fun _ _ => trivial⟩

theorem reference (h : Covers S) (r : SecurityReference) : r.render.Ensures S fun _ => True := by
  rw [SecurityReference.render]
  have hrefer : (do Journal.tell (.refer r.name); pure (r.name, Schema.strings r.scopes) :
      Rendering (String × Json)).Ensures S fun _ => True :=
    .bind (.tell (Q := fun _ => True) (h.refer _) trivial) fun _ _ => .pure trivial
  dsimp only
  split
  · exact .bind (.tell (Q := fun _ => True) (h.declare _ _) trivial) fun _ _ => hrefer
  · exact hrefer

theorem requirement (h : Covers S) (r : SecurityRequirement) :
    r.render.Ensures S fun _ => True := by
  rw [SecurityRequirement.render]
  refine .bind (.sequence (Q := fun _ => True) fun j hj => ?_) fun _ _ => .pure trivial
  obtain ⟨reference, -, rfl⟩ := List.mem_map.mp hj
  exact h.reference reference

theorem body (h : Covers S) (b : RequestBody) : b.render.Ensures S fun _ => True := by
  rw [RequestBody.render]
  exact .bind (h.renderDescriptor _) fun _ _ => .pure trivial

theorem optional (h : Covers S) (o : Option Descriptor) :
    (Journal.sequenceOption (o.map OpenApi.renderDescriptor)).Ensures S fun _ => True := by
  refine (Journal.Ensures.sequenceOption (Q := fun _ => True) fun j hj => ?_).imp
    fun _ _ => trivial
  obtain ⟨d, -, rfl⟩ := Option.map_eq_some_iff.mp hj
  exact h.renderDescriptor d

theorem response (h : Covers S) (default : String) (r : Response) :
    (r.render default).Ensures S fun _ => True := by
  rw [Response.render]
  exact .bind (h.optional _) fun _ _ => .pure trivial

theorem parameters (h : Covers S) (ps : List Parameter) :
    (renderParameters ps).Ensures S fun _ => True := by
  rw [renderParameters]
  refine (Journal.Ensures.sequence (Q := fun _ => True) fun j hj => ?_).imp fun _ _ => trivial
  obtain ⟨p, -, rfl⟩ := List.mem_map.mp hj
  rw [Parameter.render]
  exact .bind (h.optional _) fun _ _ => .pure trivial

theorem operation {π : Type} (h : Covers S) (default : String) (op : Operation π)
    {callbacks : List (String × Rendering Json)}
    (hc : ∀ c ∈ callbacks, c.2.Ensures S fun _ => True) :
    (renderOperation default op callbacks).Ensures S fun _ => True := by
  have hsecurity : (Journal.sequence (op.security.map (·.render))).Ensures S fun _ => True := by
    refine (Journal.Ensures.sequence (Q := fun _ => True) fun j hj => ?_).imp fun _ _ => trivial
    obtain ⟨r, -, rfl⟩ := List.mem_map.mp hj
    exact h.requirement r
  have hbody : (Journal.sequenceOption (op.body.map (·.render))).Ensures S fun _ => True := by
    refine (Journal.Ensures.sequenceOption (Q := fun _ => True) fun j hj => ?_).imp
      fun _ _ => trivial
    obtain ⟨b, -, rfl⟩ := Option.map_eq_some_iff.mp hj
    exact h.body b
  have hresponses : (Journal.sequenceTable ((sortOn (·.1) op.responses).map fun p =>
      (toString p.1, p.2.render default))).Ensures S fun _ => True := by
    refine (Journal.Ensures.sequenceTable (Q := fun _ => True) fun p hp => ?_).imp
      fun _ _ => trivial
    obtain ⟨r, -, rfl⟩ := List.mem_map.mp hp
    exact h.response default r.2
  have hcallbacks : (Journal.sequenceTable (sortOn (·.1) callbacks)).Ensures S fun _ => True :=
    (Journal.Ensures.sequenceTable fun c hc' => hc c (mem_sortOn.mp hc')).imp fun _ _ => trivial
  rw [renderOperation]
  dsimp only
  split
  · exact .bind (.fail (Q := fun _ => False)) fun _ h => h.elim
  · exact .bind hsecurity fun _ _ => .bind hbody fun _ _ => .bind hresponses fun _ _ =>
      .bind (h.parameters _) fun _ _ => .bind hcallbacks fun _ _ => .pure trivial

theorem item (h : Covers S) {item : PathItem}
    (ho : ∀ o ∈ item.operations, o.2.Ensures S fun _ => True) :
    item.render.Ensures S fun _ => True := by
  rw [PathItem.render]
  refine .bind (.sequenceTable (Q := fun _ => True) fun o ho' => ho o (mem_sortOn.mp ho'))
    fun _ _ => .bind (h.parameters _) fun _ _ => .pure trivial

theorem parts (h : Covers S) {parts : List PathPart}
    (ho : ∀ part ∈ parts, ∀ o ∈ part.operations, o.2.Ensures S fun _ => True) :
    (renderParts parts).Ensures S fun _ => True := by
  rw [renderParts]
  refine .bind (P := fun items => mergeParts [] parts = .ok items)
    (.ofExcept fun items hi => Journal.mapError_eq_ok_iff.mp hi) fun items hm => ?_
  have hitems := mem_operations_of_mergeParts hm (fun _ hi => nomatch hi) ho
  refine .bind (.sequenceTable (Q := fun _ => True) fun p hp => ?_) fun _ _ => .pure trivial
  obtain ⟨i, hi, rfl⟩ := List.mem_map.mp hp
  exact h.item (hitems i hi)

/-- **All steps of an operation of a path** — by induction over the paths in its callbacks. -/
theorem operations (h : Covers S) (default : String) (p : Path) :
    ∀ o ∈ (p.part default).operations, o.2.Ensures S fun _ => True := by
  induction p using Path.tree with
  | node p ih =>
    rw [operations_part]
    intro o ho
    obtain ⟨⟨m, op⟩, hop, rfl⟩ := List.mem_map.mp ho
    refine h.operation default op fun c hc => ?_
    obtain ⟨⟨name, paths⟩, hcb, rfl⟩ := List.mem_map.mp hc
    rw [renderPaths_eq]
    refine h.parts fun part hpart => ?_
    obtain ⟨q, hq, rfl⟩ := List.mem_map.mp hpart
    exact ih _ hop _ hcb q hq

end Step.Covers

/-- **All steps of the rendering of some paths** — also those before a failure — are steps of single
descriptors or asked for by security references. -/
theorem ensures_renderPaths {S : Step → Prop} (h : Step.Covers S) (default : String)
    (ps : List Path) : (renderPaths default ps).Ensures S fun _ => True := by
  rw [renderPaths_eq]
  refine h.parts fun part hpart => ?_
  obtain ⟨p, -, rfl⟩ := List.mem_map.mp hpart
  exact h.operations default p

end OpenApi
