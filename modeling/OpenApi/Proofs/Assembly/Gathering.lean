import Mathlib.Data.List.Duplicate
import Mathlib.Data.List.Flatten
import OpenApi.Proofs.Assembly.Determinism

/-!
# Proofs/Assembly/Gathering — what is merged under one template

    paths         p₁ ── p₂ ── p₃ ── p₄          templates   s  t  s  t
                   ╰─────┼──── ╯     │
    item of s            │           │          operations of p₁, then of p₃
    item of t            ╰───────────╯          operations of p₂, then of p₄

The item of a template holds what the paths with that template contribute, in the order of their
declaration, and nothing else (`gathers_mergeParts`).  If every path has a template, nothing but a
method that two of them share can stand in the way (`mergeParts_eq_error`).
-/

namespace OpenApi

/-! ## Paths with one template -/

namespace Path

/-- The paths with a template, in the order of their declaration. -/
def withTemplate (ps : List Path) (t : String) : List Path :=
  ps.filter fun p => decide (p.template? = some t)

/-- The operations of the paths with a template. -/
def declared (ps : List Path) (t : String) : List (Method × Operation Path) :=
  (withTemplate ps t).flatMap (·.operations)

/-- The parameters of a path: those its segments imply, then those declared for it. -/
def carried (p : Path) : List Parameter := p.implied ++ p.parameters

/-- The methods of the operations that are declared under a template, with repeats. -/
def methods (ps : List Path) (t : String) : List Method := (declared ps t).map (·.1)

variable {p : Path} {ps : List Path} {s t : String}

theorem withTemplate_cons_self (h : p.template? = some t) :
    withTemplate (p :: ps) t = p :: withTemplate ps t := by
  rw [withTemplate, List.filter_cons_of_pos, withTemplate]
  exact decide_eq_true h

theorem withTemplate_cons_of_ne (h : p.template? = some s) (hst : s ≠ t) :
    withTemplate (p :: ps) t = withTemplate ps t := by
  rw [withTemplate, List.filter_cons_of_neg, withTemplate]
  simp [h, hst]

theorem methods_cons_self (h : p.template? = some t) :
    methods (p :: ps) t = p.operations.map (·.1) ++ methods ps t := by
  rw [methods, declared, withTemplate_cons_self h, List.flatMap_cons, List.map_append]
  rfl

theorem methods_cons_of_ne (h : p.template? = some s) (hst : s ≠ t) :
    methods (p :: ps) t = methods ps t := by
  rw [methods, declared, withTemplate_cons_of_ne h hst]
  rfl

/-- Two paths with one template have a method in common. -/
def Clash (ps : List Path) : Prop :=
  ∃ (p q : Path) (t : String) (m : Method), [p, q].Sublist ps ∧ p.template? = some t ∧
    q.template? = some t ∧ m ∈ p.operations.map (·.1) ∧ m ∈ q.operations.map (·.1)

theorem Clash.exists_not_nodup (h : Clash ps) : ∃ t, ¬ (methods ps t).Nodup := by
  obtain ⟨p, q, t, m, hsub, hp, hq, hmp, hmq⟩ := h
  refine ⟨t, fun hn => ?_⟩
  have hpq : [p, q].Sublist (withTemplate ps t) := by
    have := hsub.filter fun p => decide (p.template? = some t)
    rwa [List.filter_eq_self.mpr (by simp [hp, hq])] at this
  rw [methods, declared] at hn
  have hall := hn.sublist ((hpq.flatMap (·.operations)).map (·.1))
  simp only [List.flatMap_cons, List.flatMap_nil, List.append_nil, List.map_append] at hall
  exact (List.nodup_append'.mp hall).2.2 hmp hmq

end Path

/-- The rendering of an operation, with those of its callbacks. -/
def Operation.rendering (default : String) (op : Operation Path) : Rendering Json :=
  renderOperation default op (op.callbacks.map fun c => (c.1, renderPaths default c.2))

/-! ## Gathering -/

/-- **An item takes in some paths** — their operations come behind its own, their parameters unless
it has one with that key, and their summaries and descriptions count if it has none. -/
structure PathItem.Gathers (default : String) (item : PathItem) (ps : List Path)
    (item' : PathItem) : Prop where
  operations : item'.operations =
    item.operations ++ (ps.flatMap (·.operations)).map fun o => (o.1, o.2.rendering default)
  parameters : item'.parameters =
    (ps.flatMap (·.carried)).foldl (fun t p => Table.insertNew p.key p t) item.parameters
  summary : item'.summary = item.summary.or (ps.findSome? (·.summary))
  description : item'.description = item.description.or (ps.findSome? (·.description))
  nodup : (item.operations.map (·.1)).Nodup → (item'.operations.map (·.1)).Nodup

namespace PathItem.Gathers

variable {default : String} {item item' item'' : PathItem} {ps qs : List Path}

theorem refl (item : PathItem) : item.Gathers default [] item := by
  refine ⟨?_, rfl, ?_, ?_, id⟩ <;> simp

theorem trans (h : item.Gathers default ps item') (h' : item'.Gathers default qs item'') :
    item.Gathers default (ps ++ qs) item'' where
  operations := by
    rw [h'.operations, h.operations, List.flatMap_append, List.map_append, List.append_assoc]
  parameters := by rw [h'.parameters, h.parameters, List.flatMap_append, List.foldl_append]
  summary := by rw [h'.summary, h.summary, List.findSome?_append, Option.or_assoc]
  description := by rw [h'.description, h.description, List.findSome?_append, Option.or_assoc]
  nodup hn := h'.nodup (h.nodup hn)

theorem methods (h : item.Gathers default ps item') : item'.operations.map (·.1) =
    item.operations.map (·.1) ++ (ps.flatMap (·.operations)).map (·.1) := by
  rw [h.operations, List.map_append, List.map_map]
  rfl

/-- One path more. -/
theorem of_add {p : Path} {template : String}
    (h : item.add template p.implied (p.part default) = .ok item') :
    item.Gathers default [p] item' := by
  obtain ⟨hnew, rfl⟩ := PathItem.add_eq_ok_iff.mp h
  obtain ⟨hparameters, hsummary, hdescription⟩ : (p.part default).parameters = p.parameters ∧
      (p.part default).summary = p.summary ∧ (p.part default).description = p.description := by
    obtain ⟨segments, operations, parameters, summary, description⟩ := p
    exact ⟨rfl, rfl, rfl⟩
  refine ⟨?_, ?_, ?_, ?_, fun hn => (nodup_methods_iff hn).mp hnew⟩
  · rw [PathItem.extend, operations_part, List.flatMap_singleton]
    rfl
  · rw [PathItem.extend, hparameters, List.flatMap_singleton, Path.carried]
  · simp [PathItem.extend, hsummary]
  · simp [PathItem.extend, hdescription]

end PathItem.Gathers

variable {default : String} {items result : List (String × PathItem)} {ps : List Path}

/-- **Merging gathers the paths of each template** — by induction over the paths, of which each is
added to the item of its template. -/
theorem gathers_mergeParts (h : mergeParts items (pathParts default ps) = .ok result)
    (t : String) : ((Table.get? t items).getD {}).Gathers default (Path.withTemplate ps t)
      ((Table.get? t result).getD {}) := by
  induction ps generalizing items with
  | nil =>
    obtain rfl := Except.ok.inj h
    exact .refl _
  | cons p ps ih =>
    obtain ⟨s, item, hp, hadd, hmerge⟩ := mergeParts_path_eq_ok h
    have hrest := ih hmerge
    rw [Table.get?_insert] at hrest
    by_cases hst : s = t
    · rw [if_pos hst, Option.getD_some] at hrest
      subst hst
      rw [Path.withTemplate_cons_self hp]
      exact (PathItem.Gathers.of_add hadd).trans hrest
    · rw [if_neg hst] at hrest
      rwa [Path.withTemplate_cons_of_ne hp hst]

/-! ## Failing -/

/-- Operations are not added if one of their methods is there already, or twice among them. -/
theorem addOperations_eq_error {template : String} {known rest : List (Method × Rendering Json)}
    {e : ApiFault} (h : addOperations template known rest = .error e) :
    ∃ m, e = .repeatedOperation m template ∧ ((known ++ rest).map (·.1)).Duplicate m := by
  induction rest generalizing known with
  | nil => cases h
  | cons o rest ih =>
    obtain ⟨m, r⟩ := o
    rw [addOperations] at h
    split at h
    · next hm =>
      rw [Table.get?_isSome_iff] at hm
      obtain rfl := Except.error.inj h
      refine ⟨m, rfl, List.duplicate_iff_sublist.mpr ?_⟩
      rw [List.map_append, List.map_cons]
      exact (List.singleton_sublist.mpr hm).append (List.cons_sublist_cons.mpr (List.nil_sublist _))
    · obtain ⟨m', he, hm'⟩ := ih h
      rw [List.append_assoc, List.singleton_append] at hm'
      exact ⟨m', he, hm'⟩

theorem add_eq_error {item : PathItem} {template : String} {implied : List Parameter} {p : Path}
    {e : ApiFault} (h : item.add template implied (p.part default) = .error e) :
    ∃ m, e = .repeatedOperation m template ∧
      (item.operations.map (·.1) ++ p.operations.map (·.1)).Duplicate m := by
  have hmethods : (p.part default).operations.map (·.1) = p.operations.map (·.1) := by
    rw [operations_part, List.map_map]
    rfl
  rw [PathItem.add] at h
  cases ho : addOperations template item.operations (p.part default).operations with
  | ok operations =>
    rw [ho] at h
    cases h
  | error e' =>
    rw [ho] at h
    obtain rfl := Except.error.inj h
    rw [← hmethods, ← List.map_append]
    exact addOperations_eq_error ho

/-- **Merging fails only on a repeated method** if every path has a template. -/
theorem mergeParts_eq_error (hps : ∀ p ∈ ps, p.template?.isSome) {e : ApiFault}
    (h : mergeParts items (pathParts default ps) = .error e) :
    ∃ m t, e = .repeatedOperation m t ∧
      (((Table.get? t items).getD {}).operations.map (·.1) ++ Path.methods ps t).Duplicate m := by
  induction ps generalizing items with
  | nil => cases h
  | cons p ps ih =>
    obtain ⟨hp, hps⟩ := List.forall_mem_cons.mp hps
    obtain ⟨s, hp⟩ := Option.isSome_iff_exists.mp hp
    obtain ⟨implied, hs⟩ := Path.template?_eq_some_iff.mp hp
    obtain rfl := Path.implied_eq hs
    rw [← template_part default p] at hs
    rw [pathParts, mergeParts, hs] at h
    have hbind : (((Table.get? s items).getD {}).add s p.implied (p.part default)).bind
      (fun item => mergeParts (Table.insert s item items) (pathParts default ps)) = .error e := h
    cases ha : ((Table.get? s items).getD {}).add s p.implied (p.part default) with
    | error e' =>
      rw [ha] at hbind
      obtain rfl := Except.error.inj hbind
      obtain ⟨m, rfl, hm⟩ := add_eq_error ha
      refine ⟨m, s, rfl, hm.mono_sublist ((List.Sublist.refl _).append ?_)⟩
      rw [Path.methods_cons_self hp]
      exact List.sublist_append_left _ _
    | ok item =>
      rw [ha] at hbind
      obtain ⟨m, t, rfl, hm⟩ := ih hps hbind
      refine ⟨m, t, rfl, ?_⟩
      rw [Table.get?_insert] at hm
      by_cases hst : s = t
      · subst hst
        rw [if_pos rfl, Option.getD_some, (PathItem.Gathers.of_add ha).methods,
          List.flatMap_singleton, List.append_assoc] at hm
        rwa [Path.methods_cons_self hp]
      · rw [if_neg hst] at hm
        rwa [Path.methods_cons_of_ne hp hst]

end OpenApi
