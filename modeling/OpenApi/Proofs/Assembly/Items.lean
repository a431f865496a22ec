import Mathlib.Data.Prod.Lex
import OpenApi.Proofs.Assembly.Merging

/-!
# Proofs/Assembly/Items — merged items rendered in another order

Parameters and operations are sorted before they are written, so items that come to the same are
rendered to the same (`PathItem.Akin.render`), and what is merged from parts to paths that agree up
to their order (`akin_renderParts`).
-/

namespace OpenApi

open Journal (SameEnd)

/-! ## Parameters -/

/-- Parameters are written in the order of names and words of locations. -/
theorem sortBy_below (ps : List Parameter) :
    sortBy Parameter.below ps =
      sortOn (fun p => toLex (p.name, p.location.word)) ps := by
  have hbelow : Parameter.below =
      fun p q => decide (toLex (p.name, p.location.word) < toLex (q.name, q.location.word)) := by
    funext p q
    rw [Bool.eq_iff_iff, decide_eq_true_eq, Prod.Lex.toLex_lt_toLex]
    simp only [Parameter.below, Bool.or_eq_true, Bool.and_eq_true, decide_eq_true_eq]
  rw [hbelow, sortOn]

theorem word_injective : Function.Injective ParameterLocation.word := by
  intro l l' h
  cases l <;> cases l' <;> first | rfl | exact absurd h (by decide)

/-- Parameters with different keys are rendered in any order to the same. -/
theorem renderParameters_perm {ps qs : List Parameter} (hp : ps.Perm qs)
    (hn : (ps.map Parameter.key).Nodup) : renderParameters ps = renderParameters qs := by
  have hkeys : (ps.map fun p => toLex (p.name, p.location.word)).Nodup := by
    have hinj : Function.Injective fun k : ParameterLocation × String =>
        toLex (k.2, k.1.word) := by
      rintro ⟨l, n⟩ ⟨l', n'⟩ h
      obtain ⟨rfl, hl⟩ : n = n' ∧ l.word = l'.word := Prod.mk.inj (toLex.injective h)
      rw [word_injective hl]
    have := hn.map hinj
    rwa [List.map_map] at this
  rw [renderParameters, renderParameters, sortBy_below, sortBy_below, sortOn_eq_of_perm hp hkeys]

/-- Tables of parameters that hold the same are rendered to the same. -/
theorem renderParameters_table {s t : List ((ParameterLocation × String) × Parameter)}
    (hs : (s.map (·.1)).Nodup) (ht : (t.map (·.1)).Nodup) (hkeyed : ∀ e ∈ s, e.1 = e.2.key)
    (h : ∀ k, Table.get? k s = Table.get? k t) :
    renderParameters (s.map (·.2)) = renderParameters (t.map (·.2)) := by
  have hperm : s.Perm t := by
    refine (List.perm_ext_iff_of_nodup hs.of_map ht.of_map).mpr fun e => ?_
    rw [← Table.get?_eq_some_iff hs, ← Table.get?_eq_some_iff ht, h]
  refine renderParameters_perm (hperm.map (·.2)) ?_
  have hmap : (s.map (·.2)).map Parameter.key = s.map (·.1) := by
    rw [List.map_map]
    exact List.map_congr_left fun e he => (hkeyed e he).symm
  rw [hmap]
  exact hs

theorem foldl_insertNew_map (ps : List Parameter) :
    Table.firsts (ps.map fun p => (p.key, p)) =
      ps.foldl (fun t p => Table.insertNew p.key p t) [] := by
  rw [Table.firsts, List.foldl_map]

/-- **Of a parameter list only the first parameter under each key matters.** -/
theorem renderParameters_distinctByKey {ps qs : List Parameter}
    (h : ∀ k, ps.find? (·.key = k) = qs.find? (·.key = k)) :
    renderParameters (Parameter.distinctByKey ps) =
      renderParameters (Parameter.distinctByKey qs) := by
  rw [Parameter.distinctByKey, Parameter.distinctByKey, foldl_insertNew_map, foldl_insertNew_map]
  have hnil : (([] : List ((ParameterLocation × String) × Parameter)).map (·.1)).Nodup :=
    List.nodup_nil
  refine renderParameters_table (Table.nodup_keys_insertNews hnil ps)
    (Table.nodup_keys_insertNews hnil qs)
    (fun e he => mem_insertNews (t := []) (fun _ h => nomatch h) he) fun k => ?_
  rw [Table.get?_insertNews, Table.get?_insertNews, h]

theorem Rearranged.find?_eq {ps qs : List Parameter} (h : Rearranged Parameter.key ps qs)
    (k : ParameterLocation × String) : ps.find? (·.key = k) = qs.find? (·.key = k) := by
  have hchain := h.exchanges
  clear h
  induction hchain with
  | refl => rfl
  | tail _ hs ih => exact ih.trans (Table.find?_of_exchange hs (fun _ _ h => h) k)

/-! ## Items -/

theorem position_injective : Function.Injective Method.position := by
  intro m n h
  cases m <;> cases n <;> first | rfl | exact absurd h (by decide)

/-- The operations of akin items, in writing order. -/
theorem AkinOperations.sorted {os os' : List (Method × Rendering Json)}
    (h : AkinOperations os os') (hn : (os'.map (·.1)).Nodup) :
    List.Forall₂ (fun o o' => o.1 = o'.1 ∧ AkinAt .operation o.2 o'.2)
      (sortOn (·.1.position) os) (sortOn (·.1.position) os') := by
  obtain ⟨os₁, ho, hp⟩ := h
  have hkeys : (os'.map (·.1.position)).Nodup := by
    have := hn.map position_injective
    rwa [List.map_map] at this
  rw [← sortOn_eq_of_perm hp ((hp.map (·.1.position)).nodup_iff.mpr hkeys)]
  have hsort : List.Forall₂ (fun o o' => o.1.position = o'.1.position ∧
      o.1 = o'.1 ∧ AkinAt .operation o.2 o'.2)
      (sortOn (·.1.position) os) (sortOn (·.1.position) os₁) :=
    forall₂_sortOn (ho.imp fun o o' h => ⟨congrArg Method.position h.1, h⟩)
  exact hsort.imp fun o o' h => h.2

theorem rel_refl {α : Type} {R : α → α → Prop} (h : ∀ a, R a a) (o : Option α) :
    Option.Rel R o o := by
  cases o with
  | none => exact .none
  | some a => exact .some (h a)

/-- Members that are the same in both objects. -/
theorem forall₂_members {place : Place} (ms : List (String × Option Json)) :
    List.Forall₂ (fun m n => m.1 = n.1 ∧ Option.Rel (Json.AgreesAt (place.under m.1)) m.2 n.2)
      ms ms :=
  List.forall₂_same.mpr fun m _ => ⟨rfl, rel_refl .refl m.2⟩

/-- Members that are the same in both objects but for the last. -/
theorem forall₂_members_concat {place : Place} (ms : List (String × Option Json)) {key : String}
    {o o' : Option Json} (h : Option.Rel (Json.AgreesAt (place.under key)) o o') :
    List.Forall₂ (fun m n => m.1 = n.1 ∧ Option.Rel (Json.AgreesAt (place.under m.1)) m.2 n.2)
      (ms ++ [(key, o)]) (ms ++ [(key, o')]) :=
  List.rel_append (forall₂_members ms) (.cons ⟨rfl, h⟩ .nil)

/-- **Akin items are rendered to the same.** -/
theorem PathItem.Akin.render {item item' : PathItem} (h : item.Akin item') :
    AkinAt .item item.render item'.render := by
  have hparameters := renderParameters_table h.left.keys h.right.keys h.left.keyed h.parameters
  rw [PathItem.render, PathItem.render, hparameters, h.summary, h.description]
  refine .bind (.sequenceTable (h.operations.sorted h.right.methods)) fun os os' hos => ?_
  refine .bind (.refl (fun _ => rfl) _) fun ps qs hps => .pure ?_
  obtain rfl : ps = qs := hps
  refine .of_options (by decide) (List.rel_append (List.rel_append (forall₂_members _) ?_)
    (forall₂_members _))
  refine List.forall₂_map_left_iff.mpr (List.forall₂_map_right_iff.mpr (hos.imp ?_))
  rintro ⟨m, v⟩ ⟨-, w⟩ ⟨rfl, hvw⟩
  have hm : m.word ∈ Method.all.map Method.word := by cases m <;> decide
  have hplace : Place.item.under m.word = .operation := by rw [Place.under, if_pos hm]
  exact ⟨rfl, .some (hplace ▸ hvw)⟩

/-! ## Parts -/

theorem exists_of_rel_some {α : Type} {R : α → α → Prop} {a : α} {o : Option α}
    (h : Option.Rel R (some a) o) : ∃ b, o = some b ∧ R a b := by
  cases h with
  | some hab => exact ⟨_, rfl, hab⟩

theorem exists_of_rel_some_right {α : Type} {R : α → α → Prop} {b : α} {o : Option α}
    (h : Option.Rel R o (some b)) : ∃ a, o = some a ∧ R a b := by
  cases h with
  | some hab => exact ⟨_, rfl, hab⟩

/-- Tables of items that come to the same, in one order. -/
theorem AkinItems.exists_forall₂ {items items' : List (String × PathItem)}
    (h : AkinItems items items') :
    ∃ items₁, List.Forall₂ (fun i j => i.1 = j.1 ∧ i.2.Akin j.2) items items₁ ∧
      items₁.Perm items' := by
  have hsome : ∀ i ∈ items, ∃ j, Table.get? i.1 items' = some j ∧ i.2.Akin j := fun i hi =>
    exists_of_rel_some ((Table.get?_eq_some_iff h.left).mpr hi ▸ h.get? i.1)
  refine ⟨items.map fun i => (i.1, (Table.get? i.1 items').getD i.2), ?_, ?_⟩
  · refine List.forall₂_map_right_iff.mpr (List.forall₂_same.mpr fun i hi => ⟨rfl, ?_⟩)
    obtain ⟨j, hj, hij⟩ := hsome i hi
    rwa [hj]
  · have hkeys : (items.map fun i => (i.1, (Table.get? i.1 items').getD i.2)).map (·.1) =
        items.map (·.1) := by
      rw [List.map_map]
      rfl
    refine (List.perm_ext_iff_of_nodup (hkeys ▸ h.left).of_map h.right.of_map).mpr fun p => ?_
    rw [List.mem_map]
    constructor
    · rintro ⟨i, hi, rfl⟩
      obtain ⟨j, hj, -⟩ := hsome i hi
      rw [hj]
      exact Table.mem_of_get?_eq_some hj
    · intro hp
      have hp' := (Table.get?_eq_some_iff h.right).mpr hp
      obtain ⟨i, hi, -⟩ := exists_of_rel_some_right (hp' ▸ h.get? p.1)
      exact ⟨(p.1, i), Table.mem_of_get?_eq_some hi, by rw [hp']; rfl⟩

/-- What has been merged is rendered to paths that agree up to their order. -/
theorem akin_renderParts {parts parts' : List PathPart}
    (h : SameEnd AkinItems (mergeParts [] parts) (mergeParts [] parts')) :
    AkinAt .paths (renderParts parts) (renderParts parts') := by
  rw [renderParts, renderParts]
  refine .bind h.akin fun items items' hi => ?_
  obtain ⟨items₁, hitems, hperm⟩ := hi.exists_forall₂
  have hone : Journal.Akin (List.Forall₂ fun m n => m.1 = n.1 ∧ Json.AgreesAt .item m.2 n.2)
      (Journal.sequenceTable (items.map fun p => (p.1, p.2.render)))
      (Journal.sequenceTable (items₁.map fun p => (p.1, p.2.render))) := by
    refine .sequenceTable (List.forall₂_map_left_iff.mpr (List.forall₂_map_right_iff.mpr ?_))
    exact hitems.imp fun i j hij => ⟨hij.1, hij.2.render⟩
  have htwo := Journal.Akin.sequenceTable_perm (σ := Step) (ε := AssemblyError)
    (hperm.map fun p : String × PathItem => (p.1, p.2.render))
  refine .bind (hone.trans htwo).values fun ms ns hms => .pure ?_
  obtain ⟨⟨ms₁, hms₁, hp⟩, -, hns⟩ := hms
  refine .of_paths hms₁ hp ?_
  rw [Journal.keys_sequenceTable hns, List.map_map]
  exact hi.right

end OpenApi
