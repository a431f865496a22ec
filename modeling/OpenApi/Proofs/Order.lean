import Mathlib.Data.List.Forall2
import Mathlib.Data.List.Nodup
import Mathlib.Data.String.Basic
import OpenApi.Order

/-!
# Proofs/Order — sorted lists and tables

A list sorted by a key is determined by its elements as soon as their keys differ, so it does not
show the order they came in (`sortOn_eq_of_perm`).  A table whose keys differ is a finite map: what
it holds under a key is the pair in it (`Table.get?_eq_some_iff`).
-/

namespace OpenApi

variable {α κ : Type}

/-! ## Sorting by a key -/

theorem sortOn_perm [LT κ] [DecidableLT κ] (key : α → κ) (xs : List α) :
    (sortOn key xs).Perm xs := sortBy_perm _ xs

@[simp] theorem mem_sortOn [LT κ] [DecidableLT κ] {key : α → κ} {a : α} {xs : List α} :
    a ∈ sortOn key xs ↔ a ∈ xs := mem_sortBy

theorem pairwise_sortOn [LinearOrder κ] (key : α → κ) (xs : List α) :
    (sortOn key xs).Pairwise fun a b => key a ≤ key b := by
  refine (pairwise_sortBy (fun a b h => ?_) (fun a b c hab hbc => ?_) xs).imp fun {a b} h => ?_
  · simpa using (of_decide_eq_true h).le
  · simp only [decide_eq_false_iff_not, not_lt] at hab hbc ⊢
    exact hab.trans hbc
  · simpa using h

/-- **Different keys are sorted strictly.** -/
theorem ascending_sortOn [LinearOrder κ] {key : α → κ} {xs : List α} (h : (xs.map key).Nodup) :
    ((sortOn key xs).map key).Pairwise (· < ·) := by
  have hle : ((sortOn key xs).map key).Pairwise (· ≤ ·) :=
    List.pairwise_map.mpr (pairwise_sortOn key xs)
  have hne : ((sortOn key xs).map key).Nodup := ((sortOn_perm key xs).map key).nodup_iff.mpr h
  exact hle.imp₂ (fun _ _ h h' => lt_of_le_of_ne h h') hne

/-- **A strictly ascending list is determined by its elements.** -/
theorem eq_of_ascending [LinearOrder κ] {key : α → κ} {xs ys : List α}
    (hx : (xs.map key).Pairwise (· < ·)) (hy : (ys.map key).Pairwise (· < ·))
    (h : ∀ a, a ∈ xs ↔ a ∈ ys) : xs = ys := by
  have hxs : (xs.map key).Nodup := hx.imp ne_of_lt
  have hys : (ys.map key).Nodup := hy.imp ne_of_lt
  exact ((List.perm_ext_iff_of_nodup hxs.of_map hys.of_map).mpr h).eq_of_pairwise
    (fun a b _ _ hab hba => absurd hab hba.asymm) (List.pairwise_map.mp hx)
    (List.pairwise_map.mp hy)

/-- **A sorted list does not show the order its elements came in** — as soon as their keys
differ. -/
theorem sortOn_eq_of_perm [LinearOrder κ] {key : α → κ} {xs ys : List α} (hp : xs.Perm ys)
    (h : (xs.map key).Nodup) : sortOn key xs = sortOn key ys := by
  refine eq_of_ascending (ascending_sortOn h)
    (ascending_sortOn ((hp.map key).nodup_iff.mp h)) fun a => ?_
  rw [mem_sortOn, mem_sortOn, hp.mem_iff]

/-- What is sorted already stays as it is. -/
theorem sortOn_eq_self [LinearOrder κ] {key : α → κ} {xs : List α}
    (h : (xs.map key).Pairwise (· < ·)) : sortOn key xs = xs :=
  eq_of_ascending (ascending_sortOn (h.imp ne_of_lt)) h fun _ => mem_sortOn

/-- Puts an element in front of the first one whose key is not below its own. -/
def insertOn [LT κ] [DecidableLT κ] (key : α → κ) (a : α) (xs : List α) : List α :=
  insertBy (fun x y => decide (key x < key y)) a xs

theorem insertOn_nil [LT κ] [DecidableLT κ] (key : α → κ) (a : α) : insertOn key a [] = [a] := rfl

theorem insertOn_cons [LT κ] [DecidableLT κ] (key : α → κ) (a b : α) (xs : List α) :
    insertOn key a (b :: xs) =
      if key b < key a then b :: insertOn key a xs else a :: b :: xs := by
  simp only [insertOn, insertBy, decide_eq_true_eq]

theorem sortOn_cons [LT κ] [DecidableLT κ] (key : α → κ) (x : α) (xs : List α) :
    sortOn key (x :: xs) = insertOn key x (sortOn key xs) := rfl

theorem insertOn_map {β : Type} [LT κ] [DecidableLT κ] (key : β → κ) (f : α → β) (a : α)
    (xs : List α) : insertOn key (f a) (xs.map f) = (insertOn (fun a => key (f a)) a xs).map f := by
  induction xs with
  | nil => rfl
  | cons b xs ih =>
    rw [List.map_cons, insertOn_cons, insertOn_cons, ih]
    split <;> rfl

/-- Sorting after a map is a map after sorting. -/
theorem sortOn_map {β : Type} [LT κ] [DecidableLT κ] (key : β → κ) (f : α → β) (xs : List α) :
    sortOn key (xs.map f) = (sortOn (fun a => key (f a)) xs).map f := by
  induction xs with
  | nil => rfl
  | cons x xs ih => rw [List.map_cons, sortOn_cons, sortOn_cons, ih, insertOn_map]

/-- Sorting begins at the end of the list. -/
theorem sortOn_append [LT κ] [DecidableLT κ] (key : α → κ) (xs ys : List α) :
    sortOn key (xs ++ ys) = xs.foldr (insertOn key) (sortOn key ys) := by
  induction xs with
  | nil => rfl
  | cons x xs ih => rw [List.cons_append, sortOn_cons, ih, List.foldr_cons]

/-- Elements with one key stay in their order when another element is put in. -/
theorem filter_insertOn [LinearOrder κ] (key : α → κ) (k : κ) (a : α) (xs : List α) :
    (insertOn key a xs).filter (key · = k) = (a :: xs).filter (key · = k) := by
  induction xs with
  | nil => rfl
  | cons b xs ih =>
    rw [insertOn_cons]
    split
    · next hlt =>
      by_cases ha : key a = k
      · -- what the element passes has a lower key, so it is not among the elements with this one
        have hb : key b ≠ k := ha ▸ hlt.ne
        rw [List.filter_cons_of_neg (by simpa using hb), ih, List.filter_cons_of_pos (by simpa),
          List.filter_cons_of_pos (by simpa), List.filter_cons_of_neg (by simpa using hb)]
      · rw [List.filter_cons, ih, List.filter_cons_of_neg (by simpa using ha),
          List.filter_cons_of_neg (by simpa using ha), List.filter_cons]
    · rfl

/-- **Sorting is stable** — the elements with one key keep their order. -/
theorem filter_sortOn [LinearOrder κ] (key : α → κ) (k : κ) (xs : List α) :
    (sortOn key xs).filter (key · = k) = xs.filter (key · = k) := by
  induction xs with
  | nil => rfl
  | cons x xs ih => rw [sortOn_cons, filter_insertOn, List.filter_cons, ih, List.filter_cons]

section Related

variable [LinearOrder κ] {key : α → κ} {R : α → α → Prop}

theorem forall₂_insertOn {a b : α} (hk : key a = key b) (hab : R a b) {xs ys : List α}
    (h : List.Forall₂ (fun x y => key x = key y ∧ R x y) xs ys) :
    List.Forall₂ (fun x y => key x = key y ∧ R x y) (insertOn key a xs) (insertOn key b ys) := by
  induction h with
  | nil => exact .cons ⟨hk, hab⟩ .nil
  | cons hxy h ih =>
    rw [insertOn_cons, insertOn_cons, hk, hxy.1]
    split
    · exact .cons hxy ih
    · exact .cons ⟨hk, hab⟩ (.cons hxy h)

/-- Lists that are related one by one, with the same keys, are so when sorted. -/
theorem forall₂_sortOn {xs ys : List α}
    (h : List.Forall₂ (fun x y => key x = key y ∧ R x y) xs ys) :
    List.Forall₂ (fun x y => key x = key y ∧ R x y) (sortOn key xs) (sortOn key ys) := by
  induction h with
  | nil => exact .nil
  | cons hxy _ ih =>
    rw [sortOn_cons, sortOn_cons]
    exact forall₂_insertOn hxy.1 hxy.2 ih

end Related

theorem distinct_sublist [DecidableEq α] (xs : List α) : (distinct xs).Sublist xs := by
  have grow : ∀ ys seen : List α,
      (ys.foldl (fun seen x => if x ∈ seen then seen else seen ++ [x]) seen).Sublist
        (seen ++ ys) := by
    intro ys
    induction ys with
    | nil => simp
    | cons y ys ih =>
      intro seen
      rw [List.foldl_cons]
      split
      · exact (ih seen).trans ((List.sublist_cons_self y ys).append_left seen)
      · simpa using ih (seen ++ [y])
  exact grow xs []

/-! ## Tables -/

namespace Table

variable [DecidableEq κ]

theorem mem_of_get?_eq_some {key : κ} {value : α} :
    ∀ {table : List (κ × α)}, get? key table = some value → (key, value) ∈ table
  | [], h => nomatch h
  | (k, v) :: rest, h => by
    rw [get?] at h
    split at h
    · next hk =>
      obtain rfl := Option.some.inj h
      rw [hk]
      exact List.mem_cons_self
    · exact List.mem_cons_of_mem _ (mem_of_get?_eq_some h)

theorem get?_eq_none_iff {key : κ} {table : List (κ × α)} :
    get? key table = none ↔ key ∉ table.map (·.1) := by
  rw [← get?_isSome_iff, Bool.not_eq_true, Option.isSome_eq_false_iff, Option.isNone_iff_eq_none]

/-- **A table whose keys differ holds what is in it.** -/
theorem get?_eq_some_iff {key : κ} {value : α} {table : List (κ × α)}
    (h : (table.map (·.1)).Nodup) : get? key table = some value ↔ (key, value) ∈ table := by
  refine ⟨mem_of_get?_eq_some, fun hm => ?_⟩
  induction table with
  | nil => cases hm
  | cons p rest ih =>
    obtain ⟨hp, hrest⟩ := List.nodup_cons.mp h
    rcases List.mem_cons.mp hm with rfl | hm
    · rw [get?, if_pos rfl]
    · have hne : p.1 ≠ key := fun he => hp (List.mem_map.mpr ⟨_, hm, he.symm⟩)
      rw [get?, if_neg hne]
      exact ih hrest hm

/-- A table with its values changed holds the changed values. -/
theorem get?_map {β : Type} (key : κ) (f : α → β) : ∀ table : List (κ × α),
    get? key (table.map fun p => (p.1, f p.2)) = (get? key table).map f
  | [] => rfl
  | (k, v) :: rest => by
    rw [List.map_cons, get?, get?, get?_map key f rest]
    split <;> rfl

/-- A table whose keys differ holds the same in any order. -/
theorem get?_sortOn [LT κ] [DecidableLT κ] (key : κ) {table : List (κ × α)}
    (h : (table.map (·.1)).Nodup) : get? key (sortOn (·.1) table) = get? key table := by
  have hperm := sortOn_perm (·.1) table
  refine Option.ext fun value => ?_
  rw [get?_eq_some_iff ((hperm.map (·.1)).nodup_iff.mpr h), get?_eq_some_iff h, hperm.mem_iff]

theorem insert_of_notMem {key : κ} {value : α} : ∀ {table : List (κ × α)},
    key ∉ table.map (·.1) → insert key value table = table ++ [(key, value)]
  | [], _ => rfl
  | (k, v) :: rest, h => by
    rw [List.map_cons, List.mem_cons, not_or] at h
    rw [insert, if_neg (Ne.symm h.1), insert_of_notMem h.2, List.cons_append]

/-- Pairs with different keys are a table already. -/
theorem ofList_eq_self {pairs : List (κ × α)} (h : (pairs.map (·.1)).Nodup) :
    ofList pairs = pairs := by
  have grow : ∀ (ps table : List (κ × α)), ((table ++ ps).map (·.1)).Nodup →
      ps.foldl (fun table p => insert p.1 p.2 table) table = table ++ ps := by
    intro ps
    induction ps with
    | nil => exact fun table _ => (List.append_nil table).symm
    | cons p ps ih =>
      intro table hn
      have hp : p.1 ∉ table.map (·.1) := by
        rw [List.map_append, List.map_cons] at hn
        exact fun hm => (List.nodup_append.mp hn).2.2 _ hm _ List.mem_cons_self rfl
      rw [List.foldl_cons, insert_of_notMem hp, ih _ (by rwa [List.append_assoc]),
        List.append_assoc, List.singleton_append]
  exact grow pairs [] h

theorem mem_insert {key : κ} {value : α} {p : κ × α} :
    ∀ {table : List (κ × α)}, p ∈ insert key value table → p = (key, value) ∨ p ∈ table
  | [], h => Or.inl (List.mem_singleton.mp h)
  | (k, v) :: rest, h => by
    rw [insert] at h
    split at h
    · next hk =>
      rcases List.mem_cons.mp h with rfl | h
      · exact Or.inl (by rw [hk])
      · exact Or.inr (List.mem_cons_of_mem _ h)
    · rcases List.mem_cons.mp h with rfl | h
      · exact Or.inr List.mem_cons_self
      · exact (mem_insert h).imp_right (List.mem_cons_of_mem _)

/-- A table of pairs holds nothing else. -/
theorem mem_of_mem_ofList {pairs : List (κ × α)} {p : κ × α} (h : p ∈ ofList pairs) :
    p ∈ pairs := by
  have grow : ∀ (ps table : List (κ × α)),
      p ∈ ps.foldl (fun table p => insert p.1 p.2 table) table → p ∈ table ∨ p ∈ ps := by
    intro ps
    induction ps with
    | nil => exact fun table hp => Or.inl hp
    | cons q ps ih =>
      intro table hp
      rcases ih _ hp with hp | hp
      · rcases mem_insert hp with rfl | hp
        · exact Or.inr List.mem_cons_self
        · exact Or.inl hp
      · exact Or.inr (List.mem_cons_of_mem q hp)
  simpa using grow pairs [] h

/-- **Of the values under a key the last one counts.** -/
theorem get?_ofList (key : κ) (pairs : List (κ × α)) :
    get? key (ofList pairs) = ((pairs.filter (·.1 = key)).getLast?).map (·.2) := by
  have grow : ∀ (ps table : List (κ × α)),
      get? key (ps.foldl (fun table p => insert p.1 p.2 table) table) =
        (((ps.filter (·.1 = key)).getLast?).map (·.2)).or (get? key table) := by
    intro ps
    induction ps with
    | nil => exact fun table => rfl
    | cons p ps ih =>
      intro table
      rw [List.foldl_cons, ih]
      by_cases hp : p.1 = key
      · rw [← hp, get?_insert_self, List.filter_cons_of_pos (by simp), List.getLast?_cons]
        cases (ps.filter (·.1 = p.1)).getLast? <;> rfl
      · rw [get?_insert_of_ne (Ne.symm hp), List.filter_cons_of_neg (by simpa using hp)]
  exact (grow pairs []).trans (Option.or_none)

/-- The keys of a table of pairs are theirs, each at its first place. -/
theorem keys_ofList (pairs : List (κ × α)) :
    (ofList pairs).map (·.1) = distinct (pairs.map (·.1)) := by
  have grow : ∀ (ps table : List (κ × α)),
      (ps.foldl (fun table p => insert p.1 p.2 table) table).map (·.1) =
        (ps.map (·.1)).foldl (fun seen k => if k ∈ seen then seen else seen ++ [k])
          (table.map (·.1)) := by
    intro ps
    induction ps with
    | nil => exact fun table => rfl
    | cons p ps ih =>
      intro table
      rw [List.foldl_cons, ih, List.map_cons, List.foldl_cons, keys_insert]
      split
      · rw [List.append_nil]
      · rfl
  exact grow pairs []

end Table

end OpenApi
