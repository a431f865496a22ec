import Mathlib.Logic.Relation
import OpenApi.Proofs.Order

/-!
# Proofs/Exchange — lists in another order

Two neighbours of a list change places, if they may (`Exchange`); chains of that give all orders
that keep the elements which may not pass each other as they were (`exchanges_of_perm`,
`exchanges_of_filter`).  A list that is sorted afterwards does not notice neighbours with different
keys change places (`Exchange.sortOn_eq`), even where other keys are repeated.
-/

namespace OpenApi

variable {α β κ : Type}

/-- **Two neighbours change places** — a pair that `free` lets pass. -/
inductive Exchange (free : α → α → Prop) : List α → List α → Prop
  | intro {before after : List α} {a b : α} : free a b →
    Exchange free (before ++ a :: b :: after) (before ++ b :: a :: after)

namespace Exchange

variable {free : α → α → Prop} {xs ys : List α}

theorem map {free' : β → β → Prop} {f : α → β} (hf : ∀ a b, free a b → free' (f a) (f b))
    (h : Exchange free xs ys) : Exchange free' (xs.map f) (ys.map f) := by
  obtain @⟨before, after, a, b, hab⟩ := h
  simp only [List.map_append, List.map_cons]
  exact .intro (hf a b hab)

theorem cons (c : α) (h : Exchange free xs ys) : Exchange free (c :: xs) (c :: ys) := by
  obtain @⟨before, after, a, b, hab⟩ := h
  rw [← List.cons_append, ← List.cons_append]
  exact .intro hab

end Exchange

/-! ## Sorting -/

section Sorting

variable [LinearOrder κ] {key : α → κ} {xs ys : List α}

/-- Elements with different keys may be put in one after the other in any order. -/
theorem insertOn_comm {a b : α} (h : key a ≠ key b) (xs : List α) :
    insertOn key a (insertOn key b xs) = insertOn key b (insertOn key a xs) := by
  induction xs with
  | nil => grind [insertOn_nil, insertOn_cons]
  | cons c xs ih => grind [insertOn_nil, insertOn_cons]

/-- **Sorting hides an exchange** — of neighbours with different keys, whatever the others are. -/
theorem Exchange.sortOn_eq {free : α → α → Prop} (h : Exchange free xs ys)
    (hfree : ∀ a b, free a b → key a ≠ key b) : sortOn key xs = sortOn key ys := by
  obtain @⟨before, after, a, b, hab⟩ := h
  rw [sortOn_append, sortOn_append, sortOn_cons, sortOn_cons, sortOn_cons, sortOn_cons,
    insertOn_comm (hfree a b hab)]

/-- A last element with a new key is put into the others. -/
theorem sortOn_concat {a : α} (h : ∀ x ∈ xs, key x ≠ key a) :
    sortOn key (xs ++ [a]) = insertOn key a (sortOn key xs) := by
  induction xs with
  | nil => rfl
  | cons x xs ih =>
    obtain ⟨hx, hxs⟩ := List.forall_mem_cons.mp h
    rw [List.cons_append, sortOn_cons, sortOn_cons, ih hxs, insertOn_comm hx]

end Sorting

/-! ## Chains of exchanges -/

section Chains

variable {free : α → α → Prop} {xs ys : List α}

/-- **Any order can be reached** — if all elements may pass each other. -/
theorem exchanges_of_perm (hsymm : ∀ a b, free a b → free b a) (hp : xs.Perm ys)
    (h : xs.Pairwise free) : Relation.ReflTransGen (Exchange free) xs ys := by
  induction hp with
  | nil => exact .refl
  | cons a _ ih =>
    exact (ih (List.pairwise_cons.mp h).2).lift (a :: ·) fun _ _ hs => hs.cons a
  | swap a b l =>
    have hba : free b a := (List.pairwise_cons.mp h).1 a List.mem_cons_self
    exact .single (@Exchange.intro _ _ [] l b a hba)
  | trans hp _ ih₁ ih₂ =>
    exact (ih₁ h).trans (ih₂ ((hp.pairwise_iff fun hab => hsymm _ _ hab).mp h))

/-- An element passes others that it may pass. -/
theorem exchanges_pass {a : α} {us : List α} (h : ∀ u ∈ us, free a u) (vs : List α) :
    Relation.ReflTransGen (Exchange free) (a :: (us ++ vs)) (us ++ a :: vs) := by
  induction us with
  | nil => exact .refl
  | cons u us ih =>
    obtain ⟨hu, hus⟩ := List.forall_mem_cons.mp h
    refine .head (@Exchange.intro _ _ [] (us ++ vs) a u hu) ?_
    exact (ih hus).lift (u :: ·) fun _ _ hs => hs.cons u

/-- **Any order can be reached that keeps the elements with one key as they were** — if elements
may pass those with other keys, and elements without a key may pass all. -/
theorem exchanges_of_filter [DecidableEq κ] (key : α → Option κ)
    (hfree : ∀ a b, (∀ k, key a = some k → key b ≠ some k) → free a b) (hp : xs.Perm ys)
    (h : ∀ k, xs.filter (key · = some k) = ys.filter (key · = some k)) :
    Relation.ReflTransGen (Exchange free) xs ys := by
  induction xs generalizing ys with
  | nil => rw [List.nil_perm.mp hp]
  | cons x xs ih =>
    -- nothing in front of the first place of `x` has the key of `x`
    have hfirst : ∃ us vs, ys = us ++ x :: vs ∧ ∀ u ∈ us, ∀ k, key x = some k → key u ≠ some k := by
      cases hx : key x with
      | none =>
        obtain ⟨us, vs, rfl⟩ := List.append_of_mem (hp.mem_iff.mp List.mem_cons_self)
        exact ⟨us, vs, rfl, fun _ _ _ hk => nomatch hk⟩
      | some k =>
        have hys := (h k).symm
        rw [List.filter_cons_of_pos (by simpa using hx)] at hys
        obtain ⟨us, vs, rfl, hus, -, -⟩ := List.filter_eq_cons_iff.mp hys
        refine ⟨us, vs, rfl, fun u hu k' hk' => ?_⟩
        obtain rfl := Option.some.inj hk'
        simpa using hus u hu
    obtain ⟨us, vs, rfl, hus⟩ := hfirst
    have hrest : ∀ k, xs.filter (key · = some k) = (us ++ vs).filter (key · = some k) := by
      intro k
      have hk := h k
      rw [List.filter_append] at hk ⊢
      by_cases hx : key x = some k
      · have hnone : us.filter (key · = some k) = [] := by
          simpa using fun u hu => hus u hu k hx
        rw [hnone, List.filter_cons_of_pos (by simpa using hx), List.nil_append,
          List.filter_cons_of_pos (by simpa using hx)] at hk
        rw [hnone, List.nil_append, (List.cons.inj hk).2]
      · rwa [List.filter_cons_of_neg (by simpa using hx),
          List.filter_cons_of_neg (by simpa using hx)] at hk
    have hperm : xs.Perm (us ++ vs) := (hp.trans List.perm_middle).cons_inv
    refine .trans ((ih hperm hrest).lift (x :: ·) fun _ _ hs => hs.cons x) ?_
    exact exchanges_pass (fun u hu => hfree x u (hus u hu)) vs

/-! ## Lists whose order does not count -/

/-- **A list in another order** — if a key tells its elements apart; other lists stay as they
are. -/
def Rearranged (key : α → κ) (xs ys : List α) : Prop :=
  xs = ys ∨ (xs.Perm ys ∧ (xs.map key).Nodup)

theorem Rearranged.refl (key : α → κ) (xs : List α) : Rearranged key xs xs := Or.inl rfl

theorem Rearranged.perm {key : α → κ} (h : Rearranged key xs ys) : xs.Perm ys := by
  rcases h with rfl | ⟨hp, -⟩
  · exact List.Perm.refl xs
  · exact hp

theorem Rearranged.isEmpty_eq {key : α → κ} (h : Rearranged key xs ys) :
    xs.isEmpty = ys.isEmpty := by
  rcases h with rfl | ⟨hp, -⟩
  · rfl
  · rw [Bool.eq_iff_iff, List.isEmpty_iff, List.isEmpty_iff]
    exact ⟨fun h => List.nil_perm.mp (h ▸ hp), fun h => List.perm_nil.mp (h ▸ hp)⟩

theorem Rearranged.exchanges {key : α → κ} (h : Rearranged key xs ys) :
    Relation.ReflTransGen (Exchange fun a b => key a ≠ key b) xs ys := by
  rcases h with rfl | ⟨hp, hn⟩
  · exact .refl
  · exact exchanges_of_perm (fun _ _ => Ne.symm) hp (List.pairwise_map.mp hn)

/-- **Sorting by the key hides the order.** -/
theorem Rearranged.sortOn_eq [LinearOrder κ] {key : α → κ} (h : Rearranged key xs ys) :
    sortOn key xs = sortOn key ys := by
  rcases h with rfl | ⟨hp, hn⟩
  · rfl
  · exact sortOn_eq_of_perm hp hn

end Chains

end OpenApi
