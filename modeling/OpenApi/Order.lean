/-!
# Order — stable sorting and keyed tables

A document is written with its names in code-point order, so every map of it is sorted once, by
insertion: entries with equal keys keep the order they came in.  A *table* is a list of pairs in
insertion order; `Table.insert` keeps the place of a key that is already there.
-/

namespace OpenApi

/-! ## Stable insertion sort -/

/-- Puts `a` in front of the first element that is not strictly below it. -/
def insertBy {α : Type} (lt : α → α → Bool) (a : α) : List α → List α
  | [] => [a]
  | b :: bs => if lt b a then b :: insertBy lt a bs else a :: b :: bs

/-- Sorts by `lt`, leaving elements that `lt` does not tell apart in their order. -/
def sortBy {α : Type} (lt : α → α → Bool) : List α → List α
  | [] => []
  | a :: as => insertBy lt a (sortBy lt as)

/-- Sorts by the order of a key. -/
def sortOn {α κ : Type} [LT κ] [DecidableLT κ] (key : α → κ) : List α → List α :=
  sortBy fun a b => decide (key a < key b)

theorem insertBy_perm {α : Type} (lt : α → α → Bool) (a : α) :
    ∀ as : List α, (insertBy lt a as).Perm (a :: as)
  | [] => List.Perm.refl _
  | b :: bs => by
    simp only [insertBy]
    split
    · exact ((insertBy_perm lt a bs).cons b).trans (List.Perm.swap a b bs)
    · exact List.Perm.refl _

/-- **Sorting loses nothing and adds nothing** — an insertion puts in exactly the new element. -/
theorem sortBy_perm {α : Type} (lt : α → α → Bool) : ∀ as : List α, (sortBy lt as).Perm as
  | [] => List.Perm.refl _
  | a :: as => (insertBy_perm lt a (sortBy lt as)).trans ((sortBy_perm lt as).cons a)

@[simp] theorem mem_sortBy {α : Type} {lt : α → α → Bool} {a : α} {as : List α} :
    a ∈ sortBy lt as ↔ a ∈ as := (sortBy_perm lt as).mem_iff

@[simp] theorem length_sortBy {α : Type} (lt : α → α → Bool) (as : List α) :
    (sortBy lt as).length = as.length := (sortBy_perm lt as).length_eq

theorem pairwise_insertBy {α : Type} {lt : α → α → Bool}
    (asymm : ∀ a b, lt a b = true → lt b a = false)
    (trans : ∀ a b c, lt b a = false → lt c b = false → lt c a = false) (a : α) :
    ∀ as : List α, as.Pairwise (fun x y => lt y x = false) →
      (insertBy lt a as).Pairwise fun x y => lt y x = false
  | [], _ => List.pairwise_singleton _ _
  | b :: bs, h => by
    obtain ⟨hb, hbs⟩ := List.pairwise_cons.mp h
    simp only [insertBy]
    split
    · next hlt =>
      refine List.pairwise_cons.mpr ⟨fun c hc => ?_, pairwise_insertBy asymm trans a bs hbs⟩
      rcases List.mem_cons.mp ((insertBy_perm lt a bs).mem_iff.mp hc) with rfl | hc
      · exact asymm b c hlt
      · exact hb c hc
    · next hlt =>
      have hba : lt b a = false := by simpa using hlt
      refine List.pairwise_cons.mpr ⟨fun c hc => ?_, h⟩
      rcases List.mem_cons.mp hc with rfl | hc
      · exact hba
      · exact trans a b c hba (hb c hc)

/-- **A sorted list never steps down** — for an order that is asymmetric and whose "not below" is
transitive, as it is for every key that is linearly ordered. -/
theorem pairwise_sortBy {α : Type} {lt : α → α → Bool}
    (asymm : ∀ a b, lt a b = true → lt b a = false)
    (trans : ∀ a b c, lt b a = false → lt c b = false → lt c a = false) :
    ∀ as : List α, (sortBy lt as).Pairwise fun x y => lt y x = false
  | [] => List.Pairwise.nil
  | a :: as => pairwise_insertBy asymm trans a _ (pairwise_sortBy asymm trans as)

/-! ## Tables -/

namespace Table

variable {κ α : Type} [DecidableEq κ]

/-- The value stored under a key. -/
def get? (key : κ) : List (κ × α) → Option α
  | [] => none
  | (k, v) :: rest => if k = key then some v else get? key rest

/-- Stores a value: in place when the key is known, at the end when it is new. -/
def insert (key : κ) (value : α) : List (κ × α) → List (κ × α)
  | [] => [(key, value)]
  | (k, v) :: rest => if k = key then (k, value) :: rest else (k, v) :: insert key value rest

/-- Stores a value unless the key is already there. -/
def insertNew (key : κ) (value : α) (table : List (κ × α)) : List (κ × α) :=
  if (get? key table).isSome then table else table ++ [(key, value)]

/-- The table of a list of pairs: each key at its first place, with its last value. -/
def ofList (pairs : List (κ × α)) : List (κ × α) :=
  pairs.foldl (fun table p => insert p.1 p.2 table) []

/-- The table of a list of pairs: each key at its first place, with its first value. -/
def firsts (pairs : List (κ × α)) : List (κ × α) :=
  pairs.foldl (fun table p => insertNew p.1 p.2 table) []

theorem get?_isSome_iff {key : κ} :
    ∀ {table : List (κ × α)}, (get? key table).isSome ↔ key ∈ table.map (·.1)
  | [] => by simp [get?]
  | (k, v) :: rest => by
    simp only [get?, List.map_cons, List.mem_cons]
    split
    · next h => simp [h]
    · next h => rw [get?_isSome_iff]; simp [Ne.symm h]

theorem get?_append (key : κ) (s t : List (κ × α)) :
    get? key (s ++ t) = (get? key s).or (get? key t) := by
  induction s with
  | nil => rfl
  | cons p s ih =>
    simp only [List.cons_append, get?]
    split
    · rfl
    · exact ih

@[simp] theorem get?_insert_self (key : κ) (value : α) :
    ∀ table : List (κ × α), get? key (insert key value table) = some value
  | [] => by simp [insert, get?]
  | (k, v) :: rest => by
    simp only [insert]
    split
    · next h => simp [get?, h]
    · next h => simp only [get?, h, if_false]; exact get?_insert_self key value rest

theorem get?_insert_of_ne {key other : κ} (h : key ≠ other) (value : α) :
    ∀ table : List (κ × α), get? key (insert other value table) = get? key table
  | [] => by simp [insert, get?, Ne.symm h]
  | (k, v) :: rest => by
    simp only [insert]
    split
    · next hk => simp [get?, hk, Ne.symm h]
    · simp only [get?, get?_insert_of_ne h value rest]

/-- **Storing keeps the order of the keys** — a new key comes last. -/
theorem keys_insert (key : κ) (value : α) : ∀ table : List (κ × α),
    (insert key value table).map (·.1) =
      table.map (·.1) ++ if key ∈ table.map (·.1) then [] else [key]
  | [] => by simp [insert]
  | (k, v) :: rest => by
    simp only [insert]
    split
    · next h => simp [h]
    · next h =>
      have ih := keys_insert key value rest
      simp only [List.map_cons, ih, List.cons_append, List.mem_cons, Ne.symm h, false_or]

end Table

/-- The elements of a list without the repeats, each at its first place. -/
def distinct {α : Type} [DecidableEq α] (xs : List α) : List α :=
  xs.foldl (fun seen x => if x ∈ seen then seen else seen ++ [x]) []

theorem mem_distinct {α : Type} [DecidableEq α] {a : α} {xs : List α} :
    a ∈ distinct xs ↔ a ∈ xs := by
  have grow : ∀ (ys seen : List α),
      a ∈ ys.foldl (fun seen x => if x ∈ seen then seen else seen ++ [x]) seen ↔
        a ∈ seen ∨ a ∈ ys := by
    intro ys
    induction ys with
    | nil => simp
    | cons y ys ih =>
      intro seen
      rw [List.foldl_cons, ih]
      split
      · next h =>
        constructor
        · exact fun ha => ha.imp_right (List.mem_cons_of_mem y)
        · rintro (ha | ha)
          · exact Or.inl ha
          · rcases List.mem_cons.mp ha with rfl | ha
            · exact Or.inl h
            · exact Or.inr ha
      · simp [or_assoc]
  simpa [distinct] using grow xs []

theorem nodup_distinct {α : Type} [DecidableEq α] (xs : List α) : (distinct xs).Nodup := by
  have grow : ∀ (ys seen : List α), seen.Nodup →
      (ys.foldl (fun seen x => if x ∈ seen then seen else seen ++ [x]) seen).Nodup := by
    intro ys
    induction ys with
    | nil => exact fun seen h => h
    | cons y ys ih =>
      intro seen h
      rw [List.foldl_cons]
      refine ih _ ?_
      split
      · exact h
      · next hy =>
        exact List.nodup_append.mpr
          ⟨h, by simp, fun a ha b hb => by rintro rfl; exact hy (List.mem_singleton.mp hb ▸ ha)⟩
  exact grow xs [] List.nodup_nil

end OpenApi
