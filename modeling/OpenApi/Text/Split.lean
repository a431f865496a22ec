/-!
# Text/Split — the pieces between separators

A list is cut at every element that a test accepts, or only at the first one.  `cut?_eq_some_iff`
says what the two parts are.
-/

namespace OpenApi.Text

/-- The pieces of a list between the elements that `p` accepts; there is always a first one. -/
def splitBy {α : Type} (p : α → Bool) : List α → List (List α)
  | [] => [[]]
  | a :: as =>
    if p a then [] :: splitBy p as
    else match splitBy p as with
      | [] => [[a]]
      | piece :: pieces => (a :: piece) :: pieces

/-- The part of a list before the first element that `p` accepts, and the part after it. -/
def cut? {α : Type} (p : α → Bool) : List α → Option (List α × List α)
  | [] => none
  | a :: as => if p a then some ([], as) else (cut? p as).map fun q => (a :: q.1, q.2)

theorem splitBy_ne_nil {α : Type} (p : α → Bool) : ∀ l : List α, splitBy p l ≠ []
  | [] => by simp [splitBy]
  | a :: as => by
    simp only [splitBy]
    split
    · simp
    · split <;> simp

/-- **No piece holds a separator.** -/
theorem not_mem_of_mem_splitBy {α : Type} {p : α → Bool} :
    ∀ {l piece : List α}, piece ∈ splitBy p l → ∀ a ∈ piece, p a = false
  | [], piece, h, a, ha => by
    simp only [splitBy, List.mem_singleton] at h
    subst h
    cases ha
  | b :: bs, piece, h, a, ha => by
    have ih {q : List α} (hq : q ∈ splitBy p bs) := not_mem_of_mem_splitBy hq
    simp only [splitBy] at h
    split at h
    · rcases List.mem_cons.mp h with rfl | h
      · cases ha
      · exact ih h a ha
    · next hb =>
      have hb : p b = false := by simpa using hb
      split at h
      · next hnil => exact absurd hnil (splitBy_ne_nil p bs)
      · next first rest heq =>
        rw [heq] at ih
        rcases List.mem_cons.mp h with rfl | h
        · rcases List.mem_cons.mp ha with rfl | ha
          · exact hb
          · exact ih (by simp) a ha
        · exact ih (List.mem_cons_of_mem _ h) a ha

/-- There is one piece more than separators. -/
theorem length_splitBy {α : Type} (p : α → Bool) : ∀ l : List α,
    (splitBy p l).length = l.countP p + 1
  | [] => rfl
  | a :: as => by
    have ih := length_splitBy p as
    have hne := splitBy_ne_nil p as
    simp only [splitBy, List.countP_cons]
    split
    · simp [ih]
    · split
      · next hnil => exact absurd hnil hne
      · next heq => simpa [heq] using ih

/-- A list without separators is one piece. -/
theorem splitBy_eq_self {α : Type} {p : α → Bool} : ∀ {l : List α},
    (∀ a ∈ l, p a = false) → splitBy p l = [l]
  | [], _ => rfl
  | a :: as, h => by
    obtain ⟨ha, has⟩ := List.forall_mem_cons.mp h
    simp [splitBy, ha, splitBy_eq_self has]

/-- **The cut is at the first separator.** -/
theorem cut?_eq_some_iff {α : Type} {p : α → Bool} : ∀ {l xs ys : List α},
    cut? p l = some (xs, ys) ↔
      ∃ a, l = xs ++ a :: ys ∧ p a = true ∧ ∀ x ∈ xs, p x = false
  | [], xs, ys => by simp [cut?]
  | b :: bs, xs, ys => by
    simp only [cut?]
    split
    · next hb =>
      constructor
      · rintro ⟨⟩
        exact ⟨b, rfl, hb, by simp⟩
      · rintro ⟨a, h, -, hxs⟩
        cases xs with
        | nil => cases h; rfl
        | cons x xs =>
          cases h
          exact absurd hb (by simp [hxs b (by simp)])
    · next hb =>
      have hb : p b = false := by simpa using hb
      simp only [Option.map_eq_some_iff, Prod.mk.injEq]
      constructor
      · rintro ⟨⟨us, vs⟩, h, rfl, rfl⟩
        obtain ⟨a, rfl, ha, hus⟩ := cut?_eq_some_iff.mp h
        refine ⟨a, rfl, ha, fun x hx => ?_⟩
        rcases List.mem_cons.mp hx with rfl | hx
        · exact hb
        · exact hus x hx
      · rintro ⟨a, h, ha, hxs⟩
        cases xs with
        | nil =>
          cases h
          exact absurd ha (by simp [hb])
        | cons x xs =>
          cases h
          exact ⟨(xs, ys), cut?_eq_some_iff.mpr
            ⟨a, rfl, ha, fun y hy => hxs y (List.mem_cons_of_mem _ hy)⟩, rfl, rfl⟩

end OpenApi.Text
