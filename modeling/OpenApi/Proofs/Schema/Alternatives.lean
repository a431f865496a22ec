import OpenApi.Proofs.Schema.Validation

/-!
# Proofs/Schema/Alternatives — exactly one of several schemas

    v fits s₁   v fits s₂   …   v fits sₙ
        ╰───────────┴─── one of them ───╯       v fits oneOf [s₁, …, sₙ]

A value fits a `oneOf` if it fits one member and no other one.  So once it is known to validate
against one member, all depends on the others: it validates against the composition exactly if each
of them refuses it (`validates_oneOf_iff`).
-/

open Filter

namespace OpenApi

/-- Of elements that exclude each other at most one counts. -/
theorem countP_le_one {α : Type} {p : α → Bool} {xs : List α}
    (h : xs.Pairwise fun a b => ¬ (p a = true ∧ p b = true)) : xs.countP p ≤ 1 := by
  induction xs with
  | nil => exact Nat.zero_le 1
  | cons a xs ih =>
    obtain ⟨ha, hxs⟩ := List.pairwise_cons.mp h
    by_cases hp : p a = true
    · have hnone : xs.countP p = 0 := List.countP_eq_zero.mpr fun b hb hpb => ha b hb ⟨hp, hpb⟩
      rw [List.countP_cons_of_pos hp, hnone]
    · rw [List.countP_cons_of_neg hp]
      exact ih hxs

namespace Schema

variable {refs : String → Value → Bool} {members : List Schema} {description : Option String}
  {v : Value}

theorem accepts_oneOf_iff :
    (composite .oneOf members description).accepts refs v = true ↔
      members.countP (·.accepts refs v) = 1 := by
  rw [accepts_iff (by simp [composite])]
  cases v <;>
    simp [composite, SchemaKind.holds, Composition.holds, Value.hasKeys, Value.members,
      Value.elements, List.count, List.countP_map, Function.comp_def]

/-- **Members that exclude each other are a plain choice.** -/
theorem accepts_oneOf_iff_exists
    (h : members.Pairwise fun s t => ¬ (s.accepts refs v = true ∧ t.accepts refs v = true)) :
    (composite .oneOf members description).accepts refs v = true ↔
      ∃ s ∈ members, s.accepts refs v = true := by
  have hone := countP_le_one h
  rw [accepts_oneOf_iff, ← List.countP_pos_iff]
  omega

end Schema

namespace Registry

variable {r : Registry} {members : List Schema} {description : Option String} {s : Schema}
  {v : Value}

/-- **A schema of a registry refuses a value** — it does not fit, however deep references are
opened from some depth on. -/
def Refuses (r : Registry) (s : Schema) (v : Value) : Prop :=
  ∀ᶠ depth in atTop, s.accepts (r.reads depth) v = false

/-- No value both validates and is refused.  It may do neither: a reference that runs in a circle
through a `oneOf` can fit at every other depth. -/
theorem Refuses.not_validates (h : r.Refuses s v) : ¬ r.Validates s v := by
  intro hv
  obtain ⟨depth, hfits, hnot⟩ := (hv.and h).exists
  rw [hfits] at hnot
  cases hnot

/-- **Only the other members matter** to a value that validates against one member. -/
theorem validates_oneOf_iff {k : ℕ} (hk : members[k]? = some s) (hs : r.Validates s v) :
    r.Validates (.composite .oneOf members description) v ↔
      ∀ t ∈ members.eraseIdx k, r.Refuses t v := by
  obtain ⟨hlt, rfl⟩ := List.getElem?_eq_some_iff.mp hk
  have hperm : (members[k] :: members.eraseIdx k).Perm members :=
    List.getElem_cons_eraseIdx_perm hlt
  have hstep : r.Validates (.composite .oneOf members description) v ↔
      ∀ᶠ depth in atTop, ∀ t ∈ members.eraseIdx k, t.accepts (r.reads depth) v = false := by
    refine eventually_congr (hs.mono fun depth hfits => ?_)
    have hcount : (members[k] :: members.eraseIdx k).countP (·.accepts (r.reads depth) v) =
        (members.eraseIdx k).countP (·.accepts (r.reads depth) v) + 1 :=
      List.countP_cons_of_pos hfits
    rw [Schema.accepts_oneOf_iff, ← hperm.countP_eq, hcount, Nat.add_eq_right,
      List.countP_eq_zero]
    simp only [Bool.not_eq_true]
  rw [hstep, eventually_forall_mem]
  rfl

end Registry

end OpenApi
