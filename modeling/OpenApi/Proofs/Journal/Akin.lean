import Mathlib.Data.List.Forall2
import OpenApi.Proofs.Journal

/-!
# Proofs/Journal/Akin — journals that come to the same

Two journals come to the same if both fail, or if both end well with related values and ask for the
same steps, in whatever order (`Akin`).  Journals put together from akin parts are akin, and so are
the sequences of a list of journals and of the same list in another order.
-/

namespace OpenApi.Journal

variable {σ ε α β γ κ : Type}

/-- **Two journals come to the same** — both end well, with related values and the same steps in
some order, or both fail. -/
inductive Akin (R : α → β → Prop) : Journal σ ε α → Journal σ ε β → Prop
  | ok {ss ts : List σ} {a : α} {b : β} : ss.Perm ts → R a b → Akin R ⟨ss, .ok a⟩ ⟨ts, .ok b⟩
  | error {ss ts : List σ} {d e : ε} : Akin R ⟨ss, .error d⟩ ⟨ts, .error e⟩

namespace Akin

variable {R : α → β → Prop} {S : β → γ → Prop}

theorem refl {R : α → α → Prop} (h : ∀ a, R a a) (j : Journal σ ε α) : Akin R j j := by
  obtain ⟨ss, o⟩ := j
  cases o with
  | ok a => exact .ok (List.Perm.refl ss) (h a)
  | error e => exact .error

theorem pure {a : α} {b : β} (h : R a b) :
    Akin R (Pure.pure a : Journal σ ε α) (Pure.pure b) := .ok (List.Perm.refl []) h

theorem imp {Q : α → β → Prop} {j : Journal σ ε α} {k : Journal σ ε β} (h : Akin R j k)
    (hq : ∀ a b, R a b → Q a b) : Akin Q j k := by
  cases h with
  | ok hp hr => exact .ok hp (hq _ _ hr)
  | error => exact .error

theorem trans {j : Journal σ ε α} {k : Journal σ ε β} {l : Journal σ ε γ} (h : Akin R j k)
    (h' : Akin S k l) : Akin (fun a c => ∃ b, R a b ∧ S b c) j l := by
  cases h with
  | ok hp hr =>
    obtain ⟨hp', hs⟩ := h'
    exact .ok (hp.trans hp') ⟨_, hr, hs⟩
  | error =>
    obtain _ | _ := h'
    exact .error

theorem bind {δ : Type} {Q : γ → δ → Prop} {j : Journal σ ε α} {k : Journal σ ε β}
    {f : α → Journal σ ε γ} {g : β → Journal σ ε δ} (h : Akin R j k)
    (hf : ∀ a b, R a b → Akin Q (f a) (g b)) : Akin Q (j >>= f) (k >>= g) := by
  cases h with
  | error => exact .error
  | @ok ss ts a b hp hr =>
    rw [bind_of_ok rfl, bind_of_ok rfl]
    cases hfa : f a with
    | mk us o =>
      cases hgb : g b with
      | mk vs o' =>
        have hfg := hf a b hr
        rw [hfa, hgb] at hfg
        cases hfg with
        | ok hp' hq => exact .ok (hp.append hp') hq
        | error => exact .error

/-- **Two journals may change places** — in front of what needs the values of both. -/
theorem swap {δ : Type} {Q : γ → δ → Prop} {j : Journal σ ε α} {k : Journal σ ε β}
    {f : α → β → Journal σ ε γ} {g : α → β → Journal σ ε δ} (h : ∀ a b, Akin Q (f a b) (g a b)) :
    Akin Q (do let a ← j; let b ← k; f a b) (do let b ← k; let a ← j; g a b) := by
  obtain ⟨ss, o⟩ := j
  obtain ⟨ts, o'⟩ := k
  cases o with
  | error e => cases o' <;> exact .error
  | ok a =>
    cases o' with
    | error e => exact .error
    | ok b =>
      rw [bind_of_ok rfl, bind_of_ok rfl, bind_of_ok rfl, bind_of_ok rfl]
      cases hf : f a b with
      | mk us o =>
        cases hg : g a b with
        | mk vs o' =>
          have hfg := h a b
          rw [hf, hg] at hfg
          cases hfg with
          | error => exact .error
          | ok hp hq =>
            refine .ok ?_ hq
            rw [← List.append_assoc, ← List.append_assoc]
            exact List.perm_append_comm.append hp

/-- The values are those that the journals end in. -/
theorem values {j : Journal σ ε α} {k : Journal σ ε β} (h : Akin R j k) :
    Akin (fun a b => R a b ∧ j.outcome = .ok a ∧ k.outcome = .ok b) j k := by
  cases h with
  | ok hp hr => exact .ok hp ⟨hr, rfl, rfl⟩
  | error => exact .error

/-! ## Lists of journals -/

theorem sequence {js : List (Journal σ ε α)} {ks : List (Journal σ ε β)}
    (h : List.Forall₂ (Akin R) js ks) :
    Akin (List.Forall₂ R) (Journal.sequence js) (Journal.sequence ks) := by
  induction h with
  | nil => exact .pure .nil
  | cons hj _ ih => exact .bind hj fun a b hr => .bind ih fun as bs hrs => .pure (.cons hr hrs)

theorem sequenceTable {js : List (κ × Journal σ ε α)} {ks : List (κ × Journal σ ε β)}
    (h : List.Forall₂ (fun p q => p.1 = q.1 ∧ Akin R p.2 q.2) js ks) :
    Akin (List.Forall₂ fun p q => p.1 = q.1 ∧ R p.2 q.2)
      (Journal.sequenceTable js) (Journal.sequenceTable ks) := by
  refine sequence (List.forall₂_map_left_iff.mpr (List.forall₂_map_right_iff.mpr (h.imp ?_)))
  rintro ⟨k, j⟩ ⟨-, j'⟩ ⟨rfl, hj⟩
  exact .bind hj fun a b hr => .pure ⟨rfl, hr⟩

/-- **Journals may come in any order** — the values stand in that order then. -/
theorem sequence_perm {js ks : List (Journal σ ε α)} (h : js.Perm ks) :
    Akin List.Perm (Journal.sequence js) (Journal.sequence ks) := by
  induction h with
  | nil => exact .pure (List.Perm.refl [])
  | cons j _ ih =>
    refine .bind (.refl (fun _ => rfl) j) fun a b hab => .bind ih fun as bs hp => .pure ?_
    obtain rfl : a = b := hab
    exact hp.cons a
  | swap j k l =>
    simp only [Journal.sequence, bind_assoc, pure_bind]
    refine .swap fun b a => .bind (.refl (fun _ => rfl) _) fun as bs has => .pure ?_
    obtain rfl : as = bs := has
    exact List.Perm.swap a b as
  | trans _ _ ih₁ ih₂ =>
    refine (ih₁.trans ih₂).imp ?_
    rintro as bs ⟨cs, h₁, h₂⟩
    exact h₁.trans h₂

theorem sequenceTable_perm {js ks : List (κ × Journal σ ε α)} (h : js.Perm ks) :
    Akin List.Perm (Journal.sequenceTable js) (Journal.sequenceTable ks) :=
  sequence_perm (h.map _)

end Akin

/-- The values of a table of journals stand under its keys. -/
theorem keys_sequenceTable {table : List (κ × Journal σ ε α)} {as : List (κ × α)}
    (h : (sequenceTable table).outcome = .ok as) : as.map (·.1) = table.map (·.1) := by
  rw [sequenceTable_eq_ok_iff] at h
  induction h with
  | nil => rfl
  | cons hkey _ ih => rw [List.map_cons, List.map_cons, hkey.1, ih]

/-! ## Outcomes -/

/-- **Two outcomes come to the same** — related values, or two failures. -/
inductive SameEnd (R : α → β → Prop) : Except ε α → Except ε β → Prop
  | ok {a : α} {b : β} : R a b → SameEnd R (.ok a) (.ok b)
  | error {d e : ε} : SameEnd R (.error d) (.error e)

namespace SameEnd

variable {R : α → β → Prop}

theorem refl {R : α → α → Prop} (h : ∀ a, R a a) (o : Except ε α) : SameEnd R o o := by
  cases o with
  | ok a => exact .ok (h a)
  | error e => exact .error

theorem bind {δ : Type} {Q : γ → δ → Prop} {o : Except ε α} {o' : Except ε β}
    {f : α → Except ε γ} {g : β → Except ε δ} (h : SameEnd R o o')
    (hf : ∀ a b, R a b → SameEnd Q (f a) (g b)) : SameEnd Q (o >>= f) (o' >>= g) := by
  cases h with
  | ok hr => exact hf _ _ hr
  | error => exact .error

theorem cases {o : Except ε α} {o' : Except ε β} (h : SameEnd R o o') :
    (∃ d e, o = .error d ∧ o' = .error e) ∨ ∃ a b, o = .ok a ∧ o' = .ok b ∧ R a b := by
  cases h with
  | ok hr => exact Or.inr ⟨_, _, rfl, rfl, hr⟩
  | error => exact Or.inl ⟨_, _, rfl, rfl⟩

/-- An outcome in a journal, its failure seen as one of the journal. -/
theorem akin {ε' : Type} {f : ε → ε'} {o : Except ε α} {o' : Except ε β} (h : SameEnd R o o') :
    Akin R (ofExcept (o.mapError f) : Journal σ ε' α) (ofExcept (o'.mapError f)) := by
  cases h with
  | ok hr => exact .ok (List.Perm.refl []) hr
  | error => exact .error

end SameEnd

end OpenApi.Journal
