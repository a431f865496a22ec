import OpenApi.Proofs.Journal
import OpenApi.Registry

/-!
# Proofs/Journal/Twin — journals that run in step

    j    step₁  step₂  …  ──▸  a   or   failure e
         ‖      ‖              R        ‖
    k    step₁  step₂  …  ──▸  b   or   failure e

Two journals run in step if they ask for the same steps in the same order and end in the same
failure or in related values (`Twin`).  What carries them out cannot tell them apart but by the
values (`Registry.inStep_carryOut`).
-/

namespace OpenApi

namespace Journal

variable {σ ε α β γ δ : Type}

/-- **Two journals run in step** — the same steps in the same order, and the same failure or related
values at the end. -/
inductive Twin (R : α → β → Prop) : Journal σ ε α → Journal σ ε β → Prop
  | ok {ss : List σ} {a : α} {b : β} : R a b → Twin R ⟨ss, .ok a⟩ ⟨ss, .ok b⟩
  | error {ss : List σ} {e : ε} : Twin R ⟨ss, .error e⟩ ⟨ss, .error e⟩

namespace Twin

variable {R : α → β → Prop} {Q : γ → δ → Prop} {j : Journal σ ε α} {k : Journal σ ε β}

theorem refl {R : α → α → Prop} (h : ∀ a, R a a) (j : Journal σ ε α) : Twin R j j := by
  obtain ⟨ss, e | a⟩ := j
  · exact .error
  · exact .ok (h a)

theorem pure {a : α} {b : β} (h : R a b) :
    Twin R (Pure.pure a : Journal σ ε α) (Pure.pure b) := .ok h

theorem imp {S : α → β → Prop} (h : Twin R j k) (hs : ∀ a b, R a b → S a b) : Twin S j k := by
  obtain hr | _ := h
  · exact .ok (hs _ _ hr)
  · exact .error

theorem bind {f : α → Journal σ ε γ} {g : β → Journal σ ε δ} (h : Twin R j k)
    (hf : ∀ a b, R a b → Twin Q (f a) (g b)) : Twin Q (j >>= f) (k >>= g) := by
  obtain @⟨ss, a, b, hr⟩ | _ := h
  · rw [bind_of_ok rfl, bind_of_ok rfl]
    have hfg := hf a b hr
    generalize f a = fa at hfg ⊢
    generalize g b = gb at hfg ⊢
    obtain hq | _ := hfg
    · exact .ok hq
    · exact .error
  · exact .error

/-- What is made of the values alone runs in step. -/
theorem map {f : α → γ} {g : β → δ} (h : Twin R j k) (hf : ∀ a b, R a b → Q (f a) (g b)) :
    Twin Q (j >>= fun a => Pure.pure (f a)) (k >>= fun b => Pure.pure (g b)) :=
  h.bind fun a b hr => .pure (hf a b hr)

/-- One of two journals may go on, as long as it asks for no further steps. -/
theorem map_right {S : α → γ → Prop} {g : β → γ} (h : Twin R j k) (hg : ∀ a b, R a b → S a (g b)) :
    Twin S j (k >>= fun b => Pure.pure (g b)) := by
  obtain @⟨ss, a, b, hr⟩ | _ := h
  · rw [bind_of_ok rfl, pure_eq, List.append_nil]
    exact .ok (hg a b hr)
  · exact .error

/-- The values are those that the journals end in. -/
theorem values (h : Twin R j k) :
    Twin (fun a b => R a b ∧ j.outcome = .ok a ∧ k.outcome = .ok b) j k := by
  obtain hr | _ := h
  · exact .ok ⟨hr, rfl, rfl⟩
  · exact .error

theorem sequence {js : List (Journal σ ε α)} {ks : List (Journal σ ε β)}
    (h : List.Forall₂ (Twin R) js ks) :
    Twin (List.Forall₂ R) (Journal.sequence js) (Journal.sequence ks) := by
  induction h with
  | nil => exact .pure .nil
  | cons hj _ ih => exact hj.bind fun a b hr => ih.map fun as bs hrs => .cons hr hrs

end Twin

end Journal

namespace Registry

variable {α β : Type} {R : α → β → Prop}

/-- **Two runs on a registry stay in step** — they leave the same entries in the same order, and end
in the same failure or in related values. -/
inductive InStep (R : α → β → Prop) :
    Registry × Except SynthesisError α → Registry × Except SynthesisError β → Prop
  | ok {r : Registry} {a : α} {b : β} : R a b → InStep R (r, .ok a) (r, .ok b)
  | error {r : Registry} {e : SynthesisError} : InStep R (r, .error e) (r, .error e)

/-- **Lowerings that run in step are carried out in step.** -/
theorem inStep_carryOut {l : Lowering α} {k : Lowering β} (h : l.Twin R k) (r : Registry) :
    InStep R (r.carryOut l) (r.carryOut k) := by
  obtain @⟨ss, a, b, hr⟩ | @⟨ss, e⟩ := h
  · simp only [carryOut]
    obtain ⟨r₁, e | _⟩ := r.registerAll ss
    · exact .error
    · exact .ok hr
  · simp only [carryOut]
    obtain ⟨r₁, e' | _⟩ := r.registerAll ss
    · exact .error
    · exact .error

end Registry

end OpenApi
