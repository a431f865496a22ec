import OpenApi.Proofs.Journal

/-!
# Proofs/Journal/Rejects — journals that fail for known reasons

    j          fails for   P
    j >>= f    fails for   P  or  Q      if every `f a` fails for Q

A journal *rejects* `Q` if every failure it ends in is one that `Q` lists, and it does fail if `Q`
lists any.  Which one of several it ends in is a matter of order, which is not asked; so what a
journal rejects is put together from what its parts reject.
-/

namespace OpenApi.Journal

variable {σ ε α β : Type}

/-- **The journal fails exactly if there is a reason, and for one of them.** -/
structure Rejects (Q : ε → Prop) (j : Journal σ ε α) : Prop where
  sound : ∀ e, j.outcome = .error e → Q e
  complete : ∀ e, Q e → ∃ e', j.outcome = .error e'

namespace Rejects

variable {P Q : ε → Prop}

theorem pure {a : α} (h : ∀ e, ¬ Q e) : Rejects Q (Pure.pure a : Journal σ ε α) :=
  ⟨fun _ he => (nomatch he), fun e he => absurd he (h e)⟩

theorem fail {e : ε} (h : Q e) : Rejects Q (Journal.fail e : Journal σ ε α) :=
  ⟨fun _ he => Except.error.inj he ▸ h, fun _ _ => ⟨e, rfl⟩⟩

theorem tell {s : σ} (h : ∀ e, ¬ Q e) : Rejects Q (Journal.tell s : Journal σ ε Unit) :=
  ⟨fun _ he => (nomatch he), fun e he => absurd he (h e)⟩

/-- The same reasons in other words. -/
theorem of_iff {j : Journal σ ε α} (hj : Rejects P j) (h : ∀ e, P e ↔ Q e) : Rejects Q j :=
  ⟨fun e he => (h e).mp (hj.sound e he), fun e he => hj.complete e ((h e).mpr he)⟩

/-- **One journal after another fails for the reasons of either.** -/
theorem bind {j : Journal σ ε β} {f : β → Journal σ ε α} (hj : Rejects P j)
    (hf : ∀ b, j.outcome = .ok b → Rejects Q (f b)) :
    Rejects (fun e => P e ∨ Q e) (j >>= f) := by
  cases ho : j.outcome with
  | error e =>
    rw [bind_of_error ho]
    refine ⟨fun e' he' => .inl (hj.sound e' ?_), fun _ _ => ⟨e, rfl⟩⟩
    rw [ho, Except.error.inj he']
  | ok b =>
    rw [bind_of_ok ho]
    refine ⟨fun e he => .inr ((hf b ho).sound e he), ?_⟩
    rintro e (he | he)
    · obtain ⟨e', he'⟩ := hj.complete e he
      cases ho.symm.trans he'
    · exact (hf b ho).complete e he

/-- What is made of the value has no say in it. -/
theorem map {j : Journal σ ε β} (hj : Rejects Q j) (f : β → α) :
    Rejects Q (j >>= fun b => Pure.pure (f b)) :=
  (hj.bind fun _ _ => pure (Q := fun _ => False) fun _ => id).of_iff fun _ => iff_of_eq (or_false _)

/-- Part by part, a sequence fails for the reasons of any part. -/
theorem sequence_map {τ : Type} {f : τ → Journal σ ε α} {Q : τ → ε → Prop} {parts : List τ}
    (h : ∀ p ∈ parts, Rejects (Q p) (f p)) :
    Rejects (fun e => ∃ p ∈ parts, Q p e) (Journal.sequence (parts.map f)) := by
  induction parts with
  | nil => exact .pure fun e he => by simp at he
  | cons p parts ih =>
    obtain ⟨hp, hparts⟩ := List.forall_mem_cons.mp h
    refine (hp.bind fun a _ => (ih hparts).map (a :: ·)).of_iff fun e => ?_
    rw [List.exists_mem_cons_iff]

end Rejects

end OpenApi.Journal
