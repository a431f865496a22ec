import OpenApi.Proofs.Journal

/-!
# Proofs/Journal/Asks — what a journal asks for

    j          asks for   P
    j >>= f    asks for   P  or  Q      if every `f a` asks for Q

Of the steps that count (`S`) a journal *asks for* `Q` if it asks for nothing else, and for all of
it if it ends well.  In what order is left open, so what a journal asks for is put together from
what its parts ask for.  Beside it stands which failures are possible at all (`F`).
-/

namespace OpenApi.Journal

variable {σ ε α β κ τ : Type}

/-- **The journal asks for these steps** — among those that count only for them, and for all of them
if it ends well; and it fails in this way only. -/
structure Asks (S : σ → Prop) (F : ε → Prop) (Q : σ → Prop) (j : Journal σ ε α) : Prop where
  only : ∀ s ∈ j.steps, S s → Q s
  all : ∀ a, j.outcome = .ok a → ∀ s, Q s → s ∈ j.steps
  failure : ∀ e, j.outcome = .error e → F e

/-- The journal asks for nothing that counts. -/
abbrev Silent (S : σ → Prop) (F : ε → Prop) (j : Journal σ ε α) : Prop :=
  Asks S F (fun _ => False) j

namespace Asks

variable {S : σ → Prop} {F : ε → Prop} {P Q : σ → Prop}

theorem pure {a : α} : Silent S F (Pure.pure a : Journal σ ε α) :=
  ⟨fun _ hs => (nomatch hs), fun _ _ _ h => h.elim, fun _ he => nomatch he⟩

/-- A failure may be asked for anything. -/
theorem fail {e : ε} (h : F e) : Asks S F Q (Journal.fail e : Journal σ ε α) :=
  ⟨fun _ hs => (nomatch hs), fun _ ha => (nomatch ha), fun _ he => Except.error.inj he ▸ h⟩

theorem tell (s : σ) : Asks S F (· = s) (Journal.tell s : Journal σ ε Unit) :=
  ⟨fun _ ht _ => List.mem_singleton.mp ht, fun _ _ _ ht => List.mem_singleton.mpr ht,
    fun _ he => nomatch he⟩

theorem tell_silent {s : σ} (h : ¬ S s) : Silent S F (Journal.tell s : Journal σ ε Unit) :=
  ⟨fun _ ht hs => h (List.mem_singleton.mp ht ▸ hs), fun _ _ _ h => h.elim, fun _ he => nomatch he⟩

theorem embed_silent {σ' ε' : Type} {step : σ' → σ} {failure : ε' → ε} (j : Journal σ' ε' α)
    (hs : ∀ s, ¬ S (step s)) (hf : ∀ e, F (failure e)) : Silent S F (j.embed step failure) := by
  refine ⟨fun s hmem hS => ?_, fun _ _ _ h => h.elim, fun e he => ?_⟩
  · obtain ⟨t, -, rfl⟩ := List.mem_map.mp hmem
    exact hs t hS
  · obtain ⟨e', -, rfl⟩ := mapError_eq_error_iff.mp he
    exact hf e'

/-- The same steps in other words. -/
theorem of_iff {j : Journal σ ε α} (hj : Asks S F P j) (h : ∀ s, P s ↔ Q s) : Asks S F Q j :=
  ⟨fun s hs hS => (h s).mp (hj.only s hs hS), fun a ha s hs => hj.all a ha s ((h s).mpr hs),
    hj.failure⟩

/-- **One journal after another asks for the steps of either.** -/
theorem bind {j : Journal σ ε β} {f : β → Journal σ ε α} (hj : Asks S F P j)
    (hf : ∀ b, j.outcome = .ok b → Asks S F Q (f b)) :
    Asks S F (fun s => P s ∨ Q s) (j >>= f) := by
  cases ho : j.outcome with
  | error e =>
    rw [bind_of_error ho]
    exact ⟨fun s hs hS => .inl (hj.only s hs hS), fun _ ha => (nomatch ha),
      fun e' he' => Except.error.inj he' ▸ hj.failure e ho⟩
  | ok b =>
    have hfb := hf b ho
    rw [bind_of_ok ho]
    refine ⟨fun s hs hS => ?_, fun a ha s hs => ?_, hfb.failure⟩
    · exact (List.mem_append.mp hs).imp (hj.only s · hS) (hfb.only s · hS)
    · exact List.mem_append.mpr (hs.imp (hj.all b ho s) (hfb.all a ha s))

/-- What comes after a silent journal asks as it does alone. -/
theorem after {j : Journal σ ε β} {f : β → Journal σ ε α} (hj : Silent S F j)
    (hf : ∀ b, Asks S F Q (f b)) : Asks S F Q (j >>= f) :=
  (hj.bind fun b _ => hf b).of_iff fun _ => iff_of_eq (false_or _)

/-- What is made of the value has no say in it. -/
theorem map {j : Journal σ ε β} (hj : Asks S F Q j) (f : β → α) :
    Asks S F Q (j >>= fun b => Pure.pure (f b)) :=
  (hj.bind fun _ _ => pure).of_iff fun _ => iff_of_eq (or_false _)

/-- Part by part, a sequence asks for the steps of any part. -/
theorem sequence_map {f : τ → Journal σ ε α} {Q : τ → σ → Prop} {parts : List τ}
    (h : ∀ p ∈ parts, Asks S F (Q p) (f p)) :
    Asks S F (fun s => ∃ p ∈ parts, Q p s) (Journal.sequence (parts.map f)) := by
  induction parts with
  | nil => exact pure.of_iff fun s => by simp
  | cons p parts ih =>
    obtain ⟨hp, hparts⟩ := List.forall_mem_cons.mp h
    refine (hp.bind fun a _ => (ih hparts).map (a :: ·)).of_iff fun s => ?_
    rw [List.exists_mem_cons_iff]

theorem sequence_silent {f : τ → Journal σ ε α} {parts : List τ}
    (h : ∀ p ∈ parts, Silent S F (f p)) : Silent S F (Journal.sequence (parts.map f)) :=
  (sequence_map h).of_iff fun s => by simp

theorem sequenceTable_map {f : τ → κ × Journal σ ε α} {Q : τ → σ → Prop} {parts : List τ}
    (h : ∀ p ∈ parts, Asks S F (Q p) (f p).2) :
    Asks S F (fun s => ∃ p ∈ parts, Q p s) (Journal.sequenceTable (parts.map f)) := by
  rw [Journal.sequenceTable, List.map_map]
  exact sequence_map fun p hp => (h p hp).map ((f p).1, ·)

theorem sequenceTable_silent {f : τ → κ × Journal σ ε α} {parts : List τ}
    (h : ∀ p ∈ parts, Silent S F (f p).2) :
    Silent S F (Journal.sequenceTable (parts.map f)) :=
  (sequenceTable_map h).of_iff fun s => by simp

theorem sequenceOption_silent {f : τ → Journal σ ε α} {o : Option τ}
    (h : ∀ p, Silent S F (f p)) : Silent S F (Journal.sequenceOption (o.map f)) := by
  cases o with
  | none => exact pure
  | some p => exact (h p).map some

end Asks

end OpenApi.Journal
