/-!
# Journal — steps in order, then an outcome

Lowering a descriptor and rendering an operation ask for changes to tables that they never read.
So both are written as a *journal*: the list of the steps they ask for, in order, and the value or
the failure they end in.  Carrying out the steps is left to whoever owns the tables.
-/

namespace OpenApi

/-- The steps asked for, in order, and the outcome they end in.  A failed journal keeps the steps
that came before the failure. -/
structure Journal (σ ε α : Type) where
  steps : List σ
  outcome : Except ε α

namespace Journal

variable {σ ε α β : Type}

/-- A value without any step. -/
protected def pure (a : α) : Journal σ ε α := ⟨[], .ok a⟩

/-- One journal after another, which is not begun if the first one fails. -/
protected def bind (j : Journal σ ε α) (f : α → Journal σ ε β) : Journal σ ε β :=
  match j.outcome with
  | .error e => ⟨j.steps, .error e⟩
  | .ok a => ⟨j.steps ++ (f a).steps, (f a).outcome⟩

instance : Monad (Journal σ ε) where
  pure := Journal.pure
  bind := Journal.bind

/-- A failure without any step. -/
def fail (e : ε) : Journal σ ε α := ⟨[], .error e⟩

/-- One step. -/
def tell (step : σ) : Journal σ ε Unit := ⟨[step], .ok ()⟩

/-- An outcome without any step. -/
def ofExcept (outcome : Except ε α) : Journal σ ε α := ⟨[], outcome⟩

/-- The journal with its steps and its failure seen as those of a larger one. -/
def embed {σ' ε' : Type} (step : σ → σ') (failure : ε → ε') (j : Journal σ ε α) :
    Journal σ' ε' α :=
  ⟨j.steps.map step, j.outcome.mapError failure⟩

/-- The journals of a list one after the other, up to the first that fails. -/
def sequence : List (Journal σ ε α) → Journal σ ε (List α)
  | [] => pure []
  | j :: js => do
    let a ← j
    let as ← sequence js
    pure (a :: as)

/-- Journals under keys, one after the other, up to the first that fails. -/
def sequenceTable {κ : Type} (table : List (κ × Journal σ ε α)) : Journal σ ε (List (κ × α)) :=
  sequence (table.map fun p => do pure (p.1, ← p.2))

/-- The journal that may be there. -/
def sequenceOption : Option (Journal σ ε α) → Journal σ ε (Option α)
  | none => pure none
  | some j => do pure (some (← j))

theorem bind_eq (j : Journal σ ε α) (f : α → Journal σ ε β) : j >>= f = j.bind f := rfl

theorem pure_eq (a : α) : (pure a : Journal σ ε α) = ⟨[], .ok a⟩ := rfl

/-- A journal that has failed is not continued. -/
theorem bind_of_error {j : Journal σ ε α} {e : ε} (h : j.outcome = .error e)
    (f : α → Journal σ ε β) : j >>= f = ⟨j.steps, .error e⟩ := by
  simp only [bind_eq, Journal.bind, h]

/-- **The steps of two journals stand one after the other** — if the first one has a value. -/
theorem bind_of_ok {j : Journal σ ε α} {a : α} (h : j.outcome = .ok a)
    (f : α → Journal σ ε β) : j >>= f = ⟨j.steps ++ (f a).steps, (f a).outcome⟩ := by
  simp only [bind_eq, Journal.bind, h]

/-- A sequence of journals has a value exactly when they all have. -/
theorem bind_eq_ok_iff {j : Journal σ ε α} {f : α → Journal σ ε β} {b : β} :
    (j >>= f).outcome = .ok b ↔ ∃ a, j.outcome = .ok a ∧ (f a).outcome = .ok b := by
  rw [bind_eq, Journal.bind]
  cases j.outcome <;> simp

instance : LawfulMonad (Journal σ ε) :=
  LawfulMonad.mk' _
    (fun j => by
      obtain ⟨s, o⟩ := j
      cases o <;> simp [Functor.map, Journal.bind, Journal.pure])
    (fun a f => by simp [bind_eq, Journal.bind, pure_eq])
    (fun j f g => by
      obtain ⟨s, o⟩ := j
      cases o with
      | error e => simp [bind_eq, Journal.bind]
      | ok a =>
        simp only [bind_eq, Journal.bind]
        cases (f a).outcome <;> simp)

end Journal

end OpenApi
