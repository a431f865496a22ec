import Mathlib.Data.List.Forall2
import OpenApi.Journal

/-!
# Proofs/Journal — reading a journal

Ways to read a journal that is put together from others.  `run_bind` takes one that ended well
apart, into the steps and values of its parts.  `Ensures` says something of all steps, asked for or
not followed by a failure, and of the value if there is one, and is put together part by part.  What
is said of the steps as a whole, with their order, is put together so if it is `Closed`.
-/

namespace OpenApi

/-! ## Lists related one by one -/

theorem exists_right_of_forall₂ {α β : Type} {R : α → β → Prop} {xs : List α} {ys : List β}
    (h : List.Forall₂ R xs ys) {x : α} (hx : x ∈ xs) : ∃ y ∈ ys, R x y := by
  induction h with
  | nil => exact absurd hx List.not_mem_nil
  | cons hxy _ ih =>
    rcases List.mem_cons.mp hx with rfl | hx
    · exact ⟨_, List.mem_cons_self, hxy⟩
    · obtain ⟨y, hy, hR⟩ := ih hx
      exact ⟨y, List.mem_cons_of_mem _ hy, hR⟩

theorem exists_left_of_forall₂ {α β : Type} {R : α → β → Prop} {xs : List α} {ys : List β}
    (h : List.Forall₂ R xs ys) {y : β} (hy : y ∈ ys) : ∃ x ∈ xs, R x y :=
  exists_right_of_forall₂ h.flip hy

/-! ## Outcomes in order -/

section Outcomes

variable {ε α β : Type} {o : Except ε α} {f : α → Except ε β}

/-- Two outcomes in order are a value if both are. -/
theorem bind_eq_ok_iff {b : β} : (o >>= f) = .ok b ↔ ∃ a, o = .ok a ∧ f a = .ok b := by
  cases o with
  | error e => simp [bind, Except.bind]
  | ok a => simp [bind, Except.bind]

/-- **Two outcomes in order fail if the first one does, or the second one after it.** -/
theorem bind_eq_error_iff {e : ε} :
    (o >>= f) = .error e ↔ o = .error e ∨ ∃ a, o = .ok a ∧ f a = .error e := by
  cases o with
  | error e' => simp [bind, Except.bind]
  | ok a => simp [bind, Except.bind]

end Outcomes

namespace Journal

variable {σ ε α β κ : Type}

/-! ## Parts -/

/-- A failure seen in a larger type of failures is still one. -/
theorem mapError_eq_ok_iff {ε' : Type} {f : ε → ε'} {o : Except ε α} {a : α} :
    o.mapError f = .ok a ↔ o = .ok a := by
  cases o with
  | error e => exact ⟨fun h => (nomatch h), fun h => (nomatch h)⟩
  | ok b => exact ⟨fun h => congrArg _ (Except.ok.inj h), fun h => congrArg _ (Except.ok.inj h)⟩

theorem mapError_eq_error_iff {ε' : Type} {f : ε → ε'} {o : Except ε α} {e' : ε'} :
    o.mapError f = .error e' ↔ ∃ e, o = .error e ∧ f e = e' := by
  cases o with
  | error e => simp [Except.mapError]
  | ok a => simp [Except.mapError]

/-- **The journal ends well** — with these steps and this value. -/
def Run (j : Journal σ ε α) (ss : List σ) (a : α) : Prop := j = ⟨ss, .ok a⟩

@[simp] theorem run_pure {a b : α} {ss : List σ} :
    (pure a : Journal σ ε α).Run ss b ↔ ss = [] ∧ b = a := by
  rw [Run, pure_eq, mk.injEq, Except.ok.injEq, eq_comm, @eq_comm _ a]

@[simp] theorem run_fail {e : ε} {b : α} {ss : List σ} :
    ¬ (fail e : Journal σ ε α).Run ss b := fun h => nomatch h

@[simp] theorem run_tell {s : σ} {u : Unit} {ss : List σ} :
    (tell s : Journal σ ε Unit).Run ss u ↔ ss = [s] := by
  rw [Run, tell, mk.injEq, eq_comm, and_iff_left rfl]

@[simp] theorem run_ofExcept {o : Except ε α} {b : α} {ss : List σ} :
    (ofExcept o : Journal σ ε α).Run ss b ↔ ss = [] ∧ o = .ok b := by
  rw [Run, ofExcept, mk.injEq, eq_comm]

/-- **One journal after another ends well if both do** — their steps stand in this order. -/
theorem run_bind {j : Journal σ ε α} {f : α → Journal σ ε β} {ss : List σ} {b : β} :
    (j >>= f).Run ss b ↔
      ∃ ss₁ a ss₂, j.Run ss₁ a ∧ (f a).Run ss₂ b ∧ ss = ss₁ ++ ss₂ := by
  obtain ⟨steps, outcome⟩ := j
  cases outcome with
  | error e =>
    rw [bind_of_error rfl]
    exact ⟨fun h => (nomatch h), fun ⟨_, _, _, h, _⟩ => nomatch h⟩
  | ok a =>
    rw [bind_of_ok rfl]
    constructor
    · intro h
      obtain ⟨rfl, hb⟩ := mk.inj h
      exact ⟨steps, a, (f a).steps, rfl, by rw [Run, ← hb], rfl⟩
    · rintro ⟨ss₁, a', ss₂, h, hf, rfl⟩
      obtain ⟨rfl, ha⟩ := mk.inj h
      obtain rfl := Except.ok.inj ha
      rw [Run] at hf
      rw [Run, hf]

/-- A value computed from that of a journal needs no further steps. -/
theorem run_bind_pure {j : Journal σ ε α} {f : α → β} {ss : List σ} {b : β} :
    (j >>= fun a => pure (f a)).Run ss b ↔ ∃ a, j.Run ss a ∧ b = f a := by
  rw [run_bind]
  constructor
  · rintro ⟨ss₁, a, ss₂, hj, hf, rfl⟩
    obtain ⟨rfl, rfl⟩ := run_pure.mp hf
    exact ⟨a, (List.append_nil ss₁).symm ▸ hj, rfl⟩
  · rintro ⟨a, hj, rfl⟩
    exact ⟨ss, a, [], hj, run_pure.mpr ⟨rfl, rfl⟩, (List.append_nil ss).symm⟩

theorem run_of_outcome {j : Journal σ ε α} {a : α} (h : j.outcome = .ok a) : j.Run j.steps a := by
  obtain ⟨steps, outcome⟩ := j
  exact congrArg _ h

theorem Run.outcome {j : Journal σ ε α} {ss : List σ} {a : α} (h : j.Run ss a) :
    j.outcome = .ok a := congrArg Journal.outcome h

theorem Run.steps {j : Journal σ ε α} {ss : List σ} {a : α} (h : j.Run ss a) :
    j.steps = ss := congrArg Journal.steps h

/-- **A sequence of journals ends well if they all do** — its value lists theirs. -/
theorem sequence_eq_ok_iff {js : List (Journal σ ε α)} {as : List α} :
    (sequence js).outcome = .ok as ↔ List.Forall₂ (fun j a => j.outcome = .ok a) js as := by
  induction js generalizing as with
  | nil =>
    rw [List.forall₂_nil_left_iff]
    exact ⟨fun h => (Except.ok.inj h).symm, fun h => h ▸ rfl⟩
  | cons j js ih =>
    rw [List.forall₂_cons_left_iff, sequence, bind_eq_ok_iff]
    constructor
    · rintro ⟨a, ha, h⟩
      obtain ⟨bs, hbs, hpure⟩ := bind_eq_ok_iff.mp h
      exact ⟨a, bs, ha, ih.mp hbs, (Except.ok.inj hpure).symm⟩
    · rintro ⟨a, bs, ha, hbs, rfl⟩
      exact ⟨a, ha, bind_eq_ok_iff.mpr ⟨bs, ih.mpr hbs, rfl⟩⟩

/-- A table of journals ends well if they all do — each value under the key of its journal. -/
theorem sequenceTable_eq_ok_iff {table : List (κ × Journal σ ε α)} {as : List (κ × α)} :
    (sequenceTable table).outcome = .ok as ↔
      List.Forall₂ (fun p a => a.1 = p.1 ∧ p.2.outcome = .ok a.2) table as := by
  have hentry : ∀ (p : κ × Journal σ ε α) (a : κ × α),
      (do pure (p.1, ← p.2) : Journal σ ε (κ × α)).outcome = .ok a ↔
        a.1 = p.1 ∧ p.2.outcome = .ok a.2 := by
    rintro ⟨k, j⟩ ⟨l, b⟩
    rw [bind_eq_ok_iff]
    constructor
    · rintro ⟨b', hb, hpure⟩
      obtain ⟨rfl, rfl⟩ := Prod.mk.inj (Except.ok.inj hpure)
      exact ⟨rfl, hb⟩
    · rintro ⟨rfl, hb⟩
      exact ⟨b, hb, rfl⟩
  rw [sequenceTable, sequence_eq_ok_iff, List.forall₂_map_left_iff]
  simp only [hentry]

/-- The journal seen in a larger one ends well as it did. -/
theorem run_embed {σ' ε' : Type} {step : σ → σ'} {failure : ε → ε'} {j : Journal σ ε α}
    {ss : List σ'} {a : α} :
    (j.embed step failure).Run ss a ↔ ∃ ss₁, j.Run ss₁ a ∧ ss = ss₁.map step := by
  obtain ⟨steps, outcome⟩ := j
  cases outcome with
  | error e => exact ⟨fun h => (nomatch h), fun ⟨_, h, _⟩ => nomatch h⟩
  | ok b =>
    constructor
    · intro h
      obtain ⟨rfl, hb⟩ := mk.inj h
      obtain rfl := Except.ok.inj hb
      exact ⟨steps, rfl, rfl⟩
    · rintro ⟨ss₁, h, rfl⟩
      obtain ⟨rfl, hb⟩ := mk.inj h
      obtain rfl := Except.ok.inj hb
      rfl

/-! ## All steps, and the value if there is one -/

/-- **Every step and every value is as it should be** — also the steps before a failure. -/
structure Ensures (S : σ → Prop) (Q : α → Prop) (j : Journal σ ε α) : Prop where
  step : ∀ s ∈ j.steps, S s
  value : ∀ a, j.outcome = .ok a → Q a

namespace Ensures

variable {S : σ → Prop} {P : β → Prop} {Q : α → Prop}

theorem pure {a : α} (h : Q a) : Ensures S Q (Pure.pure a : Journal σ ε α) :=
  ⟨fun _ hs => (nomatch hs), fun _ hb => Except.ok.inj hb ▸ h⟩

theorem fail {e : ε} : Ensures S Q (Journal.fail e : Journal σ ε α) :=
  ⟨fun _ hs => (nomatch hs), fun _ hb => nomatch hb⟩

theorem tell {s : σ} {Q : Unit → Prop} (hs : S s) (hq : Q ()) :
    Ensures S Q (Journal.tell s : Journal σ ε Unit) :=
  ⟨fun _ ht => List.mem_singleton.mp ht ▸ hs, fun _ _ => hq⟩

theorem ofExcept {o : Except ε α} (h : ∀ a, o = .ok a → Q a) :
    Ensures S Q (Journal.ofExcept o : Journal σ ε α) := ⟨fun _ hs => (nomatch hs), h⟩

theorem bind {j : Journal σ ε β} {f : β → Journal σ ε α} (hj : Ensures S P j)
    (hf : ∀ b, P b → Ensures S Q (f b)) : Ensures S Q (j >>= f) := by
  cases ho : j.outcome with
  | error e =>
    rw [bind_of_error ho]
    exact ⟨hj.step, fun _ hb => nomatch hb⟩
  | ok b =>
    have hfb := hf b (hj.value b ho)
    rw [bind_of_ok ho]
    refine ⟨fun s hs => ?_, hfb.value⟩
    rcases List.mem_append.mp hs with hs | hs
    · exact hj.step s hs
    · exact hfb.step s hs

theorem embed {σ' ε' : Type} {S' : σ' → Prop} {step : σ → σ'} {failure : ε → ε'}
    {j : Journal σ ε α} (hj : Ensures S Q j) (hs : ∀ s, S s → S' (step s)) :
    Ensures S' Q (j.embed step failure) := by
  refine ⟨fun s hmem => ?_, fun a ha => hj.value a ((mapError_eq_ok_iff (f := failure)).mp ha)⟩
  obtain ⟨s', hs', rfl⟩ := List.mem_map.mp hmem
  exact hs s' (hj.step s' hs')

theorem sequence {js : List (Journal σ ε α)} (h : ∀ j ∈ js, Ensures S Q j) :
    Ensures S (fun as => ∀ a ∈ as, Q a) (Journal.sequence js) := by
  induction js with
  | nil => exact .pure fun _ ha => nomatch ha
  | cons j js ih =>
    obtain ⟨hj, hjs⟩ := List.forall_mem_cons.mp h
    exact .bind hj fun a ha => .bind (ih hjs) fun as has =>
      .pure (List.forall_mem_cons.mpr ⟨ha, has⟩)

/-- Part by part, there is one value for each. -/
theorem sequence_map {τ : Type} {f : τ → Journal σ ε α} {parts : List τ}
    (h : ∀ p ∈ parts, Ensures S Q (f p)) :
    Ensures S (fun as => as.length = parts.length ∧ ∀ a ∈ as, Q a)
      (Journal.sequence (parts.map f)) := by
  have hall := sequence (List.forall_mem_map.mpr h)
  refine ⟨hall.step, fun as has => ⟨?_, hall.value as has⟩⟩
  rw [← (sequence_eq_ok_iff.mp has).length_eq, List.length_map]

theorem sequenceTable {table : List (κ × Journal σ ε α)}
    (h : ∀ p ∈ table, Ensures S Q p.2) :
    Ensures S (fun as => ∀ a ∈ as, Q a.2) (Journal.sequenceTable table) := by
  refine sequence fun j hj => ?_
  obtain ⟨p, hp, rfl⟩ := List.mem_map.mp hj
  exact .bind (h p hp) fun a ha => .pure ha

theorem sequenceOption {o : Option (Journal σ ε α)} (h : ∀ j, o = some j → Ensures S Q j) :
    Ensures S (fun a => ∀ b, a = some b → Q b) (Journal.sequenceOption o) := by
  cases o with
  | none => exact .pure fun _ hb => nomatch hb
  | some j => exact .bind (h j rfl) fun a ha => .pure fun b hb => Option.some.inj hb ▸ ha

theorem imp {P : α → Prop} {j : Journal σ ε α} (hj : Ensures S P j) (h : ∀ a, P a → Q a) :
    Ensures S Q j := ⟨hj.step, fun a ha => h a (hj.value a ha)⟩

end Ensures

/-! ## The steps as a whole -/

/-- **What is true of no steps, and of two lists of steps together** if it is of both.  It may speak
of the order of the steps, which `Ensures` does not see. -/
structure Closed (P : List σ → Prop) : Prop where
  nil : P []
  append : ∀ {ss ts : List σ}, P ss → P ts → P (ss ++ ts)

namespace Closed

variable {P : List σ → Prop}

theorem bind (hP : Closed P) {j : Journal σ ε α} {f : α → Journal σ ε β} (hj : P j.steps)
    (hf : ∀ a, j.outcome = .ok a → P (f a).steps) : P (j >>= f).steps := by
  cases ho : j.outcome with
  | error e =>
    rw [bind_of_error ho]
    exact hj
  | ok a =>
    rw [bind_of_ok ho]
    exact hP.append hj (hf a ho)

theorem sequence (hP : Closed P) {js : List (Journal σ ε α)} (h : ∀ j ∈ js, P j.steps) :
    P (Journal.sequence js).steps := by
  induction js with
  | nil => exact hP.nil
  | cons j js ih =>
    obtain ⟨hj, hjs⟩ := List.forall_mem_cons.mp h
    exact hP.bind hj fun a _ => hP.bind (ih hjs) fun as _ => hP.nil

end Closed

end Journal

end OpenApi
