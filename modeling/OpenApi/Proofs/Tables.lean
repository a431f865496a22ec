import OpenApi.Proofs.Exchange

/-!
# Proofs/Tables — tables that are filled in another order

    pairs ~ pairs'  ⟹  table after pairs  ≈  table after pairs'     (`JoinAll.perm`)

A pair joins a table if it is there already or if its key is new.  Whether all pairs of a list can
join does not depend on their order, and neither does what the table holds in the end (`Same`).
Registrations, security schemes and tags are tables of that kind.  The other kind, where the first
value under a key counts, is treated beside them.
-/

namespace OpenApi.Table

variable {α κ : Type}

section Order

variable [LinearOrder κ] [DecidableEq κ]

/-! ## Tables that hold the same -/

/-- **Two tables hold the same** — under every key, and in the order of their keys. -/
structure Same (s t : List (κ × α)) : Prop where
  get? : ∀ k, Table.get? k s = Table.get? k t
  sorted : sortOn (·.1) s = sortOn (·.1) t

namespace Same

variable {s t u : List (κ × α)}

theorem refl (s : List (κ × α)) : Same s s := ⟨fun _ => rfl, rfl⟩

theorem symm (h : Same s t) : Same t s := ⟨fun k => (h.get? k).symm, h.sorted.symm⟩

theorem trans (h : Same s t) (h' : Same t u) : Same s u :=
  ⟨fun k => (h.get? k).trans (h'.get? k), h.sorted.trans h'.sorted⟩

theorem perm (h : Same s t) : s.Perm t :=
  (sortOn_perm (·.1) s).symm.trans (h.sorted ▸ sortOn_perm (·.1) t)

/-- The same pair with a new key is put behind both. -/
theorem push (h : Same s t) {p : κ × α} (hp : Table.get? p.1 s = none) :
    Same (s ++ [p]) (t ++ [p]) := by
  have hnew : ∀ q ∈ s, q.1 ≠ p.1 := fun q hq he =>
    get?_eq_none_iff.mp hp (List.mem_map.mpr ⟨q, hq, he⟩)
  constructor
  · intro k
    rw [get?_append, get?_append, h.get? k]
  · rw [sortOn_concat hnew, sortOn_concat fun q hq => hnew q (h.perm.mem_iff.mpr hq), h.sorted]

/-- **Tables with different keys hold the same if they do under every key.** -/
theorem of_get? (hs : (s.map (·.1)).Nodup) (ht : (t.map (·.1)).Nodup)
    (h : ∀ k, Table.get? k s = Table.get? k t) : Same s t := by
  refine ⟨h, sortOn_eq_of_perm ?_ hs⟩
  refine (List.perm_ext_iff_of_nodup hs.of_map ht.of_map).mpr fun p => ?_
  rw [← get?_eq_some_iff hs, ← get?_eq_some_iff ht, h]

end Same

/-- Two pairs with new keys may be put behind a table in any order. -/
theorem same_push_swap {t : List (κ × α)} {p q : κ × α} (hpq : p.1 ≠ q.1) :
    Same (t ++ [p] ++ [q]) (t ++ [q] ++ [p]) := by
  constructor
  · intro k
    simp only [get?_append, Option.or_assoc, get?]
    congr 1
    by_cases hp : p.1 = k
    · have hq : ¬ q.1 = k := fun hq => hpq (hp.trans hq.symm)
      simp [hp, hq]
    · simp [hp]
  · rw [List.append_assoc, List.append_assoc]
    exact (@Exchange.intro _ (fun a b => a.1 ≠ b.1) t [] p q hpq).sortOn_eq fun _ _ h => h

/-! ## Pairs that join a table -/

/-- **A pair joins a table** — it is there already, or its key is new and the pair may come in. -/
inductive Joins (admits : κ × α → Prop) (t : List (κ × α)) (p : κ × α) : List (κ × α) → Prop
  | known : get? p.1 t = some p.2 → Joins admits t p t
  | new : get? p.1 t = none → admits p → Joins admits t p (t ++ [p])

/-- The pairs of a list join a table one after the other. -/
inductive JoinAll (admits : κ × α → Prop) :
    List (κ × α) → List (κ × α) → List (κ × α) → Prop
  | nil {t : List (κ × α)} : JoinAll admits t [] t
  | cons {t t₁ t₂ ps : List (κ × α)} {p : κ × α} : Joins admits t p t₁ →
    JoinAll admits t₁ ps t₂ → JoinAll admits t (p :: ps) t₂

section Joining

variable {admits : κ × α → Prop} {s s' t t₁ t₂ : List (κ × α)} {p q : κ × α}

theorem Joins.same (h : Joins admits s p s') (hst : Same s t) :
    ∃ t', Joins admits t p t' ∧ Same s' t' := by
  cases h with
  | known hp => exact ⟨t, .known (hst.get? p.1 ▸ hp), hst⟩
  | new hp ha => exact ⟨t ++ [p], .new (hst.get? p.1 ▸ hp) ha, hst.push hp⟩

theorem JoinAll.same {ps : List (κ × α)} (h : JoinAll admits s ps s') (hst : Same s t) :
    ∃ t', JoinAll admits t ps t' ∧ Same s' t' := by
  induction h generalizing t with
  | nil => exact ⟨t, .nil, hst⟩
  | cons hp _ ih =>
    obtain ⟨t₁, hp', hst₁⟩ := hp.same hst
    obtain ⟨t₂, hps', hst₂⟩ := ih hst₁
    exact ⟨t₂, .cons hp' hps', hst₂⟩

/-- **Two pairs may join in any order.** -/
theorem Joins.swap (hp : Joins admits t p t₁) (hq : Joins admits t₁ q t₂) :
    ∃ u₁ u₂, Joins admits t q u₁ ∧ Joins admits u₁ p u₂ ∧ Same t₂ u₂ := by
  cases hp with
  | known hp =>
    cases hq with
    | known hq => exact ⟨t, t, .known hq, .known hp, .refl t⟩
    | new hq ha =>
      refine ⟨t ++ [q], t ++ [q], .new hq ha, .known ?_, .refl _⟩
      rw [get?_append, hp, Option.some_or]
  | new hp ha =>
    cases hq with
    | known hq =>
      rw [get?_append] at hq
      cases ht : get? q.1 t with
      | some v =>
        rw [ht, Option.some_or] at hq
        exact ⟨t, t ++ [p], .known (ht.trans hq), .new hp ha, .refl _⟩
      | none =>
        -- the second pair is the first one again
        have hpq : p = q := by
          rw [ht, Option.none_or, get?] at hq
          split at hq
          · next hk => exact Prod.ext hk (Option.some.inj hq)
          · cases hq
        obtain rfl := hpq
        refine ⟨t ++ [p], t ++ [p], .new hp ha, .known ?_, .refl _⟩
        rw [get?_append, hp]
        simp [get?]
    | new hq hb =>
      rw [get?_append, Option.or_eq_none_iff] at hq
      have hpq : p.1 ≠ q.1 := fun he => by simp [get?, he] at hq
      refine ⟨t ++ [q], t ++ [q] ++ [p], .new hq.1 hb, .new ?_ ha, same_push_swap hpq⟩
      rw [get?_append, hp, Option.none_or]
      simp [get?, Ne.symm hpq]

/-- **Pairs may join in any order**, also a table that holds the same. -/
theorem JoinAll.perm {ps qs : List (κ × α)} (h : JoinAll admits s ps s') (hp : ps.Perm qs)
    (hst : Same s t) : ∃ t', JoinAll admits t qs t' ∧ Same s' t' := by
  induction hp generalizing s t s' with
  | nil => exact h.same hst
  | cons p _ ih =>
    obtain _ | ⟨hj, h⟩ := h
    obtain ⟨t₁, hj', hst₁⟩ := hj.same hst
    obtain ⟨t₂, h', hst₂⟩ := ih h hst₁
    exact ⟨t₂, .cons hj' h', hst₂⟩
  | swap p q l =>
    obtain _ | ⟨hq, _ | ⟨hp, h⟩⟩ := h
    obtain ⟨u₁, u₂, hp', hq', hsu⟩ := hq.swap hp
    obtain ⟨s₁, h₁, hs₁⟩ := h.same hsu
    exact (JoinAll.cons hp' (.cons hq' h₁)).same hst |>.imp fun _ ht => ⟨ht.1, hs₁.trans ht.2⟩
  | trans _ _ ih₁ ih₂ =>
    obtain ⟨t₁, h₁, hs₁⟩ := ih₁ h (Same.refl s)
    obtain ⟨t₂, h₂, hs₂⟩ := ih₂ h₁ hst
    exact ⟨t₂, h₂, hs₁.trans hs₂⟩

end Joining

end Order

/-! ## Tables where the last or the first value counts -/

theorem nodup_push {ks : List κ} {k : κ} (h : ks.Nodup) (hk : k ∉ ks) : (ks ++ [k]).Nodup := by
  rw [← List.concat_eq_append]
  exact h.concat hk

variable [DecidableEq κ]

/-- What has joined a table is in it, beside what it held before. -/
theorem JoinAll.mem_iff {admits : κ × α → Prop} {s s' ps : List (κ × α)} {p : κ × α}
    (h : JoinAll admits s ps s') : p ∈ s' ↔ p ∈ s ∨ p ∈ ps := by
  induction h with
  | nil => simp
  | @cons t t₁ t₂ ps q hq _ ih =>
    rw [ih, List.mem_cons, ← or_assoc]
    refine or_congr_left ?_
    cases hq with
    | known hq =>
      exact ⟨Or.inl, fun hp => hp.elim id fun he => he ▸ mem_of_get?_eq_some hq⟩
    | new _ _ => rw [List.mem_append, List.mem_singleton]

/-- **The keys of a table are followed by those that join it**, each at its first place. -/
theorem JoinAll.keys {admits : κ × α → Prop} {s s' ps : List (κ × α)}
    (h : JoinAll admits s ps s') : s'.map (·.1) =
      (ps.map (·.1)).foldl (fun seen k => if k ∈ seen then seen else seen ++ [k])
        (s.map (·.1)) := by
  induction h with
  | nil => rfl
  | cons hp _ ih =>
    rw [ih, List.map_cons, List.foldl_cons]
    congr 1
    cases hp with
    | known hp => rw [if_pos (List.mem_map_of_mem (mem_of_get?_eq_some hp))]
    | new hp _ =>
      rw [if_neg (get?_eq_none_iff.mp hp), List.map_append]
      rfl

/-- The keys of a table stay different. -/
theorem JoinAll.nodup_keys {admits : κ × α → Prop} {s s' ps : List (κ × α)}
    (h : JoinAll admits s ps s') (hs : (s.map (·.1)).Nodup) : (s'.map (·.1)).Nodup := by
  induction h with
  | nil => exact hs
  | cons hq _ ih =>
    refine ih ?_
    cases hq with
    | known _ => exact hs
    | new hq _ =>
      rw [List.map_append]
      exact nodup_push hs (get?_eq_none_iff.mp hq)

theorem get?_insert (k j : κ) (v : α) (t : List (κ × α)) :
    get? k (insert j v t) = if j = k then some v else get? k t := by
  split
  · next h => rw [h, get?_insert_self]
  · next h => rw [get?_insert_of_ne (Ne.symm h)]

theorem nodup_keys_insert {t : List (κ × α)} (h : (t.map (·.1)).Nodup) (k : κ) (v : α) :
    ((insert k v t).map (·.1)).Nodup := by
  rw [keys_insert]
  split
  · rwa [List.append_nil]
  · next hk => exact nodup_push h hk

theorem get?_insertNew (k j : κ) (v : α) (t : List (κ × α)) :
    get? k (insertNew j v t) = (get? k t).or (if j = k then some v else none) := by
  rw [insertNew]
  split
  · next h =>
    split
    · next hj =>
      obtain ⟨w, hw⟩ := Option.isSome_iff_exists.mp (hj ▸ h)
      rw [hw, Option.some_or]
    · rw [Option.or_none]
  · rw [get?_append]
    rfl

theorem nodup_keys_insertNew {t : List (κ × α)} (h : (t.map (·.1)).Nodup) (k : κ) (v : α) :
    ((insertNew k v t).map (·.1)).Nodup := by
  rw [insertNew]
  split
  · exact h
  · next hk =>
    rw [get?_isSome_iff] at hk
    rw [List.map_append]
    exact nodup_push h hk

section Firsts

variable {β : Type} {key : β → κ}

/-- **The first of some values counts** — after what the table held before. -/
theorem get?_insertNews (k : κ) (xs : List β) (t : List (κ × β)) :
    get? k (xs.foldl (fun t x => insertNew (key x) x t) t) =
      (get? k t).or (xs.find? (key · = k)) := by
  induction xs generalizing t with
  | nil => rw [List.foldl_nil, List.find?_nil, Option.or_none]
  | cons x xs ih =>
    rw [List.foldl_cons, ih, get?_insertNew, Option.or_assoc, List.find?_cons]
    by_cases hx : key x = k
    · simp [hx]
    · simp [hx]

theorem nodup_keys_insertNews {t : List (κ × β)} (h : (t.map (·.1)).Nodup) (xs : List β) :
    ((xs.foldl (fun t x => insertNew (key x) x t) t).map (·.1)).Nodup := by
  induction xs generalizing t with
  | nil => exact h
  | cons x xs ih => exact ih (nodup_keys_insertNew h (key x) x)

/-- An exchange of values with different keys leaves the first value of every key. -/
theorem find?_of_exchange {free : β → β → Prop} {xs ys : List β} (h : Exchange free xs ys)
    (hfree : ∀ a b, free a b → key a ≠ key b) (k : κ) :
    xs.find? (key · = k) = ys.find? (key · = k) := by
  obtain @⟨before, after, a, b, hab⟩ := h
  have hne := hfree a b hab
  rw [List.find?_append, List.find?_append]
  congr 1
  by_cases ha : key a = k
  · have hb : ¬ key b = k := fun hb => hne (ha.trans hb.symm)
    simp [ha, hb]
  · simp [List.find?_cons, ha]

end Firsts

end OpenApi.Table
