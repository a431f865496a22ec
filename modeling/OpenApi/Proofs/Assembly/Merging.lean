import OpenApi.Proofs.Assembly.Parts
import OpenApi.Proofs.Assembly.PathOrder
import OpenApi.Proofs.Journal.Akin
import OpenApi.Proofs.Tables

/-!
# Proofs/Assembly/Merging — paths merged in another order

Parts that come to the same are merged into items that come to the same (`mergeParts_akin`), and so
are parts with different templates in any order (`mergeParts_exchange`).  Carrying out the items
then asks for the same steps, and the rendered paths agree up to their order
(`renderParts_akin`, `renderParts_exchange`).
-/

namespace OpenApi

open Journal (SameEnd)

/-- **Two renderings come to the same at a place** — both fail, or their values agree up to the
order of paths and their steps are the same in some order. -/
abbrev AkinAt (place : Place) : Rendering Json → Rendering Json → Prop :=
  Journal.Akin (Json.AgreesAt place)

theorem AkinAt.refl (place : Place) (r : Rendering Json) : AkinAt place r r :=
  Journal.Akin.refl Json.AgreesAt.refl r

/-! ## Parts and items that come to the same -/

/-- Operations that come to the same one by one, after putting them into another order. -/
def AkinOperations (os os' : List (Method × Rendering Json)) : Prop :=
  ∃ os₁, List.Forall₂ (fun o o' => o.1 = o'.1 ∧ AkinAt .operation o.2 o'.2) os os₁ ∧ os₁.Perm os'

namespace AkinOperations

variable {os os' ps ps' : List (Method × Rendering Json)}

theorem refl (os : List (Method × Rendering Json)) : AkinOperations os os :=
  ⟨os, List.forall₂_same.mpr fun o _ => ⟨rfl, .refl _ o.2⟩, List.Perm.refl os⟩

theorem append (h : AkinOperations os os') (h' : AkinOperations ps ps') :
    AkinOperations (os ++ ps) (os' ++ ps') := by
  obtain ⟨os₁, ho, hop⟩ := h
  obtain ⟨ps₁, hp, hpp⟩ := h'
  exact ⟨os₁ ++ ps₁, List.rel_append ho hp, hop.append hpp⟩

theorem methods (h : AkinOperations os os') : (os.map (·.1)).Perm (os'.map (·.1)) := by
  obtain ⟨os₁, ho, hp⟩ := h
  have heq : os.map (·.1) = os₁.map (·.1) := by
    rw [← List.forall₂_eq_eq_eq, List.forall₂_map_left_iff, List.forall₂_map_right_iff]
    exact ho.imp fun _ _ h => h.1
  exact heq ▸ hp.map (·.1)

end AkinOperations

/-- **Two parts come to the same** — their parameters may stand in another order as long as the
first one under each key is the same. -/
structure PathPart.Akin (part part' : PathPart) : Prop where
  template : part.template = part'.template
  operations : AkinOperations part.operations part'.operations
  parameters : ∀ k, part.parameters.find? (·.key = k) = part'.parameters.find? (·.key = k)
  summary : part.summary = part'.summary
  description : part.description = part'.description

theorem PathPart.Akin.refl (part : PathPart) : part.Akin part :=
  ⟨rfl, .refl _, fun _ => rfl, rfl, rfl⟩

/-- **The operations of an item have different methods, and its parameters different keys.** -/
structure PathItem.Distinct (item : PathItem) : Prop where
  methods : (item.operations.map (·.1)).Nodup
  keys : (item.parameters.map (·.1)).Nodup
  keyed : ∀ e ∈ item.parameters, e.1 = e.2.key

/-- **Two items come to the same.** -/
structure PathItem.Akin (item item' : PathItem) : Prop where
  left : item.Distinct
  right : item'.Distinct
  operations : AkinOperations item.operations item'.operations
  parameters : ∀ k, Table.get? k item.parameters = Table.get? k item'.parameters
  summary : item.summary = item'.summary
  description : item.description = item'.description

theorem PathItem.Akin.empty : ({} : PathItem).Akin {} := by
  have h : ({} : PathItem).Distinct :=
    ⟨List.nodup_nil, List.nodup_nil, fun _ he => nomatch he⟩
  exact ⟨h, h, .refl _, fun _ => rfl, rfl, rfl⟩

/-! ## Adding a part to an item -/

theorem mem_insertNews {e : (ParameterLocation × String) × Parameter} {ps : List Parameter}
    {t : List ((ParameterLocation × String) × Parameter)} (ht : ∀ e ∈ t, e.1 = e.2.key)
    (he : e ∈ ps.foldl (fun t p => Table.insertNew p.key p t) t) : e.1 = e.2.key := by
  induction ps generalizing t with
  | nil => exact ht e he
  | cons p ps ih =>
    rw [List.foldl_cons] at he
    refine ih (fun e he => ?_) he
    rw [Table.insertNew] at he
    split at he
    · exact ht e he
    · rcases List.mem_append.mp he with he | he
      · exact ht e he
      · obtain rfl := List.mem_singleton.mp he
        rfl

/-- Operations are new and different if the methods of all are different. -/
theorem nodup_methods_iff {known rest : List (Method × Rendering Json)}
    (h : (known.map (·.1)).Nodup) :
    ((rest.map (·.1)).Nodup ∧ ∀ o ∈ rest, o.1 ∉ known.map (·.1)) ↔
      ((known ++ rest).map (·.1)).Nodup := by
  rw [List.map_append, List.nodup_append']
  simp only [h, true_and, and_congr_right_iff]
  intro _
  rw [List.disjoint_right]
  simp only [List.forall_mem_map]

theorem PathItem.Distinct.extend {item : PathItem} (h : item.Distinct) {implied : List Parameter}
    {part : PathPart} (hm : ((item.operations ++ part.operations).map (·.1)).Nodup) :
    (item.extend implied part).Distinct :=
  ⟨hm, Table.nodup_keys_insertNews h.keys _, fun _ he => mem_insertNews h.keyed he⟩

/-- **Adding akin parts to akin items comes to the same.** -/
theorem PathItem.Akin.add {item item' : PathItem} {part part' : PathPart} (h : item.Akin item')
    (hp : part.Akin part') (template : String) (implied : List Parameter) :
    SameEnd PathItem.Akin (item.add template implied part)
      (item'.add template implied part') := by
  have hops := h.operations.append hp.operations
  by_cases hm : ((item.operations ++ part.operations).map (·.1)).Nodup
  · have hm' := hops.methods.nodup_iff.mp hm
    rw [PathItem.add_eq_ok_iff.mpr ⟨(nodup_methods_iff h.left.methods).mpr hm, rfl⟩,
      PathItem.add_eq_ok_iff.mpr ⟨(nodup_methods_iff h.right.methods).mpr hm', rfl⟩]
    refine .ok ⟨h.left.extend hm, h.right.extend hm', hops, fun k => ?_, ?_, ?_⟩
    · simp only [PathItem.extend]
      rw [Table.get?_insertNews, Table.get?_insertNews, List.find?_append, List.find?_append,
        h.parameters, hp.parameters]
    · simp only [PathItem.extend]
      rw [h.summary, hp.summary]
    · simp only [PathItem.extend]
      rw [h.description, hp.description]
  · have hm' := mt hops.methods.nodup_iff.mpr hm
    cases ho : item.add template implied part with
    | ok i => exact absurd ((nodup_methods_iff h.left.methods).mp
        (PathItem.add_eq_ok_iff.mp ho).1) hm
    | error e =>
      cases ho' : item'.add template implied part' with
      | ok i => exact absurd ((nodup_methods_iff h.right.methods).mp
          (PathItem.add_eq_ok_iff.mp ho').1) hm'
      | error e' => exact .error

/-! ## Merging -/

theorem rel_getD {α : Type} {R : α → α → Prop} {a : α} {o o' : Option α} (ha : R a a)
    (h : Option.Rel R o o') : R (o.getD a) (o'.getD a) := by
  cases h with
  | none => exact ha
  | some hr => exact hr

/-- **Two tables of items come to the same** — under each template. -/
structure AkinItems (items items' : List (String × PathItem)) : Prop where
  left : (items.map (·.1)).Nodup
  right : (items'.map (·.1)).Nodup
  get? : ∀ t, Option.Rel PathItem.Akin (Table.get? t items) (Table.get? t items')

namespace AkinItems

variable {items items' : List (String × PathItem)}

theorem nil : AkinItems [] [] := ⟨List.nodup_nil, List.nodup_nil, fun _ => .none⟩

theorem getD (h : AkinItems items items') (t : String) :
    ((Table.get? t items).getD {}).Akin ((Table.get? t items').getD {}) :=
  rel_getD .empty (h.get? t)

theorem insert (h : AkinItems items items') {i i' : PathItem} (hi : i.Akin i') (t : String) :
    AkinItems (Table.insert t i items) (Table.insert t i' items') := by
  refine ⟨Table.nodup_keys_insert h.left t i, Table.nodup_keys_insert h.right t i', fun s => ?_⟩
  rw [Table.get?_insert, Table.get?_insert]
  split
  · exact .some hi
  · exact h.get? s

/-- Items for two templates may come in any order. -/
theorem insert_swap (h : AkinItems items items') {i i' j j' : PathItem} (hi : i.Akin i')
    (hj : j.Akin j') {s t : String} (hst : s ≠ t) :
    AkinItems (Table.insert t j (Table.insert s i items))
      (Table.insert s i' (Table.insert t j' items')) := by
  have hl := Table.nodup_keys_insert (Table.nodup_keys_insert h.left s i) t j
  have hr := Table.nodup_keys_insert (Table.nodup_keys_insert h.right t j') s i'
  refine ⟨hl, hr, fun k => ?_⟩
  simp only [Table.get?_insert]
  by_cases ht : t = k
  · have hs : ¬ s = k := fun hs => hst (hs.trans ht.symm)
    rw [if_pos ht, if_neg hs, if_pos ht]
    exact .some hj
  · rw [if_neg ht, if_neg ht]
    split
    · exact .some hi
    · exact h.get? k

end AkinItems

/-- **Akin parts are merged into akin items.** -/
theorem mergeParts_akin {parts parts' : List PathPart}
    (h : List.Forall₂ PathPart.Akin parts parts') {items items' : List (String × PathItem)}
    (hi : AkinItems items items') :
    SameEnd AkinItems (mergeParts items parts) (mergeParts items' parts') := by
  induction h generalizing items items' with
  | nil => exact .ok hi
  | @cons part part' parts parts' hp _ ih =>
    rw [mergeParts, mergeParts, ← hp.template]
    refine .bind (.refl (fun _ => rfl) part.template) ?_
    rintro ⟨template, implied⟩ _ rfl
    exact .bind ((hi.getD template).add hp template implied) fun i i' hi' => ih (hi.insert hi' _)

/-- **One part may pass another** — if they do not have one template. -/
def PathPart.Passes (p q : PathPart) : Prop :=
  ∀ s i t j, p.template = .ok (s, i) → q.template = .ok (t, j) → s ≠ t

/-- One part merged into the items: the template and the new item. -/
def mergePart (items : List (String × PathItem)) (part : PathPart) :
    Except ApiFault (String × PathItem) := do
  let (template, implied) ← part.template
  let item ← ((Table.get? template items).getD {}).add template implied part
  pure (template, item)

theorem mergeParts_cons (items : List (String × PathItem)) (part : PathPart)
    (parts : List PathPart) : mergeParts items (part :: parts) =
      mergePart items part >>= fun x => mergeParts (Table.insert x.1 x.2 items) parts := by
  rw [mergeParts, mergePart, bind_assoc]
  refine bind_congr fun x => ?_
  obtain ⟨template, implied⟩ := x
  rw [bind_assoc]
  exact bind_congr fun item => (pure_bind _ _).symm

/-- A part is merged as before into items that have more for another template. -/
theorem mergePart_insert {items : List (String × PathItem)} {part : PathPart} {s : String}
    (h : ∀ t j, part.template = .ok (t, j) → s ≠ t) (i : PathItem) :
    mergePart (Table.insert s i items) part = mergePart items part := by
  rw [mergePart, mergePart]
  cases hp : part.template with
  | error e => rfl
  | ok x =>
    obtain ⟨t, j⟩ := x
    have ht : Table.get? t (Table.insert s i items) = Table.get? t items := by
      rw [Table.get?_insert, if_neg (h t j hp)]
    change (do
        let item ← ((Table.get? t (Table.insert s i items)).getD {}).add t j part
        pure (t, item)) = _
    rw [ht]
    rfl

theorem AkinItems.mergePart_self {items items' : List (String × PathItem)}
    (h : AkinItems items items') (part : PathPart) :
    SameEnd (fun x y => x.1 = y.1 ∧ (∃ i, part.template = .ok (x.1, i)) ∧ x.2.Akin y.2)
      (mergePart items part) (mergePart items' part) := by
  rw [mergePart, mergePart]
  cases hp : part.template with
  | error e => exact .error
  | ok x =>
    obtain ⟨t, j⟩ := x
    have hadd := (h.getD t).add (.refl part) t j
    refine .bind (R := PathItem.Akin) hadd fun i i' hi => .ok ⟨rfl, ⟨j, rfl⟩, hi⟩

/-- **Parts with different templates may be merged in any order.** -/
theorem mergeParts_swap {p q : PathPart} (hpq : p.Passes q) (parts : List PathPart)
    {items items' : List (String × PathItem)} (h : AkinItems items items') :
    SameEnd AkinItems (mergeParts items (p :: q :: parts))
      (mergeParts items' (q :: p :: parts)) := by
  have hparts : List.Forall₂ PathPart.Akin parts parts :=
    List.forall₂_same.mpr fun part _ => .refl part
  rw [mergeParts_cons, mergeParts_cons]
  rcases (h.mergePart_self p).cases with
    ⟨d, d', hp, hp'⟩ | ⟨⟨s, i⟩, ⟨_, i'⟩, hp, hp', rfl, ⟨a, ha⟩, hi⟩
  · -- the first part fails, on the right side after the other one
    rcases (h.mergePart_self q).cases with
      ⟨e, e', hq, hq'⟩ | ⟨⟨t, j⟩, ⟨_, j'⟩, hq, hq', rfl, ⟨b, hb⟩, hj⟩
    · rw [hp, hq']
      exact .error
    · have hpass : ∀ s i, p.template = .ok (s, i) → t ≠ s :=
        fun s i hs he => hpq s i t b hs hb he.symm
      rw [hp, hq']
      change SameEnd _ _ (mergeParts (Table.insert t j' items') (p :: parts))
      rw [mergeParts_cons, mergePart_insert hpass, hp']
      exact .error
  · have hpass : ∀ t j, q.template = .ok (t, j) → s ≠ t := fun t j ht => hpq s a t j ha ht
    rw [hp]
    change SameEnd _ (mergeParts (Table.insert s i items) (q :: parts)) _
    rw [mergeParts_cons, mergePart_insert hpass]
    rcases (h.mergePart_self q).cases with
      ⟨e, e', hq, hq'⟩ | ⟨⟨t, j⟩, ⟨_, j'⟩, hq, hq', rfl, ⟨b, hb⟩, hj⟩
    · rw [hq, hq']
      exact .error
    · have hst : s ≠ t := hpass t b hb
      have hpass' : ∀ s i, p.template = .ok (s, i) → t ≠ s :=
        fun s i hs he => hpq s i t b hs hb he.symm
      rw [hq, hq']
      change SameEnd _ (mergeParts (Table.insert t j (Table.insert s i items)) parts)
        (mergeParts (Table.insert t j' items') (p :: parts))
      rw [mergeParts_cons, mergePart_insert hpass', hp']
      exact mergeParts_akin hparts (h.insert_swap hi hj hst)

end OpenApi
