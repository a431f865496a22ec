import OpenApi.Proofs.Assembly.Parts
import OpenApi.Proofs.Schema.References

/-!
# Proofs/Assembly/References — a rendering notes every schema that it writes

Rendering a descriptor writes its schema into the document and notes it for the check of references.
Everything else that is rendered puts such pieces together.  So the references in a rendered value
are those of the schemas noted on the way, no more and no less (`accounts_renderPaths`), whatever
callbacks and merges lie between.
-/

namespace OpenApi

/-- **A reference of a noted schema** — some schema noted among the steps refers to the text. -/
def Emits (ss : List Step) (t : String) : Prop := ∃ s, Step.emit s ∈ ss ∧ s.toJson.Refers t

@[simp] theorem not_emits_nil {t : String} : ¬ Emits [] t := by simp [Emits]

@[simp] theorem emits_append {ss ss' : List Step} {t : String} :
    Emits (ss ++ ss') t ↔ Emits ss t ∨ Emits ss' t := by
  simp [Emits, or_and_right, exists_or]

/-- **A rendering accounts for what it writes** — the references of its value, as `refers` reads
them, are those known from before and those of the schemas it has noted. -/
def Accounts {α : Type} (known : String → Prop) (refers : α → String → Prop) (r : Rendering α) :
    Prop :=
  ∀ ss a, r.Run ss a → ∀ t, refers a t ↔ known t ∨ Emits ss t

/-- A rendering of a value accounts for it under every key, so the value is no bare text. -/
def AccountsForValue (r : Rendering Json) : Prop :=
  ∀ key, Accounts (fun _ => False) (fun v t => Json.RefersAt key v t) r

namespace Accounts

variable {α β κ : Type} {known : String → Prop} {refers : α → String → Prop}
  {refers' : β → String → Prop}

theorem pure {a : α} (h : ∀ t, refers a t ↔ known t) : Accounts known refers (Pure.pure a) := by
  rintro ss b hrun t
  obtain ⟨rfl, rfl⟩ := Journal.run_pure.mp hrun
  simp [h t]

/-- What the first rendering has noted is known to the second. -/
theorem bind {r : Rendering α} {f : α → Rendering β} (hr : Accounts (fun _ => False) refers r)
    (hf : ∀ a, Accounts (fun t => known t ∨ refers a t) refers' (f a)) :
    Accounts known refers' (r >>= f) := by
  rintro ss b hrun t
  obtain ⟨ss₁, a, ss₂, ha, hb, rfl⟩ := Journal.run_bind.mp hrun
  have hfirst : refers a t ↔ False ∨ Emits ss₁ t := hr _ _ ha t
  have hsecond : refers' b t ↔ (known t ∨ refers a t) ∨ Emits ss₂ t := hf a _ _ hb t
  rw [hsecond, hfirst, emits_append, false_or, or_assoc]

theorem sequence {rs : List (Rendering α)} (h : ∀ r ∈ rs, Accounts (fun _ => False) refers r) :
    Accounts (fun _ => False) (fun as t => ∃ a ∈ as, refers a t) (Journal.sequence rs) := by
  induction rs with
  | nil => exact .pure fun t => by simp
  | cons r rs ih =>
    obtain ⟨hr, hrs⟩ := List.forall_mem_cons.mp h
    exact .bind hr fun a => .bind (ih hrs) fun as => .pure fun t => by simp

theorem sequenceTable {table : List (String × Rendering Json)}
    (h : ∀ p ∈ table, AccountsForValue p.2) :
    Accounts (fun _ => False) (fun ms t => (Json.obj ms).Refers t)
      (Journal.sequenceTable table) := by
  have hmembers : Accounts (fun _ => False) (fun ms t => ∃ m ∈ ms, Json.RefersAt m.1 m.2 t)
      (Journal.sequenceTable table) := by
    refine sequence fun r hr => ?_
    obtain ⟨p, hp, rfl⟩ := List.mem_map.mp hr
    exact .bind (h p hp p.1) fun v => .pure fun t => by simp
  simpa only [Json.refers_obj] using hmembers

theorem sequenceOption {o : Option (Rendering Json)} (h : ∀ r, o = some r → AccountsForValue r)
    (key : String) :
    Accounts (fun _ => False) (fun a t => ∃ v, a = some v ∧ Json.RefersAt key v t)
      (Journal.sequenceOption o) := by
  cases o with
  | none => exact .pure fun t => by simp
  | some r => exact .bind (h r rfl key) fun v => .pure fun t => by simp

end Accounts

/-! ## Security requirements -/

/-- A rendering writes no schema and notes none. -/
abbrev Plain {α : Type} (refers : α → String → Prop) (r : Rendering α) : Prop :=
  r.Ensures (fun s => ∀ schema, s ≠ .emit schema) fun a => ∀ t, ¬ refers a t

theorem Plain.accounts {α : Type} {refers : α → String → Prop} {r : Rendering α}
    (h : Plain refers r) : Accounts (fun _ => False) refers r := by
  rintro ss a hrun t
  have hvalue : ¬ refers a t := h.value a hrun.outcome t
  have hsteps : ¬ Emits ss t := by
    rintro ⟨schema, hs, -⟩
    exact h.step _ (hrun.steps ▸ hs) schema rfl
  simp [hvalue, hsteps]

theorem plain_reference (r : SecurityReference) :
    Plain (fun p t => Json.RefersAt p.1 p.2 t) r.render := by
  have hrefer : Plain (fun p t => Json.RefersAt p.1 p.2 t) (do
      Journal.tell (.refer r.name)
      pure (r.name, Schema.strings r.scopes) : Rendering (String × Json)) :=
    .bind (.tell (Q := fun _ => True) (by simp) trivial) fun _ _ =>
      .pure (by simp [Schema.strings])
  rw [SecurityReference.render]
  dsimp only
  split
  · exact .bind (.tell (Q := fun _ => True) (by simp) trivial) fun _ _ => hrefer
  · exact hrefer

theorem accounts_requirement (r : SecurityRequirement) : AccountsForValue r.render := by
  intro key
  have hscopes : (Journal.sequence ((sortOn (·.name) r.references).map (·.render))).Ensures
      (fun s => ∀ schema, s ≠ Step.emit schema)
      fun ps => ∀ p ∈ ps, ∀ t, ¬ Json.RefersAt p.1 p.2 t := by
    refine .sequence fun j hj => ?_
    obtain ⟨reference, -, rfl⟩ := List.mem_map.mp hj
    exact plain_reference reference
  rw [SecurityRequirement.render]
  refine Plain.accounts (.bind hscopes fun scopes hs => .pure fun t => ?_)
  show ¬ Json.RefersAt key (.obj (Table.ofList scopes)) t
  rw [Json.refersAt_obj, Json.refers_obj]
  rintro ⟨p, hp, h⟩
  exact hs p (Table.mem_of_mem_ofList hp) t h

/-! ## Parts of an operation -/

theorem accounts_renderDescriptor (d : Descriptor) : AccountsForValue (renderDescriptor d) := by
  rintro key ss v hrun t
  rw [renderDescriptor] at hrun
  obtain ⟨ss₁, s, ss₂, hs, hrest, rfl⟩ := Journal.run_bind.mp hrun
  obtain ⟨ss₃, u, ss₄, htell, hpure, rfl⟩ := Journal.run_bind.mp hrest
  obtain ⟨ds, -, rfl⟩ := Journal.run_embed.mp hs
  obtain rfl := Journal.run_tell.mp htell
  obtain ⟨rfl, rfl⟩ := Journal.run_pure.mp hpure
  simp [Emits, Schema.refersAt_toJson]

theorem accounts_optional (o : Option Descriptor) (key : String) :
    Accounts (fun _ => False) (fun a t => ∃ v, a = some v ∧ Json.RefersAt key v t)
      (Journal.sequenceOption (o.map renderDescriptor)) := by
  refine .sequenceOption (fun r hr => ?_) key
  obtain ⟨d, -, rfl⟩ := Option.map_eq_some_iff.mp hr
  exact accounts_renderDescriptor d

theorem refers_contentOf {schema : Json} {t : String} :
    (contentOf schema).Refers t ↔ Json.RefersAt "schema" schema t := by
  simp [contentOf, jsonMediaType, Json.RefersAt]

theorem accounts_body (b : RequestBody) : AccountsForValue b.render := by
  intro key
  rw [RequestBody.render]
  refine .bind (accounts_renderDescriptor b.schema "schema") fun schema => .pure fun t => ?_
  simp (disch := decide) only [Json.refersAt_ofOptions, Json.refers_ofOptions_cons,
    Schema.not_refers_flag, Schema.not_refers_text, Option.some.injEq, exists_eq_left',
    Json.refersAt_of_ne, refers_contentOf, Json.not_refers_ofOptions_nil, false_or, or_false]

theorem accounts_response (default : String) (r : Response) :
    AccountsForValue (r.render default) := by
  intro key
  rw [Response.render]
  refine .bind (accounts_optional r.schema "schema") fun schema => .pure fun t => ?_
  simp (disch := decide) only [Json.refersAt_ofOptions, Json.refers_ofOptions_cons,
    Option.some.injEq, exists_eq_left', Json.refersAt_of_ne, Json.not_refers_str,
    Json.not_refers_ofOptions_nil, false_or, or_false]
  cases schema <;> simp [refers_contentOf, Json.refersAt_of_ne]

theorem accounts_parameter (p : Parameter) : AccountsForValue p.render := by
  intro key
  rw [Parameter.render]
  refine .bind (accounts_optional p.schema "schema") fun schema => .pure fun t => ?_
  simp (disch := decide) only [Json.refersAt_ofOptions, Json.refers_ofOptions_cons,
    Schema.not_refers_flag, Schema.not_refers_text, Option.some.injEq, exists_eq_left',
    Json.refersAt_of_ne, Json.not_refers_str, Json.not_refers_ofOptions_nil, false_or, or_false]

/-- The elements of an array, rendered one by one. -/
theorem Accounts.elements {rs : List (Rendering Json)} (h : ∀ r ∈ rs, AccountsForValue r) :
    Accounts (fun _ => False) (fun vs t => (Json.arr vs).Refers t) (Journal.sequence rs) := by
  have helements := Accounts.sequence fun r hr => h r hr ""
  simpa (disch := decide) only [Json.refers_arr, Json.refersAt_of_ne] using helements

theorem accounts_renderParameters (ps : List Parameter) :
    Accounts (fun _ => False) (fun vs t => (Json.arr vs).Refers t) (renderParameters ps) := by
  refine .elements fun r hr => ?_
  obtain ⟨p, -, rfl⟩ := List.mem_map.mp hr
  exact accounts_parameter p

theorem accounts_renderOperation {π : Type} (default : String) (op : Operation π)
    {callbacks : List (String × Rendering Json)} (hc : ∀ c ∈ callbacks, AccountsForValue c.2) :
    AccountsForValue (renderOperation default op callbacks) := by
  intro key
  have hsecurity : Accounts (fun _ => False) (fun vs t => (Json.arr vs).Refers t)
      (Journal.sequence (op.security.map (·.render))) := by
    refine .elements fun r hr => ?_
    obtain ⟨requirement, -, rfl⟩ := List.mem_map.mp hr
    exact accounts_requirement requirement
  have hbody : Accounts (fun _ => False) (fun a t => ∃ v, a = some v ∧ Json.RefersAt "" v t)
      (Journal.sequenceOption (op.body.map (·.render))) := by
    refine .sequenceOption (fun r hr => ?_) ""
    obtain ⟨body, -, rfl⟩ := Option.map_eq_some_iff.mp hr
    exact accounts_body body
  have hresponses : Accounts (fun _ => False) (fun ms t => (Json.obj ms).Refers t)
      (Journal.sequenceTable ((sortOn (·.1) op.responses).map fun p =>
        (toString p.1, p.2.render default))) := by
    refine .sequenceTable fun p hp => ?_
    obtain ⟨response, -, rfl⟩ := List.mem_map.mp hp
    exact accounts_response default response.2
  have hcallbacks : Accounts (fun _ => False) (fun ms t => (Json.obj ms).Refers t)
      (Journal.sequenceTable (sortOn (·.1) callbacks)) :=
    .sequenceTable fun c hm => hc c (mem_sortOn.mp hm)
  have hnone : ∀ t : String, ¬ (Json.arr []).Refers t ∧ ¬ (Json.obj []).Refers t := by simp
  rw [renderOperation]
  dsimp only
  split
  · exact fun _ _ hrun => absurd hrun (by simp [Journal.run_bind])
  · refine .bind hsecurity fun security => .bind hbody fun body => .bind hresponses fun responses =>
      .bind (accounts_renderParameters _) fun parameters =>
        .bind hcallbacks fun callbacks => .pure fun t => ?_
    simp (disch := decide) only [Json.refersAt_ofOptions, Json.refers_ofOptions_cons,
      Json.refersAt_of_ne, Schema.not_refers_text, Schema.not_refers_flag,
      Schema.not_refers_list Schema.not_refers_strings, Schema.refers_unlessEmpty (hnone t).1,
      Schema.refers_unlessEmpty (hnone t).2, Option.some.injEq, exists_eq_left',
      Json.not_refers_ofOptions_nil, false_or, or_false, or_assoc]

/-! ## Path items -/

theorem Method.word_ne_ref (m : Method) : m.word ≠ "$ref" := by
  cases m <;> decide

/-- The operations of an item, each under the word of its method. -/
theorem refers_operations {os : List (Method × Json)} {t : String} :
    (Json.ofOptions (os.map fun p => (p.1.word, some p.2))).Refers t ↔
      ∃ o ∈ os, Json.RefersAt "" o.2 t := by
  induction os with
  | nil => simp
  | cons o os ih =>
    simp [ih, Json.refersAt_of_ne (Method.word_ne_ref o.1), Json.refersAt_of_ne]

theorem accounts_item {item : PathItem} (h : ∀ o ∈ item.operations, AccountsForValue o.2) :
    AccountsForValue item.render := by
  intro key
  have hoperations : Accounts (fun _ => False) (fun os t => ∃ o ∈ os, Json.RefersAt "" o.2 t)
      (Journal.sequenceTable (sortOn (·.1.position) item.operations)) := by
    refine .sequence fun r hr => ?_
    obtain ⟨o, ho, rfl⟩ := List.mem_map.mp hr
    exact .bind (h o (mem_sortOn.mp ho) "") fun v => .pure fun t => by simp
  rw [PathItem.render]
  refine .bind hoperations fun operations => .bind (accounts_renderParameters _) fun parameters =>
    .pure fun t => ?_
  have hnil : ¬ (Json.arr []).Refers t := by simp
  simp (disch := decide) only [Json.refersAt_ofOptions, Json.refers_ofOptions_append,
    Json.refers_ofOptions_cons, Json.refersAt_of_ne, Schema.not_refers_text, refers_operations,
    Schema.refers_unlessEmpty hnil, Json.not_refers_ofOptions_nil, false_or, or_false]

theorem accounts_renderParts {parts : List PathPart}
    (h : ∀ part ∈ parts, ∀ o ∈ part.operations, AccountsForValue o.2) :
    AccountsForValue (renderParts parts) := by
  rintro key ss v hrun t
  rw [renderParts] at hrun
  obtain ⟨ss₁, items, ss₂, hitems, hrest, rfl⟩ := Journal.run_bind.mp hrun
  obtain ⟨rfl, hmerge⟩ := Journal.run_ofExcept.mp hitems
  have hops := mem_operations_of_mergeParts (Journal.mapError_eq_ok_iff.mp hmerge)
    (P := fun o => AccountsForValue o.2) (fun _ hi => absurd hi List.not_mem_nil) h
  have hrendered : Accounts (fun _ => False) (fun ms t => (Json.obj ms).Refers t)
      (Journal.sequenceTable (items.map fun p => (p.1, p.2.render))) := by
    refine .sequenceTable fun p hp => ?_
    obtain ⟨i, hi, rfl⟩ := List.mem_map.mp hp
    exact accounts_item (hops i hi)
  have hall : Accounts (fun _ => False) (fun v t => Json.RefersAt key v t) (do
      let rendered ← Journal.sequenceTable (items.map fun p => (p.1, p.2.render))
      pure (.obj rendered)) :=
    .bind hrendered fun rendered => .pure fun t => by simp
  simpa using hall _ _ hrest t

/-! ## Paths -/

/-- **The operations of a path account for what they write** — by induction over the paths in their
callbacks. -/
theorem accounts_operations (default : String) (p : Path) :
    ∀ o ∈ (p.part default).operations, AccountsForValue o.2 := by
  induction p using Path.tree with
  | node p ih =>
    rw [operations_part]
    intro o ho
    obtain ⟨⟨m, op⟩, hop, rfl⟩ := List.mem_map.mp ho
    refine accounts_renderOperation default op fun c hc => ?_
    obtain ⟨⟨name, paths⟩, hcb, rfl⟩ := List.mem_map.mp hc
    rw [renderPaths_eq]
    refine accounts_renderParts fun part hpart => ?_
    obtain ⟨q, hq, rfl⟩ := List.mem_map.mp hpart
    exact ih _ hop _ hcb q hq

/-- **The references in rendered paths are those of the schemas that were noted** — also in the
callbacks of their operations, to any depth. -/
theorem accounts_renderPaths (default : String) (ps : List Path) :
    AccountsForValue (renderPaths default ps) := by
  rw [renderPaths_eq]
  refine accounts_renderParts fun part hpart => ?_
  obtain ⟨p, -, rfl⟩ := List.mem_map.mp hpart
  exact accounts_operations default p

end OpenApi
