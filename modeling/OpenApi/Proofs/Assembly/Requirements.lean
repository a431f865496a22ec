import OpenApi.Proofs.Assembly.Parts

/-!
# Proofs/Assembly/Requirements — the scopes of a security requirement

    references    oauth [a]    key []    oauth [b]
    requirement   \x7b key: [], oauth: [b] \x7d

A requirement is rendered to an object with each name once, and under a name with the scopes of the
*last* reference to it (`SecurityRequirement.render_last`).  So a scope that only an earlier one
asks for is lost, and which one is the last is a matter of order; all goes well, in every order,
exactly if references to one name have the same scopes (`SecurityRequirement.Uniform`).
-/

namespace OpenApi

theorem Schema.strings_injective : Function.Injective Schema.strings := by
  intro xs ys h
  have hinj : Function.Injective Json.str := fun s t hst => Json.str.inj hst
  exact hinj.list_map (Json.arr.inj h)

/-- **Two rendered requirements are alike** — up to the order of the scopes under a name. -/
structure Json.AlikeScopes (v w : Json) : Prop where
  keys : v.keys = w.keys
  scopes : ∀ name xs ys, v.get? name = some (Schema.strings xs) →
    w.get? name = some (Schema.strings ys) → xs.Perm ys

namespace SecurityRequirement

variable {r : SecurityRequirement} {name : String}

/-- The last reference of a requirement to a name. -/
def last? (r : SecurityRequirement) (name : String) : Option SecurityReference :=
  (r.references.filter (·.name = name)).getLast?

/-- **A value keeps the references of a requirement** — all scopes of each stand under its name. -/
def Keeps (r : SecurityRequirement) (v : Json) : Prop :=
  ∀ p ∈ r.references, ∃ scopes, v.get? p.name = some (Schema.strings scopes) ∧ p.scopes ⊆ scopes

/-- **References to one name have the same scopes** — in whatever order. -/
def Uniform (r : SecurityRequirement) : Prop :=
  ∀ p ∈ r.references, ∀ q ∈ r.references, p.name = q.name → p.scopes.Perm q.scopes

/-! ## The last reference to a name -/

theorem mem_of_last? {p : SecurityReference} (h : r.last? name = some p) :
    p ∈ r.references ∧ p.name = name := by
  have hp := List.mem_filter.mp (List.mem_of_getLast? h)
  exact ⟨hp.1, of_decide_eq_true hp.2⟩

theorem exists_last {p : SecurityReference} (h : p ∈ r.references) :
    ∃ q, r.last? p.name = some q := by
  have hmem : p ∈ r.references.filter (·.name = p.name) :=
    List.mem_filter.mpr ⟨h, decide_eq_true rfl⟩
  exact ⟨_, List.getLast?_eq_some_getLast (List.ne_nil_of_mem hmem)⟩

/-- Any reference may be the last one to its name. -/
theorem exists_perm_last {p : SecurityReference} (h : p ∈ r.references) :
    ∃ r' : SecurityRequirement, r'.references.Perm r.references ∧ r'.last? p.name = some p := by
  refine ⟨⟨r.references.erase p ++ [p]⟩, ?_, ?_⟩
  · exact List.perm_append_comm.trans (List.perm_cons_erase h).symm
  · simp [last?, List.filter_append]

/-! ## What is rendered -/

/-- The object that a requirement is rendered to. -/
def value (r : SecurityRequirement) : Json :=
  .obj (Table.ofList ((sortOn (·.name) r.references).map fun p =>
    (p.name, Schema.strings p.scopes)))

/-- **A requirement is always rendered.** -/
theorem outcome_render (r : SecurityRequirement) : r.render.outcome = .ok r.value := by
  have href : ∀ p : SecurityReference,
      p.render.outcome = .ok (p.name, Schema.strings p.scopes) := by
    rintro ⟨name, scopes, _ | scheme⟩ <;> rfl
  rw [render, Journal.bind_eq_ok_iff]
  refine ⟨_, Journal.sequence_eq_ok_iff.mpr ?_, rfl⟩
  rw [List.forall₂_map_left_iff, List.forall₂_map_right_iff]
  exact List.forall₂_same.mpr fun p _ => href p

theorem keys_value (r : SecurityRequirement) :
    r.value.keys = distinct ((sortOn (·.name) r.references).map (·.name)) := by
  rw [value, Json.keys, Table.keys_ofList, List.map_map]
  rfl

theorem mem_keys_value : name ∈ r.value.keys ↔ name ∈ r.references.map (·.name) := by
  rw [keys_value, mem_distinct, ((sortOn_perm (·.name) r.references).map (·.name)).mem_iff]

/-- **The names come out in ascending order.** -/
theorem ascending_keys_value (r : SecurityRequirement) : r.value.keys.Pairwise (· < ·) := by
  rw [keys_value]
  have hsorted : ((sortOn (·.name) r.references).map (·.name)).Pairwise (· ≤ ·) :=
    List.pairwise_map.mpr (pairwise_sortOn (·.name) r.references)
  exact (hsorted.sublist (distinct_sublist _)).imp₂ (fun _ _ h h' => lt_of_le_of_ne h h')
    (nodup_distinct _)

/-- **Under a name stand the scopes of the last reference to it.** -/
theorem get?_value (r : SecurityRequirement) (name : String) :
    r.value.get? name = (r.last? name).map fun p => Schema.strings p.scopes := by
  have hfilter : ((sortOn (·.name) r.references).map fun p =>
      (p.name, Schema.strings p.scopes)).filter (·.1 = name) =
        (r.references.filter (·.name = name)).map fun p => (p.name, Schema.strings p.scopes) := by
    rw [List.filter_map, ← filter_sortOn (·.name) name r.references]
    rfl
  rw [value, Json.get?, Table.get?_ofList, hfilter, List.getLast?_map, Option.map_map]
  rfl

theorem get?_value_of_last? {p : SecurityReference} (h : r.last? name = some p) :
    r.value.get? name = some (Schema.strings p.scopes) := by
  rw [get?_value, h, Option.map_some]

/-! ## What is kept -/

theorem keeps_value_iff : r.Keeps r.value ↔
    ∀ p ∈ r.references, ∀ q, r.last? p.name = some q → p.scopes ⊆ q.scopes := by
  refine forall₂_congr fun p hp => ?_
  obtain ⟨last, hlast⟩ := exists_last hp
  rw [get?_value_of_last? hlast, hlast]
  constructor
  · rintro ⟨scopes, hscopes, hsub⟩ q hq
    rwa [← Option.some.inj hq, Schema.strings_injective (Option.some.inj hscopes)]
  · exact fun h => ⟨_, rfl, h last rfl⟩

theorem alikeScopes_value {r' : SecurityRequirement} (hp : r'.references.Perm r.references) :
    r'.value.AlikeScopes r.value ↔ ∀ name p q, r'.last? name = some p → r.last? name = some q →
      p.scopes.Perm q.scopes := by
  have hkeys : r'.value.keys = r.value.keys := by
    have hascending : ∀ r : SecurityRequirement, (r.value.keys.map id).Pairwise (· < ·) := by
      intro r
      rw [List.map_id]
      exact ascending_keys_value r
    refine eq_of_ascending (hascending r') (hascending r) fun name => ?_
    rw [mem_keys_value, mem_keys_value, (hp.map (·.name)).mem_iff]
  constructor
  · exact fun h name p q hp hq =>
      h.scopes name _ _ (get?_value_of_last? hp) (get?_value_of_last? hq)
  · refine fun h => ⟨hkeys, fun name xs ys hxs hys => ?_⟩
    rw [get?_value] at hxs hys
    obtain ⟨p, hp, hpx⟩ := Option.map_eq_some_iff.mp hxs
    obtain ⟨q, hq, hqy⟩ := Option.map_eq_some_iff.mp hys
    obtain rfl := Schema.strings_injective hpx
    obtain rfl := Schema.strings_injective hqy
    exact h name p q hp hq

/-- **All is well in every order exactly if references to one name have the same scopes.** -/
theorem uniform_iff : r.Uniform ↔ ∀ r' : SecurityRequirement, r'.references.Perm r.references →
    r'.Keeps r'.value ∧ r'.value.AlikeScopes r.value := by
  constructor
  · intro h r' hperm
    rw [keeps_value_iff, alikeScopes_value hperm]
    refine ⟨fun p hp q hq => ?_, fun name p q hp hq => ?_⟩
    · obtain ⟨hq, hname⟩ := mem_of_last? hq
      exact (h p (hperm.mem_iff.mp hp) q (hperm.mem_iff.mp hq) hname.symm).subset
    · obtain ⟨hp, hpn⟩ := mem_of_last? hp
      obtain ⟨hq, hqn⟩ := mem_of_last? hq
      exact h p (hperm.mem_iff.mp hp) q hq (hpn.trans hqn.symm)
  · intro h p hp q hq hname
    -- put either one behind all others
    obtain ⟨last, hlast⟩ := exists_last hp
    obtain ⟨rp, hrp, hlastp⟩ := exists_perm_last hp
    obtain ⟨rq, hrq, hlastq⟩ := exists_perm_last hq
    have hpl := (alikeScopes_value hrp).mp (h rp hrp).2 _ _ _ hlastp hlast
    have hql := (alikeScopes_value hrq).mp (h rq hrq).2 _ _ _ hlastq (hname ▸ hlast)
    exact hpl.trans hql.symm

/-! ## The result -/

/-- **A requirement has the scopes of the last reference to each name.**  Its names are those of its
references, in ascending order.  All scopes of each reference are kept exactly if the last one to
its name has them; and they are kept whatever the order of the references, always alike, exactly if
references to one name have the same scopes. -/
theorem render_last (r : SecurityRequirement) :
    ∃ v, r.render.outcome = .ok v ∧ v.keys.Pairwise (· < ·) ∧
      (∀ name, name ∈ v.keys ↔ name ∈ r.references.map (·.name)) ∧
      (∀ name, v.get? name = (r.last? name).map fun p => Schema.strings p.scopes) ∧
      (r.Keeps v ↔ ∀ p ∈ r.references, ∀ q, r.last? p.name = some q → p.scopes ⊆ q.scopes) ∧
      (r.Uniform ↔ ∀ (r' : SecurityRequirement) (v' : Json), r'.references.Perm r.references →
        r'.render.outcome = .ok v' → r'.Keeps v' ∧ v'.AlikeScopes v) := by
  refine ⟨r.value, outcome_render r, ascending_keys_value r, fun _ => mem_keys_value,
    get?_value r, keeps_value_iff, uniform_iff.trans ?_⟩
  constructor
  · intro h r' v' hperm hv'
    obtain rfl := Except.ok.inj ((outcome_render r').symm.trans hv')
    exact h r' hperm
  · exact fun h r' hperm => h r' _ hperm (outcome_render r')

/-- A requirement that refers to `oauth` twice. -/
def twice (first second : List String) : SecurityRequirement :=
  ⟨[{ name := "oauth", scopes := first }, { name := "oauth", scopes := second }]⟩

/-- The scope of the first reference is lost, and is not if the two change places. -/
theorem render_twice : ∃ v w, (twice ["read"] []).render.outcome = .ok v ∧
    (twice [] ["read"]).render.outcome = .ok w ∧ ¬ (twice ["read"] []).Keeps v ∧
    (twice [] ["read"]).references.Perm (twice ["read"] []).references ∧ ¬ w.AlikeScopes v := by
  refine ⟨.obj [("oauth", .arr [])], .obj [("oauth", .arr [.str "read"])], rfl, rfl, ?_,
    List.Perm.swap _ _ _, fun h => ?_⟩
  · intro h
    obtain ⟨scopes, hscopes, hsub⟩ := h _ List.mem_cons_self
    obtain rfl : [] = scopes := Schema.strings_injective (Option.some.inj hscopes)
    exact List.not_mem_nil (hsub List.mem_cons_self)
  · have hp : ["read"].Perm [] := h.scopes "oauth" _ _ rfl rfl
    exact absurd hp.length_eq (by decide)

end SecurityRequirement

end OpenApi
