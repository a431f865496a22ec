import Mathlib.Data.List.Forall2
import OpenApi.Proofs.Lowering.Values
import OpenApi.Proofs.Registry.Growth

/-!
# Proofs/Registry/Values — a registry full of schemas keeps the values

    synthesizeAll {} ds = (r, .ok ss)     each schema of `ss` comes from its descriptor in `ds`
    r.Backs (named types in ds)           the registry holds these named types and nothing else

Once some descriptors are all synthesized into one registry that was empty, the values that
validate against the schema of each are the values of the descriptor (`validates_iff_takes`).  A
reference may lead to a named type of any of them, also to one that was synthesized later.
-/

namespace OpenApi

/-- Synthesizes one descriptor after another, up to the first that fails. -/
def Registry.synthesizeAll (r : Registry) :
    List Descriptor → Registry × Except SynthesisError (List Schema)
  | [] => (r, .ok [])
  | d :: ds =>
    match r.synthesize d with
    | (r, .error e) => (r, .error e)
    | (r, .ok s) =>
      match r.synthesizeAll ds with
      | (r, .error e) => (r, .error e)
      | (r, .ok ss) => (r, .ok (s :: ss))

/-- A named type that one of some descriptors stores. -/
def Descriptor.StoredBy (ds : List Descriptor) (name : String) (d : Descriptor) : Prop :=
  ∃ e ∈ ds, (name, d) ∈ e.stored false

/-! ## Definitions and named types -/

namespace Descriptor

variable {r : Registry} {path : DescriptorPath} {defs : List Definition}

/-- A definition is that of a named type, and kept for it. -/
def Names (r : Registry) (x : Definition) (q : String × Descriptor) : Prop :=
  x.name = q.1 ∧ r.Keeps q.1 q.2

theorem names_storedMembers {mode : Composition} {index : Nat} {members : List Descriptor}
    {ss : List Schema} (h : (lowerMembers path mode index members).Run defs ss) (hr : r.Holds defs)
    (ih : ∀ d ∈ members, ∀ {embed path defs s}, (d.lower embed path).Run defs s → r.Holds defs →
      List.Forall₂ (Names r) defs (d.stored embed)) :
    List.Forall₂ (Names r) defs (storedMembers members) := by
  induction members generalizing index defs ss with
  | nil =>
    obtain ⟨rfl, -⟩ := run_lowerMembers_nil.mp h
    exact .nil
  | cons member members ihs =>
    obtain ⟨defs₁, i, defs₂, is, hi, his, rfl, -⟩ := run_lowerMembers_cons.mp h
    obtain ⟨hr₁, hr₂⟩ := Registry.Holds.append.mp hr
    obtain ⟨ih₁, ih₂⟩ := List.forall_mem_cons.mp ih
    rw [storedMembers]
    exact List.rel_append (ih₁ hi hr₁) (ihs his hr₂ ih₂)

theorem names_storedFields {seen : List String} {fields : List (Field Descriptor)}
    {p : List (String × Schema) × List String}
    (h : (lowerFields false path seen fields).Run defs p) (hr : r.Holds defs)
    (ih : ∀ f ∈ fields, f.skip = false → ∀ {embed path defs s},
      (f.type.lower embed path).Run defs s → r.Holds defs →
        List.Forall₂ (Names r) defs (f.type.stored embed)) :
    List.Forall₂ (Names r) defs (storedFields fields) := by
  induction fields generalizing seen defs p with
  | nil =>
    obtain ⟨rfl, -⟩ := run_lowerFields_nil.mp h
    exact .nil
  | cons f fields ihs =>
    obtain ⟨ih₁, ih₂⟩ := List.forall_mem_cons.mp ih
    rw [storedFields]
    rcases run_lowerFields_cons.mp h with
      ⟨hskip, h⟩ | ⟨hskip, -, defs₁, i, defs₂, q, hi, hq, rfl, -⟩
    · rw [if_pos hskip]
      exact ihs h hr ih₂
    · obtain ⟨hr₁, hr₂⟩ := Registry.Holds.append.mp hr
      rw [if_neg (by simp [hskip])]
      rw [Bool.false_or] at hi
      exact List.rel_append (ih₁ hskip hi hr₁) (ihs hq hr₂ ih₂)

/-- **What a lowering defines is what its descriptor stores** — in the same order. -/
theorem names_stored {d : Descriptor} {embed : Bool} {s : Schema} (hd : d.ChoiceFree)
    (h : (d.lower embed path).Run defs s) (hr : r.Holds defs) :
    List.Forall₂ (Names r) defs (d.stored embed) := by
  induction d using Descriptor.tree generalizing embed path defs s with
  | primitive kind format =>
    obtain ⟨rfl, -⟩ := run_primitive.mp h
    exact .nil
  | array element ih =>
    obtain ⟨i, hi, -⟩ := run_array.mp h
    exact ih hd.of_array hi hr
  | optional inner ih =>
    obtain ⟨i, hi, -⟩ := run_optional.mp h
    exact ih hd.of_optional hi hr
  | map value ih =>
    obtain ⟨i, hi, -⟩ := run_map.mp h
    exact ih hd.of_map hi hr
  | tuple items ih => nomatch hd
  | any =>
    obtain ⟨rfl, -⟩ := run_any.mp h
    exact .nil
  | composite mode members ih =>
    obtain ⟨-, ss, hss, -⟩ := run_composite.mp h
    obtain ⟨-, hd⟩ := hd.of_composite
    exact names_storedMembers hss hr fun m hm _ _ _ _ => ih m hm (hd m hm)
  | object name fields ih =>
    obtain ⟨p, hp, -⟩ := run_object.mp h
    exact names_storedFields hp hr fun f hf live _ _ _ _ => ih f hf (hd.of_object f hf live)
  | enum name tagging variants description ih =>
    obtain ⟨rfl, -⟩ := eq_stringOf_of_run_enum hd.of_enum h
    exact .nil
  | named name underlying description format sample inline ih =>
    obtain ⟨defs₁, i, t, hi, rfl, ⟨he, rfl, -⟩ | ⟨he, rfl, -⟩⟩ := run_named.mp h
    · rw [stored, he, if_pos rfl, List.append_nil]
      exact ih hd.of_named hi hr
    · obtain ⟨hr₁, hlast⟩ := Registry.Holds.append.mp hr
      have hget := hlast _ (List.mem_singleton.mpr rfl)
      have hkeeps : r.Keeps name underlying :=
        ⟨hd.of_named, i, _, ⟨_, _, _, hi, hr₁⟩, rfl, hget⟩
      rw [stored, he]
      exact List.rel_append (ih hd.of_named hi hr₁) (.cons ⟨rfl, hkeeps⟩ .nil)
  | reference name =>
    obtain ⟨rfl, -⟩ := run_reference.mp h
    exact .nil

end Descriptor

/-! ## A run of registrations -/

namespace Registry

variable {r r' : Registry}

theorem Grows.holds {defs : List Definition} (h : r.Grows r') (hr : r.Holds defs) :
    r'.Holds defs := fun x hx => h.get? (hr x hx)

/-- **A run that refuses nothing stores everything**, and nothing else. -/
theorem registerAll_eq_ok {defs : List Definition} (h : r.registerAll defs = (r', .ok ())) :
    r'.Holds defs ∧ ∀ name s, r'.get? name = some s → r.get? name = some s ∨
      ∃ x ∈ defs, x.name = name := by
  induction defs generalizing r with
  | nil =>
    obtain ⟨rfl, -⟩ := Prod.mk.inj h
    exact ⟨fun x hx => absurd hx List.not_mem_nil, fun name s hs => Or.inl hs⟩
  | cons x defs ih =>
    rw [registerAll] at h
    split at h
    · next r₁ hx =>
      obtain ⟨hholds, hnames⟩ := ih h
      have hgrows : r₁.Grows r' := by simpa [h] using Grows.registerAll r₁ defs
      refine ⟨List.forall_mem_cons.mpr ⟨hgrows.get? (get?_of_register hx), hholds⟩, ?_⟩
      intro name s hs
      rcases hnames name s hs with hs | ⟨y, hy, hname⟩
      · rcases get?_or_eq_of_register hx hs with hs | rfl
        · exact Or.inl hs
        · exact Or.inr ⟨x, List.mem_cons_self, rfl⟩
      · exact Or.inr ⟨y, List.mem_cons_of_mem x hy, hname⟩
    · cases h

/-- What a synthesis that ended well did. -/
theorem synthesize_eq_ok {d : Descriptor} {s : Schema} (h : r.synthesize d = (r', .ok s)) :
    ∃ defs, (d.lower false []).Run defs s ∧ r.registerAll defs = (r', .ok ()) := by
  rw [synthesize, carryOut] at h
  split at h
  · cases h
  · next r₁ hr₁ =>
    obtain ⟨rfl, ho⟩ := Prod.mk.inj h
    exact ⟨_, Journal.run_of_outcome (Journal.mapError_eq_ok_iff.mp ho), hr₁⟩

theorem synthesizeAll_cons_eq_ok {d : Descriptor} {ds : List Descriptor} {ss : List Schema}
    (h : r.synthesizeAll (d :: ds) = (r', .ok ss)) :
    ∃ r₁ s ss₁, r.synthesize d = (r₁, .ok s) ∧ r₁.synthesizeAll ds = (r', .ok ss₁) ∧
      ss = s :: ss₁ := by
  rw [synthesizeAll] at h
  split at h
  · cases h
  · next r₁ s hs =>
    split at h
    · cases h
    · next r₂ ss₁ hss =>
      obtain ⟨rfl, ho⟩ := Prod.mk.inj h
      exact ⟨r₁, s, ss₁, hs, hss, (Except.ok.inj ho).symm⟩

theorem Grows.synthesizeAll {ds : List Descriptor} {ss : List Schema}
    (h : r.synthesizeAll ds = (r', .ok ss)) : r.Grows r' := by
  induction ds generalizing r ss with
  | nil =>
    obtain ⟨rfl, -⟩ := Prod.mk.inj h
    exact Grows.refl r
  | cons d ds ih =>
    obtain ⟨r₁, s, ss₁, hs, hss, -⟩ := synthesizeAll_cons_eq_ok h
    have hgrows := Grows.synthesize r d
    rw [hs] at hgrows
    exact hgrows.trans (ih hss)

/-- The definitions of the descriptors are all stored in the end. -/
theorem holds_of_synthesizeAll {ds : List Descriptor} {ss : List Schema}
    (h : r.synthesizeAll ds = (r', .ok ss)) :
    List.Forall₂ (fun d s => ∃ defs, (d.lower false []).Run defs s ∧ r'.Holds defs) ds ss := by
  induction ds generalizing r ss with
  | nil =>
    obtain ⟨-, ho⟩ := Prod.mk.inj h
    rw [← Except.ok.inj ho]
    exact .nil
  | cons d ds ih =>
    obtain ⟨r₁, s, ss₁, hs, hss, rfl⟩ := synthesizeAll_cons_eq_ok h
    obtain ⟨defs, hrun, hdefs⟩ := synthesize_eq_ok hs
    refine .cons ⟨defs, hrun, ?_⟩ (ih hss)
    exact (Grows.synthesizeAll hss).holds (registerAll_eq_ok hdefs).1

/-- Every entry in the end was there before or is the definition of a descriptor. -/
theorem get?_or_defined_of_synthesizeAll {ds : List Descriptor} {ss : List Schema}
    (h : r.synthesizeAll ds = (r', .ok ss)) {name : String} {t : Schema}
    (ht : r'.get? name = some t) :
    r.get? name = some t ∨ ∃ d ∈ ds, ∃ x ∈ (d.lower false []).steps, x.name = name := by
  induction ds generalizing r ss with
  | nil =>
    obtain ⟨rfl, -⟩ := Prod.mk.inj h
    exact Or.inl ht
  | cons d ds ih =>
    obtain ⟨r₁, s, ss₁, hs, hss, -⟩ := synthesizeAll_cons_eq_ok h
    obtain ⟨defs, hrun, hdefs⟩ := synthesize_eq_ok hs
    rcases ih hss with ht | ⟨e, he, x, hx, hname⟩
    · rcases (registerAll_eq_ok hdefs).2 name t ht with ht | ⟨x, hx, hname⟩
      · exact Or.inl ht
      · rw [← hrun.steps] at hx
        exact Or.inr ⟨d, List.mem_cons_self, x, hx, hname⟩
    · exact Or.inr ⟨e, List.mem_cons_of_mem d he, x, hx, hname⟩

/-- **A registry that was filled with some descriptors is made of the named types in them.** -/
theorem backs_storedBy {ds : List Descriptor} {ss : List Schema} (hds : ∀ d ∈ ds, d.ChoiceFree)
    (h : synthesizeAll {} ds = (r, .ok ss)) : r.Backs (Descriptor.StoredBy ds) := by
  have hnames : ∀ d ∈ ds,
      List.Forall₂ (Descriptor.Names r) (d.lower false []).steps (d.stored false) := by
    intro d hd
    obtain ⟨s, -, defs, hrun, hr⟩ := exists_right_of_forall₂ (holds_of_synthesizeAll h) hd
    rw [hrun.steps]
    exact Descriptor.names_stored (hds d hd) hrun hr
  constructor
  · intro name s hs
    rcases get?_or_defined_of_synthesizeAll h hs with hs | ⟨d, hd, x, hx, rfl⟩
    · exact absurd hs nofun
    · obtain ⟨⟨name, u⟩, hq, hname, -⟩ := exists_right_of_forall₂ (hnames d hd) hx
      exact ⟨u, d, hd, hname ▸ hq⟩
  · rintro name u ⟨d, hd, hq⟩
    obtain ⟨x, -, -, hkeeps⟩ := exists_left_of_forall₂ (hnames d hd) hq
    exact hkeeps

end Registry

/-! ## The values -/

/-- **Synthesis keeps the values** — once some choice-free descriptors are all synthesized into one
registry that was empty, the values that validate against the schema of each are its values, where
a reference means the named types of any of them.  That every reference leads to one need not be
asked for: one that does not has no values on either side. -/
theorem validates_iff_takes {ds : List Descriptor} {r : Registry} {ss : List Schema}
    (hds : ∀ d ∈ ds, d.ChoiceFree) (h : Registry.synthesizeAll {} ds = (r, .ok ss)) :
    List.Forall₂ (fun d s => ∀ v, r.Validates s v ↔ d.Takes (Descriptor.StoredBy ds) v) ds ss := by
  have hr := Registry.backs_storedBy hds h
  have hall := (List.forall₂_and_left ds ss).mpr ⟨hds, Registry.holds_of_synthesizeAll h⟩
  refine hall.imp fun d s hds v => ?_
  obtain ⟨hd, defs, hrun, hdefs⟩ := hds
  have hs : d.LowersIn r s := ⟨false, [], defs, hrun, hdefs⟩
  constructor
  · intro hv
    obtain ⟨depth, hdepth⟩ := hv.exists
    exact takes_of_accepts hr depth d hd hs hdepth
  · exact fun hv => validates_of_takes hr hv hd hs

/-- A structure whose one field, if it is not null, holds a chain. -/
def Descriptor.link : Descriptor :=
  .object none [{ name := "next", type := .optional (.reference "Chain") }]

/-- A type that refers to itself. -/
def Descriptor.chain : Descriptor := .named "Chain" .link none none none false

/-- The links of a chain are read through the reference. -/
theorem validates_iff_takes_chain :
    ∃ r, Registry.synthesizeAll {} [.chain] = (r, .ok [.ref "Chain"]) ∧
      r.Validates (.ref "Chain") (.object [("next", .object [("next", .null)])]) := by
  have hfree : ∀ d ∈ [Descriptor.chain], d.ChoiceFree := by
    intro d hd
    obtain rfl := List.mem_singleton.mp hd
    refine .named _ _ _ _ _ (.object _ fun f hf _ => ?_)
    obtain rfl := List.mem_singleton.mp hf
    exact .optional (.reference _)
  have hlink : ∀ {v : Value},
      (Descriptor.optional (.reference "Chain")).Takes (Descriptor.StoredBy [.chain]) v →
        Descriptor.link.Takes (Descriptor.StoredBy [.chain]) (.object [("next", v)]) := by
    intro v hv
    refine .object none (fun f hf _ _ => ?_) fun f hf _ m hm _ _ => ?_
    · obtain rfl := List.mem_singleton.mp hf
      exact ⟨("next", v), List.mem_singleton.mpr rfl, rfl⟩
    · obtain rfl := List.mem_singleton.mp hf
      obtain rfl := List.mem_singleton.mp hm
      exact hv
  have hstored : Descriptor.StoredBy [.chain] "Chain" .link :=
    ⟨.chain, List.mem_singleton.mpr rfl, List.mem_singleton.mpr rfl⟩
  obtain ⟨r, hr⟩ : ∃ r, Registry.synthesizeAll {} [.chain] = (r, .ok [.ref "Chain"]) := ⟨_, rfl⟩
  obtain ⟨hiff, -⟩ := List.forall₂_cons.mp (validates_iff_takes hfree hr)
  have hlast := hlink (.null (.reference "Chain"))
  have hfirst := hlink (.present (.reference hstored hlast))
  exact ⟨r, hr, (hiff _).mpr (.named _ _ _ _ _ hfirst)⟩

end OpenApi
