import OpenApi.Document.Basic
import OpenApi.Proofs.Order
import OpenApi.Schema.Render
import OpenApi.Api

/-!
# Proofs/Assembly/PathOrder — documents apart from the order of their paths

    document ─paths─▸ paths ─template─▸ item ─method─▸ operation
                        ▲                                 │ callbacks
                        ╰────────────── name ─────────── ◂╯

The paths of a document, and those of each callback in it, stand in the order of their declaration;
all other keys have a place of their own.  `Document.sortPaths` puts the paths everywhere into the
order of their templates and leaves everything else as it is.
-/

namespace OpenApi

/-- Where in a document a value stands, as far as it matters to paths. -/
inductive Place where
  | document
  | paths
  | item
  | operation
  | callbacks
  | elsewhere
deriving DecidableEq

/-- The place of what stands under a key. -/
def Place.under (place : Place) (key : String) : Place :=
  match place with
  | .document => if key = "paths" then .paths else .elsewhere
  | .paths => .item
  | .item => if key ∈ Method.all.map Method.word then .operation else .elsewhere
  | .operation => if key = "callbacks" then .callbacks else .elsewhere
  | .callbacks => .paths
  | .elsewhere => .elsewhere

namespace Json

mutual

/-- The value with the paths in it in the order of their templates. -/
def sortPaths (place : Place) : Json → Json
  | .obj members =>
    if place = .paths then .obj (sortOn (·.1) (sortPathsUnder place members))
    else .obj (sortPathsUnder place members)
  | v => v

/-- The members with the paths in their values in the order of their templates. -/
def sortPathsUnder (place : Place) : List (String × Json) → List (String × Json)
  | [] => []
  | (key, v) :: ms => (key, v.sortPaths (place.under key)) :: sortPathsUnder place ms

end

theorem sortPathsUnder_eq_map (place : Place) (ms : List (String × Json)) :
    sortPathsUnder place ms = ms.map fun m => (m.1, m.2.sortPaths (place.under m.1)) := by
  induction ms with
  | nil => rfl
  | cons m ms ih => rw [sortPathsUnder, ih, List.map_cons]

theorem sortPaths_paths (ms : List (String × Json)) : (Json.obj ms).sortPaths .paths =
    .obj (sortOn (·.1) (ms.map fun m => (m.1, m.2.sortPaths .item))) := by
  rw [sortPaths, if_pos rfl, sortPathsUnder_eq_map]
  rfl

theorem sortPaths_of_ne {place : Place} (h : place ≠ .paths) (ms : List (String × Json)) :
    (Json.obj ms).sortPaths place =
      .obj (ms.map fun m => (m.1, m.2.sortPaths (place.under m.1))) := by
  rw [sortPaths, if_neg h, sortPathsUnder_eq_map]

/-- **Two values agree up to the order of the paths in them.** -/
def AgreesAt (place : Place) (v w : Json) : Prop := v.sortPaths place = w.sortPaths place

namespace AgreesAt

variable {place : Place} {v w : Json} {ms ns : List (String × Json)}

theorem refl (v : Json) : AgreesAt place v v := rfl

theorem trans {u : Json} (h : AgreesAt place u v) (h' : AgreesAt place v w) : AgreesAt place u w :=
  Eq.trans h h'

/-- Values that agree one by one, with the same names. -/
theorem map_eq (f : String → Place)
    (h : List.Forall₂ (fun m n => m.1 = n.1 ∧ AgreesAt (f m.1) m.2 n.2) ms ns) :
    (ms.map fun m => (m.1, m.2.sortPaths (f m.1))) =
      ns.map fun n => (n.1, n.2.sortPaths (f n.1)) := by
  induction h with
  | nil => rfl
  | cons hm _ ih =>
    obtain ⟨hk, hv⟩ := hm
    rw [List.map_cons, List.map_cons, ih, hv, hk]

/-- **Paths whose items agree one by one agree in any order.** -/
theorem of_paths {ns₁ : List (String × Json)}
    (h : List.Forall₂ (fun m n => m.1 = n.1 ∧ AgreesAt .item m.2 n.2) ms ns₁)
    (hp : ns₁.Perm ns) (hn : (ns.map (·.1)).Nodup) : AgreesAt .paths (.obj ms) (.obj ns) := by
  have hmap := map_eq (fun _ => .item) h
  have hkeys : ((ns₁.map fun n => (n.1, n.2.sortPaths .item)).map (·.1)).Nodup := by
    rw [List.map_map]
    exact (hp.map (·.1)).nodup_iff.mpr hn
  rw [AgreesAt, sortPaths_paths, sortPaths_paths, hmap, sortOn_eq_of_perm (hp.map _) hkeys]

theorem of_members (hplace : place ≠ .paths)
    (h : List.Forall₂ (fun m n => m.1 = n.1 ∧ AgreesAt (place.under m.1) m.2 n.2) ms ns) :
    AgreesAt place (.obj ms) (.obj ns) := by
  rw [AgreesAt, sortPaths_of_ne hplace, sortPaths_of_ne hplace, map_eq place.under h]

/-- Members that may be missing are missing in both. -/
theorem of_options {os ps : List (String × Option Json)} (hplace : place ≠ .paths)
    (h : List.Forall₂ (fun o p => o.1 = p.1 ∧ Option.Rel (AgreesAt (place.under o.1)) o.2 p.2)
      os ps) : AgreesAt place (.ofOptions os) (.ofOptions ps) := by
  refine of_members hplace ?_
  induction h with
  | nil => exact .nil
  | @cons o p os ps ho _ ih =>
    obtain ⟨key, v⟩ := o
    obtain ⟨key', w⟩ := p
    obtain ⟨rfl, hvw⟩ := ho
    cases hvw with
    | none => exact ih
    | some hvw => exact .cons ⟨rfl, hvw⟩ ih

end AgreesAt

end Json

/-- The document with its paths, and those of each callback in it, in the order of their
templates. -/
def Document.sortPaths (d : Document) : Json := d.toJson.sortPaths .document

end OpenApi
