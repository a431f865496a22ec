import OpenApi.Order

/-!
# Json/Basic — the values a document is made of

A document, a configuration and every schema rendering are JSON values: objects keep the order of
their keys, numbers are integers of any size.
-/

namespace OpenApi

/-- A JSON value whose numbers are integers; an object is the list of its members in order. -/
inductive Json where
  | null
  | bool (value : Bool)
  | int (value : Int)
  | str (value : String)
  | arr (elements : List Json)
  | obj (members : List (String × Json))
deriving Inhabited, Repr

namespace Json

/-! ## Equality

Two values are equal when they are the same tree, members of objects in the same order. -/

mutual

/-- Whether two values are the same tree. -/
def same : Json → Json → Bool
  | .null, .null => true
  | .bool a, .bool b => decide (a = b)
  | .int a, .int b => decide (a = b)
  | .str a, .str b => decide (a = b)
  | .arr a, .arr b => sameElements a b
  | .obj a, .obj b => sameMembers a b
  | _, _ => false

/-- Whether two arrays hold the same elements. -/
def sameElements : List Json → List Json → Bool
  | [], [] => true
  | a :: as, b :: bs => a.same b && sameElements as bs
  | _, _ => false

/-- Whether two objects hold the same members in the same order. -/
def sameMembers : List (String × Json) → List (String × Json) → Bool
  | [], [] => true
  | (k, a) :: as, (l, b) :: bs => decide (k = l) && a.same b && sameMembers as bs
  | _, _ => false

end

mutual

theorem same_iff : ∀ a b : Json, a.same b = true ↔ a = b
  | .null, b => by cases b <;> simp [same]
  | .bool _, b => by cases b <;> simp [same]
  | .int _, b => by cases b <;> simp [same]
  | .str _, b => by cases b <;> simp [same]
  | .arr as, b => by
    cases b <;> simp [same]
    exact sameElements_iff as _
  | .obj as, b => by
    cases b <;> simp [same]
    exact sameMembers_iff as _

theorem sameElements_iff : ∀ as bs : List Json, sameElements as bs = true ↔ as = bs
  | [], bs => by cases bs <;> simp [sameElements]
  | a :: as, bs => by
    cases bs <;> simp [sameElements]
    rw [same_iff a, sameElements_iff as]

theorem sameMembers_iff : ∀ as bs : List (String × Json), sameMembers as bs = true ↔ as = bs
  | [], bs => by cases bs <;> simp [sameMembers]
  | (k, a) :: as, bs => by
    cases bs with
    | nil => simp [sameMembers]
    | cons p bs =>
      obtain ⟨l, b⟩ := p
      simp [sameMembers, same_iff a, sameMembers_iff as]

end

instance : DecidableEq Json := fun a b => decidable_of_iff _ (same_iff a b)

/-! ## Access -/

/-- The value under a key of an object; other values have no keys. -/
def get? (key : String) : Json → Option Json
  | .obj members => Table.get? key members
  | _ => none

/-- The keys of an object in order; other values have none. -/
def keys : Json → List String
  | .obj members => members.map (·.1)
  | _ => []

/-- The name of the type of a value. -/
def typeName : Json → String
  | .null => "NoneType"
  | .bool _ => "bool"
  | .int _ => "int"
  | .str _ => "str"
  | .arr _ => "list"
  | .obj _ => "dict"

/-- What a value consists of when it is gone through: the keys of an object, the elements of an
array, the characters of a text; other values consist of nothing. -/
def parts? : Json → Option (List Json)
  | .obj members => some (members.map fun m => .str m.1)
  | .arr elements => some elements
  | .str s => some (s.toList.map fun c => .str c.toString)
  | _ => none

/-- The members that have a value. -/
def present (members : List (String × Option Json)) : List (String × Json) :=
  members.filterMap fun p => p.2.map (p.1, ·)

/-- The object with the given members, each there only if it has a value. -/
def ofOptions (members : List (String × Option Json)) : Json := .obj (present members)

/-! ## Sorted keys -/

mutual

/-- The value with the keys of every object in ascending order. -/
def sortKeys : Json → Json
  | .arr elements => .arr (sortElements elements)
  | .obj members => .obj (sortOn (·.1) (sortMembers members))
  | v => v

/-- The elements with the keys of every object in ascending order. -/
def sortElements : List Json → List Json
  | [] => []
  | e :: es => e.sortKeys :: sortElements es

/-- The members with the keys inside their values in ascending order. -/
def sortMembers : List (String × Json) → List (String × Json)
  | [] => []
  | (k, v) :: ms => (k, v.sortKeys) :: sortMembers ms

end

end Json

end OpenApi
