import OpenApi.Text.Split

/-!
# FilePath — names of files

A file path is read once, from its text: a root, then names.  Empty names and single dots fall away
in reading; double dots stay until the path is resolved against a directory.  Exactly two slashes in
front are a root of their own.
-/

namespace OpenApi

/-- What a path begins with. -/
inductive PathRoot where
  | relative
  | slash
  | doubleSlash
deriving DecidableEq, Repr

/-- The text of a root. -/
def PathRoot.text : PathRoot → String
  | .relative => ""
  | .slash => "/"
  | .doubleSlash => "//"

/-- A file path: its root and the names below it. -/
structure FilePath where
  root : PathRoot
  names : List String
deriving DecidableEq, Repr

namespace FilePath

/-! ## Text -/

/-- The root of a text: no slash, one, two, or any larger number, which counts as one. -/
def rootOf (cs : List Char) : PathRoot :=
  match (cs.takeWhile (· = '/')).length with
  | 0 => .relative
  | 2 => .doubleSlash
  | _ => .slash

/-- The path that a text names. -/
def ofText (s : String) : FilePath where
  root := rootOf s.toList
  names := ((Text.splitBy (· = '/') s.toList).map String.ofList).filter fun n => n ≠ "" ∧ n ≠ "."

/-- The text of a path; the path of nothing is a dot. -/
def text (p : FilePath) : String :=
  match p.root, p.names with
  | .relative, [] => "."
  | root, names => root.text ++ "/".intercalate names

/-- Whether a name holds a null character; no file has such a name. -/
def hasNull (p : FilePath) : Bool := p.names.any fun n => n.toList.contains '\x00'

/-! ## Combining -/

/-- Whether a path does not depend on a directory. -/
def isAbsolute (p : FilePath) : Bool := decide (p.root ≠ .relative)

/-- The second path as seen from the first. -/
def join (base p : FilePath) : FilePath :=
  if p.isAbsolute then p else { base with names := base.names ++ p.names }

/-- The path without its last name. -/
def parent (p : FilePath) : FilePath := { p with names := p.names.dropLast }

/-- The names from the root on, with double dots taken back; above the root there is nothing. -/
def normalize (names : List String) : List String :=
  names.foldl (fun done n => if n = ".." then done.dropLast else done ++ [n]) []

/-- A path in a directory as seen from the root, without double dots and with a root of one slash. -/
def resolve (p directory : FilePath) : FilePath :=
  ⟨.slash, normalize (directory.join p).names⟩

theorem join_of_isAbsolute {p : FilePath} (h : p.isAbsolute = true) (base : FilePath) :
    base.join p = p := by simp [join, h]

@[simp] theorem isAbsolute_resolve (p directory : FilePath) :
    (p.resolve directory).isAbsolute = true := rfl

/-- **A path that has been resolved goes up nowhere** — every double dot is taken back. -/
theorem not_mem_names_resolve (p directory : FilePath) : ".." ∉ (p.resolve directory).names := by
  have keep : ∀ (names done : List String), ".." ∉ done →
      ".." ∉ names.foldl (fun done n => if n = ".." then done.dropLast else done ++ [n]) done := by
    intro names
    induction names with
    | nil => exact fun done h => h
    | cons n names ih =>
      intro done h
      rw [List.foldl_cons]
      refine ih _ ?_
      split
      · exact fun hm => h ((List.dropLast_sublist done).subset hm)
      · next hn =>
        rw [List.mem_append, List.mem_singleton]
        exact fun hm => hm.elim h fun he => hn he.symm
  exact keep _ [] (by simp)

end FilePath

end OpenApi
