import Mathlib.Order.Basic
import OpenApi.Proofs.Order
import OpenApi.Workspace

/-!
# Proofs/Workspace — what changes on a file tree

    path             /b/new/../o.yaml
    is followed       b ─ new ─ b ─ o.yaml      names that stand below one another
    and resolved     /b/o.yaml                  the same file

Making directories changes no file, and writing changes the one file that the path leads to.  A path
from the root is followed name by name, and where it goes up it has been in a directory; so it leads
to what stands at its resolved names (`Workspace.follow_eq_ok`), and what has been written under a
path is read back under the resolved one (`Workspace.write_of_isAbsolute`).
-/

namespace OpenApi

namespace FilePath

/-! ## Resolved names -/

/-- One name further: a double dot goes back. -/
def step (done : List String) (name : String) : List String :=
  if name = ".." then done.dropLast else done ++ [name]

theorem normalize_eq_foldl (names : List String) : normalize names = names.foldl step [] := rfl

theorem step_of_ne {name : String} (h : name ≠ "..") (done : List String) :
    step done name = done ++ [name] := if_neg h

/-- Nothing is added on the way. -/
theorem foldl_step_sublist (names : List String) :
    ∀ done : List String, (names.foldl step done).Sublist (done ++ names) := by
  induction names with
  | nil => simp
  | cons name names ih =>
    intro done
    rw [List.foldl_cons]
    refine (ih _).trans ?_
    rw [step]
    split
    · exact (List.dropLast_sublist done).append (List.sublist_cons_self name names)
    · simp

theorem foldl_step_of_notMem {names : List String} (h : ".." ∉ names) :
    ∀ done : List String, names.foldl step done = done ++ names := by
  induction names with
  | nil => simp
  | cons name names ih =>
    intro done
    obtain ⟨first, others⟩ := not_or.mp fun hor => h (List.mem_cons.mpr hor)
    rw [List.foldl_cons, step_of_ne (Ne.symm first), ih others, List.append_assoc,
      List.singleton_append]

variable {p : FilePath}

/-- A path from the root is resolved the same from everywhere. -/
theorem resolve_of_isAbsolute (h : p.isAbsolute = true) (directory : FilePath) :
    p.resolve directory = ⟨.slash, p.names.foldl step []⟩ := by
  rw [resolve, join_of_isAbsolute h, normalize_eq_foldl]

/-- **Resolving leaves alone what goes up nowhere** and begins with one slash. -/
theorem resolve_eq_self_iff (h : p.isAbsolute = true) (directory : FilePath) :
    p.resolve directory = p ↔ p.root = .slash ∧ ".." ∉ p.names := by
  constructor
  · intro same
    refine ⟨by rw [← same]; rfl, ?_⟩
    rw [← same]
    exact not_mem_names_resolve p directory
  · rintro ⟨root, plain⟩
    rw [resolve_of_isAbsolute h, foldl_step_of_notMem plain, List.nil_append, ← root]

theorem hasNull_resolve (h : p.isAbsolute = true) (directory : FilePath)
    (hasNull : p.hasNull = false) : (p.resolve directory).hasNull = false := by
  rw [resolve_of_isAbsolute h]
  simp only [FilePath.hasNull, List.any_eq_false] at hasNull ⊢
  exact fun name mem => hasNull name ((foldl_step_sublist p.names []).subset mem)

/-- The names of a path and the slashes between them. -/
theorem utf8ByteSize_intercalate_le {names others : List String} (h : names.Sublist others) :
    ("/".intercalate names).utf8ByteSize ≤ ("/".intercalate others).utf8ByteSize := by
  induction h with
  | slnil => exact Nat.le_refl _
  | @cons names others name h ih =>
    refine ih.trans ?_
    cases others with
    | nil => simp [String.intercalate_nil]
    | cons o others =>
      rw [String.intercalate_cons_cons]
      simp only [String.utf8ByteSize_append]
      omega
  | @cons_cons names others name h ih =>
    cases others with
    | nil => rw [List.sublist_nil.mp h]
    | cons o others =>
      rw [String.intercalate_cons_cons]
      cases names with
      | nil =>
        rw [String.intercalate_singleton]
        simp only [String.utf8ByteSize_append]
        omega
      | cons n names =>
        rw [String.intercalate_cons_cons]
        simp only [String.utf8ByteSize_append]
        omega

/-- The text of a path from the root is its slashes and its names. -/
theorem text_of_isAbsolute (h : p.isAbsolute = true) :
    p.text = p.root.text ++ "/".intercalate p.names := by
  obtain ⟨root, names⟩ := p
  cases root with
  | relative => cases h
  | slash => rfl
  | doubleSlash => rfl

/-- A path does not grow when it is resolved. -/
theorem utf8ByteSize_resolve_le (h : p.isAbsolute = true) (directory : FilePath) :
    (p.resolve directory).text.utf8ByteSize ≤ p.text.utf8ByteSize := by
  have names := utf8ByteSize_intercalate_le (foldl_step_sublist p.names [])
  have root : PathRoot.slash.text.utf8ByteSize ≤ p.root.text.utf8ByteSize := by
    obtain ⟨root, _⟩ := p
    cases root with
    | relative => cases h
    | slash => exact (by decide : "/".utf8ByteSize ≤ "/".utf8ByteSize)
    | doubleSlash => exact (by decide : "/".utf8ByteSize ≤ "//".utf8ByteSize)
  rw [text_of_isAbsolute (isAbsolute_resolve p directory), text_of_isAbsolute h,
    resolve_of_isAbsolute h, String.utf8ByteSize_append, String.utf8ByteSize_append]
  exact Nat.add_le_add root names

end FilePath

/-- The names that lead to an entry. -/
def Entry.names : Entry → List String
  | .directory names | .file names _ | .missing names => names

namespace Workspace

variable {w : Workspace} {p : FilePath} {here names : List String} {name text : String} {e : Entry}

/-! ## Following names -/

/-- **Names that lead from directory to directory.** -/
inductive Standing (w : Workspace) : List String → Prop
  | root : Standing w []
  | inside {here : List String} {name : String} (above : Standing w here) (plain : name ≠ "..")
      (short : isTooLong name = false) (directory : w.isDirectory (here ++ [name]) = true) :
      Standing w (here ++ [name])

theorem Standing.dropLast (h : Standing w here) : Standing w here.dropLast := by
  cases h with
  | root => exact .root
  | inside above => simpa using above

theorem entry_of_isDirectory (h : w.isDirectory names = true) : w.entry names = .directory names :=
  if_pos h

theorem follow_up (here names : List String) :
    w.follow here (".." :: names) = w.follow here.dropLast names := by
  rw [follow]

/-- A last name leads to what stands there. -/
theorem follow_last (plain : name ≠ "..") (short : isTooLong name = false) :
    w.follow here [name] = .ok (w.entry (here ++ [name])) := by
  rw [follow]
  · simp [short]
  · exact plain

theorem follow_directory (plain : name ≠ "..") (short : isTooLong name = false)
    (directory : w.isDirectory (here ++ [name]) = true) (names : List String) :
    w.follow here (name :: names) = w.follow (here ++ [name]) names := by
  have entry := entry_of_isDirectory directory
  cases names with
  | nil => rw [follow_last plain short, entry, follow]
  | cons next names => simp [follow, short, entry]

/-- Names that lead from directory to directory are passed. -/
theorem Standing.follow (h : Standing w here) :
    ∀ names : List String, w.follow [] (here ++ names) = w.follow here names := by
  induction h with
  | root => exact fun names => rfl
  | inside above plain short directory ih =>
    intro names
    rw [List.append_assoc, List.singleton_append, ih, follow_directory plain short directory]

/-- An entry stands at its own names. -/
theorem names_entry (w : Workspace) (names : List String) : (w.entry names).names = names := by
  rw [entry]
  split
  · rfl
  · split <;> rfl

theorem isDirectory_of_entry {at' : List String} (h : w.entry names = .directory at') :
    w.isDirectory names = true ∧ at' = names := by
  rw [entry] at h
  split at h
  · next directory => exact ⟨directory, (Entry.directory.inj h).symm⟩
  · split at h <;> cases h

theorem follow_eq_error_of_long (plain : name ≠ "..") (long : isTooLong name = true) :
    w.follow here (name :: names) = .error .nameTooLong := by
  unfold follow
  split
  · next h => cases h
  · next h => exact absurd (List.cons.inj h).1 plain
  · next h =>
    obtain ⟨rfl, rfl⟩ := List.cons.inj h
    rw [if_pos long]

/-- Only a directory has something below it. -/
theorem follow_cons_eq_ok (plain : name ≠ "..") (h : w.follow here (name :: names) = .ok e) :
    isTooLong name = false ∧
      ((names = [] ∧ e = w.entry (here ++ [name])) ∨
        (w.isDirectory (here ++ [name]) = true ∧ w.follow (here ++ [name]) names = .ok e)) := by
  cases short : isTooLong name with
  | true =>
    rw [follow_eq_error_of_long plain short] at h
    cases h
  | false =>
    refine ⟨rfl, ?_⟩
    cases names with
    | nil =>
      rw [follow_last plain short] at h
      exact .inl ⟨rfl, (Except.ok.inj h).symm⟩
    | cons next names =>
      cases entry : w.entry (here ++ [name]) with
      | directory at' =>
        have directory := (isDirectory_of_entry entry).1
        rw [follow_directory plain short directory] at h
        exact .inr ⟨directory, h⟩
      | file _ _ =>
        rw [follow.eq_5 _ _ _ _ plain _ _ entry (by simp), short] at h
        cases h
      | missing _ =>
        rw [follow.eq_6 _ _ _ _ plain _ entry (by simp), short] at h
        cases h

/-- **What names lead to stands at their resolved names**, below directories that are passed. -/
theorem follow_eq_ok (standing : Standing w here) (h : w.follow here names = .ok e) :
    e.names = names.foldl FilePath.step here ∧
      ((∃ at', e = .directory at') ∨ ∃ above name, e.names = above ++ [name] ∧ Standing w above ∧
        name ≠ ".." ∧ isTooLong name = false ∧ e = w.entry e.names) := by
  induction names generalizing here with
  | nil =>
    rw [follow] at h
    obtain rfl := Except.ok.inj h
    exact ⟨rfl, .inl ⟨here, rfl⟩⟩
  | cons name names ih =>
    by_cases up : name = ".."
    · subst up
      rw [follow_up] at h
      exact ih standing.dropLast h
    · rw [List.foldl_cons, FilePath.step_of_ne up]
      obtain ⟨short, ⟨rfl, rfl⟩ | ⟨directory, h⟩⟩ := follow_cons_eq_ok up h
      · have at' := names_entry w (here ++ [name])
        exact ⟨at', .inr ⟨here, name, at', standing, up, short, by rw [at']⟩⟩
      · exact ih (.inside standing up short directory) h

/-! ## Making directories -/

/-- **Making directories changes no file.** -/
theorem files_makeAlong (p : FilePath) (names : List String) :
    ∀ (w : Workspace) (here passed : List String) (made : Bool),
      (makeAlong p w here passed made names).1.files = w.files := by
  induction names with
  | nil => exact fun w here passed made => rfl
  | cons name names ih =>
    intro w here passed made
    rw [makeAlong]
    dsimp only
    split
    · exact ih ..
    · split
      · rfl
      · split
        · exact ih ..
        · exact ih ..
        · rfl

theorem files_withDirectories (w : Workspace) (p : FilePath) :
    (w.withDirectories p).files = w.files := by
  rw [withDirectories]
  split
  · rfl
  · exact files_makeAlong ..

theorem files_makeDirectories {w' : Workspace} (h : w.makeDirectories p = .ok w') :
    w'.files = w.files := by
  rw [makeDirectories] at h
  split at h
  · cases h
  · split at h
    · next made =>
      obtain rfl := Except.ok.inj h
      have files := files_makeAlong p p.names w (w.start p) [] false
      rw [made] at files
      exact files
    · cases h

/-! ## Writing -/

/-- A file is written where a path leads to a file or to nothing. -/
theorem write_eq_ok {w' : Workspace} (h : w.write p text = .ok w') :
    ∃ e, w.lookup p = .ok e ∧ (∀ at', e ≠ .directory at') ∧
      w'.directories = w.directories ∧ w'.files = Table.insert e.names text w.files := by
  rw [write] at h
  split at h
  · next found =>
    obtain rfl := Except.ok.inj h
    exact ⟨_, found, by simp, rfl, rfl⟩
  · next found =>
    obtain rfl := Except.ok.inj h
    exact ⟨_, found, by simp, rfl, rfl⟩
  · cases h
  · cases h

theorem askable_eq_ok :
    askable p = .ok () ↔ p.hasNull = false ∧ p.text.utf8ByteSize < pathBytesLimit := by
  unfold askable
  cases p.hasNull with
  | true => simp
  | false => by_cases long : pathBytesLimit ≤ p.text.utf8ByteSize <;> simp [long, Nat.lt_of_not_le]

/-- What can be asked about a path from the root can be asked about it once it is resolved. -/
theorem askable_resolve (absolute : p.isAbsolute = true) (h : askable p = .ok ()) :
    askable (w.resolve p) = .ok () := by
  obtain ⟨plain, short⟩ := askable_eq_ok.mp h
  exact askable_eq_ok.mpr ⟨FilePath.hasNull_resolve absolute _ plain,
    (FilePath.utf8ByteSize_resolve_le absolute _).trans_lt short⟩

theorem start_of_isAbsolute (absolute : p.isAbsolute = true) : w.start p = [] := if_pos absolute

theorem lookup_of_isAbsolute (absolute : p.isAbsolute = true) :
    w.lookup p = .ok e ↔ askable p = .ok () ∧ w.follow [] p.names = .ok e := by
  rw [lookup, start_of_isAbsolute absolute]
  cases askable p with
  | error fault => simp
  | ok _ =>
    cases w.follow [] p.names with
    | error fault => simp [Except.mapError]
    | ok found => simp [Except.mapError]

/-- Names lead through the same directories in another tree that has them. -/
theorem Standing.of_directories {w' : Workspace} (same : w'.directories = w.directories)
    (h : Standing w here) : Standing w' here := by
  induction h with
  | root => exact .root
  | inside above plain short directory ih =>
    refine .inside ih plain short ?_
    rwa [isDirectory, same]

theorem entry_of_not_isDirectory (noDirectory : w.isDirectory names = false)
    (file : Table.get? names w.files = some text) : w.entry names = .file names text := by
  rw [entry, if_neg (Bool.eq_false_iff.mp noDirectory), file]

/-- **Writing under a path from the root replaces the one file at its resolved names**, and there it
is read back. -/
theorem write_of_isAbsolute {w' : Workspace} (absolute : p.isAbsolute = true)
    (h : w.write p text = .ok w') :
    w'.files = Table.insert (w.resolve p).names text w.files ∧
      w'.read (w.resolve p) = .ok text := by
  obtain ⟨e, found, file, directories, files⟩ := write_eq_ok h
  obtain ⟨asked, followed⟩ := (lookup_of_isAbsolute absolute).mp found
  obtain ⟨resolved, ⟨at', rfl⟩ | ⟨above, name, names, standing, plain, short, entry⟩⟩ :=
    follow_eq_ok .root followed
  · exact absurd rfl (file at')
  have place : (w.resolve p).names = e.names := by
    rw [resolve, FilePath.resolve_of_isAbsolute absolute, resolved]
  refine ⟨by rw [files, place], ?_⟩
  -- the path led to no directory, and the directories are the same as before
  have noDirectory : w'.isDirectory e.names = false := by
    refine Bool.eq_false_iff.mpr fun directory => file e.names ?_
    rw [isDirectory, directories] at directory
    rw [entry, names_entry]
    exact entry_of_isDirectory directory
  have written : w'.entry e.names = .file e.names text :=
    entry_of_not_isDirectory noDirectory (by rw [files, Table.get?_insert_self])
  have led : w'.lookup (w.resolve p) = .ok (.file e.names text) := by
    have rooted : (w.resolve p).isAbsolute = true := FilePath.isAbsolute_resolve p _
    refine (lookup_of_isAbsolute rooted).mpr ⟨askable_resolve absolute asked, ?_⟩
    rw [place, names, (standing.of_directories directories).follow, follow_last plain short,
      ← names, written]
  rw [read, led]

end Workspace

end OpenApi
