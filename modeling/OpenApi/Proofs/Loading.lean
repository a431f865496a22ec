import OpenApi.Loading
import OpenApi.Proofs.Journal

/-!
# Proofs/Loading — which failures loading passes on

The code of a declaration can fail in three places, and each of them waits for some failures only:

    module                           ──▶  member           ──▶  API
      of a file: an ordinary failure        that it is absent    of a factory: an ordinary failure
      dotted: what is not importable

A failure that is waited for is refused (`CodeFailure.handled`), and any other one is a fault.  Two
faults have nothing to do with code: a dotted name that begins with a dot, and a file with a null
character in its path.  `Modules.Faults` lists all faults by what is in the modules, and they are all
(`Modules.load_eq_fault`).
-/

namespace OpenApi

/-- A failure is passed on if it is not waited for. -/
theorem CodeFailure.handled_eq_fault {f : CodeFailure} {awaited : Bool} {refusal : LoadError}
    {fault : ModuleFault} :
    f.handled awaited refusal = .fault fault ↔ awaited = false ∧ fault = .failed f := by
  cases awaited <;> simp [handled, eq_comm]

/-! ## Members -/

namespace Members

/-- **The code of a member fails and is not waited for** — when the member is asked for, or when it is
called as a factory. -/
inductive Fails (members : Members) (name : String) (f : CodeFailure) : Prop
  | asked (found : Table.get? name members = some (.error f)) (other : f.isA .noMember = false) :
      Fails members name f
  | called (found : Table.get? name members = some (.ok (.factory (.error f))))
      (fatal : f.isOrdinary = false) : Fails members name f

variable {members : Members} {moduleName name target : String} {fault : ModuleFault}

theorem member_eq_ok {e : Export} :
    members.member moduleName name = .ok e ↔ Table.get? name members = some (.ok e) := by
  unfold member
  split <;> simp_all

theorem member_eq_fault :
    members.member moduleName name = .error (.fault fault) ↔
      ∃ f, Table.get? name members = some (.error f) ∧ f.isA .noMember = false ∧
        fault = .failed f := by
  unfold member
  split <;> simp_all [CodeFailure.handled_eq_fault]

end Members

/-- Of all that a member can be, only a factory fails. -/
theorem Export.declaration_eq_fault {e : Export} {target : String} {fault : ModuleFault} :
    e.declaration target = .error (.fault fault) ↔
      ∃ f, e = .factory (.error f) ∧ f.isOrdinary = false ∧ fault = .failed f := by
  unfold declaration
  split <;> simp_all [CodeFailure.handled_eq_fault]

/-- **A member breaks down if its code fails**, and not if it is absent or no API. -/
theorem Members.declaration_eq_fault {members : Members} {moduleName name target : String}
    {fault : ModuleFault} :
    (members.member moduleName name >>= fun e => e.declaration target) = .error (.fault fault) ↔
      ∃ f, members.Fails name f ∧ fault = .failed f := by
  simp only [bind_eq_error_iff, member_eq_fault, member_eq_ok, Export.declaration_eq_fault]
  constructor
  · rintro (⟨f, found, other, rfl⟩ | ⟨_, found, f, rfl, fatal, rfl⟩)
    · exact ⟨f, .asked found other, rfl⟩
    · exact ⟨f, .called found fatal, rfl⟩
  · rintro ⟨f, ⟨found, other⟩ | ⟨found, fatal⟩, rfl⟩
    · exact .inl ⟨f, found, other, rfl⟩
    · exact .inr ⟨_, found, f, rfl, fatal, rfl⟩

/-! ## Modules -/

namespace Modules

/-- **The code of a module fails on the way along dotted names** — all names before it are
packages. -/
inductive FailsAlong (m : Modules) (w : Workspace) : List String → CodeFailure → Prop
  | first {name : String} {f : CodeFailure} {holds : Bool} {names : List String}
      (fails : m.named? w name = some (.failing f, holds)) : FailsAlong m w (name :: names) f
  | later {name : String} {f : CodeFailure} {members : Members} {names : List String}
      (package : m.named? w name = some (.members members, true))
      (rest : FailsAlong m w names f) : FailsAlong m w (name :: names) f

/-- **The code of the module in a file fails.** -/
def FailsIn (m : Modules) (w : Workspace) (path : FilePath) (f : CodeFailure) : Prop :=
  ∃ names text, w.has path = .ok true ∧ w.lookup path = .ok (.file names text) ∧
    m.inFile names = .failing f

/-- **What breaks the import of a module down** — a file that cannot be located, a dotted name that
begins with a dot, or the code of the module or of one that it stands in. -/
inductive ImportFaults (m : Modules) (w : Workspace) (base : FilePath) (name : String) :
    ModuleFault → Prop
  | nullInPath (file : name.endsWith ".py" = true)
      (relative : (FilePath.ofText name).isAbsolute = false)
      (hasNull : (base.join (FilePath.ofText name)).hasNull = true) :
      ImportFaults m w base name .nullInPath
  | relativeName (dotted : name.endsWith ".py" = false) (leading : name.toList.head? = some '.') :
      ImportFaults m w base name (.relativeName name)
  | file {path : FilePath} {f : CodeFailure} (file : name.endsWith ".py" = true)
      (located : locate? w base (FilePath.ofText name) = some path) (fails : m.FailsIn w path f)
      (fatal : f.isOrdinary = false) : ImportFaults m w base name (.failed f)
  | dotted {f : CodeFailure} (dotted : name.endsWith ".py" = false)
      (absolute : name.toList.head? ≠ some '.') (fails : FailsAlong m w (heads name) f)
      (other : f.isA .notImportable = false) : ImportFaults m w base name (.failed f)

/-- **What breaks the loading of a target down** — its module, or the code of its member. -/
inductive Faults (m : Modules) (w : Workspace) (target : String) (base : FilePath) :
    ModuleFault → Prop
  | module {name member : String} {fault : ModuleFault}
      (split : splitTarget? target = some (name, member))
      (faults : m.ImportFaults w base name fault) : Faults m w target base fault
  | member {name member : String} {members : Members} {f : CodeFailure}
      (split : splitTarget? target = some (name, member))
      (imported : m.importNamed w base name = .ok members) (fails : members.Fails member f) :
      Faults m w target base (.failed f)

variable {m : Modules} {w : Workspace} {target : String} {base : FilePath} {fault : ModuleFault}

/-- Nothing is executed below a module that is not a package. -/
theorem importAll_leaf_ne_fault {members : Members} {parent : String} {names : List String} :
    m.importAll w target members (some parent) names ≠ .error (.fault fault) := by
  cases names <;> simp [importAll]

/-- **An import along dotted names breaks down exactly if the code of a module on the way fails**,
other than because something cannot be imported. -/
theorem importAll_eq_fault {names : List String} :
    ∀ {members : Members},
      m.importAll w target members none names = .error (.fault fault) ↔
        ∃ f, FailsAlong m w names f ∧ f.isA .notImportable = false ∧ fault = .failed f := by
  induction names with
  | nil =>
    refine iff_of_false (by simp [importAll]) ?_
    rintro ⟨_, ⟨⟩, _⟩
  | cons name names ih =>
    intro members
    constructor
    · intro h
      cases found : m.named? w name with
      | none => simp [importAll, found] at h
      | some p =>
        obtain ⟨⟨members⟩ | ⟨f⟩, holds⟩ := p
        · simp only [importAll, found] at h
          cases holds with
          | true =>
            obtain ⟨f, rest, other⟩ := ih.mp h
            exact ⟨f, .later found rest, other⟩
          | false => exact absurd h importAll_leaf_ne_fault
        · simp only [importAll, found, Except.error.injEq, CodeFailure.handled_eq_fault] at h
          exact ⟨f, .first found, h⟩
    · rintro ⟨f, along, other, rfl⟩
      cases along with
      | first fails =>
        simp only [importAll, fails]
        exact congrArg _ (CodeFailure.handled_eq_fault.mpr ⟨other, rfl⟩)
      | later package rest =>
        simp only [importAll, package, if_true]
        exact ih.mpr ⟨f, rest, other, rfl⟩

/-- **The import of a file breaks down exactly if its code fails**, and with no ordinary failure. -/
theorem importFile_eq_fault {path : FilePath} :
    m.importFile w path = .error (.fault fault) ↔
      ∃ f, m.FailsIn w path f ∧ f.isOrdinary = false ∧ fault = .failed f := by
  unfold importFile FailsIn
  split
  · simp_all
  · next names text there found =>
    cases module : m.inFile names <;> simp_all [CodeFailure.handled_eq_fault]
  · next there other => simp_all
  · simp_all

theorem importDotted_eq_fault {name : String} :
    m.importDotted w name = .error (.fault fault) ↔
      (name.toList.head? = some '.' ∧ fault = .relativeName name) ∨
        (name.toList.head? ≠ some '.' ∧ ∃ f, FailsAlong m w (heads name) f ∧
          f.isA .notImportable = false ∧ fault = .failed f) := by
  unfold importDotted
  by_cases leading : name.toList.head? = some '.'
  · simp [leading, @eq_comm _ fault]
  · simp [leading, importAll_eq_fault]

theorem locate?_eq_none {path : FilePath} :
    locate? w base path = none ↔ path.isAbsolute = false ∧ (base.join path).hasNull = true := by
  unfold locate? Workspace.resolve?
  cases path.isAbsolute <;> cases (base.join path).hasNull <;> simp

theorem importNamed_eq_fault {name : String} :
    m.importNamed w base name = .error (.fault fault) ↔ m.ImportFaults w base name fault := by
  constructor
  · intro h
    rw [importNamed] at h
    split at h
    · next file =>
      split at h
      · next located =>
        obtain ⟨f, fails, fatal, rfl⟩ := importFile_eq_fault.mp h
        exact .file file located fails fatal
      · next located =>
        obtain ⟨relative, hasNull⟩ := locate?_eq_none.mp located
        cases h
        exact .nullInPath file relative hasNull
    · next file =>
      have dotted := Bool.eq_false_iff.mpr file
      obtain ⟨leading, rfl⟩ | ⟨absolute, f, fails, other, rfl⟩ := importDotted_eq_fault.mp h
      · exact .relativeName dotted leading
      · exact .dotted dotted absolute fails other
  · intro h
    rw [importNamed]
    cases h with
    | nullInPath file relative hasNull =>
      rw [if_pos file, locate?_eq_none.mpr ⟨relative, hasNull⟩]
    | relativeName dotted leading =>
      rw [if_neg (Bool.eq_false_iff.mp dotted)]
      exact importDotted_eq_fault.mpr (.inl ⟨leading, rfl⟩)
    | file file located fails fatal =>
      rw [if_pos file, located]
      exact importFile_eq_fault.mpr ⟨_, fails, fatal, rfl⟩
    | dotted dotted absolute fails other =>
      rw [if_neg (Bool.eq_false_iff.mp dotted)]
      exact importDotted_eq_fault.mpr (.inr ⟨absolute, _, fails, other, rfl⟩)

/-- **Loading a target breaks down exactly of these faults.** -/
theorem load_eq_fault :
    m.load w target base = .error (.fault fault) ↔ m.Faults w target base fault := by
  constructor
  · intro h
    rw [load] at h
    split at h
    · cases h
    · next name member split =>
      obtain h | ⟨members, imported, h⟩ := bind_eq_error_iff.mp h
      · exact .module split (importNamed_eq_fault.mp h)
      · obtain ⟨f, fails, rfl⟩ := Members.declaration_eq_fault.mp h
        exact .member split imported fails
  · intro h
    rw [load]
    cases h with
    | module split faults =>
      rw [split]
      exact bind_eq_error_iff.mpr (.inl (importNamed_eq_fault.mpr faults))
    | member split imported fails =>
      rw [split]
      exact bind_eq_error_iff.mpr
        (.inr ⟨_, imported, Members.declaration_eq_fault.mpr ⟨_, fails, rfl⟩⟩)

end Modules

end OpenApi
