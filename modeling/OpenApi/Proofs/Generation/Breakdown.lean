import OpenApi.Command.Run
import OpenApi.Proofs.Loading

/-!
# Proofs/Generation/Breakdown — when a run breaks down

A run has an outcome, is refused, or *breaks down*: it meets what none of its steps accounts for.

    configuration  ──▶  declaration  ──▶  document  ──▶  file
      a scalar            code that         a variant     a null character
      without value,      fails, a          without       in its path
      a null character    leading dot,      its item
                          a null
                          character

`Generation.Escapes` lists these causes by what is in the files, the modules and the request, and
they are all (`Generation.run_eq_broken`): whatever else goes wrong is refused with an error of the
run and exit code 1.  A command that breaks down ends without an exit code, unless the failure is one
that ends every command line in a way of its own (`Breakdown.ending?`).

Which failures of code are passed on to the run is told in `Proofs/Loading`; of these it refuses the
ones that it accounts for itself (`ModuleFault.Unaccounted`).  What comes of a configuration with half
of a surrogate pair is left open (`Generation.Unpaired`).
-/

namespace OpenApi

/-! ## Paths with a null character -/

/-- A path has the null characters of its directory. -/
theorem FilePath.hasNull_of_parent {p : FilePath} (h : p.parent.hasNull = true) :
    p.hasNull = true := by
  simp only [hasNull, parent, List.any_eq_true] at h ⊢
  obtain ⟨name, mem, null⟩ := h
  exact ⟨name, (List.dropLast_sublist _).subset mem, null⟩

namespace Workspace

variable {w : Workspace} {p : FilePath}

/-- Only a path with a null character cannot be looked up at all. -/
theorem lookup_eq_nullInPath : w.lookup p = .error .nullInPath ↔ p.hasNull = true := by
  unfold lookup askable
  cases hasNull : p.hasNull with
  | true => simp
  | false =>
    by_cases long : pathBytesLimit ≤ p.text.utf8ByteSize
    · simp [long]
    · simp only [Bool.false_eq_true, if_false, long, iff_false]
      intro h
      obtain ⟨fault, -, absurd⟩ := Journal.mapError_eq_error_iff.mp h
      cases absurd

theorem read_eq_nullInPath : w.read p = .error .nullInPath ↔ p.hasNull = true := by
  rw [← lookup_eq_nullInPath (w := w), read]
  split <;> simp_all

theorem write_eq_nullInPath {text : String} :
    w.write p text = .error .nullInPath ↔ p.hasNull = true := by
  rw [← lookup_eq_nullInPath (w := w), write]
  split <;> simp_all

theorem makeDirectories_eq_nullInPath :
    w.makeDirectories p = .error .nullInPath ↔ p.hasNull = true := by
  unfold makeDirectories askable
  cases hasNull : p.hasNull with
  | true => simp
  | false =>
    by_cases long : pathBytesLimit ≤ p.text.utf8ByteSize
    · simp [long]
    · simp only [Bool.false_eq_true, if_false, long, iff_false]
      split <;> simp

/-- Nothing stands at a path with a null character. -/
theorem has_of_hasNull (h : p.hasNull = true) : w.has p = .ok false := by
  rw [has, lookup_eq_nullInPath.mpr h]

/-- What can be read is there. -/
theorem has_of_read {text : String} (h : w.read p = .ok text) : w.has p = .ok true := by
  rw [read] at h
  rw [has]
  split at h <;> simp_all

end Workspace

/-! ## The configuration -/

namespace Configuration

/-- **The settings are in order up to the path of the document, which is relative and has a null
character.** -/
def NullOutput (v : Yaml.Value) : Prop :=
  ∃ declaration target output format name,
    requiredSection "declaration" (v.get? "declaration") = .ok declaration ∧
    text "declaration.target" (declaration.get? "target") = .ok target ∧
    ':' ∈ target.toList ∧
    optionalSection "output" (v.get? "output") = .ok output ∧
    choice "output.format" OutputFormat.yaml [.json] OutputFormat.word (output.get? "format") =
      .ok format ∧
    text? "output.path" (output.get? "path") = .ok (some name) ∧
    (FilePath.ofText name).isAbsolute = false ∧ (FilePath.ofText name).hasNull = true

variable {path base : FilePath} {v : Yaml.Value} {w : Workspace}

/-- A setting that is not in order is refused. -/
theorem checked_eq_error_iff {α : Type} {setting : Except ConfigurationError α} {e : Failure} :
    checked setting = .error e ↔ ∃ error, setting = .error error ∧ .refused error = e :=
  Journal.mapError_eq_error_iff

theorem checked_eq_ok_iff {α : Type} {setting : Except ConfigurationError α} {a : α} :
    checked setting = .ok a ↔ setting = .ok a := Journal.mapError_eq_ok_iff

theorem located_eq_error_iff {p : FilePath} {e : Failure} :
    located base p = .error e ↔ e = .nullInPath ∧ p.isAbsolute = false ∧ p.hasNull = true := by
  unfold located
  cases p.isAbsolute <;> cases p.hasNull <;> simp [eq_comm]

theorem not_hasNull_defaultOutput (format : OutputFormat) :
    (FilePath.ofText (defaultOutput format)).hasNull = false := by
  cases format <;> decide +kernel

theorem ofValue_mapping_eq_nullInPath {members : List (Yaml.Value × Yaml.Value)} :
    ofValue path base (.mapping members) = .error .nullInPath ↔ NullOutput (.mapping members) := by
  simp only [ofValue, bind_eq_error_iff, checked_eq_error_iff, checked_eq_ok_iff, ite_eq_iff,
    reduceCtorEq, and_false, exists_false, false_or, Except.ok.injEq, exists_eq_left',
    Except.error.injEq, located_eq_error_iff, true_and, false_and, or_false]
  constructor
  · rintro ⟨declaration, hd, target, ht, colon, output, ho, format, hf, name?, hn, h⟩
    -- what comes after the path of the document is refused at worst
    obtain ⟨relative, hasNull⟩ | ⟨_, -, _, -, _, -, h⟩ := h
    · cases name? with
      | none =>
        rw [Option.getD_none, not_hasNull_defaultOutput] at hasNull
        cases hasNull
      | some name =>
        exact ⟨declaration, target, output, format, name, hd, ht, by simpa using colon, ho, hf, hn,
          relative, hasNull⟩
    · split at h
      · cases h
      · simp only [bind_eq_error_iff, checked_eq_error_iff, reduceCtorEq, and_false, exists_false,
          false_or] at h
        obtain ⟨_, -, h⟩ := h
        cases h
  · rintro ⟨declaration, target, output, format, name, hd, ht, colon, ho, hf, hn, ha, h0⟩
    refine ⟨declaration, hd, target, ht, ?_, output, ho, format, hf, some name, hn, .inl ⟨ha, h0⟩⟩
    simpa using colon

/-- **No setting but the path of the document breaks a run down.** -/
theorem ofValue_eq_nullInPath : ofValue path base v = .error .nullInPath ↔ NullOutput v := by
  have unread (h : v.get? "declaration" = none) : ¬ NullOutput v := by
    rintro ⟨_, _, _, _, _, hd, -⟩
    rw [h] at hd
    cases hd
  cases v with
  | mapping members => exact ofValue_mapping_eq_nullInPath
  | _ => exact iff_of_false (fun h => by cases h) (unread rfl)

/-- The settings ask for the value of no text. -/
theorem ofValue_ne_ofRead {e : Yaml.ReadError} (own : e ≠ .malformed) :
    ofValue path base v ≠ .error (.ofRead e) := by
  have unlike (error : ConfigurationError) : .refused error ≠ Failure.ofRead e := by
    cases e with
    | malformed => exact absurd rfl own
    | _ => exact fun h => by cases h
  have unlikeNull : Failure.ofRead e ≠ .nullInPath := by cases e <;> simp [Failure.ofRead]
  cases v with
  | mapping members =>
    simp only [ofValue, ne_eq, bind_eq_error_iff, checked_eq_error_iff, ite_eq_iff, reduceCtorEq,
      and_false, exists_false, false_or, Except.error.injEq, located_eq_error_iff, unlike,
      unlikeNull, false_and, or_false]
    rintro ⟨_, -, _, -, _, -, _, _, -, _, -, _, -, _, -, _, -, _, -, h⟩
    split at h
    · cases h
    · simp only [bind_eq_error_iff, checked_eq_error_iff, unlike, and_false, exists_false,
        false_or] at h
      obtain ⟨_, -, h⟩ := h
      cases h
  | _ => exact fun h => unlike _ (Except.error.inj h)

/-- What a configuration comes to that is there and can be read. -/
theorem load_of_read {content : String} (h : w.read path = .ok content) :
    load w path = match Yaml.read depth content with
      | .error e => .error (.ofRead e)
      | .ok v => ofValue path (w.resolve path).parent v := by
  simp only [load, Workspace.has_of_read h, h]
  rfl

/-- A configuration that is not there or cannot be read is refused. -/
theorem load_of_not_read (h : ∀ content, w.read path ≠ .ok content) :
    (∃ error, load w path = .error (.refused error)) ∨
      ∃ error, load w path = .error (.unreadable error) := by
  cases there : w.has path with
  | error e => exact .inr ⟨e, by simp [load, there, bind, Except.bind, Except.mapError]⟩
  | ok present =>
    cases present with
    | false =>
      exact .inl ⟨.notFound path.text, by simp [load, there, bind, Except.bind, Except.mapError]⟩
    | true =>
      cases hr : w.read path with
      | ok content => exact absurd hr (h content)
      | error e =>
        cases e with
        | nullInPath =>
          rw [Workspace.has_of_hasNull (Workspace.read_eq_nullInPath.mp hr)] at there
          cases there
        | refused e =>
          exact .inr ⟨e, by simp [load, there, hr, bind, Except.bind, Except.mapError]⟩

/-- A configuration that cannot be read does not break a run down. -/
theorem load_ne_of_not_read (h : ¬ ∃ content, w.read path = .ok content) :
    load w path ≠ .error .nullInPath ∧
      ∀ e, e ≠ .malformed → load w path ≠ .error (.ofRead e) := by
  obtain ⟨error, he⟩ | ⟨error, he⟩ := load_of_not_read (not_exists.mp h) <;> rw [he] <;>
    refine ⟨by simp, fun e own => ?_⟩ <;> cases e <;> simp_all [Failure.ofRead]

theorem load_eq_nullInPath :
    load w path = .error .nullInPath ↔
      ∃ content v, w.read path = .ok content ∧ Yaml.read depth content = .ok v ∧ NullOutput v := by
  by_cases readable : ∃ content, w.read path = .ok content
  · obtain ⟨content, hr⟩ := readable
    simp only [load_of_read hr, hr, Except.ok.injEq, exists_and_left, exists_eq_left']
    cases Yaml.read depth content with
    | error e => cases e <;> simp [Failure.ofRead]
    | ok v => simp [ofValue_eq_nullInPath]
  · refine iff_of_false (load_ne_of_not_read readable).1 ?_
    rintro ⟨content, _, hr, -⟩
    exact readable ⟨content, hr⟩

/-- A failure to read the text of a configuration is passed on, unless it is refused. -/
theorem load_eq_ofRead {e : Yaml.ReadError} (own : e ≠ .malformed) :
    load w path = .error (.ofRead e) ↔
      ∃ content, w.read path = .ok content ∧ Yaml.read depth content = .error e := by
  by_cases readable : ∃ content, w.read path = .ok content
  · obtain ⟨content, hr⟩ := readable
    simp only [load_of_read hr, hr, Except.ok.injEq, exists_eq_left']
    cases Yaml.read depth content with
    | error e' => cases e <;> cases e' <;> simp_all [Failure.ofRead]
    | ok v => simp [ofValue_ne_ofRead own]
  · refine iff_of_false ((load_ne_of_not_read readable).2 e own) ?_
    rintro ⟨content, hr, -⟩
    exact readable ⟨content, hr⟩

end Configuration

/-! ## Runs -/

/-- **A run does not account for a fault** — as it does for the failures of the file system and of its
own steps, wherever they come from. -/
def ModuleFault.Unaccounted (fault : ModuleFault) : Prop :=
  ∀ f, fault = .failed f → f.isA .accounted = false

namespace Generation

/-- **The directories above a path can be made, but the path has a null character** — or the path of
its directory already has one. -/
def Unwritable (w : Workspace) (path : FilePath) : Prop :=
  path.hasNull = true ∧
    (path.parent.hasNull = true ∨ ∃ w', w.makeDirectories path.parent = .ok w')

/-- **What breaks a run down.** -/
inductive Escapes (m : Modules) (w : Workspace) (request : GenerationRequest) : Breakdown → Prop
  | scalar {content : String} {fault : Yaml.ScalarFault}
      (read : w.read (FilePath.ofText request.config) = .ok content)
      (noValue : Yaml.read Configuration.depth content = .error (.scalar fault)) :
      Escapes m w request (.scalar fault)
  | setting {content : String} {v : Yaml.Value}
      (read : w.read (FilePath.ofText request.config) = .ok content)
      (value : Yaml.read Configuration.depth content = .ok v)
      (hasNull : Configuration.NullOutput v) : Escapes m w request .nullInPath
  | declaration {c : Configuration} {fault : ModuleFault}
      (loaded : Configuration.load w (FilePath.ofText request.config) = .ok c)
      (faults : m.Faults w c.target c.basePath fault) (unaccounted : fault.Unaccounted) :
      Escapes m w request (.declaration fault)
  | noItem {c : Configuration} {api : Api} {path : DescriptorPath}
      (inputs : loadInputs m w (FilePath.ofText request.config) = .ok (c, api))
      (assembled : (assemble api c.options {}).outcome = .error (.shape ⟨path, .noItem⟩)) :
      Escapes m w request .noItem
  | asked {c : Configuration} {api : Api} {d : Document} {name : String}
      (inputs : loadInputs m w (FilePath.ofText request.config) = .ok (c, api))
      (assembled : (assemble api c.options {}).outcome = .ok d)
      (named : request.outputPath = some name) (hasNull : (FilePath.ofText name).hasNull = true) :
      Escapes m w request .nullInPath
  | file {c : Configuration} {api : Api} {d : Document} {path : FilePath}
      (inputs : loadInputs m w (FilePath.ofText request.config) = .ok (c, api))
      (assembled : (assemble api c.options {}).outcome = .ok d)
      (located : destination? w c request = some path) (written : request.dryRun = false)
      (unwritable : Unwritable w path) : Escapes m w request .nullInPath

/-- **The configuration of a run holds half of a surrogate pair.** -/
def Unpaired (w : Workspace) (request : GenerationRequest) : Prop :=
  ∃ content, w.read (FilePath.ofText request.config) = .ok content ∧
    Yaml.read Configuration.depth content = .error .unpaired

variable {m : Modules} {w : Workspace} {request : GenerationRequest} {cause : Breakdown}

theorem ofConfiguration_eq_broken {e : Configuration.Failure} :
    GenerationFailure.ofConfiguration e = .broken cause ↔
      (∃ fault, e = .scalar fault ∧ cause = .scalar fault) ∨
        (e = .nullInPath ∧ cause = .nullInPath) := by
  cases e <;> simp [GenerationFailure.ofConfiguration, eq_comm]

theorem ofLoading_eq_broken {e : LoadFailure} :
    GenerationFailure.ofLoading e = .broken cause ↔
      ∃ fault, e = .fault fault ∧ fault.Unaccounted ∧ cause = .declaration fault := by
  rcases e with e | e | ⟨f⟩ | name | _
  · simp [GenerationFailure.ofLoading]
  · simp [GenerationFailure.ofLoading]
  · cases accounted : f.isA .accounted <;>
      simp [GenerationFailure.ofLoading, ModuleFault.Unaccounted, accounted, @eq_comm _ cause]
  · simp [GenerationFailure.ofLoading, ModuleFault.Unaccounted, @eq_comm _ cause]
  · simp [GenerationFailure.ofLoading, ModuleFault.Unaccounted, @eq_comm _ cause]

theorem ofAssembly_eq_broken {e : AssemblyError} :
    GenerationFailure.ofAssembly e = .broken cause ↔
      (∃ path, e = .shape ⟨path, .noItem⟩) ∧ cause = .noItem := by
  unfold GenerationFailure.ofAssembly
  split <;> simp_all [eq_comm]

/-- Only a configuration is left open. -/
theorem ofConfiguration_eq_unpaired {e : Configuration.Failure} :
    GenerationFailure.ofConfiguration e = .unpaired ↔ e = .unpaired := by
  cases e <;> simp [GenerationFailure.ofConfiguration]

theorem ofLoading_ne_unpaired (e : LoadFailure) : GenerationFailure.ofLoading e ≠ .unpaired := by
  rcases e with e | e | ⟨f⟩ | name | _ <;> simp only [GenerationFailure.ofLoading, ne_eq,
    reduceCtorEq, not_false_eq_true]
  split <;> simp

theorem ofAssembly_ne_unpaired (e : AssemblyError) :
    GenerationFailure.ofAssembly e ≠ .unpaired := by
  unfold GenerationFailure.ofAssembly
  split <;> simp

theorem loadInputs_eq_error {config : FilePath} {e : GenerationFailure} :
    loadInputs m w config = .error e ↔
      (∃ f, Configuration.load w config = .error f ∧ GenerationFailure.ofConfiguration f = e) ∨
      ∃ c, Configuration.load w config = .ok c ∧
        ∃ f, m.load w c.target c.basePath = .error f ∧ GenerationFailure.ofLoading f = e := by
  simp only [loadInputs, bind_eq_error_iff, Journal.mapError_eq_error_iff,
    Journal.mapError_eq_ok_iff, pure, Except.pure, reduceCtorEq, and_false, exists_false, or_false]

theorem loadInputs_eq_broken {config : FilePath} :
    loadInputs m w config = .error (.broken cause) ↔
      (∃ fault, Configuration.load w config = .error (.scalar fault) ∧ cause = .scalar fault) ∨
      (Configuration.load w config = .error .nullInPath ∧ cause = .nullInPath) ∨
      ∃ c fault, Configuration.load w config = .ok c ∧ m.Faults w c.target c.basePath fault ∧
        fault.Unaccounted ∧ cause = .declaration fault := by
  simp only [loadInputs_eq_error, ofConfiguration_eq_broken, ofLoading_eq_broken,
    ← Modules.load_eq_fault]
  constructor
  · rintro (⟨f, failed, ⟨fault, rfl, rfl⟩ | ⟨rfl, rfl⟩⟩ |
      ⟨c, loaded, f, failed, fault, rfl, own, rfl⟩)
    · exact .inl ⟨fault, failed, rfl⟩
    · exact .inr (.inl ⟨failed, rfl⟩)
    · exact .inr (.inr ⟨c, fault, loaded, failed, own, rfl⟩)
  · rintro (⟨fault, failed, rfl⟩ | ⟨failed, rfl⟩ | ⟨c, fault, loaded, failed, own, rfl⟩)
    · exact .inl ⟨_, failed, .inl ⟨fault, rfl, rfl⟩⟩
    · exact .inl ⟨_, failed, .inr ⟨rfl, rfl⟩⟩
    · exact .inr ⟨c, loaded, _, failed, fault, rfl, own, rfl⟩

theorem destination?_eq_none {c : Configuration} :
    destination? w c request = none ↔
      ∃ name, request.outputPath = some name ∧ (FilePath.ofText name).hasNull = true := by
  unfold destination? nonEmptyOr Workspace.resolve?
  cases request.outputPath with
  | none => simp
  | some name =>
    by_cases empty : name = ""
    · subst empty
      simp only [Option.some.injEq, exists_eq_left', reduceCtorEq, false_iff]
      decide
    · simp

theorem write_eq_nullInPath (d : Document) {path : FilePath} (format : OutputFormat) :
    d.write w path format = .error .nullInPath ↔ Unwritable w path := by
  have access (e : AccessError) :
      OutputFailure.ofAccess path e = .nullInPath ↔ e = .nullInPath := by
    cases e <;> simp [OutputFailure.ofAccess]
  simp only [Document.write, bind_eq_error_iff, Journal.mapError_eq_error_iff, access,
    exists_eq_right, Journal.mapError_eq_ok_iff, Workspace.makeDirectories_eq_nullInPath,
    Workspace.write_eq_nullInPath, pure, Except.pure, reduceCtorEq, and_false, exists_false,
    or_false, exists_and_right, Unwritable]
  constructor
  · rintro (parent | ⟨made, null⟩)
    · exact ⟨FilePath.hasNull_of_parent parent, .inl parent⟩
    · exact ⟨null, .inr made⟩
  · rintro ⟨null, parent | made⟩
    · exact .inl parent
    · exact .inr ⟨made, null⟩

theorem deliver_eq_broken {c : Configuration} {d : Document} {count : Nat} :
    (deliver w c request d count).outcome = .error (.broken cause) ↔
      cause = .nullInPath ∧ (destination? w c request = none ∨
        ∃ path, destination? w c request = some path ∧ request.dryRun = false ∧
          Unwritable w path) := by
  unfold deliver
  cases destination? w c request with
  | none => simpa using eq_comm
  | some path =>
    simp only [Option.some.injEq, exists_eq_left', reduceCtorEq, false_or]
    cases request.dryRun with
    | true => simp
    | false =>
      simp only [← write_eq_nullInPath d c.format, Bool.false_eq_true, if_false, true_and]
      cases d.write w path c.format with
      | error e =>
        cases e with
        | nullInPath => simpa using eq_comm
        | refused e => simp
      | ok p => simp

/-- Nothing is left open once there is a document. -/
theorem deliver_ne_unpaired {c : Configuration} {d : Document} {count : Nat} :
    (deliver w c request d count).outcome ≠ .error .unpaired := by
  unfold deliver
  split
  · simp
  · split
    · simp
    · split <;> simp

section Steps

/-- A run that has no inputs fails as they do. -/
theorem outcome_run_of_inputs_error {e : GenerationFailure}
    (inputs : loadInputs m w (FilePath.ofText request.config) = .error e) :
    (run m w request).outcome = .error e := by
  simp only [run, inputs]

variable {c : Configuration} {api : Api}
  (inputs : loadInputs m w (FilePath.ofText request.config) = .ok (c, api))

include inputs

theorem outcome_run_of_assemble_error {e : AssemblyError}
    (assembled : (assemble api c.options {}).outcome = .error e) :
    (run m w request).outcome = .error (.ofAssembly e) := by
  simp only [run, inputs, assembled]

theorem outcome_run_of_assemble_ok {d : Document}
    (assembled : (assemble api c.options {}).outcome = .ok d) :
    (run m w request).outcome =
      (deliver w c request d (assemble api c.options {}).registry.size).outcome := by
  simp only [run, inputs, assembled]

end Steps

/-- **A run breaks down exactly of these causes.** -/
theorem run_eq_broken :
    (run m w request).outcome = .error (.broken cause) ↔ Escapes m w request cause := by
  constructor
  · intro h
    cases inputs : loadInputs m w (FilePath.ofText request.config) with
    | error e =>
      rw [outcome_run_of_inputs_error inputs] at h
      obtain rfl := Except.error.inj h
      obtain ⟨fault, load, rfl⟩ | ⟨load, rfl⟩ | ⟨c, fault, loaded, faults, own, rfl⟩ :=
        loadInputs_eq_broken.mp inputs
      · obtain ⟨content, read, noValue⟩ :=
          (Configuration.load_eq_ofRead (e := .scalar fault) nofun).mp load
        exact .scalar read noValue
      · obtain ⟨content, v, read, value, hasNull⟩ := Configuration.load_eq_nullInPath.mp load
        exact .setting read value hasNull
      · exact .declaration loaded faults own
    | ok both =>
      obtain ⟨c, api⟩ := both
      cases assembled : (assemble api c.options {}).outcome with
      | error e =>
        rw [outcome_run_of_assemble_error inputs assembled] at h
        obtain ⟨⟨path, rfl⟩, rfl⟩ := ofAssembly_eq_broken.mp (Except.error.inj h)
        exact .noItem inputs assembled
      | ok d =>
        rw [outcome_run_of_assemble_ok inputs assembled] at h
        obtain ⟨rfl, asked | ⟨path, located, written, unwritable⟩⟩ := deliver_eq_broken.mp h
        · obtain ⟨name, named, hasNull⟩ := destination?_eq_none.mp asked
          exact .asked inputs assembled named hasNull
        · exact .file inputs assembled located written unwritable
  · intro h
    cases h with
    | scalar read noValue =>
      have load := (Configuration.load_eq_ofRead (e := .scalar _) nofun).mpr ⟨_, read, noValue⟩
      exact outcome_run_of_inputs_error (loadInputs_eq_broken.mpr (.inl ⟨_, load, rfl⟩))
    | setting read value hasNull =>
      have load := Configuration.load_eq_nullInPath.mpr ⟨_, _, read, value, hasNull⟩
      exact outcome_run_of_inputs_error (loadInputs_eq_broken.mpr (.inr (.inl ⟨load, rfl⟩)))
    | declaration loaded faults own =>
      exact outcome_run_of_inputs_error
        (loadInputs_eq_broken.mpr (.inr (.inr ⟨_, _, loaded, faults, own, rfl⟩)))
    | noItem inputs assembled =>
      rw [outcome_run_of_assemble_error inputs assembled]
      rfl
    | asked inputs assembled named hasNull =>
      rw [outcome_run_of_assemble_ok inputs assembled, deliver_eq_broken]
      exact ⟨rfl, .inl (destination?_eq_none.mpr ⟨_, named, hasNull⟩)⟩
    | file inputs assembled located written unwritable =>
      rw [outcome_run_of_assemble_ok inputs assembled, deliver_eq_broken]
      exact ⟨rfl, .inr ⟨_, located, written, unwritable⟩⟩

/-- **A run is left open exactly for its configuration.** -/
theorem run_eq_unpaired : (run m w request).outcome = .error .unpaired ↔ Unpaired w request := by
  have read : Configuration.load w (FilePath.ofText request.config) = .error .unpaired ↔
      Unpaired w request := Configuration.load_eq_ofRead (e := .unpaired) nofun
  constructor
  · intro h
    cases inputs : loadInputs m w (FilePath.ofText request.config) with
    | error e =>
      rw [outcome_run_of_inputs_error inputs] at h
      obtain rfl := Except.error.inj h
      obtain ⟨f, failed, left⟩ | ⟨c, -, f, -, left⟩ := loadInputs_eq_error.mp inputs
      · obtain rfl := ofConfiguration_eq_unpaired.mp left
        exact read.mp failed
      · exact absurd left (ofLoading_ne_unpaired f)
    | ok both =>
      obtain ⟨c, api⟩ := both
      cases assembled : (assemble api c.options {}).outcome with
      | error e =>
        rw [outcome_run_of_assemble_error inputs assembled] at h
        exact absurd (Except.error.inj h) (ofAssembly_ne_unpaired e)
      | ok d =>
        rw [outcome_run_of_assemble_ok inputs assembled] at h
        exact absurd h deliver_ne_unpaired
  · intro h
    exact outcome_run_of_inputs_error (loadInputs_eq_error.mpr (.inl ⟨_, read.mpr h, rfl⟩))

end Generation

/-! ## Commands -/

section Commands

variable {m : Modules} {w : Workspace} {request : GenerationRequest} {verbose : Bool}
  {run : GenerationRun} {cause : Breakdown}

theorem exit_reportOn_of_ok {o : GenerationOutcome} (h : run.outcome = .ok o) :
    ∃ r, Command.reportOn verbose run = .ok r ∧ r.exit = 0 := by
  simp only [Command.reportOn, h]
  exact ⟨_, rfl, rfl⟩

theorem exit_reportOn_of_refused {e : GenerationError} (h : run.outcome = .error (.refused e)) :
    ∃ r, Command.reportOn verbose run = .ok r ∧ r.exit = 1 := by
  simp only [Command.reportOn, h]
  exact ⟨_, rfl, rfl⟩

theorem exit_reportOn_of_ending {exit : Nat} {shown : String}
    (h : run.outcome = .error (.broken cause)) (ending : cause.ending? = some (exit, shown)) :
    ∃ r, Command.reportOn verbose run = .ok r ∧ r.exit = exit := by
  simp only [Command.reportOn, h, ending]
  exact ⟨_, rfl, rfl⟩

theorem reportOn_eq_broken :
    Command.reportOn verbose run = .error (.broken cause) ↔
      run.outcome = .error (.broken cause) ∧ cause.ending? = none := by
  unfold Command.reportOn
  rcases run.outcome with (e | cause' | _) | o
  · simp
  · cases ending : cause'.ending? with
    | none =>
      simp only [ending, Except.error.injEq, Command.Stop.broken.injEq,
        GenerationFailure.broken.injEq]
      exact ⟨fun same => ⟨same, same ▸ ending⟩, And.left⟩
    | some e =>
      simp only [ending, reduceCtorEq, Except.error.injEq, GenerationFailure.broken.injEq,
        false_iff]
      rintro ⟨rfl, own⟩
      cases ending.symm.trans own
  · simp
  · simp

/-- The command of a run reports on it. -/
theorem report_run_render {args : List String}
    (h : Command.Task.ofArguments args = .ok (.render request verbose)) :
    (Command.run m w args).report = Command.reportOn verbose (Generation.run m w request) := by
  simp only [Command.run, h, Command.perform]

end Commands

/-- **Every failure of a run is refused, but for those on the list** — a run breaks down exactly of
the causes in `Generation.Escapes`, and it is left open exactly if its configuration holds half of a
surrogate pair.  Its command ends with exit code 0 if there is an outcome, with 1 if the run is
refused, with a code of its own for a breakdown that ends every command line so, and without one
exactly for the other breakdowns. -/
theorem run_breaks_down_iff (m : Modules) (w : Workspace) (request : GenerationRequest) :
    (∀ cause, (Generation.run m w request).outcome = .error (.broken cause) ↔
      Generation.Escapes m w request cause) ∧
    ((Generation.run m w request).outcome = .error .unpaired ↔ Generation.Unpaired w request) ∧
    ∀ args verbose, Command.Task.ofArguments args = .ok (.render request verbose) →
      (∀ o, (Generation.run m w request).outcome = .ok o →
        ∃ r, (Command.run m w args).report = .ok r ∧ r.exit = 0) ∧
      (∀ e, (Generation.run m w request).outcome = .error (.refused e) →
        ∃ r, (Command.run m w args).report = .ok r ∧ r.exit = 1) ∧
      (∀ cause exit shown, Generation.Escapes m w request cause →
        cause.ending? = some (exit, shown) →
          ∃ r, (Command.run m w args).report = .ok r ∧ r.exit = exit) ∧
      ∀ cause, (Command.run m w args).report = .error (.broken cause) ↔
        Generation.Escapes m w request cause ∧ cause.ending? = none := by
  refine ⟨fun _ => Generation.run_eq_broken, Generation.run_eq_unpaired, fun args verbose h => ?_⟩
  rw [report_run_render h]
  refine ⟨fun _ => exit_reportOn_of_ok, fun _ => exit_reportOn_of_refused,
    fun cause exit shown escapes ending => ?_, fun cause => ?_⟩
  · exact exit_reportOn_of_ending (Generation.run_eq_broken.mpr escapes) ending
  · rw [reportOn_eq_broken, Generation.run_eq_broken]

/-- A working directory with a configuration that names a target, and an empty module. -/
def targetWorkspace (target : String) : Workspace where
  directory := ["b"]
  directories := [["b"]]
  files := [(["b", "c"], "declaration: \x7btarget: " ++ target ++ "\x7d"), (["b", "m.py"], "")]

/-- An ordinary failure that is waited for nowhere but in a file. -/
def boom : CodeFailure where
  message := "boom"

/-- The module with code that fails. -/
def failingModules : Modules where
  files := [(["b", "m.py"], .failing boom)]

/-- The code of a module with a dotted name fails: the command has no exit code. -/
theorem run_breaks_down_iff_dotted :
    Command.Task.ofArguments ["render", "--config", "c"] =
      .ok (.render ⟨"c", none, false⟩ false) ∧
    (Command.run failingModules (targetWorkspace "m:API") ["render", "--config", "c"]).report =
      .error (.broken (.declaration (.failed boom))) := by
  have task : Command.Task.ofArguments ["render", "--config", "c"] =
      .ok (.render ⟨"c", none, false⟩ false) := by decide +kernel
  have loaded : Configuration.load (targetWorkspace "m:API") (FilePath.ofText "c") = .ok
      { path := ⟨.relative, ["c"]⟩, target := "m:API", basePath := ⟨.slash, ["b"]⟩
        outputPath := ⟨.slash, ["b", "openapi.yaml"]⟩, format := .yaml
        unknownSchemes := .passThrough, defaultResponseDescription := "OK" } := by decide +kernel
  have split : Modules.splitTarget? "m:API" = some ("m", "API") := by decide +kernel
  have faults : failingModules.Faults (targetWorkspace "m:API") "m:API" ⟨.slash, ["b"]⟩
      (.failed boom) :=
    .module split (.dotted (by decide +kernel) (by decide) (.first rfl) rfl)
  have own : (ModuleFault.failed boom).Unaccounted := by
    rintro f ⟨⟩
    rfl
  have command := (run_breaks_down_iff failingModules (targetWorkspace "m:API")
    ⟨"c", none, false⟩).2.2 _ _ task
  exact ⟨task, (command.2.2.2 _).mpr ⟨.declaration loaded faults own, rfl⟩⟩

/-- **A module whose code fails is refused if a file names it, but not if a dotted name does** —
with configurations that are both in order. -/
theorem dotted_module_escapes :
    (∃ c, Configuration.load (targetWorkspace "m:API") (FilePath.ofText "c") = .ok c) ∧
    (Generation.run failingModules (targetWorkspace "m:API") ⟨"c", none, false⟩).outcome =
      .error (.broken (.declaration (.failed boom))) ∧
    (Generation.run failingModules (targetWorkspace "m.py:API") ⟨"c", none, false⟩).outcome =
      .error (.refused (.declaration (.fileFailed "/b/m.py" "boom"))) := by
  refine ⟨⟨⟨⟨.relative, ["c"]⟩, "m:API", ⟨.slash, ["b"]⟩, ⟨.slash, ["b", "openapi.yaml"]⟩, .yaml,
    .passThrough, "OK"⟩, ?_⟩, ?_, ?_⟩ <;> decide +kernel

end OpenApi
