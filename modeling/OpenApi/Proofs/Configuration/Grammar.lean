import OpenApi.Proofs.Generation.Breakdown

/-!
# Proofs/Configuration/Grammar — which values are configurations

    root ─┬─ declaration ─── target                      text with a colon
          ├─ output ───────┬ format                      yaml, json
          │                ╰ path                        text
          ╰─ assembly ─────┬ unknown_security_schemes    pass-through, error
                           ╰ default_response_description

Every key admits some values (`Key.Admits`), and the keys are checked from the top to the bottom
(`Key.all`).  A value is read as settings if each key admits what stands under it, and is refused
for the first key that does not.  One thing lies outside of this grammar: a relative path of the
document with a null character, which the path admits but which cannot be resolved (`NullPath`).
-/

namespace OpenApi

namespace FilePath

/-- A path as seen from a directory: an absolute one as it is, a relative one resolved. -/
def seenFrom (p base : FilePath) : FilePath :=
  if p.isAbsolute then p else p.resolve base

theorem isAbsolute_seenFrom (p base : FilePath) : (p.seenFrom base).isAbsolute = true := by
  unfold seenFrom
  split
  · assumption
  · exact isAbsolute_resolve p base

end FilePath

namespace Configuration

/-! ## The grammar -/

/-- The keys of a configuration; the root is what the file means as a whole. -/
inductive Key where
  | root
  | declaration
  | target
  | output
  | format
  | path
  | assembly
  | unknownSchemes
  | description
deriving DecidableEq, Repr

namespace Key

/-- The keys in the order they are checked. -/
def all : List Key :=
  [.root, .declaration, .target, .output, .format, .path, .assembly, .unknownSchemes, .description]

theorem mem_all (k : Key) : k ∈ all := by cases k <;> decide

/-- What stands under a key. -/
def value? (v : Yaml.Value) : Key → Option Yaml.Value
  | .root => some v
  | .declaration => v.get? "declaration"
  | .target => (v.get? "declaration").bind (·.get? "target")
  | .output => v.get? "output"
  | .format => (v.get? "output").bind (·.get? "format")
  | .path => (v.get? "output").bind (·.get? "path")
  | .assembly => v.get? "assembly"
  | .unknownSchemes => (v.get? "assembly").bind (·.get? "unknown_security_schemes")
  | .description => (v.get? "assembly").bind (·.get? "default_response_description")

/-- **What may stand under a key.** -/
def Admits (o : Option Yaml.Value) : Key → Prop
  | .root => o = some .null ∨ ∃ ms, o = some (.mapping ms)
  | .declaration => ∃ ms, o = some (.mapping ms)
  | .target => ∃ s, o = some (.str s) ∧ Text.trim s ≠ "" ∧ ':' ∈ s.toList
  | .output | .assembly => o = none ∨ o = some .null ∨ ∃ ms, o = some (.mapping ms)
  | .format => o = none ∨ ∃ s, o = some (.str s) ∧ Text.lower (Text.trim s) ∈ ["yaml", "json"]
  | .path => o = none ∨ o = some .null ∨ ∃ s, o = some (.str s)
  | .unknownSchemes =>
    o = none ∨ ∃ s, o = some (.str s) ∧ Text.lower (Text.trim s) ∈ ["pass-through", "error"]
  | .description => o = none ∨ ∃ s, o = some (.str s) ∧ Text.trim s ≠ ""

section Decidable

variable {o : Option Yaml.Value}

instance decidableAbsent : Decidable (o = none) := decidable_of_iff _ Option.isNone_iff_eq_none

instance decidableNull : Decidable (o = some .null) :=
  match o with
  | some .null => isTrue rfl
  | none | some (.str _) | some (.scalar ..) | some (.sequence _) | some (.mapping _)
  | some .other => isFalse (by simp)

instance decidableMapping : Decidable (∃ ms, o = some (.mapping ms)) :=
  match o with
  | some (.mapping ms) => isTrue ⟨ms, rfl⟩
  | none | some .null | some (.str _) | some (.scalar ..) | some (.sequence _)
  | some .other => isFalse (by simp)

instance decidableText (P : String → Prop) [DecidablePred P] :
    Decidable (∃ s, o = some (.str s) ∧ P s) :=
  match o with
  | some (.str s) => decidable_of_iff (P s) (by simp)
  | none | some .null | some (.scalar ..) | some (.sequence _) | some (.mapping _)
  | some .other => isFalse (by simp)

/-- Whether a value may stand under a key can be computed. -/
instance decidableAdmits (k : Key) : Decidable (k.Admits o) :=
  match k with
  | .root => inferInstanceAs (Decidable (_ ∨ _))
  | .declaration => inferInstanceAs (Decidable (∃ _, _))
  | .target => inferInstanceAs (Decidable (∃ _, _))
  | .output | .assembly => inferInstanceAs (Decidable (_ ∨ _ ∨ _))
  | .format | .unknownSchemes | .description => inferInstanceAs (Decidable (_ ∨ _))
  | .path => decidable_of_iff (o = none ∨ o = some .null ∨ ∃ s, o = some (.str s) ∧ True)
      (by simp [Admits])

end Decidable

end Key

/-- What is said about a setting that has to be a text: it is none, it is blank, or something else
is wrong with it. -/
def complaintOn (setting : String) (otherwise : ConfigurationError) :
    Option Yaml.Value → ConfigurationError
  | some (.str s) => if Text.trim s = "" then .blank setting else otherwise
  | _ => .notAString setting

/-- **What is said about a value that its key does not admit.** -/
def Key.complaint (o : Option Yaml.Value) : Key → ConfigurationError
  | .root => .rootNotMapping
  | .declaration => .missingSection "declaration"
  | .target => complaintOn "declaration.target" .targetForm o
  | .output => .sectionNotMapping "output"
  | .format => complaintOn "output.format" (.notOneOf "output.format" ["yaml", "json"]) o
  | .path => .notAString "output.path"
  | .assembly => .sectionNotMapping "assembly"
  | .unknownSchemes =>
    complaintOn "assembly.unknown_security_schemes"
      (.notOneOf "assembly.unknown_security_schemes" ["pass-through", "error"]) o
  | .description =>
    complaintOn "assembly.default_response_description"
      (.blank "assembly.default_response_description") o

/-- **The path of the document is relative and has a null character.** -/
def NullPath (v : Yaml.Value) : Prop :=
  ∃ s, Key.path.value? v = some (.str s) ∧
    (FilePath.ofText (Text.trim s)).isAbsolute = false ∧
      (FilePath.ofText (Text.trim s)).hasNull = true

instance (v : Yaml.Value) : Decidable (NullPath v) := inferInstanceAs (Decidable (∃ _, _))

/-- **What a key is wrong about.** -/
inductive Offends (v : Yaml.Value) : Key → Failure → Prop
  | refused {k : Key} (refuses : ¬ k.Admits (k.value? v)) :
      Offends v k (.refused (k.complaint (k.value? v)))
  | nullInPath (null : NullPath v) : Offends v .path .nullInPath

/-- **Nothing is wrong about a key.** -/
def InOrder (v : Yaml.Value) (k : Key) : Prop :=
  k.Admits (k.value? v) ∧ (k = .path → ¬ NullPath v)

/-! ## The settings -/

/-- A text without the blanks around it. -/
def trimmed? : Option Yaml.Value → Option String
  | some (.str s) => some (Text.trim s)
  | _ => none

/-- The value that a text names by its word in any case, and else the first one. -/
def named {α : Type} (default : α) (others : List α) (word : α → String)
    (o : Option Yaml.Value) : α :=
  ((trimmed? o).bind fun s => (default :: others).find? (word · = Text.lower s)).getD default

/-- The name of the document: what stands there, if it is not blank, or the name for its format. -/
def documentName (format : OutputFormat) (o : Option Yaml.Value) : String :=
  ((trimmed? o).filter (· ≠ "")).getD (defaultOutput format)

/-- **The settings in a value**, of a file in a directory. -/
def settings (path base : FilePath) (v : Yaml.Value) : Configuration :=
  let format := named OutputFormat.yaml [.json] OutputFormat.word (Key.format.value? v)
  let output := FilePath.ofText (documentName format (Key.path.value? v))
  { path
    basePath := base
    target := (trimmed? (Key.target.value? v)).getD ""
    format
    outputPath := output.seenFrom base
    unknownSchemes :=
      named SchemePolicy.passThrough [.error] SchemePolicy.word (Key.unknownSchemes.value? v)
    defaultResponseDescription := (trimmed? (Key.description.value? v)).getD "OK" }

/-! ## One setting -/

section Settings

variable {o : Option Yaml.Value} {s setting : String} {e : ConfigurationError}

/-- A section as it is read: what is no mapping has no members. -/
def entered : Option Yaml.Value → Yaml.Value
  | some (.mapping ms) => .mapping ms
  | _ => .mapping []

theorem get?_entered (o : Option Yaml.Value) (key : String) :
    (entered o).get? key = o.bind (·.get? key) := by
  rcases o with _ | v
  · rfl
  · cases v <;> rfl

theorem requiredSection_of_admits (h : Key.declaration.Admits o) :
    requiredSection "declaration" o = .ok (entered o) := by
  obtain ⟨ms, rfl⟩ := h
  rfl

theorem requiredSection_of_not_admits (h : ¬ Key.declaration.Admits o) :
    requiredSection "declaration" o = .error (.missingSection "declaration") := by
  rcases o with _ | v
  · rfl
  · cases v with
    | mapping ms => exact absurd ⟨ms, rfl⟩ h
    | _ => rfl

theorem optionalSection_of_admits (h : o = none ∨ o = some .null ∨ ∃ ms, o = some (.mapping ms)) :
    optionalSection setting o = .ok (entered o) := by
  obtain rfl | rfl | ⟨ms, rfl⟩ := h <;> rfl

theorem optionalSection_of_not_admits
    (h : ¬ (o = none ∨ o = some .null ∨ ∃ ms, o = some (.mapping ms))) :
    optionalSection setting o = .error (.sectionNotMapping setting) := by
  rcases o with _ | v
  · exact absurd (.inl rfl) h
  · cases v with
    | null => exact absurd (.inr (.inl rfl)) h
    | mapping ms => exact absurd (.inr (.inr ⟨ms, rfl⟩)) h
    | _ => rfl

theorem text_of_not_blank (h : Text.trim s ≠ "") :
    text setting (some (.str s)) = .ok (Text.trim s) := if_neg h

/-- What is refused as a text is refused with a complaint on it. -/
theorem text_of_refused (otherwise : ConfigurationError)
    (h : ∀ s, o = some (.str s) → Text.trim s = "") :
    text setting o = .error (complaintOn setting otherwise o) := by
  rcases o with _ | v
  · rfl
  · cases v with
    | str s => simp [text, complaintOn, h s rfl]
    | _ => rfl

theorem text?_of_admits (h : o = none ∨ o = some .null ∨ ∃ s, o = some (.str s)) :
    text? setting o = .ok ((trimmed? o).filter (· ≠ "")) := by
  obtain rfl | rfl | ⟨s, rfl⟩ := h
  · rfl
  · rfl
  · by_cases blank : Text.trim s = "" <;> simp [text?, trimmed?, blank, Option.filter]

theorem text?_of_not_admits (h : ¬ (o = none ∨ o = some .null ∨ ∃ s, o = some (.str s))) :
    text? setting o = .error (.notAString setting) := by
  rcases o with _ | v
  · exact absurd (.inl rfl) h
  · cases v with
    | null => exact absurd (.inr (.inl rfl)) h
    | str s => exact absurd (.inr (.inr ⟨s, rfl⟩)) h
    | _ => rfl

variable {α : Type} {default : α} {others : List α} {word : α → String}

/-- No word is empty, so a text that names a value is not blank. -/
theorem choice_of_admits (words : List String) (spelled : (default :: others).map word = words)
    (shown : "" ∉ words)
    (h : o = none ∨ ∃ s, o = some (.str s) ∧ Text.lower (Text.trim s) ∈ words) :
    choice setting default others word o = .ok (named default others word o) := by
  obtain rfl | ⟨s, rfl, hs⟩ := h
  · rfl
  · have shown : Text.trim s ≠ "" := fun blank => shown (by rwa [blank] at hs)
    obtain ⟨a, mem, ha⟩ := List.mem_map.mp (spelled ▸ hs)
    obtain ⟨b, found⟩ := Option.isSome_iff_exists.mp
      (List.find?_isSome.mpr ⟨a, mem, decide_eq_true ha⟩ :
        ((default :: others).find? (word · = Text.lower (Text.trim s))).isSome = true)
    simp only [choice, text_of_not_blank shown, bind, Except.bind, named, trimmed?,
      Option.bind_some, found, Option.getD_some]

theorem choice_of_not_admits (words : List String) (spelled : (default :: others).map word = words)
    (h : ¬ (o = none ∨ ∃ s, o = some (.str s) ∧ Text.lower (Text.trim s) ∈ words)) :
    choice setting default others word o =
      .error (complaintOn setting (.notOneOf setting words) o) := by
  obtain ⟨present, other⟩ := not_or.mp h
  obtain ⟨v, rfl⟩ := Option.ne_none_iff_exists'.mp present
  by_cases shown : ∃ s, v = .str s ∧ Text.trim s ≠ ""
  · obtain ⟨s, rfl, hs⟩ := shown
    have missing : (default :: others).find? (word · = Text.lower (Text.trim s)) = none := by
      refine List.find?_eq_none.mpr fun a mem found => other ⟨s, rfl, ?_⟩
      exact spelled ▸ List.mem_map.mpr ⟨a, mem, of_decide_eq_true found⟩
    simp only [choice, text_of_not_blank hs, bind, Except.bind, missing, complaintOn, hs, if_false,
      spelled]
  · have refused : text setting (some v) =
        .error (complaintOn setting (.notOneOf setting words) (some v)) :=
      text_of_refused _ fun s hs =>
        by_contra fun blank => shown ⟨s, Option.some.inj hs, blank⟩
    simp only [choice, refused, bind, Except.bind]

end Settings

/-- A target is a text with a colon, with or without the blanks around it. -/
theorem target_of_admits {o : Option Yaml.Value} (h : Key.target.Admits o) :
    text "declaration.target" o = .ok ((trimmed? o).getD "") ∧
      ((trimmed? o).getD "").toList.contains ':' = true := by
  obtain ⟨s, rfl, shown, colon⟩ := h
  refine ⟨text_of_not_blank shown, ?_⟩
  simpa [trimmed?, Text.trim, Text.mem_trimEnds (by decide : Text.isBlank ':' = false)] using colon

theorem target_of_not_admits {o : Option Yaml.Value} (h : ¬ Key.target.Admits o) :
    text "declaration.target" o = .error (Key.target.complaint o) ∨
      ∃ s, text "declaration.target" o = .ok s ∧ s.toList.contains ':' = false ∧
        Key.target.complaint o = .targetForm := by
  by_cases shown : ∃ s, o = some (.str s) ∧ Text.trim s ≠ ""
  · obtain ⟨s, rfl, hs⟩ := shown
    refine .inr ⟨Text.trim s, text_of_not_blank hs, ?_, if_neg hs⟩
    rw [← Bool.not_eq_true, List.contains_iff_mem, Text.trim, String.toList_ofList,
      Text.mem_trimEnds (by decide)]
    exact fun colon => h ⟨s, rfl, hs, colon⟩
  · exact .inl (text_of_refused .targetForm fun s hs => by_contra fun blank => shown ⟨s, hs, blank⟩)

theorem located_of_not {base p : FilePath}
    (h : ¬ (p.isAbsolute = false ∧ p.hasNull = true)) : located base p = .ok (p.seenFrom base) := by
  unfold located FilePath.seenFrom
  split
  · rfl
  · next relative =>
    rw [if_neg fun null => h ⟨by simpa using relative, null⟩]

section DocumentName

variable {o : Option Yaml.Value} {s : String} {format : OutputFormat}

theorem documentName_of_text (shown : Text.trim s ≠ "") :
    documentName format (some (.str s)) = Text.trim s := by
  simp [documentName, trimmed?, shown, Option.filter]

theorem documentName_of_blank (h : ¬ ∃ s, o = some (.str s) ∧ Text.trim s ≠ "") :
    documentName format o = defaultOutput format := by
  rcases o with _ | v
  · rfl
  · cases v with
    | str s =>
      have blank : Text.trim s = "" := by_contra fun shown => h ⟨s, rfl, shown⟩
      simp [documentName, trimmed?, blank, Option.filter]
    | _ => rfl

theorem not_isAbsolute_defaultOutput (format : OutputFormat) :
    (FilePath.ofText (defaultOutput format)).isAbsolute = false := by
  cases format <;> decide +kernel

end DocumentName

/-- No name that the document has by default has a null character. -/
theorem nullPath_iff {v : Yaml.Value} (format : OutputFormat) : NullPath v ↔
    (FilePath.ofText (documentName format (Key.path.value? v))).isAbsolute = false ∧
      (FilePath.ofText (documentName format (Key.path.value? v))).hasNull = true := by
  have byDefault : ¬ (FilePath.ofText (defaultOutput format)).hasNull = true := by
    rw [not_hasNull_defaultOutput]
    decide
  rw [NullPath]
  generalize Key.path.value? v = o
  by_cases text : ∃ s, o = some (.str s) ∧ Text.trim s ≠ ""
  · obtain ⟨s, rfl, shown⟩ := text
    rw [documentName_of_text shown]
    constructor
    · rintro ⟨_, ⟨⟩, null⟩
      exact null
    · exact fun null => ⟨s, rfl, null⟩
  · rw [documentName_of_blank text]
    refine iff_of_false ?_ fun null => byDefault null.2
    rintro ⟨s, rfl, -, null⟩
    have blank : Text.trim s = "" := by_contra fun shown => text ⟨s, rfl, shown⟩
    rw [blank] at null
    revert null
    decide

/-! ## One key after the other -/

/-- **Keys that are checked in their order** — there is a result if all are in order, and else the
failure for the first that is not. -/
inductive Checks {α : Type} (v : Yaml.Value) (a : α) (ks : List Key) : Except Failure α → Prop
  | passed (inOrder : ∀ k ∈ ks, InOrder v k) : Checks v a ks (.ok a)
  | failed {before after : List Key} {k : Key} {f : Failure} (split : ks = before ++ k :: after)
      (inOrder : ∀ j ∈ before, InOrder v j) (offends : Offends v k f) : Checks v a ks (.error f)

theorem Offends.not_inOrder {v : Yaml.Value} {k : Key} {f : Failure} (h : Offends v k f) :
    ¬ InOrder v k := by
  intro inOrder
  cases h with
  | refused refuses => exact refuses inOrder.1
  | nullInPath null => exact inOrder.2 rfl null

namespace Checks

section

variable {α β : Type} {v : Yaml.Value} {a : α} {b : β} {k : Key} {ks : List Key} {f : Failure}
  {x : Except Failure α} {rest : α → Except Failure β}

theorem of_inOrder (h : InOrder v k) : Checks v a [k] (.ok a) := .passed (by simpa using h)

/-- What is wrong about the first key is the failure. -/
theorem of_offends (h : Offends v k f) : Checks v a (k :: ks) (.error f) :=
  .failed (show k :: ks = [] ++ k :: ks from rfl) (by simp) h

/-- A key that is in order leaves it to the others. -/
theorem cons (first : InOrder v k) {r : Except Failure α} (others : Checks v a ks r) :
    Checks v a (k :: ks) r := by
  cases others with
  | passed others => exact .passed (List.forall_mem_cons.mpr ⟨first, others⟩)
  | failed split before offends =>
    exact .failed (congrArg (k :: ·) split) (List.forall_mem_cons.mpr ⟨first, before⟩) offends

/-- **One key is checked, and then the others.** -/
theorem bind (first : Checks v a [k] x) (others : Checks v b ks (rest a)) :
    Checks v b (k :: ks) (x >>= rest) := by
  cases first with
  | passed inOrder => exact .cons (inOrder k (List.mem_singleton_self k)) others
  | failed split before offends =>
    obtain ⟨rfl, h⟩ | ⟨-, h⟩ := List.singleton_eq_append_iff.mp split
    · obtain rfl := (List.cons.inj h).1
      exact of_offends offends
    · cases h

end

/-! ### The keys -/

variable {v : Yaml.Value} {β : Type} {b : β} {ks : List Key}

/-- A setting is read if its key admits what stands there, and else it is refused. -/
theorem of_setting {α : Type} {a : α} {k : Key} {x : Except ConfigurationError α}
    (other : k ≠ .path) (ok : k.Admits (k.value? v) → x = .ok a)
    (refused : ¬ k.Admits (k.value? v) → x = .error (k.complaint (k.value? v))) :
    Checks v a [k] (checked x) := by
  by_cases admits : k.Admits (k.value? v)
  · rw [ok admits]
    exact of_inOrder ⟨admits, fun path => absurd path other⟩
  · rw [refused admits]
    exact of_offends (.refused admits)

theorem declaration : Checks v (entered (v.get? "declaration")) [.declaration]
    (checked (requiredSection "declaration" (v.get? "declaration"))) :=
  of_setting (by decide) requiredSection_of_admits requiredSection_of_not_admits

theorem output : Checks v (entered (v.get? "output")) [.output]
    (checked (optionalSection "output" (v.get? "output"))) :=
  of_setting (by decide) optionalSection_of_admits optionalSection_of_not_admits

theorem format : Checks v (named OutputFormat.yaml [.json] OutputFormat.word (Key.format.value? v))
    [.format] (checked (choice "output.format" OutputFormat.yaml [.json] OutputFormat.word
      (Key.format.value? v))) :=
  of_setting (by decide) (choice_of_admits ["yaml", "json"] rfl (by decide))
    (choice_of_not_admits ["yaml", "json"] rfl)

theorem assembly : Checks v (entered (v.get? "assembly")) [.assembly]
    (checked (optionalSection "assembly" (v.get? "assembly"))) :=
  of_setting (by decide) optionalSection_of_admits optionalSection_of_not_admits

theorem unknownSchemes : Checks v
    (named SchemePolicy.passThrough [.error] SchemePolicy.word (Key.unknownSchemes.value? v))
    [.unknownSchemes] (checked (choice "assembly.unknown_security_schemes"
      SchemePolicy.passThrough [.error] SchemePolicy.word (Key.unknownSchemes.value? v))) :=
  of_setting (by decide) (choice_of_admits ["pass-through", "error"] rfl (by decide))
    (choice_of_not_admits ["pass-through", "error"] rfl)

theorem description_of_some {o : Yaml.Value} (h : Key.description.value? v = some o) :
    Checks v ((trimmed? (Key.description.value? v)).getD "OK") [.description]
      (checked (text "assembly.default_response_description" (some o))) := by
  refine of_setting (by decide) ?_ ?_ <;> rw [h]
  · rintro (absent | ⟨s, there, shown⟩)
    · cases absent
    · obtain rfl := Option.some.inj there
      exact text_of_not_blank shown
  · intro refuses
    exact text_of_refused _ fun s hs => by_contra fun blank => refuses (.inr ⟨s, hs, blank⟩)

/-- The target is a text, and then it has a colon. -/
theorem target {rest : String → Except Failure β}
    (others : Checks v b ks (rest ((trimmed? (Key.target.value? v)).getD ""))) :
    Checks v b (.target :: ks) (checked (text "declaration.target" (Key.target.value? v)) >>=
      fun t => if (!t.toList.contains ':') = true then
        Except.error (.refused .targetForm) >>= fun _ : Unit => rest t else rest t) := by
  by_cases admits : Key.target.Admits (Key.target.value? v)
  · obtain ⟨read, colon⟩ := target_of_admits admits
    rw [read]
    change Checks _ _ _ (if _ then _ else _)
    rw [colon]
    exact .cons ⟨admits, fun path => by cases path⟩ others
  · have offends := Offends.refused admits
    obtain read | ⟨t, read, colon, complaint⟩ := target_of_not_admits admits
    · rw [read]
      exact of_offends offends
    · rw [complaint] at offends
      rw [read]
      change Checks _ _ _ (if _ then _ else _)
      rw [colon]
      exact of_offends offends

/-- The path of the document is a text, and then it can be resolved. -/
theorem path {base : FilePath} {format : OutputFormat} {rest : FilePath → Except Failure β}
    (others : Checks v b ks (rest
      ((FilePath.ofText (documentName format (Key.path.value? v))).seenFrom base))) :
    Checks v b (.path :: ks) (checked (text? "output.path" (Key.path.value? v)) >>=
      fun name => located base (FilePath.ofText (name.getD (defaultOutput format))) >>= rest) := by
  by_cases admits : Key.path.Admits (Key.path.value? v)
  · rw [text?_of_admits admits]
    change Checks _ _ _ (located base (FilePath.ofText (documentName format _)) >>= _)
    by_cases null : NullPath v
    · obtain ⟨relative, hasNull⟩ := (nullPath_iff format).mp null
      rw [located_eq_error_iff.mpr ⟨rfl, relative, hasNull⟩]
      exact of_offends (.nullInPath null)
    · rw [located_of_not fun h => null ((nullPath_iff format).mpr h)]
      exact .cons ⟨admits, fun _ => null⟩ others
  · rw [text?_of_not_admits admits]
    exact of_offends (.refused admits)

end Checks

/-- The sections of a mapping are checked key by key. -/
theorem checks_sections (path base : FilePath) {v : Yaml.Value} (root : InOrder v .root)
    {ms : List (Yaml.Value × Yaml.Value)}
    (members : ∀ key, (Yaml.Value.mapping ms).get? key = v.get? key) :
    Checks v (settings path base v) Key.all (ofValue path base (.mapping ms)) := by
  rw [ofValue]
  dsimp only
  refine .cons root ?_
  change Checks _ _ _ (checked _ >>= _)
  simp only [members]
  refine Checks.declaration.bind ?_
  rw [get?_entered]
  refine .target ?_
  refine Checks.output.bind ?_
  simp only [get?_entered]
  refine Checks.format.bind ?_
  refine .path ?_
  refine Checks.assembly.bind ?_
  simp only [get?_entered]
  refine Checks.unknownSchemes.bind ?_
  split
  · next absent =>
    have absent : Key.description.value? v = none := absent
    refine Checks.bind (a := (trimmed? (Key.description.value? v)).getD "OK") ?_ (.passed (by simp))
    rw [absent]
    exact Checks.of_inOrder ⟨.inl absent, fun h => by cases h⟩
  · next there => exact (Checks.description_of_some there).bind (.passed (by simp))

/-- **The settings of a configuration are checked key by key.** -/
theorem checks_ofValue (path base : FilePath) (v : Yaml.Value) :
    Checks v (settings path base v) Key.all (ofValue path base v) := by
  cases v with
  | null => exact checks_sections path base ⟨.inl rfl, fun h => by cases h⟩ fun key => rfl
  | mapping ms =>
    exact checks_sections path base ⟨.inr ⟨ms, rfl⟩, fun h => by cases h⟩ fun key => rfl
  | _ => exact Checks.of_offends (.refused (k := .root) (by simp [Key.Admits, Key.value?]))

/-! ## Files -/

/-- What is wrong about a key is one thing only. -/
theorem Offends.unique {v : Yaml.Value} {k : Key} {f g : Failure} (hf : Offends v k f)
    (hg : Offends v k g) : f = g := by
  have admits : NullPath v → Key.path.Admits (Key.path.value? v) :=
    fun ⟨s, hs, _⟩ => .inr (.inr ⟨s, hs⟩)
  cases hf with
  | refused refuses =>
    cases hg with
    | refused _ => rfl
    | nullInPath null => exact absurd (admits null) refuses
  | nullInPath null =>
    cases hg with
    | refused refuses => exact absurd (admits null) refuses
    | nullInPath _ => rfl

/-- **The first key with something wrong**, and the failure for it. -/
def FirstOffence (v : Yaml.Value) (f : Failure) : Prop :=
  ∃ before k after, Key.all = before ++ k :: after ∧ (∀ j ∈ before, InOrder v j) ∧ Offends v k f

/-- There is one first key only. -/
theorem FirstOffence.unique {v : Yaml.Value} {f g : Failure} (hf : FirstOffence v f)
    (hg : FirstOffence v g) : f = g := by
  classical
  have found {f : Failure} : FirstOffence v f →
      ∃ k, Key.all.find? (fun k => ¬ InOrder v k) = some k ∧ Offends v k f := by
    rintro ⟨before, k, after, split, inOrder, offends⟩
    exact ⟨k, List.find?_eq_some_iff_append.mpr ⟨by simpa using offends.not_inOrder, before, after,
      split, by simpa using inOrder⟩, offends⟩
  obtain ⟨k, hk, offends⟩ := found hf
  obtain ⟨l, hl, offends'⟩ := found hg
  obtain rfl : k = l := Option.some.inj (hk.symm.trans hl)
  exact offends.unique offends'

theorem ofValue_eq_ok {path base : FilePath} {v : Yaml.Value} {c : Configuration} :
    ofValue path base v = .ok c ↔ (∀ k, InOrder v k) ∧ c = settings path base v := by
  have checks := checks_ofValue path base v
  generalize ofValue path base v = r at checks
  cases checks with
  | passed inOrder =>
    have all : ∀ k, InOrder v k := fun k => inOrder k k.mem_all
    simp [all, eq_comm]
  | failed _ _ offends =>
    exact iff_of_false (by simp) fun h => offends.not_inOrder (h.1 _)

theorem ofValue_eq_error {path base : FilePath} {v : Yaml.Value} {f : Failure} :
    ofValue path base v = .error f ↔ FirstOffence v f := by
  have checks := checks_ofValue path base v
  generalize ofValue path base v = r at checks
  cases checks with
  | passed inOrder =>
    refine iff_of_false (by simp) ?_
    rintro ⟨_, k, _, -, -, offends⟩
    exact offends.not_inOrder (inOrder k k.mem_all)
  | failed split before offends =>
    have first : FirstOffence v _ := ⟨_, _, _, split, before, offends⟩
    constructor
    · rintro ⟨⟩
      exact first
    · exact fun h => congrArg _ (first.unique h)

variable {w : Workspace} {path : FilePath} {content : String} {v : Yaml.Value}

/-- The settings of a file are those of its value. -/
theorem load_eq_ofValue (read : w.read path = .ok content)
    (value : Yaml.read depth content = .ok v) :
    load w path = ofValue path (w.resolve path).parent v := by
  rw [load_of_read read, value]

/-- A configuration has been read from a file whose keys are all in order. -/
theorem exists_value_of_load {c : Configuration} (h : load w path = .ok c) :
    ∃ content v, w.read path = .ok content ∧ Yaml.read depth content = .ok v ∧
      (∀ k, InOrder v k) ∧ c = settings path (w.resolve path).parent v := by
  by_cases readable : ∃ content, w.read path = .ok content
  · obtain ⟨content, read⟩ := readable
    rw [load_of_read read] at h
    split at h
    · cases h
    · next v value => exact ⟨content, v, read, value, ofValue_eq_ok.mp h⟩
  · obtain ⟨e, he⟩ | ⟨e, he⟩ := load_of_not_read (not_exists.mp readable) <;>
      rw [he] at h <;> cases h

/-- The document of a configuration has an absolute path. -/
theorem isAbsolute_outputPath {c : Configuration} (h : load w path = .ok c) :
    c.outputPath.isAbsolute = true := by
  obtain ⟨_, v, -, -, -, rfl⟩ := exists_value_of_load h
  exact FilePath.isAbsolute_seenFrom _ _

/-- The path of a document has been resolved, unless it stands in the configuration as an absolute
one. -/
theorem outputPath_resolved_or_written {c : Configuration} (h : load w path = .ok c) :
    (∃ p base : FilePath, c.outputPath = p.resolve base) ∨
      ∃ content v s, w.read path = .ok content ∧ Yaml.read depth content = .ok v ∧
        Key.path.value? v = some (.str s) ∧ c.outputPath = FilePath.ofText (Text.trim s) := by
  obtain ⟨content, v, read, value, -, rfl⟩ := exists_value_of_load h
  dsimp only [settings]
  rw [FilePath.seenFrom]
  split
  · next absolute =>
    by_cases text : ∃ s, Key.path.value? v = some (.str s) ∧ Text.trim s ≠ ""
    · obtain ⟨s, there, shown⟩ := text
      refine .inr ⟨content, v, s, read, value, there, ?_⟩
      rw [there, documentName_of_text shown]
    · -- the names by default are relative
      rw [documentName_of_blank text, not_isAbsolute_defaultOutput] at absolute
      cases absolute
  · exact .inl ⟨_, _, rfl⟩

/-- **A file is a configuration if each key admits what stands under it** and the path of the
document can be resolved; then its settings are those that stand there, and the document has an
absolute path.  Else the file is refused for the first key, in the order of `Key.all`, that does not
admit what stands under it, or ends in a failure of its own for a path with a null character.  A text
with half of a surrogate pair has no value, and so nothing is said of it. -/
theorem load_grammar (read : w.read path = .ok content)
    (value : Yaml.read depth content = .ok v) :
    (∀ c, load w path = .ok c ↔
      ((∀ k : Key, k.Admits (k.value? v)) ∧ ¬ NullPath v) ∧
        c = settings path (w.resolve path).parent v) ∧
    (∀ f, load w path = .error f ↔ FirstOffence v f) ∧
    (settings path (w.resolve path).parent v).outputPath.isAbsolute = true := by
  have inOrder : (∀ k, InOrder v k) ↔ (∀ k : Key, k.Admits (k.value? v)) ∧ ¬ NullPath v :=
    ⟨fun h => ⟨fun k => (h k).1, (h .path).2 rfl⟩, fun h k => ⟨h.1 k, fun _ => h.2⟩⟩
  rw [load_eq_ofValue read value]
  refine ⟨fun c => ?_, fun f => ofValue_eq_error, FilePath.isAbsolute_seenFrom _ _⟩
  rw [ofValue_eq_ok, inOrder]

/-- A directory with a configuration. -/
def fileWorkspace (content : String) : Workspace where
  directory := ["b"]
  directories := [["b"]]
  files := [(["b", "c"], content)]

/-- What can be computed of the value of a text is true of its value. -/
theorem exists_read {content : String} {p : Yaml.Value → Prop} [DecidablePred p]
    (h : ((Yaml.read depth content).toOption.any fun v => decide (p v)) = true) :
    ∃ v, Yaml.read depth content = .ok v ∧ p v := by
  cases value : Yaml.read depth content with
  | error e =>
    rw [value] at h
    cases h
  | ok v =>
    rw [value] at h
    exact ⟨v, rfl, of_decide_eq_true h⟩

/-- Words in any case and with blanks around them, and a null where nothing is needed. -/
theorem load_grammar_json :
    let content := "declaration:\n  target: ' m:A '\noutput:\n  format: JSON\nassembly:\n"
    (fileWorkspace content).read (.ofText "c") = .ok content ∧
    ∃ v, Yaml.read depth content = .ok v ∧ (∀ k : Key, k.Admits (k.value? v)) ∧ ¬ NullPath v ∧
      load (fileWorkspace content) (.ofText "c") = .ok
        { path := ⟨.relative, ["c"]⟩, target := "m:A", basePath := ⟨.slash, ["b"]⟩
          outputPath := ⟨.slash, ["b", "openapi.json"]⟩, format := .json
          unknownSchemes := .passThrough, defaultResponseDescription := "OK" } := by
  intro content
  have read : (fileWorkspace content).read (.ofText "c") = .ok content := by decide +kernel
  obtain ⟨v, value, admits, null, stored⟩ : ∃ v, Yaml.read depth content = .ok v ∧
      (∀ k ∈ Key.all, k.Admits (k.value? v)) ∧ ¬ NullPath v ∧
        settings (.ofText "c") ⟨.slash, ["b"]⟩ v =
          { path := ⟨.relative, ["c"]⟩, target := "m:A", basePath := ⟨.slash, ["b"]⟩
            outputPath := ⟨.slash, ["b", "openapi.json"]⟩, format := .json
            unknownSchemes := .passThrough, defaultResponseDescription := "OK" } :=
    exists_read (by decide +kernel)
  have all : ∀ k : Key, k.Admits (k.value? v) := fun k => admits k k.mem_all
  exact ⟨read, v, value, all, null, ((load_grammar read value).1 _).mpr ⟨⟨all, null⟩, stored.symm⟩⟩

/-- **A path that the grammar admits and that has no settings** — its null character is found only
when it is resolved. -/
theorem load_null_path :
    let content := "declaration:\n  target: m:A\noutput:\n  path: \"a\\0b\"\n"
    (fileWorkspace content).read (.ofText "c") = .ok content ∧
    (∃ v, Yaml.read depth content = .ok v ∧ ∀ k : Key, k.Admits (k.value? v)) ∧
      load (fileWorkspace content) (.ofText "c") = .error .nullInPath := by
  intro content
  refine ⟨by decide +kernel, ?_, by decide +kernel⟩
  obtain ⟨v, value, admits⟩ : ∃ v, Yaml.read depth content = .ok v ∧
      ∀ k ∈ Key.all, k.Admits (k.value? v) := exists_read (by decide +kernel)
  exact ⟨v, value, fun k => admits k k.mem_all⟩

end Configuration

end OpenApi
