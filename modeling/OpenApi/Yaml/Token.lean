import OpenApi.Yaml.Cursor
import OpenApi.Yaml.Numeral

/-!
# Yaml/Token — the tokens of a text

The indentation of a text becomes tokens of its own: the start and the end of block sequences and
block mappings.  A key that stands on the line of its value is seen as a key only at its colon; so
every place where a token could be such a key is remembered, and the key tokens are put in front of
it later.  Where a scalar or a version has no value, the tokens end with what is wrong with it.
-/

namespace OpenApi.Yaml

/-- A token. -/
inductive Token where
  | versionDirective (major : Nat)
  | tagDirective (handle tagPrefix : String)
  | otherDirective
  | documentStart
  | documentEnd
  | streamEnd
  | blockSequenceStart
  | blockMappingStart
  | blockEnd
  | flowSequenceStart
  | flowSequenceEnd
  | flowMappingStart
  | flowMappingEnd
  | blockEntry
  | flowEntry
  | key
  | value
  | aliasOf (name : String)
  | anchor (name : String)
  | tag (handle : Option String) (suffix : String)
  | scalar (text : String) (plain : Bool)
  | faulty (error : ReadError)
deriving DecidableEq, Repr

/-! ## Tags and directives -/

namespace Cursor

/-- A name of at least one letter. -/
def name? (c : Cursor) : Option (String × Cursor) :=
  let (run, c) := c.span isNameChar
  if run.isEmpty then none else some (String.ofList run, c)

/-- The name behind an anchor's or an alias's indicator. -/
def anchorName? (c : Cursor) : Option (String × Cursor) := do
  let (name, c) ← c.forward.name?
  if isGap c.peek || "?:,]\x7d%@\x60".toList.contains c.peek then some (name, c) else none

/-- The handle of a tag: an exclamation mark, or a name between two. -/
def tagHandle? (c : Cursor) : Option (String × Cursor) :=
  if c.peek ≠ '!' then none
  else if c.peekAt 1 = ' ' then some ("!", c.forward)
  else
    let (run, c) := c.forward.span isNameChar
    if c.peek = '!' then some (String.ofList ('!' :: run ++ ['!']), c.forward) else none

/-- The characters a tag may consist of beside escapes. -/
def isTagChar (c : Char) : Bool := c.isAlphanum || "-;/?:@&=+$,_.!~*'()[]".toList.contains c

/-- The bytes of a run of percent escapes. -/
def percentBytes? : Nat → Cursor → Option (List UInt8 × Cursor)
  | 0, _ => none
  | fuel + 1, c =>
    if c.peek ≠ '%' then some ([], c)
    else do
      let digits := c.forward.rest.take 2
      if digits.length ≠ 2 then none
      let byte ← codeOf? digits
      let (bytes, c) ← percentBytes? fuel (c.skip 3)
      pure (byte.toUInt8 :: bytes, c)

/-- The characters of a tag. -/
def tagChars? : Nat → Cursor → Option (List Char × Cursor)
  | 0, _ => none
  | fuel + 1, c =>
    if c.peek = '%' then do
      let (bytes, c) ← percentBytes? (c.rest.length + 1) c
      let text ← String.fromUTF8? ⟨bytes.toArray⟩
      let (rest, c) ← tagChars? fuel c
      pure (text.toList ++ rest, c)
    else if isTagChar c.peek then do
      let (rest, last) ← tagChars? fuel c.forward
      pure (c.peek :: rest, last)
    else some ([], c)

/-- A tag's text of at least one character. -/
def tagText? (c : Cursor) : Option (String × Cursor) := do
  let (text, c) ← c.tagChars? (c.rest.length + 1)
  if text.isEmpty then none else some (String.ofList text, c)

/-- A tag: verbatim between angle brackets, the lone mark, or a handle with a suffix. -/
def tag? (c : Cursor) : Option (Token × Cursor) := do
  let (token, c) ←
    if c.peekAt 1 = '<' then do
      let (suffix, c) ← (c.skip 2).tagText?
      if c.peek = '>' then some (Token.tag none suffix, c.forward) else none
    else if isGap (c.peekAt 1) then some (Token.tag none "!", c.forward)
    else do
      let word := c.forward.rest.takeWhile fun a => !isSpaceOrStop a
      let (handle, c) ← if word.contains '!' then c.tagHandle? else some ("!", c.forward)
      let (suffix, c) ← c.tagText?
      pure (Token.tag (some handle) suffix, c)
  if isSpaceOrStop c.peek then some (token, c) else none

/-- The number of a version. -/
def number (c : Cursor) : Except ReadError (Nat × Cursor) :=
  let (digits, c) := c.span Char.isDigit
  match Numeral.integerFault? 10 digits with
  | some (.tooManyDigits count) => .error (.scalar (.tooManyDigits count))
  | some _ => .error .malformed
  | none => .ok (Json.ofDigits digits, c)

/-- A directive with its line. -/
def directive (c : Cursor) : Except ReadError (Token × Cursor) := do
  let (name, c) ← orMalformed c.forward.name?
  if !isSpaceOrStop c.peek then .error .malformed
  let (token, c) ←
    if name = "YAML" then do
      let (major, c) ← (c.skipWhile (· = ' ')).number
      if c.peek ≠ '.' then .error .malformed
      let (_, c) ← c.forward.number
      if isSpaceOrStop c.peek then .ok (Token.versionDirective major, c) else .error .malformed
    else if name = "TAG" then do
      let (handle, c) ← orMalformed (c.skipWhile (· = ' ')).tagHandle?
      if c.peek ≠ ' ' then .error .malformed
      let (tagPrefix, c) ← orMalformed (c.skipWhile (· = ' ')).tagText?
      if isSpaceOrStop c.peek then .ok (Token.tagDirective handle tagPrefix, c)
      else .error .malformed
    else .ok (Token.otherDirective, c.skipLine)
  pure (token, ← orMalformed c.endLine?)

end Cursor

/-! ## Scanning -/

/-- A token that may turn out to be a key: its number, its place, and whether nothing else can be
meant. -/
structure PossibleKey where
  number : Nat
  required : Bool
  index : Nat
  line : Nat
  column : Nat

/-- The state of a scan.  `keys` holds the possible key of each level of brackets, `indents` the
indentations around the current one. -/
structure Scan where
  cursor : Cursor
  tokens : List Token := []
  level : Nat := 0
  indent : Int := -1
  indents : List Int := []
  allowKey : Bool := true
  keys : List (Nat × PossibleKey) := []

namespace Scan

/-- The scan with one more token. -/
def push (s : Scan) (t : Token) : Scan := { s with tokens := s.tokens ++ [t] }

/-- The scan with a token at the cursor, which moves on. -/
def take (s : Scan) (t : Token) (length : Nat) : Scan :=
  { s with tokens := s.tokens ++ [t], cursor := s.cursor.skip length }

/-- Whether the scan is inside of brackets. -/
def inFlow (s : Scan) : Bool := s.level ≠ 0

/-- Closes the blocks that are indented deeper than a column. -/
def unwind (s : Scan) (column : Int) : Scan :=
  if s.inFlow then s
  else
    let deeper := (s.indent :: s.indents).takeWhile (column < ·)
    match (s.indent :: s.indents).drop deeper.length with
    | indent :: indents =>
      { s with indent, indents, tokens := s.tokens ++ List.replicate deeper.length .blockEnd }
    | [] => s

/-- Opens a block at a column, if it is indented deeper than the current one. -/
def openBlock (s : Scan) (column number : Nat) (t : Token) : Scan :=
  if s.indent < column then
    { s with
      indents := s.indent :: s.indents
      indent := column
      tokens := s.tokens.take number ++ t :: s.tokens.drop number }
  else s

/-- Forgets the possible key of the current level, which must not be a required one. -/
def dropKey? (s : Scan) : Option Scan :=
  match s.keys.lookup s.level with
  | some key =>
    if key.required then none else some { s with keys := s.keys.filter (·.1 ≠ s.level) }
  | none => some s

/-- Remembers the next token as a possible key, if a key may stand here. -/
def saveKey? (s : Scan) : Option Scan :=
  if !s.allowKey then some s
  else do
    let c := s.cursor
    let required := !s.inFlow && s.indent = c.column
    let s ← s.dropKey?
    let key : PossibleKey := ⟨s.tokens.length, required, c.index, c.line, c.column⟩
    pure { s with keys := (s.level, key) :: s.keys }

/-- Whether a possible key is on another line or too far back to be one. -/
def isStale (s : Scan) (key : PossibleKey) : Bool :=
  key.line ≠ s.cursor.line || key.index + 1024 < s.cursor.index

/-- Forgets the possible keys that are stale; a required one must not be among them. -/
def dropStale? (s : Scan) : Option Scan :=
  if s.keys.any fun k => s.isStale k.2 && k.2.required then none
  else some { s with keys := s.keys.filter fun k => !s.isStale k.2 }

/-- Moves on over spaces, comments and line ends. -/
def skipBlank : Nat → Scan → Scan
  | 0, s => s
  | fuel + 1, s =>
    let c := s.cursor.skipWhile (· = ' ')
    let c := if c.peek = '#' then c.skipLine else c
    match c.lineEnd? with
    | some (_, c) => skipBlank fuel { s with cursor := c, allowKey := s.allowKey || !s.inFlow }
    | none => { s with cursor := c }

/-- Closes all blocks in front of a directive, a marker or the end. -/
def closeAll? (s : Scan) : Option Scan := do
  let s ← (s.unwind (-1)).dropKey?
  pure { s with allowKey := false }

/-- A scalar, an alias, an anchor or a tag: a token that may be a key. -/
def node? (s : Scan) (t : Token) (c : Cursor) : Option Scan := do
  let s ← s.saveKey?
  pure { s.push t with allowKey := false, cursor := c }

/-- An opening bracket. -/
def openFlow? (s : Scan) (t : Token) : Option Scan := do
  let s ← s.saveKey?
  pure { s.take t 1 with level := s.level + 1, allowKey := true }

/-- A closing bracket. -/
def closeFlow? (s : Scan) (t : Token) : Option Scan := do
  if s.level = 0 then none
  let s ← s.dropKey?
  pure { s.take t 1 with level := s.level - 1, allowKey := false }

/-- The dash in front of an element, or the question mark in front of a key. -/
def indicator? (s : Scan) (block t : Token) (allowKey : Bool) : Option Scan := do
  if !s.inFlow && !s.allowKey then none
  let s := if s.inFlow then s else s.openBlock s.cursor.column s.tokens.length block
  let s ← s.dropKey?
  pure { s.take t 1 with allowKey }

/-- The colon in front of a value, behind a key on the same line or on its own. -/
def value? (s : Scan) : Option Scan :=
  match s.keys.lookup s.level with
  | some key =>
    let tokens := s.tokens.take key.number ++ .key :: s.tokens.drop key.number
    let s := { s with tokens, keys := s.keys.filter (·.1 ≠ s.level) }
    let s := if s.inFlow then s else s.openBlock key.column key.number .blockMappingStart
    some { s.take .value 1 with allowKey := false }
  | none => s.indicator? .blockMappingStart .value (!s.inFlow)

/-- The scan after a token that was read, or that has no value. -/
def accept? (s : Scan) (found : Except ReadError (Token × Cursor))
    (next? : Token → Cursor → Option Scan) : Option Scan :=
  match found with
  | .ok (t, c) => next? t c
  | .error .malformed => none
  | .error e => some (s.push (.faulty e))

/-- One token, or several with the blocks that begin or end at it. -/
def next? (s : Scan) : Option Scan := do
  let s ← (s.skipBlank (s.cursor.rest.length + 1)).dropStale?
  let s := s.unwind s.cursor.column
  let c := s.cursor
  let a := c.peek
  let spaced := isGap (c.peekAt 1)
  if c.atEnd then
    pure ((← s.closeAll?).push .streamEnd)
  else if a = '%' && c.column = 0 then do
    let s ← s.closeAll?
    s.accept? c.directive fun t c => some { s.push t with cursor := c }
  else if (a = '-' || a = '.') && c.column = 0 && c.atMarker then do
    pure ((← s.closeAll?).take (if a = '-' then .documentStart else .documentEnd) 3)
  else if a = '[' then s.openFlow? .flowSequenceStart
  else if a = '\x7b' then s.openFlow? .flowMappingStart
  else if a = ']' then s.closeFlow? .flowSequenceEnd
  else if a = '\x7d' then s.closeFlow? .flowMappingEnd
  else if a = ',' then do
    pure { (← s.dropKey?).take .flowEntry 1 with allowKey := true }
  else if a = '-' && spaced then s.indicator? .blockSequenceStart .blockEntry true
  else if a = '?' && (s.inFlow || spaced) then s.indicator? .blockMappingStart .key (!s.inFlow)
  else if a = ':' && (s.inFlow || spaced) then s.value?
  else if a = '*' then do
    let (name, c) ← c.anchorName?
    s.node? (.aliasOf name) c
  else if a = '&' then do
    let (name, c) ← c.anchorName?
    s.node? (.anchor name) c
  else if a = '!' then do
    let (t, c) ← c.tag?
    s.node? t c
  else if (a = '|' || a = '>') && !s.inFlow then do
    let s ← s.dropKey?
    let (text, c) ← c.forward.block? (a = '>') s.indent
    pure { s.push (.scalar (String.ofList text) false) with allowKey := true, cursor := c }
  else if a = '\'' || a = '"' then do
    let found := (c.forward.quoted (a = '"') (c.rest.length + 1)).map fun p =>
      (Token.scalar (String.ofList p.1) false, p.2)
    let _ ← s.saveKey?
    s.accept? found fun t c => s.node? t c
  else if !(isGap a || "-?:,[]\x7b\x7d#&*!|>'\"%@\x60".toList.contains a) ||
      (!spaced && (a = '-' || (!s.inFlow && (a = '?' || a = ':')))) then do
    let (piece, onNewLine, c) := c.plain s.inFlow s.indent (c.rest.length + 1)
    let s ← s.node? (.scalar (String.ofList piece) true) c
    pure { s with allowKey := onNewLine }
  else none

/-- The number of tokens in front of the first one that may still turn out to be a key. -/
def settled (s : Scan) : Nat :=
  (s.keys.filter fun k => !s.isStale k.2).foldl (fun n k => min n k.2.number) s.tokens.length

/-- All tokens up to the end of the text; or up to one that has no value, which is met as soon as a
token is asked for that is not settled before it. -/
def all? : Nat → Scan → Option (List Token)
  | 0, _ => none
  | fuel + 1, s => do
    let next ← s.next?
    match next.tokens.getLast? with
    | some .streamEnd => some next.tokens
    | some (.faulty e) => some (s.tokens.take s.settled ++ [.faulty e])
    | _ => next.all? fuel

end Scan

/-- The tokens of a text, which must hold nothing but characters that YAML admits; a byte-order
mark in front counts for nothing. -/
def tokens? (s : String) : Option (List Token) :=
  let admitted (c : Char) : Bool :=
    isPlainChar c || c = '\t' || c = '\r' || c = '\uFEFF' || c.toNat = 0x10FFFF
  let cs := s.toList
  if !cs.all admitted then none
  else
    let cursor : Cursor := ⟨cs, 0, 0, 0⟩
    let start : Scan := { cursor := if cs.head? = some '\uFEFF' then cursor.forward else cursor }
    start.all? (cs.length + 1)

end OpenApi.Yaml
