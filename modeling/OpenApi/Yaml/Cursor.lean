import OpenApi.Json.Reader
import OpenApi.Yaml.Fault
import OpenApi.Yaml.Printer

/-!
# Yaml/Cursor — reading scalars from a place in a text

A cursor is a place in a text: what is left of it, and the line and the column reached.  Scalars
are read from a cursor: quoted ones, block scalars behind `|` and `>`, and plain ones.  The end of
the text reads as the null character, which no YAML text holds.
-/

namespace OpenApi.Yaml

/-- A place in a text. -/
structure Cursor where
  rest : List Char
  index : Nat := 0
  line : Nat := 0
  column : Nat := 0

/-- The characters that end a line of a text that is read. -/
def isLineEnd (c : Char) : Bool := c = '\r' || isBreak c

/-- The end of a line or of the text. -/
def isStop (c : Char) : Bool := c = '\x00' || isLineEnd c

/-- The end of a line or of the text, or a space. -/
def isSpaceOrStop (c : Char) : Bool := c = ' ' || isStop c

/-- Letters, digits, the hyphen and the underscore: what names of anchors and tags consist of. -/
def isNameChar (c : Char) : Bool := c.isAlphanum || c = '-' || c = '_'

namespace Cursor

/-- The character a number of places ahead. -/
def peekAt (c : Cursor) (n : Nat) : Char := c.rest.getD n '\x00'

/-- The next character. -/
def peek (c : Cursor) : Char := c.peekAt 0

/-- Whether nothing is left. -/
def atEnd (c : Cursor) : Bool := c.rest.isEmpty

/-- The place one character on; the byte-order mark has no width. -/
def forward (c : Cursor) : Cursor :=
  match c.rest with
  | [] => c
  | a :: rest =>
    if isBreak a || (a = '\r' && rest.head? ≠ some '\n') then ⟨rest, c.index + 1, c.line + 1, 0⟩
    else ⟨rest, c.index + 1, c.line, if a = '\uFEFF' then c.column else c.column + 1⟩

/-- The place a number of characters on. -/
def skip (c : Cursor) : Nat → Cursor
  | 0 => c
  | n + 1 => c.forward.skip n

/-- The run of characters that `p` accepts, and the place after it. -/
def span (c : Cursor) (p : Char → Bool) : List Char × Cursor :=
  let run := c.rest.takeWhile p
  (run, c.skip run.length)

/-- The place after the run of characters that `p` accepts. -/
def skipWhile (c : Cursor) (p : Char → Bool) : Cursor := (c.span p).2

/-- The place after the rest of a line, its end not included. -/
def skipLine (c : Cursor) : Cursor := c.skipWhile fun a => !isStop a

/-- The end of a line, in the form it has in a scalar. -/
def lineEnd? (c : Cursor) : Option (Char × Cursor) :=
  let a := c.peek
  if a = '\r' && c.peekAt 1 = '\n' then some ('\n', c.skip 2)
  else if a = '\r' || a = '\n' || a = '\u0085' then some ('\n', c.forward)
  else if isBreak a then some (a, c.forward)
  else none

/-- Whether the cursor stands in front of a marker between documents. -/
def atMarker (c : Cursor) : Bool :=
  isMarker c.rest && isGap (c.peekAt 3)

/-- The spaces, the comment and the line end at the end of a line that must hold nothing else. -/
def endLine? (c : Cursor) : Option Cursor :=
  let c := c.skipWhile (· = ' ')
  let c := if c.peek = '#' then c.skipLine else c
  if isStop c.peek then some ((c.lineEnd?.map (·.2)).getD c) else none

/-! ## Quoted scalars -/

/-- The line ends after the one that was read, blanks around them dropped; a marker between
documents may not stand at the start of a line. -/
def quotedBreaks? : Nat → Cursor → Option (List Char × Cursor)
  | 0, _ => none
  | fuel + 1, c =>
    if c.atMarker then none
    else
      let c := c.skipWhile fun a => a = ' ' || a = '\t'
      match c.lineEnd? with
      | some (b, c) => do
        let (breaks, c) ← quotedBreaks? fuel c
        pure (b :: breaks, c)
      | none => some ([], c)

/-- What a line end and the line ends after it stand for: a space if it is alone. -/
def foldBreaks (first : Char) (breaks : List Char) : List Char :=
  if first ≠ '\n' then first :: breaks else if breaks.isEmpty then [' '] else breaks

/-- The character that a letter behind a backslash stands for. -/
def escaped? (c : Char) : Option Char :=
  [('0', '\x00'), ('a', '\x07'), ('b', '\x08'), ('t', '\t'), ('\t', '\t'), ('n', '\n'),
    ('v', '\x0b'), ('f', '\x0c'), ('r', '\r'), ('e', '\x1b'), (' ', ' '), ('"', '"'),
    ('\\', '\\'), ('/', '/'), ('N', '\u0085'), ('_', '\u00a0'), ('L', '\u2028'),
    ('P', '\u2029')].lookup c

/-- The number of hexadecimal digits behind a letter that introduces a code point. -/
def codeLength? (c : Char) : Option Nat := [('x', 2), ('u', 4), ('U', 8)].lookup c

/-- The code point that some hexadecimal digits write. -/
def codeOf? (digits : List Char) : Option Nat :=
  digits.foldl (fun n d => do pure (16 * (← n) + (← Json.hexValue? d))) (some 0)

/-- The character with a code point, which must not be a surrogate. -/
def charOf (n : Nat) : Except ReadError Char :=
  if 0x7FFFFFFF < n then .error (.scalar .codeTooLarge)
  else if 0x10FFFF < n then .error (.scalar .codeOutOfRange)
  else if 0xD800 ≤ n && n ≤ 0xDFFF then .error .unpaired
  else .ok (Char.ofNat n)

/-- A quoted scalar after its opening quote, up to and with its closing quote. -/
def quoted (double : Bool) : Nat → Cursor → Except ReadError (List Char × Cursor)
  | 0, _ => .error .malformed
  | fuel + 1, c =>
    let a := c.peek
    let more (text : List Char) (c : Cursor) : Except ReadError (List Char × Cursor) := do
      let (rest, c) ← quoted double fuel c
      pure (text ++ rest, c)
    if c.atEnd then .error .malformed
    else if a = ' ' || a = '\t' || isLineEnd a then
      let (blanks, c) := c.span fun a => a = ' ' || a = '\t'
      match c.lineEnd? with
      | some (first, c) => do
        let (breaks, c) ← orMalformed (quotedBreaks? (c.rest.length + 1) c)
        more (foldBreaks first breaks) c
      | none => more blanks c
    else if double then
      if a = '"' then .ok ([], c.forward)
      else if a = '\\' then
        let c := c.forward
        match escaped? c.peek, codeLength? c.peek, c.lineEnd? with
        | some e, _, _ => more [e] c.forward
        | none, some n, _ => do
          let c := c.forward
          let digits := c.rest.take n
          if digits.length ≠ n then .error .malformed
          let e ← charOf (← orMalformed (codeOf? digits))
          more [e] (c.skip n)
        | none, none, some (_, c) => do
          let (breaks, c) ← orMalformed (quotedBreaks? (c.rest.length + 1) c)
          more breaks c
        | none, none, none => .error .malformed
      else more [a] c.forward
    else if a = '\'' then
      if c.peekAt 1 = '\'' then more ['\''] (c.skip 2) else .ok ([], c.forward)
    else more [a] c.forward

/-! ## Block scalars -/

/-- What a block scalar does with the line ends at its end. -/
inductive Chomping where
  | clip
  | keep
  | strip
deriving DecidableEq

/-- The signs behind the indicator of a block scalar: chomping and indentation, in any order. -/
def blockHeader? (c : Cursor) : Option (Chomping × Option Nat × Cursor) := do
  let chomping (c : Cursor) : Chomping × Cursor :=
    if c.peek = '+' then (.keep, c.forward)
    else if c.peek = '-' then (.strip, c.forward) else (.clip, c)
  let increment (c : Cursor) : Option (Option Nat × Cursor) :=
    if c.peek = '0' then none
    else if c.peek.isDigit then some (some (c.peek.toNat - 48), c.forward) else some (none, c)
  let (first, c) := chomping c
  let (indentation, c) ← increment c
  let (second, c) :=
    if first = .clip && indentation.isSome then chomping c else (.clip, c)
  if !isSpaceOrStop c.peek then none
  pure (if first = .clip then second else first, indentation, ← c.endLine?)

/-- The place after spaces, at most up to a column. -/
def skipTo (column : Nat) (c : Cursor) : Cursor :=
  c.skip (min (column - c.column) (c.rest.takeWhile (· = ' ')).length)

/-- The line ends in front of the next line with text that is indented to a column. -/
def blockBreaks (column : Nat) : Nat → Cursor → List Char × Cursor
  | 0, c => ([], c)
  | fuel + 1, c =>
    let c := skipTo column c
    match c.lineEnd? with
    | some (b, c) =>
      let (breaks, c) := blockBreaks column fuel c
      (b :: breaks, c)
    | none => ([], c)

/-- The line ends in front of the first line with text, and the deepest column on the way. -/
def blockIndentation : Nat → Nat → Cursor → List Char × Nat × Cursor
  | 0, deepest, c => ([], deepest, c)
  | fuel + 1, deepest, c =>
    let c := c.skipWhile (· = ' ')
    let deepest := max deepest c.column
    match c.lineEnd? with
    | some (b, c) =>
      let (breaks, deepest, c) := blockIndentation fuel deepest c
      (b :: breaks, deepest, c)
    | none => ([], deepest, c)

/-- The lines of a block scalar from the first one on: the text, the line end after it and the
line ends at the end. -/
def blockLines (folded : Bool) (column : Nat) :
    Nat → List Char → Cursor → List Char × List Char × List Char × Cursor
  | 0, breaks, c => ([], [], breaks, c)
  | fuel + 1, breaks, c =>
    if c.column ≠ column || c.atEnd then ([], [], breaks, c)
    else
      let isText (a : Char) : Bool := a ≠ ' ' && a ≠ '\t'
      let leading := isText c.peek
      let (line, c) := c.span fun a => !isStop a
      let (ending, c) := match c.lineEnd? with
        | some (b, c) => ([b], c)
        | none => ([], c)
      let (next, c) := blockBreaks column (c.rest.length + 1) c
      if c.column = column && !c.atEnd then
        let joint :=
          if folded && ending = ['\n'] && leading && isText c.peek then
            if next.isEmpty then [' '] else []
          else ending
        let (text, ending, tail, c) := blockLines folded column fuel next c
        (breaks ++ line ++ joint ++ text, ending, tail, c)
      else (breaks ++ line, ending, next, c)

/-- A block scalar after its indicator, inside of a block indented to `indent`. -/
def block? (folded : Bool) (indent : Int) (c : Cursor) : Option (List Char × Cursor) := do
  let (chomping, increment, c) ← c.blockHeader?
  let least := (max (indent + 1) 1).toNat
  let (breaks, column, c) := match increment with
    | none =>
      let (breaks, deepest, c) := blockIndentation (c.rest.length + 1) 0 c
      (breaks, max least deepest, c)
    | some n =>
      let column := least + n - 1
      let (breaks, c) := blockBreaks column (c.rest.length + 1) c
      (breaks, column, c)
  let (text, ending, tail, c) := blockLines folded column (c.rest.length + 1) breaks c
  pure (text ++ (if chomping = .strip then [] else ending) ++
    (if chomping = .keep then tail else []), c)

/-! ## Plain scalars -/

/-- Brackets, braces and the comma: what ends a plain scalar inside of brackets. -/
def isFlowMark (c : Char) : Bool := c = ',' || c = '[' || c = ']' || c = '\x7b' || c = '\x7d'

/-- The length of a plain scalar's next piece: up to a blank, a colon in front of one or, inside of
brackets, a bracket. -/
def plainLength (flow : Bool) : List Char → Nat
  | [] => 0
  | a :: rest =>
    let next := rest.headD '\x00'
    if isGap a || (a = ':' && (isGap next || (flow && isFlowMark next))) ||
        (flow && (isFlowMark a || a = '?')) then 0
    else plainLength flow rest + 1

/-- The line ends between two pieces of a plain scalar; none in front of a marker between
documents, where the scalar ends. -/
def plainBreaks? : Nat → Cursor → Option (List Char) × Cursor
  | 0, c => (none, c)
  | fuel + 1, c =>
    if c.atMarker then (none, c)
    else
      let c := c.skipWhile (· = ' ')
      match c.lineEnd? with
      | some (b, c) =>
        let (breaks, c) := plainBreaks? fuel c
        (breaks.map (b :: ·), c)
      | none => (some [], c)

/-- A plain scalar, inside of brackets or of a block indented to `indent`; also whether it ends at
the start of a line. -/
def plain (flow : Bool) (indent : Int) : Nat → Cursor → List Char × Bool × Cursor
  | 0, c => ([], false, c)
  | fuel + 1, c =>
    let length := if c.peek = '#' then 0 else plainLength flow c.rest
    if length = 0 then ([], false, c)
    else
      let piece := c.rest.take length
      let (blanks, c) := (c.skip length).span (· = ' ')
      let (between, onNewLine, c) := match c.lineEnd? with
        | some (first, c) =>
          let (breaks, c) := plainBreaks? (c.rest.length + 1) c
          ((breaks.map (foldBreaks first)).getD [], true, c)
        | none => (blanks, false, c)
      if between.isEmpty || c.peek = '#' || (!flow && decide ((c.column : Int) < indent + 1)) then
        (piece, onNewLine, c)
      else
        let (text, again, last) := plain flow indent fuel c
        if text.isEmpty then (piece, onNewLine, c) else (piece ++ between ++ text, again, last)

end Cursor

end OpenApi.Yaml
