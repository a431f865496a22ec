import OpenApi.Json.Text
import OpenApi.Yaml.Scalar

/-!
# Yaml/Printer — a value as a YAML document

Every collection that is not empty is written in block style, two columns a level; a sequence below
a key starts at the column of the key.  A string stands without quotes if it means itself there,
else in single quotes, and in double quotes if it holds characters that need escapes.  A line that
has grown beyond the best width is broken at the next single blank of a string.
-/

namespace OpenApi.Yaml

/-! ## What a string holds -/

/-- The characters that end a line. -/
def isBreak (c : Char) : Bool := c = '\n' || c = '\u0085' || c = '\u2028' || c = '\u2029'

/-- Blanks, line ends and the null character: what may follow an indicator. -/
def isGap (c : Char) : Bool := isBreak c || c = '\x00' || c = ' ' || c = '\t' || c = '\r'

/-- Whether a character can stand for itself outside of double quotes. -/
def isPlainChar (c : Char) : Bool :=
  let n := c.toNat
  c = '\n' || (0x20 ≤ n && n ≤ 0x7E) ||
    ((n == 0x85 || (0xA0 ≤ n && n ≤ 0xD7FF) || (0xE000 ≤ n && n ≤ 0xFFFD) ||
      (0x10000 ≤ n && n < 0x10FFFF)) && n != 0xFEFF)

/-- Whether a text begins like the marker between two documents. -/
def isMarker (cs : List Char) : Bool :=
  cs.take 3 = ['-', '-', '-'] || cs.take 3 = ['.', '.', '.']

/-- Whether a first character, given the one after it, is an indicator. -/
def isLeadingIndicator (c : Char) (next : Option Char) : Bool :=
  "#,[]\x7b\x7d&*!|>'\"%@\x60".toList.contains c ||
    ((c = '?' || c = ':' || c = '-') && next.all isGap)

/-- Whether an indicator stands behind the first character: a colon in front of a gap or a number
sign after one. -/
def hasIndicator : List Char → Bool
  | a :: b :: rest =>
    (b = ':' && rest.head?.all isGap) || (b = '#' && isGap a) || hasIndicator (b :: rest)
  | _ => false

/-- Whether two neighbours of a text satisfy `p` and `q`. -/
def hasNeighbours (p q : Char → Bool) : List Char → Bool
  | a :: b :: rest => (p a && q b) || hasNeighbours p q (b :: rest)
  | _ => false

/-- Whether a text spans lines. -/
def isMultiline (cs : List Char) : Bool := cs.any isBreak

/-- Whether a text, without regard to its meaning, can stand without quotes: on one line, no blank
at its ends, no indicator. -/
def allowsPlain : List Char → Bool
  | [] => true
  | c :: cs =>
    let text := c :: cs
    !isMarker text && !isLeadingIndicator c cs.head? && !hasIndicator text &&
      text.all isPlainChar && !isMultiline text && c ≠ ' ' && text.getLast? ≠ some ' '

/-- Whether a text can stand in single quotes: no character that needs an escape, and no blank next
to a line end. -/
def allowsSingle (cs : List Char) : Bool :=
  cs.all isPlainChar && !hasNeighbours isBreak (· = ' ') cs && !hasNeighbours (· = ' ') isBreak cs

/-- The ways to write a string. -/
inductive Style where
  | plain
  | single
  | double
deriving DecidableEq, Repr

/-- How a string is written; in front of a colon it has to stay on one line. -/
def styleOf (isKey : Bool) (s : String) : Style :=
  let cs := s.toList
  if ScalarKind.of s = .str && allowsPlain cs && !(isKey && (cs.isEmpty || isMultiline cs)) then
    .plain
  else if allowsSingle cs && !(isKey && isMultiline cs) then .single
  else .double

/-! ## Lines -/

/-- The column beyond which a line is broken. -/
def bestWidth : Nat := 80

/-- A line break and the blanks up to a column. -/
def newline (column : Nat) : List Char := '\n' :: List.replicate column ' '

/-- A text without quotes or, with its quotes doubled, in single ones, from a column on.  A single
blank beyond the best width becomes a line break, and a line end of the text becomes an empty
line. -/
def lineText (quoted fold : Bool) (indent : Nat) :
    Option Char → Nat → List Char → List Char
  | _, _, [] => []
  | previous, column, c :: cs =>
    if isBreak c then
      (if c = '\n' && !previous.any isBreak then ['\n'] else []) ++
        c :: (if cs.head?.any isBreak then [] else List.replicate indent ' ') ++
        lineText quoted fold indent (some c) indent cs
    else if fold && c = ' ' && previous.any (· ≠ ' ') && cs.head?.any (· ≠ ' ') &&
        column > bestWidth then
      newline indent ++ lineText quoted fold indent (some c) indent cs
    else if quoted && c = '\'' then
      '\'' :: '\'' :: lineText quoted fold indent (some c) (column + 2) cs
    else c :: lineText quoted fold indent (some c) (column + 1) cs

/-- Upper-case hexadecimal digits, a given number of them. -/
def hexDigits : Nat → Nat → List Char
  | 0, _ => []
  | count + 1, n => hexDigits count (n / 16) ++ [(Json.hexDigit (n % 16)).toUpper]

/-- The letter that stands for a character behind a backslash. -/
def escapeLetter? (c : Char) : Option Char :=
  if c = '\x00' then some '0' else if c = '\x07' then some 'a' else if c = '\x08' then some 'b'
  else if c = '\t' then some 't' else if c = '\n' then some 'n' else if c = '\x0b' then some 'v'
  else if c = '\x0c' then some 'f' else if c = '\r' then some 'r' else if c = '\x1b' then some 'e'
  else if c = '"' then some '"' else if c = '\\' then some '\\'
  else if c = '\u0085' then some 'N' else if c = '\u2028' then some 'L'
  else if c = '\u2029' then some 'P' else none

/-- The escape of a character in double quotes, for those that need one. -/
def escape? (c : Char) : Option (List Char) :=
  let n := c.toNat
  match escapeLetter? c with
  | some letter => some ['\\', letter]
  | none =>
    if (0x20 ≤ n && n ≤ 0x7E) || (0xA0 ≤ n && n ≤ 0xD7FF) || (0xE000 ≤ n && n ≤ 0xFFFD && n != 0xFEFF)
    then none
    else if n ≤ 0xFF then some ('\\' :: 'x' :: hexDigits 2 n)
    else if n ≤ 0xFFFF then some ('\\' :: 'u' :: hexDigits 4 n)
    else some ('\\' :: 'U' :: hexDigits 8 n)

/-- A text in double quotes from a column on.  Beyond the best width the line ends with a backslash
in front of a blank or next to an escape, and a blank that begins a line has a backslash too. -/
def escapedText (fold : Bool) (indent : Nat) : Option Bool → Nat → List Char → List Char
  | _, _, [] => []
  | afterEscape, column, c :: cs =>
    let canBreak := fold && afterEscape.isSome && !cs.isEmpty
    match escape? c with
    | some e =>
      if canBreak && column + e.length > bestWidth + 1 then
        let lead := if cs.head? = some ' ' then ['\\'] else []
        e ++ '\\' :: newline indent ++ lead ++
          escapedText fold indent (some true) (indent + lead.length) cs
      else e ++ escapedText fold indent (some true) (column + e.length) cs
    | none =>
      if canBreak && (c = ' ' || afterEscape = some true) && column > bestWidth then
        let lead := if c = ' ' then ['\\'] else []
        '\\' :: newline indent ++ lead ++ c ::
          escapedText fold indent (some false) (indent + lead.length + 1) cs
      else c :: escapedText fold indent (some false) (column + 1) cs

/-- A string from a column on; its further lines begin at `indent`. -/
def stringText (isKey : Bool) (indent column : Nat) (s : String) : List Char :=
  match styleOf isKey s with
  | .plain => lineText false (!isKey) indent none column s.toList
  | .single => '\'' :: lineText true (!isKey) indent none (column + 1) s.toList ++ ['\'']
  | .double => '"' :: escapedText (!isKey) indent none (column + 1) s.toList ++ ['"']

/-! ## Collections -/

/-- Whether a key stands on the line of its value: it is not empty, on one line and below the
length limit. -/
def isSimpleKey (key : String) : Bool :=
  key ≠ "" && !isMultiline key.toList && key.length < 123

/-- Where a value stands: at the start of a line, behind a simple key, or behind an indicator. -/
inductive Place where
  | root
  | key
  | indicator
deriving DecidableEq, Repr

/-- The text of a collection below a place: on lines of its own behind a key, else on the same
line. -/
def below (place : Place) (indent : Nat) (text : List Char) : List Char :=
  match place with
  | .root => text
  | .key => newline indent ++ text
  | .indicator => ' ' :: text

/-- A scalar or an empty collection at a place. -/
def inline (place : Place) (text : List Char) : List Char :=
  match place with
  | .root => text
  | _ => ' ' :: text

/-- A key with its colon: the text up to the value, the place of the value, and its column. -/
structure KeyText where
  text : List Char
  place : Place
  column : Nat

/-- A key whose line begins at `indent`: on the line of its value, or both behind an indicator. -/
def keyText (indent : Nat) (key : String) : KeyText :=
  if isSimpleKey key then
    let text := stringText true (indent + 2) indent key ++ [':']
    ⟨text, .key, indent + text.length⟩
  else
    ⟨'?' :: ' ' :: stringText false (indent + 2) (indent + 2) key ++ newline indent ++ [':'],
      .indicator, indent + 1⟩

mutual

/-- A value at a place, from a column on, in a block whose lines begin at `indent`. -/
def valueText (place : Place) (indent column : Nat) : Json → List Char
  | .str s =>
    inline place
      (stringText false (indent + 2) (if place = .root then column else column + 1) s)
  | .arr elements =>
    let indent := if place = .indicator then indent + 2 else indent
    if elements.isEmpty then inline place ['[', ']']
    else below place indent (elementsText indent elements)
  | .obj members =>
    let indent := if place = .root then indent else indent + 2
    if members.isEmpty then inline place ['{', '}']
    else below place indent (membersText indent members)
  | v => inline place (Json.literal v)

/-- The elements of a sequence whose dashes stand at `indent`. -/
def elementsText (indent : Nat) : List Json → List Char
  | [] => []
  | e :: es =>
    '-' :: valueText .indicator indent (indent + 1) e ++
      Json.unlessLast es (newline indent) ++ elementsText indent es

/-- The members of a mapping whose keys begin at `indent`. -/
def membersText (indent : Nat) : List (String × Json) → List Char
  | [] => []
  | (k, v) :: ms =>
    let key := keyText indent k
    key.text ++ valueText key.place indent key.column v ++
      Json.unlessLast ms (newline indent) ++ membersText indent ms

end

/-- Whether a value is written as one scalar without quotes. -/
def isBareScalar : Json → Bool
  | .str s => styleOf false s = .plain
  | .arr _ | .obj _ => false
  | _ => true

/-- A value as a YAML document; the end of a bare scalar is marked. -/
def print (v : Json) : String :=
  String.ofList (valueText .root 0 0 v ++ '\n' :: if isBareScalar v then "...\n".toList else [])

end OpenApi.Yaml
