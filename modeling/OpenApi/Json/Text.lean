import OpenApi.Json.Basic

/-!
# Json/Text — written forms of a value

A value has two layouts, without any blank (`compact`) and one member a line (`indented`), and two
ways to write a string: characters above the control range as they are, or everything outside the
printable ASCII range as UTF-16 escapes.
-/

namespace OpenApi.Json

/-! ## Strings -/

/-- The lower-case hexadecimal digit of a number below sixteen. -/
def hexDigit (n : Nat) : Char :=
  if n < 10 then Char.ofNat (48 + n) else Char.ofNat (87 + n)

/-- `\u` and the four hexadecimal digits of a UTF-16 unit. -/
def unitEscape (n : Nat) : List Char :=
  ['\\', 'u', hexDigit (n / 4096 % 16), hexDigit (n / 256 % 16), hexDigit (n / 16 % 16),
    hexDigit (n % 16)]

/-- The short escape of a quote, a backslash or one of five control characters. -/
def shortEscape? (c : Char) : Option Char :=
  if c = '"' then some '"'
  else if c = '\\' then some '\\'
  else if c = '\n' then some 'n'
  else if c = '\r' then some 'r'
  else if c = '\t' then some 't'
  else if c = '\x08' then some 'b'
  else if c = '\x0c' then some 'f'
  else none

/-- A character of a string with everything above the control range as it is. -/
def escape (c : Char) : List Char :=
  match shortEscape? c with
  | some e => ['\\', e]
  | none => if c.toNat < 0x20 then unitEscape c.toNat else [c]

/-- A character of a string in printable ASCII: one escape up to U+FFFF, a surrogate pair above. -/
def escapeAscii (c : Char) : List Char :=
  match shortEscape? c with
  | some e => ['\\', e]
  | none =>
    let n := c.toNat
    if 0x20 ≤ n && n ≤ 0x7E then [c]
    else if n ≤ 0xFFFF then unitEscape n
    else unitEscape (0xD800 + (n - 0x10000) / 1024) ++ unitEscape (0xDC00 + (n - 0x10000) % 1024)

/-- A quoted string, each character written by `escape`. -/
def quotedBy (escape : Char → List Char) (s : String) : List Char :=
  '"' :: s.toList.flatMap escape ++ ['"']

/-! ## Layouts -/

/-- The decimal digits of an integer, with a sign if it is negative. -/
def digits : Int → List Char
  | .ofNat n => Nat.toDigits 10 n
  | .negSucc n => '-' :: Nat.toDigits 10 (n + 1)

/-- A literal value's text: `null`, a truth value or an integer. -/
def literal : Json → List Char
  | .bool true => ['t', 'r', 'u', 'e']
  | .bool false => ['f', 'a', 'l', 's', 'e']
  | .int n => digits n
  | _ => ['n', 'u', 'l', 'l']

/-- What stands between two parts of a collection, given the parts still to come. -/
def unlessLast {α : Type} (rest : List α) (separator : List Char) : List Char :=
  if rest.isEmpty then [] else separator

mutual

/-- A value without any blank, strings written by `escape`. -/
def compactBy (escape : Char → List Char) : Json → List Char
  | .str s => quotedBy escape s
  | .arr elements => '[' :: compactElements escape elements ++ [']']
  | .obj members => '{' :: compactMembers escape members ++ ['}']
  | v => literal v

/-- Elements with commas between them. -/
def compactElements (escape : Char → List Char) : List Json → List Char
  | [] => []
  | e :: es => e.compactBy escape ++ unlessLast es [','] ++ compactElements escape es

/-- Members with commas between them. -/
def compactMembers (escape : Char → List Char) : List (String × Json) → List Char
  | [] => []
  | (k, v) :: ms =>
    quotedBy escape k ++ ':' :: v.compactBy escape ++ unlessLast ms [','] ++
      compactMembers escape ms

end

/-- A line break and two blanks for each level. -/
def newline (level : Nat) : List Char := '\n' :: List.replicate (2 * level) ' '

/-- The parts of a collection between its brackets, which close on a line of their own. -/
def block (level : Nat) (opening closing : Char) (empty : Bool) (parts : List Char) : List Char :=
  if empty then [opening, closing]
  else opening :: newline (level + 1) ++ parts ++ newline level ++ [closing]

mutual

/-- A value with one element or member a line, at a nesting level. -/
def indentedAt (level : Nat) : Json → List Char
  | .str s => quotedBy escape s
  | .arr elements =>
    block level '[' ']' elements.isEmpty (indentedElements (level + 1) elements)
  | .obj members =>
    block level '{' '}' members.isEmpty (indentedMembers (level + 1) members)
  | v => literal v

/-- Elements of one array, a line each. -/
def indentedElements (level : Nat) : List Json → List Char
  | [] => []
  | e :: es =>
    e.indentedAt level ++ unlessLast es (',' :: newline level) ++ indentedElements level es

/-- Members of one object, a line each. -/
def indentedMembers (level : Nat) : List (String × Json) → List Char
  | [] => []
  | (k, v) :: ms =>
    quotedBy escape k ++ ':' :: ' ' :: v.indentedAt level ++
      unlessLast ms (',' :: newline level) ++ indentedMembers level ms

end

/-- The value without any blank. -/
def compact (v : Json) : String := String.ofList (v.compactBy escape)

/-- The value with one element or member a line. -/
def indented (v : Json) : String := String.ofList (v.indentedAt 0)

/-- The value with sorted keys, in printable ASCII and without any blank: equal texts for values
that differ only in the order of keys. -/
def canonical (v : Json) : String := String.ofList (v.sortKeys.compactBy escapeAscii)

end OpenApi.Json
