import OpenApi.Text.Split

/-!
# Yaml/Scalar — what an unquoted scalar means

Without quotes, YAML 1.1 reads `yes` as a truth value, `017` as an octal integer, `1:30` as an
integer to base sixty, `2001-12-14` as a date and `~` as null.  A text that means something of this
kind has to be quoted when it is written as a string.
-/

namespace OpenApi.Yaml

/-- The kinds of value that an unquoted scalar can mean. -/
inductive ScalarKind where
  | null
  | bool
  | int
  | float
  | timestamp
  | merge
  | defaultValue
  | reserved
  | str
deriving DecidableEq, Repr

namespace ScalarKind

/-- A decimal digit or an underscore. -/
def isDigitMark (c : Char) : Bool := c.isDigit || c = '_'

/-- A binary digit or an underscore. -/
def isBinaryMark (c : Char) : Bool := c = '0' || c = '1' || c = '_'

/-- An octal digit or an underscore. -/
def isOctalMark (c : Char) : Bool := ('0' ≤ c && c ≤ '7') || c = '_'

/-- A hexadecimal digit or an underscore. -/
def isHexMark (c : Char) : Bool :=
  isDigitMark c || ('a' ≤ c && c ≤ 'f') || ('A' ≤ c && c ≤ 'F')

/-- The text after one sign, if there is one. -/
def dropSign : List Char → List Char
  | '+' :: cs | '-' :: cs => cs
  | cs => cs

/-- A digit, then digits and underscores. -/
def isNumeral : List Char → Bool
  | c :: cs => c.isDigit && cs.all isDigitMark
  | [] => false

/-- A place to base sixty: one or two digits, the first of two below six. -/
def isSixtieth : List Char → Bool
  | [c] => c.isDigit
  | [c, d] => ('0' ≤ c && c ≤ '5') && d.isDigit
  | _ => false

/-- Whether a text without its sign is an integer: binary, hexadecimal, octal, decimal or with
places to base sixty. -/
def isUnsignedInt : List Char → Bool
  | '0' :: 'b' :: cs => !cs.isEmpty && cs.all isBinaryMark
  | '0' :: 'x' :: cs => !cs.isEmpty && cs.all isHexMark
  | '0' :: cs => cs.all isOctalMark
  | cs =>
    match Text.splitBy (· = ':') cs with
    | whole :: places => isNumeral whole && places.all isSixtieth
    | [] => false

/-- An exponent with its sign, or nothing. -/
def isExponent : List Char → Bool
  | [] => true
  | e :: s :: cs => (e = 'e' || e = 'E') && (s = '+' || s = '-') && !cs.isEmpty && cs.all Char.isDigit
  | _ => false

/-- Digits and underscores, then an exponent or nothing. -/
def isFraction (cs : List Char) : Bool := isExponent (cs.dropWhile isDigitMark)

/-- Whether a text is a floating-point number: a point, and a signed exponent if there is one. -/
def isFloat (cs : List Char) : Bool :=
  match Text.cut? (· = '.') (dropSign cs) with
  | none => false
  | some (whole, fraction) =>
    (isNumeral whole && isFraction fraction) ||
      (decide (cs.head? = some '.') && (fraction.head?.any Char.isDigit) && isFraction fraction) ||
      (match Text.splitBy (· = ':') whole with
        | whole :: place :: places =>
          isNumeral whole && (place :: places).all isSixtieth && fraction.all isDigitMark
        | _ => false) ||
      (whole.isEmpty && ["inf", "Inf", "INF"].contains (String.ofList fraction)) ||
      (decide (cs.head? = some '.') && ["nan", "NaN", "NAN"].contains (String.ofList fraction))

/-- One or two digits with their value, and what follows. -/
def readPair? : List Char → Option (Nat × List Char)
  | c :: d :: cs =>
    if c.isDigit && d.isDigit then some (10 * (c.toNat - 48) + (d.toNat - 48), cs)
    else if c.isDigit then some (c.toNat - 48, d :: cs) else none
  | [c] => if c.isDigit then some (c.toNat - 48, []) else none
  | [] => none

/-- A point in time as it is written; the offset is in minutes. -/
structure Timestamp where
  year : Nat
  month : Nat
  day : Nat
  time : Option (Nat × Nat × Nat)
  offset : Option Int
deriving DecidableEq, Repr

/-- Two digits with their value, and what follows. -/
def readTwo? (cs : List Char) : Option (Nat × List Char) :=
  if (cs.take 2).length = 2 && (cs.take 2).all Char.isDigit then readPair? cs else none

/-- The text after one given character. -/
def expect? (c : Char) : List Char → Option (List Char)
  | d :: cs => if d = c then some cs else none
  | [] => none

/-- The zone at the end of a point in time. -/
def readZone? (cs : List Char) : Option (Option Int) :=
  match cs.dropWhile fun c => c = ' ' || c = '\t' with
  | [] => if cs.isEmpty then some none else none
  | ['Z'] => some none
  | s :: rest => do
    if s ≠ '+' && s ≠ '-' then none
    let (hours, rest) ← readPair? rest
    let minutes ← match rest with
      | [] => some 0
      | rest => do
        let (minutes, rest) ← readTwo? (← expect? ':' rest)
        if rest.isEmpty then some minutes else none
    let offset : Int := 60 * hours + minutes
    some (some (if s = '-' then -offset else offset))

/-- A date, or a date and a time of day; months and days may have one digit. -/
def readTimestamp? (cs : List Char) : Option Timestamp := do
  let (century, rest) ← readTwo? cs
  let (years, rest) ← readTwo? rest
  let year := 100 * century + years
  let (month, afterMonth) ← readPair? (← expect? '-' rest)
  let (day, afterDay) ← readPair? (← expect? '-' afterMonth)
  if afterDay.isEmpty then some ⟨year, month, day, none, none⟩
  else do
    let clock ← match afterDay with
      | 'T' :: rest | 't' :: rest => some rest
      | rest =>
        let clock := rest.dropWhile fun c => c = ' ' || c = '\t'
        if clock.length < rest.length then some clock else none
    let (hour, rest) ← readPair? clock
    let (minute, rest) ← readTwo? (← expect? ':' rest)
    let (second, rest) ← readTwo? (← expect? ':' rest)
    let rest := match rest with
      | '.' :: rest => rest.dropWhile Char.isDigit
      | rest => rest
    let offset ← readZone? rest
    some ⟨year, month, day, some (hour, minute, second), offset⟩

/-- Whether a text without quotes is a point in time: a date alone has all its digits. -/
def isTimestamp (cs : List Char) : Bool :=
  (readTimestamp? cs).any fun t => t.time.isSome || cs.length = 10

/-- The words for truth values. -/
def boolWords : List String :=
  ["yes", "Yes", "YES", "no", "No", "NO", "true", "True", "TRUE", "false", "False", "FALSE", "on",
    "On", "ON", "off", "Off", "OFF"]

/-- The words for null. -/
def nullWords : List String := ["", "~", "null", "Null", "NULL"]

/-- The text without the line end at its end, unless it is nothing else. -/
def dropLineEnd (s : String) : String :=
  let cs := s.toList
  if 1 < cs.length ∧ cs.getLast? = some '\n' then String.ofList cs.dropLast else s

/-- What one unquoted line means. -/
def ofLine (s : String) : ScalarKind :=
  if boolWords.contains s then .bool
  else if isFloat s.toList then .float
  else if isUnsignedInt (dropSign s.toList) then .int
  else if s = "<<" then .merge
  else if nullWords.contains s then .null
  else if isTimestamp s.toList then .timestamp
  else if s = "=" then .defaultValue
  else if ["!", "&", "*"].contains s then .reserved
  else .str

/-- What an unquoted text means; a line end at its end changes nothing. -/
def of (s : String) : ScalarKind := ofLine (dropLineEnd s)

end ScalarKind

end OpenApi.Yaml
