import OpenApi.Text.Blank
import OpenApi.Text.Digit
import OpenApi.Text.LowerCase
import OpenApi.Yaml.Fault
import OpenApi.Yaml.Scalar

/-!
# Yaml/Numeral — which texts are numbers

A scalar that is tagged as a number is read as one in any spelling that has a value: with blanks
around it, with the digits of any script, with underscores anywhere, to the base that its beginning
shows, with places to base sixty.  Each function here says what is wrong with a text, if anything.
-/

namespace OpenApi.Yaml.Numeral

/-! ## Spelling -/

/-- A character as it counts in a number: digits of all scripts as their values, blanks beyond ASCII
as spaces, and everything else beyond ASCII as a mark that no number has. -/
def spelled (c : Char) : Char :=
  if c.toNat < 127 then c
  else if Text.isBlank c then ' '
  else match Text.digit? c with
    | some n => Char.ofNat (48 + n)
    | none => '?'

/-- The blanks that may stand around a number. -/
def isPadding (c : Char) : Bool := c = ' ' || ('\t' ≤ c && c ≤ '\r')

/-- The value of a digit to the bases up to thirty-six. -/
def digitValue (c : Char) : Nat :=
  if c.isDigit then c.toNat - 48
  else if c.isUpper then c.toNat - 55
  else if c.isLower then c.toNat - 87
  else 36

/-- The letter that may stand behind a zero in front of the digits to a base. -/
def isBaseLetter (base : Nat) (c : Char) : Bool :=
  match base with
  | 2 => c = 'b' || c = 'B'
  | 8 => c = 'o' || c = 'O'
  | 16 => c = 'x' || c = 'X'
  | _ => false

/-- The text behind the mark of a base, if it is there. -/
def dropBase (base : Nat) : List Char → List Char
  | '0' :: c :: cs => if isBaseLetter base c then cs else '0' :: c :: cs
  | cs => cs

/-! ## Integers -/

/-- The largest number of decimal digits an integer is read from. -/
def maxDigits : Nat := 4300

/-- What is wrong with a text as an integer to a base. -/
def integerFault? (base : Nat) (cs : List Char) : Option ScalarFault :=
  let body := dropBase base (ScalarKind.dropSign ((cs.map spelled).dropWhile isPadding))
  let digits := body.takeWhile fun c => digitValue c < base
  let rest := (body.drop digits.length).dropWhile isPadding
  if base = 10 ∧ maxDigits < digits.length then some (.tooManyDigits digits.length)
  else if digits.isEmpty || !rest.isEmpty then some (.notAnInteger base (String.ofList cs))
  else none

/-- The digits and marks of a number, its underscores left out. -/
def withoutUnderscores (s : String) : List Char := s.toList.filter (· ≠ '_')

/-- **What is wrong with a text as an integer** — binary behind `0b`, hexadecimal behind `0x`, octal
behind another zero, with places to base sixty between colons, and decimal otherwise. -/
def intFault? (s : String) : Option ScalarFault :=
  match withoutUnderscores s with
  | [] => some .nothing
  | cs =>
    match ScalarKind.dropSign cs with
    | [] => some .nothing
    | ['0'] => none
    | '0' :: 'b' :: digits => integerFault? 2 digits
    | '0' :: 'x' :: digits => integerFault? 16 digits
    | '0' :: digits => integerFault? 8 ('0' :: digits)
    | digits => (Text.splitBy (· = ':') digits).findSome? (integerFault? 10)

/-! ## Numbers -/

/-- An exponent, or nothing. -/
def isScale : List Char → Bool
  | [] => true
  | e :: cs =>
    let digits := ScalarKind.dropSign cs
    (e = 'e' || e = 'E') && !digits.isEmpty && digits.all Char.isDigit

/-- Digits with a point, perhaps, and an exponent, perhaps. -/
def isDecimal (cs : List Char) : Bool :=
  let whole := cs.takeWhile Char.isDigit
  match cs.drop whole.length with
  | '.' :: rest =>
    let fraction := rest.takeWhile Char.isDigit
    !(whole.isEmpty && fraction.isEmpty) && isScale (rest.drop fraction.length)
  | rest => !whole.isEmpty && isScale rest

/-- What is wrong with a text as a number of one place. -/
def placeFault? (cs : List Char) : Option ScalarFault :=
  let body := ScalarKind.dropSign (Text.trimEnds isPadding (cs.map spelled))
  if ["inf", "infinity", "nan"].contains (String.ofList (body.map Char.toLower)) || isDecimal body
  then none else some (.notANumber (String.ofList cs))

/-- The number of places to base sixty from which on a place is too far up to have a value. -/
def maxPlaces : Nat := 174

/-- **What is wrong with a text as a number** — in any case, infinite or undefined behind a point,
with places to base sixty between colons. -/
def floatFault? (s : String) : Option ScalarFault :=
  match (Text.lower (String.ofList (withoutUnderscores s))).toList with
  | [] => some .nothing
  | cs =>
    let body := ScalarKind.dropSign cs
    if [".inf", ".nan"].contains (String.ofList body) then none
    else
      let places := Text.splitBy (· = ':') body
      match places.findSome? placeFault? with
      | some fault => some fault
      | none => if maxPlaces < places.length then some .tooManyPlaces else none

end OpenApi.Yaml.Numeral
