import OpenApi.Json.Basic

/-!
# Json/Reader — reading a value back from text

A reader for the texts that `Json.compact` and `Json.indented` write, and for every other layout of
a JSON value whose numbers are integers: blanks are allowed between the parts, strings may use any
escape, and an object keeps its keys in the order of the text.  A key that is repeated keeps its
first place and takes its last value.
-/

namespace OpenApi.Json

/-! ## Blanks and numbers -/

/-- The four characters that may stand between the parts of a value. -/
def isSpace (c : Char) : Bool := c = ' ' || c = '\n' || c = '\r' || c = '\t'

/-- The text after the blanks in front of it. -/
def skipSpace (cs : List Char) : List Char := cs.dropWhile isSpace

/-- The number that a run of decimal digits writes. -/
def ofDigits (cs : List Char) : Nat := cs.foldl (fun n c => 10 * n + (c.toNat - 48)) 0

/-- A natural number without superfluous zeros in front. -/
def readNat? (cs : List Char) : Option (Nat × List Char) :=
  let ds := cs.takeWhile Char.isDigit
  if ds = [] || (ds.head? = some '0' && ds.length ≠ 1) then none
  else some (ofDigits ds, cs.dropWhile Char.isDigit)

/-- An integer. -/
def readInt? : List Char → Option (Int × List Char)
  | '-' :: cs => (readNat? cs).map fun p => (-(p.1 : Int), p.2)
  | cs => (readNat? cs).map fun p => ((p.1 : Int), p.2)

/-! ## Strings -/

/-- The value of a hexadecimal digit in either case. -/
def hexValue? (c : Char) : Option Nat :=
  if '0' ≤ c ∧ c ≤ '9' then some (c.toNat - 48)
  else if 'a' ≤ c ∧ c ≤ 'f' then some (c.toNat - 87)
  else if 'A' ≤ c ∧ c ≤ 'F' then some (c.toNat - 55)
  else none

/-- The UTF-16 unit that four hexadecimal digits write. -/
def readUnit? : List Char → Option (Nat × List Char)
  | a :: b :: c :: d :: rest => do
    let w ← hexValue? a
    let x ← hexValue? b
    let y ← hexValue? c
    let z ← hexValue? d
    pure (4096 * w + 256 * x + 16 * y + z, rest)
  | _ => none

/-- The character that an escape after its backslash writes; surrogates come in pairs. -/
def readEscape? : List Char → Option (Char × List Char)
  | '"' :: rest => some ('"', rest)
  | '\\' :: rest => some ('\\', rest)
  | '/' :: rest => some ('/', rest)
  | 'b' :: rest => some ('\x08', rest)
  | 'f' :: rest => some ('\x0c', rest)
  | 'n' :: rest => some ('\n', rest)
  | 'r' :: rest => some ('\r', rest)
  | 't' :: rest => some ('\t', rest)
  | 'u' :: rest => do
    let (high, rest) ← readUnit? rest
    if high < 0xD800 ∨ 0xDFFF < high then pure (Char.ofNat high, rest)
    else if 0xDC00 ≤ high then none
    else match rest with
      | '\\' :: 'u' :: rest => do
        let (low, rest) ← readUnit? rest
        if 0xDC00 ≤ low ∧ low ≤ 0xDFFF then
          pure (Char.ofNat (0x10000 + 1024 * (high - 0xD800) + (low - 0xDC00)), rest)
        else none
      | _ => none
  | _ => none

/-- The characters of a string up to its closing quote. -/
def readChars? : Nat → List Char → Option (List Char × List Char)
  | 0, _ => none
  | fuel + 1, cs =>
    match cs with
    | [] => none
    | '"' :: rest => some ([], rest)
    | '\\' :: rest => do
      let (c, rest) ← readEscape? rest
      let (s, rest) ← readChars? fuel rest
      pure (c :: s, rest)
    | c :: rest => do
      if c.toNat < 0x20 then none
      let (s, rest) ← readChars? fuel rest
      pure (c :: s, rest)

/-- A string after its opening quote. -/
def readString? (cs : List Char) : Option (String × List Char) :=
  (readChars? (cs.length + 1) cs).map fun p => (String.ofList p.1, p.2)

/-! ## Values -/

mutual

/-- A value, at most `fuel` levels of calls deep. -/
def readValue? : Nat → List Char → Option (Json × List Char)
  | 0, _ => none
  | fuel + 1, cs =>
    match cs with
    | '"' :: rest => (readString? rest).map fun p => (.str p.1, p.2)
    | '[' :: rest =>
      match skipSpace rest with
      | ']' :: rest => some (.arr [], rest)
      | rest => (readElements? fuel rest).map fun p => (.arr p.1, p.2)
    | '{' :: rest =>
      match skipSpace rest with
      | '}' :: rest => some (.obj [], rest)
      | rest => (readMembers? fuel rest).map fun p => (.obj (Table.ofList p.1), p.2)
    | 'n' :: 'u' :: 'l' :: 'l' :: rest => some (.null, rest)
    | 't' :: 'r' :: 'u' :: 'e' :: rest => some (.bool true, rest)
    | 'f' :: 'a' :: 'l' :: 's' :: 'e' :: rest => some (.bool false, rest)
    | _ => (readInt? cs).map fun p => (.int p.1, p.2)

/-- The elements of an array from the first one to the closing bracket. -/
def readElements? : Nat → List Char → Option (List Json × List Char)
  | 0, _ => none
  | fuel + 1, cs => do
    let (v, rest) ← readValue? fuel cs
    match skipSpace rest with
    | ',' :: rest => do
      let (vs, rest) ← readElements? fuel (skipSpace rest)
      pure (v :: vs, rest)
    | ']' :: rest => pure ([v], rest)
    | _ => none

/-- The members of an object from the first key to the closing brace. -/
def readMembers? : Nat → List Char → Option (List (String × Json) × List Char)
  | 0, _ => none
  | fuel + 1, cs =>
    match cs with
    | '"' :: rest => do
      let (k, rest) ← readString? rest
      match skipSpace rest with
      | ':' :: rest => do
        let (v, rest) ← readValue? fuel (skipSpace rest)
        match skipSpace rest with
        | ',' :: rest => do
          let (ms, rest) ← readMembers? fuel (skipSpace rest)
          pure ((k, v) :: ms, rest)
        | '}' :: rest => pure ([(k, v)], rest)
        | _ => none
      | _ => none
    | _ => none

end

/-- The value that a text writes, if it writes exactly one. -/
def parse? (s : String) : Option Json := do
  let cs := s.toList
  let (v, rest) ← readValue? (cs.length + 1) (skipSpace cs)
  if skipSpace rest = [] then some v else none

end OpenApi.Json
