/-!
# Text/ControlSequence — text without terminal control

A control sequence is an escape, an opening square bracket, any digits, semicolons and question
marks, and a letter.  Output that does not go to a terminal has none of them.
-/

namespace OpenApi.Text

/-- The number of characters of the control sequence that a text begins with. -/
def controlLength? : List Char → Option Nat
  | '\x1b' :: '[' :: cs =>
    let settings := cs.takeWhile fun c => c.isDigit || c = ';' || c = '?'
    match cs.drop settings.length with
    | c :: _ => if c.isAlpha then some (settings.length + 3) else none
    | [] => none
  | _ => none

/-- The characters outside control sequences, after the next `skip` characters. -/
def plainAfter (skip : Nat) : List Char → List Char
  | [] => []
  | c :: cs =>
    match skip, controlLength? (c :: cs) with
    | skip + 1, _ => plainAfter skip cs
    | 0, some n => plainAfter (n - 1) cs
    | 0, none => c :: plainAfter 0 cs

/-- A text without its control sequences. -/
def plain (s : String) : String := String.ofList (plainAfter 0 s.toList)

end OpenApi.Text
