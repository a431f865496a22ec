import OpenApi.Text.Quoted

/-!
# Yaml/Fault — what reading can meet

A text that is not well formed is refused as a whole.  A text that is well formed may still hold a
scalar without a value: a number, a date or an escape that stands for nothing.  An escape may also
stand for half of a surrogate pair, which is no character: the value of such a text is not a value
here.
-/

namespace OpenApi.Yaml

/-- Why a scalar has no value. -/
inductive ScalarFault where
  | nothing
  | notAnInteger (base : Nat) (digits : String)
  | tooManyDigits (count : Nat)
  | notANumber (text : String)
  | tooManyPlaces
  | notATruthValue (text : String)
  | notATimestamp
  | timestampOfMembers
  | yearOutOfRange (year : Nat)
  | monthOutOfRange
  | dayOutOfRange
  | hourOutOfRange
  | minuteOutOfRange
  | secondOutOfRange
  | offsetOutOfRange (minutes : Int)
  | endlessDefault
  | codeOutOfRange
  | codeTooLarge
deriving DecidableEq, Repr

/-- A span of time in whole days and the seconds beyond them. -/
def spanText (minutes : Int) : String :=
  let days := minutes.fdiv 1440
  let seconds := minutes.fmod 1440 * 60
  let parts := (if days = 0 then [] else ["days=" ++ toString days]) ++
    (if seconds = 0 then [] else ["seconds=" ++ toString seconds])
  "datetime.timedelta(" ++ ", ".intercalate parts ++ ")"

/-- The text of a fault; of a long text that is no integer it shows the beginning. -/
def ScalarFault.message : ScalarFault → String
  | .nothing => "string index out of range"
  | .notAnInteger base digits =>
    "invalid literal for int() with base " ++ toString base ++ ": " ++
      String.ofList ((Text.quoted digits).toList.take 200)
  | .tooManyDigits count =>
    "Exceeds the limit (4300 digits) for integer string conversion: value has " ++
      toString count ++ " digits; use sys.set_int_max_str_digits() to increase the limit"
  | .notANumber text => "could not convert string to float: " ++ Text.quoted text
  | .tooManyPlaces => "int too large to convert to float"
  | .notATruthValue text => Text.quoted text
  | .notATimestamp => "'NoneType' object has no attribute 'groupdict'"
  | .timestampOfMembers => "expected string or bytes-like object, got 'list'"
  | .yearOutOfRange year => "year " ++ toString year ++ " is out of range"
  | .monthOutOfRange => "month must be in 1..12"
  | .dayOutOfRange => "day is out of range for month"
  | .hourOutOfRange => "hour must be in 0..23"
  | .minuteOutOfRange => "minute must be in 0..59"
  | .secondOutOfRange => "second must be in 0..59"
  | .offsetOutOfRange minutes =>
    "offset must be a timedelta strictly between -timedelta(hours=24) and " ++
      "timedelta(hours=24), not " ++ spanText minutes ++ "."
  | .endlessDefault => "maximum recursion depth exceeded"
  | .codeOutOfRange => "chr() arg not in range(0x110000)"
  | .codeTooLarge => "Python int too large to convert to C int"

/-- Why a text has no value: it is not well formed, one of its scalars has no value, or one of them
holds half of a surrogate pair. -/
inductive ReadError where
  | malformed
  | scalar (fault : ScalarFault)
  | unpaired
deriving DecidableEq, Repr

/-- What is said of half of a surrogate pair. -/
def unpairedText : String := "half of a surrogate pair"

/-- The value that is there, of a text that is otherwise not well formed. -/
def orMalformed {α : Type} : Option α → Except ReadError α
  | some a => .ok a
  | none => .error .malformed

end OpenApi.Yaml
