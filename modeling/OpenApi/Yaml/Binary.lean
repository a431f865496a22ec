/-!
# Yaml/Binary — bytes written as text

Four characters of sixty-four stand for three bytes.  Characters that are none of them are passed
over; an equals sign fills a group of at least two characters up, and where a group is full in this
way the text ends.
-/

namespace OpenApi.Yaml.Binary

/-- Whether a character stands for six bits. -/
def isSextet (c : Char) : Bool := c.isAlphanum || c = '+' || c = '/'

/-- Whether what is left of a text ends with a full group, after a number of characters and of
equals signs in the current group. -/
def isFilled (sextets signs : Nat) : List Char → Bool
  | [] => sextets = 0
  | c :: cs =>
    if c = '=' then
      if sextets < 2 then isFilled sextets signs cs
      else 4 ≤ sextets + signs + 1 || isFilled sextets (signs + 1) cs
    else if isSextet c then isFilled ((sextets + 1) % 4) 0 cs
    else isFilled sextets signs cs

/-- Whether a text stands for bytes: it is ASCII, and its groups are full. -/
def isValid (s : String) : Bool :=
  s.toList.all (·.toNat < 128) && isFilled 0 0 s.toList

end OpenApi.Yaml.Binary
