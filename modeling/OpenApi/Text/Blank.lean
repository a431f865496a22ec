/-!
# Text/Blank — blank characters and trimming

A setting of a configuration file is read without the blanks around it.  Blank are the characters
that Unicode calls white space or that separate lines, paragraphs and information blocks.
-/

namespace OpenApi.Text

/-- The blank characters: the line and block separators among the control characters and the
white space of Unicode; the zero-width space and the byte-order mark are not blank. -/
def isBlank (c : Char) : Bool :=
  let n := c.toNat
  (0x09 ≤ n && n ≤ 0x0D) || (0x1C ≤ n && n ≤ 0x20) || n == 0x85 || n == 0xA0 || n == 0x1680 ||
    (0x2000 ≤ n && n ≤ 0x200A) || n == 0x2028 || n == 0x2029 || n == 0x202F || n == 0x205F ||
    n == 0x3000

/-- Drops from both ends of a list every element that `p` accepts. -/
def trimEnds {α : Type} (p : α → Bool) (l : List α) : List α :=
  ((l.dropWhile p).reverse.dropWhile p).reverse

/-- An element that `p` does not accept is not dropped. -/
theorem mem_trimEnds {α : Type} {p : α → Bool} {a : α} (h : p a = false) (l : List α) :
    a ∈ trimEnds p l ↔ a ∈ l := by
  have drop (l : List α) : a ∈ l.dropWhile p ↔ a ∈ l := by
    refine ⟨fun mem => (List.dropWhile_sublist p).subset mem, fun mem => ?_⟩
    rw [← List.takeWhile_append_dropWhile (p := p) (l := l), List.mem_append] at mem
    obtain taken | dropped := mem
    · rw [List.all_eq_true.mp List.all_takeWhile a taken] at h
      cases h
    · exact dropped
  rw [trimEnds, List.mem_reverse, drop, List.mem_reverse, drop]

/-- A text without the blanks around it. -/
def trim (s : String) : String := String.ofList (trimEnds isBlank s.toList)

end OpenApi.Text
