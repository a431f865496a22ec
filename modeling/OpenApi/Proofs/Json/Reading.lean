import Mathlib.Data.Nat.Digits.Defs
import OpenApi.Document.Format
import OpenApi.Json.Reader
import OpenApi.Proofs.Tables

/-!
# Proofs/Json/Reading — what is written as JSON is read back

    value ──indented──▶  {⏎  "a": [⏎    1⏎  ]⏎}  ──parse?──▶ value

The layout of a value is read part by part: an escape gives its character back, the digits of a
number end where no digit follows, and a collection begins and ends with its own bracket.  What
comes behind a part is arbitrary, but for a number (`NumberEnds`), so each part is read in the
middle of a text (`readValue?_indentedAt`).

A reader keeps a key once, so an object is read back if its keys are different, at every depth
(`Json.DistinctKeys`); their order is kept.
-/

namespace OpenApi

namespace Json

/-! ## Different keys -/

mutual

/-- **The keys of every object in a value are different.** -/
def DistinctKeys : Json → Prop
  | .arr elements => DistinctElements elements
  | .obj members => (members.map (·.1)).Nodup ∧ DistinctMembers members
  | _ => True

/-- The keys of every object in some elements are different. -/
def DistinctElements : List Json → Prop
  | [] => True
  | e :: es => e.DistinctKeys ∧ DistinctElements es

/-- The keys of every object in the values of some members are different. -/
def DistinctMembers : List (String × Json) → Prop
  | [] => True
  | (_, v) :: ms => v.DistinctKeys ∧ DistinctMembers ms

end

/-! ## Blanks -/

theorem skipSpace_cons {c : Char} (h : isSpace c = false) (rest : List Char) :
    skipSpace (c :: rest) = c :: rest := List.dropWhile_cons_of_neg (by simp [h])

/-- The blanks of a line break are passed over. -/
theorem skipSpace_newline (level : Nat) (rest : List Char) :
    skipSpace (newline level ++ rest) = skipSpace rest := by
  refine List.dropWhile_append_of_pos fun c hc => ?_
  rw [newline, List.mem_cons] at hc
  obtain rfl | hc := hc
  · rfl
  · rw [List.eq_of_mem_replicate hc]
    rfl

/-! ## Numbers -/

/-- **No digit comes next**, so that a number in front ends. -/
def NumberEnds (rest : List Char) : Prop := ∀ c ∈ rest.head?, c.isDigit = false

theorem numberEnds_cons {c : Char} (h : c.isDigit = false) (rest : List Char) :
    NumberEnds (c :: rest) := by simp [NumberEnds, h]

theorem numberEnds_newline (level : Nat) (rest : List Char) :
    NumberEnds (newline level ++ rest) := numberEnds_cons rfl _

/-- Digits are taken up to where the number ends. -/
theorem span_digits {ds rest : List Char} (digits : ∀ c ∈ ds, c.isDigit = true)
    (ends : NumberEnds rest) :
    (ds ++ rest).takeWhile Char.isDigit = ds ∧ (ds ++ rest).dropWhile Char.isDigit = rest := by
  rw [List.takeWhile_append_of_pos digits, List.dropWhile_append_of_pos digits]
  cases rest with
  | nil => simp
  | cons c rest =>
    have hc : c.isDigit = false := ends c rfl
    simp [hc]

/-- Only the digits of zero begin with a zero. -/
theorem eq_zero_of_head_toDigits {n : Nat} (h : (Nat.toDigits 10 n).head? = some '0') : n = 0 := by
  induction n using Nat.strong_induction_on with
  | _ n ih =>
    by_cases small : n < 10
    · rw [Nat.toDigits_of_lt_base small, List.head?_cons, Option.some.injEq] at h
      exact (by decide : ∀ d < 10, Nat.digitChar d = '0' → d = 0) n small h
    · have large : 10 ≤ n := Nat.le_of_not_lt small
      rw [Nat.toDigits_of_base_le (by decide) large,
        List.head?_append_of_ne_nil _ Nat.toDigits_ne_nil] at h
      have := ih (n / 10) (by omega) h
      omega

/-- **The digits of a number are read back.** -/
theorem readNat?_toDigits (n : Nat) {rest : List Char} (ends : NumberEnds rest) :
    readNat? (Nat.toDigits 10 n ++ rest) = some (n, rest) := by
  have digits : ∀ c ∈ Nat.toDigits 10 n, c.isDigit = true :=
    fun c => Nat.isDigit_of_mem_toDigits (by decide) (by decide)
  obtain ⟨taken, dropped⟩ := span_digits digits ends
  have value : ofDigits (Nat.toDigits 10 n) = n := by
    have decoded : Nat.ofDigitChars 10 (Nat.toDigits 10 n) 0 = n := Nat.ofDigitChars_ten_toDigits
    rwa [Nat.ofDigitChars_eq_foldl] at decoded
  have plain : ¬ ((Nat.toDigits 10 n).head? = some '0' ∧ (Nat.toDigits 10 n).length ≠ 1) := by
    rintro ⟨zero, long⟩
    obtain rfl := eq_zero_of_head_toDigits zero
    exact long rfl
  rw [readNat?, taken, dropped, value]
  simpa [Nat.toDigits_ne_nil] using plain

theorem exists_head_toDigits (n : Nat) :
    ∃ c cs, Nat.toDigits 10 n = c :: cs ∧ c.isDigit = true := by
  obtain ⟨c, cs, h⟩ := List.exists_cons_of_ne_nil (Nat.toDigits_ne_nil (n := n) (b := 10))
  exact ⟨c, cs, h, Nat.isDigit_of_mem_toDigits (by decide) (by decide) (h ▸ List.mem_cons_self)⟩

theorem readInt?_digits (i : Int) {rest : List Char} (ends : NumberEnds rest) :
    readInt? (digits i ++ rest) = some (i, rest) := by
  cases i with
  | ofNat n =>
    have unsigned : ∀ cs, Nat.toDigits 10 n ++ rest ≠ '-' :: cs := by
      intro cs h
      obtain ⟨d, ds, hd, digit⟩ := exists_head_toDigits n
      rw [hd] at h
      obtain rfl : d = '-' := (List.cons.inj h).1
      cases digit
    rw [digits, readInt?, readNat?_toDigits n ends]
    · rfl
    · exact unsigned
  | negSucc n =>
    rw [digits, List.cons_append, readInt?, readNat?_toDigits (n + 1) ends]
    rfl

/-! ## Strings -/

theorem hexValue?_hexDigit {n : Nat} (h : n < 16) : hexValue? (hexDigit n) = some n :=
  (by decide : ∀ n : Fin 16, hexValue? (hexDigit n) = some n.val) ⟨n, h⟩

/-- The four digits of a UTF-16 unit are read back. -/
theorem readUnit?_unitEscape {n : Nat} (h : n < 0x10000) (rest : List Char) :
    readUnit? ((unitEscape n).drop 2 ++ rest) = some (n, rest) := by
  simp only [unitEscape, List.drop_succ_cons, List.drop_zero, List.cons_append, List.nil_append,
    readUnit?, hexValue?_hexDigit (Nat.mod_lt _ (by decide : 0 < 16)), Option.bind_eq_bind,
    Option.bind_some, Option.pure_def, Option.some.injEq, Prod.mk.injEq, and_true]
  omega

/-- The short escape of a character stands for it. -/
theorem readEscape?_of_shortEscape? {c e : Char} (h : shortEscape? c = some e)
    (rest : List Char) : readEscape? (e :: rest) = some (c, rest) := by
  simp only [shortEscape?] at h
  split_ifs at h <;> cases h <;> subst c <;> rfl

/-- **An escaped character is read back** — whatever string follows. -/
theorem readChars?_escape (c : Char) (fuel : Nat) (rest : List Char) :
    readChars? (fuel + 1) (escape c ++ rest) =
      (readChars? fuel rest).map fun p => (c :: p.1, p.2) := by
  unfold escape
  cases short : shortEscape? c with
  | some e =>
    simp only [List.cons_append, List.nil_append, readChars?, readEscape?_of_shortEscape? short,
      Option.bind_eq_bind, Option.bind_some, Option.pure_def]
    cases readChars? fuel rest <;> rfl
  | none =>
    by_cases control : c.toNat < 0x20
    · have unit := readUnit?_unitEscape (by omega : c.toNat < 0x10000) rest
      have low : c.toNat < 0xD800 := by omega
      rw [if_pos control]
      simp only [unitEscape, List.drop_succ_cons, List.drop_zero, List.cons_append,
        List.nil_append] at unit ⊢
      simp only [readChars?, readEscape?, unit, Option.bind_eq_bind, Option.bind_some, low, true_or,
        if_true, Option.pure_def, Char.ofNat_toNat]
      cases readChars? fuel rest <;> rfl
    · have plain : c ≠ '"' ∧ c ≠ '\\' := by
        constructor <;> rintro rfl <;> cases short
      rw [if_neg control, List.cons_append, List.nil_append, readChars?]
      · simp only [control, if_false, Option.bind_eq_bind, Option.pure_def]
        cases readChars? fuel rest <;> rfl
      · exact plain.1
      · exact plain.2

theorem readChars?_flatMap {rest : List Char} : ∀ {s : List Char} {fuel : Nat}, s.length < fuel →
    readChars? fuel (s.flatMap escape ++ '"' :: rest) = some (s, rest)
  | [], fuel + 1, _ => rfl
  | c :: s, fuel + 1, h => by
    rw [List.flatMap_cons, List.append_assoc, readChars?_escape,
      readChars?_flatMap (Nat.lt_of_succ_lt_succ h)]
    rfl

/-- An escaped text is not shorter than the text. -/
theorem length_le_flatMap_escape (s : List Char) : s.length ≤ (s.flatMap escape).length := by
  have written (c : Char) : 1 ≤ (escape c).length := by
    unfold escape
    split
    · simp
    · split <;> simp [unitEscape]
  induction s with
  | nil => simp
  | cons c s ih =>
    have := written c
    simp only [List.length_cons, List.flatMap_cons, List.length_append]
    omega

/-- **A quoted string is read back.** -/
theorem readString?_escaped (s : String) (rest : List Char) :
    readString? (s.toList.flatMap escape ++ '"' :: rest) = some (s, rest) := by
  have fuel : s.toList.length < (s.toList.flatMap escape ++ '"' :: rest).length + 1 := by
    have := length_le_flatMap_escape s.toList
    simp only [List.length_append]
    omega
  rw [readString?, readChars?_flatMap fuel]
  simp

/-! ## Values -/

/-- **A text that a value can begin with** — no blank comes first, and no bracket that closes. -/
def Opens : List Char → Prop
  | [] => False
  | c :: _ => isSpace c = false ∧ c ≠ ']' ∧ c ≠ '}'

theorem Opens.append {text : List Char} (h : Opens text) (rest : List Char) :
    Opens (text ++ rest) := by
  cases text with
  | nil => cases h
  | cons c cs => exact h

theorem Opens.skipSpace_eq {text : List Char} (h : Opens text) : skipSpace text = text := by
  cases text with
  | nil => rfl
  | cons c cs => exact skipSpace_cons h.1 cs

/-- A number begins with a digit or a sign. -/
theorem exists_head_digits (i : Int) :
    ∃ c cs, digits i = c :: cs ∧ (c = '-' ∨ c.isDigit = true) := by
  cases i with
  | ofNat n =>
    obtain ⟨c, cs, h, digit⟩ := exists_head_toDigits n
    exact ⟨c, cs, h, .inr digit⟩
  | negSucc n => exact ⟨'-', _, rfl, .inl rfl⟩

/-- What is neither a digit nor a sign is not the beginning of a number. -/
theorem ne_of_number {c d : Char} (h : c = '-' ∨ c.isDigit = true) (hd : d.isDigit = false)
    (sign : d ≠ '-') : c ≠ d := by
  rintro rfl
  obtain h | h := h
  · exact sign h
  · rw [h] at hd
    cases hd

theorem opens_digits (i : Int) : Opens (digits i) := by
  obtain ⟨c, cs, h, number⟩ := exists_head_digits i
  rw [h]
  refine ⟨?_, ne_of_number number rfl (by decide), ne_of_number number rfl (by decide)⟩
  simp only [isSpace, Bool.or_eq_false_iff, decide_eq_false_iff_not]
  exact ⟨⟨⟨ne_of_number number rfl (by decide), ne_of_number number rfl (by decide)⟩,
    ne_of_number number rfl (by decide)⟩, ne_of_number number rfl (by decide)⟩

theorem opens_quoted (s : String) : Opens (quotedBy escape s) := ⟨rfl, by decide, by decide⟩

/-- The layout of a value opens with the value. -/
theorem opens_indentedAt (level : Nat) (v : Json) : Opens (v.indentedAt level) := by
  cases v with
  | null => exact ⟨rfl, by decide, by decide⟩
  | bool b => cases b <;> exact ⟨rfl, by decide, by decide⟩
  | int i => exact opens_digits i
  | str s => exact opens_quoted s
  | arr elements => cases elements <;> exact ⟨rfl, by decide, by decide⟩
  | obj members => cases members <;> exact ⟨rfl, by decide, by decide⟩

/-! ### The layout of a collection -/

section Layout

variable (level : Nat) (e f : Json) (es : List Json) (k : String) (m : String × Json)
  (ms : List (String × Json))

theorem indentedAt_arr_cons : (Json.arr (e :: es)).indentedAt level =
    '[' :: (newline (level + 1) ++
      (indentedElements (level + 1) (e :: es) ++ (newline level ++ [']']))) := by
  simp [indentedAt, block]

theorem indentedAt_obj_cons : (Json.obj (m :: ms)).indentedAt level =
    '{' :: (newline (level + 1) ++
      (indentedMembers (level + 1) (m :: ms) ++ (newline level ++ ['}']))) := by
  simp [indentedAt, block]

theorem indentedElements_singleton : indentedElements level [e] = e.indentedAt level := by
  simp [indentedElements, unlessLast]

theorem indentedElements_cons_cons : indentedElements level (e :: f :: es) =
    e.indentedAt level ++ (',' :: (newline level ++ indentedElements level (f :: es))) := by
  simp [indentedElements, unlessLast]

theorem indentedMembers_singleton : indentedMembers level [(k, e)] =
    quotedBy escape k ++ (':' :: ' ' :: e.indentedAt level) := by
  simp [indentedMembers, unlessLast]

theorem indentedMembers_cons_cons : indentedMembers level ((k, e) :: m :: ms) =
    quotedBy escape k ++ (':' :: ' ' :: (e.indentedAt level ++
      (',' :: (newline level ++ indentedMembers level (m :: ms))))) := by
  simp [indentedMembers, unlessLast]

theorem opens_indentedElements : Opens (indentedElements level (e :: es)) := by
  rw [indentedElements, List.append_assoc]
  exact (opens_indentedAt level e).append _

theorem opens_indentedMembers : Opens (indentedMembers level (m :: ms)) := by
  rw [indentedMembers, List.append_assoc, List.append_assoc]
  exact (opens_quoted m.1).append _

end Layout

/-! ### One step of the reader -/

section Steps

variable {fuel level : Nat} {text next rest : List Char} {v : Json} {vs : List Json} {key : String}
  {ms : List (String × Json)}

theorem readValue?_digits (i : Int) (ends : NumberEnds rest) :
    readValue? (fuel + 1) (digits i ++ rest) = some (.int i, rest) := by
  have read := readInt?_digits i ends
  obtain ⟨c, cs, h, number⟩ := exists_head_digits i
  rw [h, List.cons_append] at read ⊢
  have other : c ≠ '"' ∧ c ≠ '[' ∧ c ≠ '{' ∧ c ≠ 'n' ∧ c ≠ 't' ∧ c ≠ 'f' := by
    refine ⟨?_, ?_, ?_, ?_, ?_, ?_⟩ <;> exact ne_of_number number rfl (by decide)
  rw [readValue?, read]
  · rfl
  all_goals simp [other]

theorem readValue?_quoted (s : String) :
    readValue? (fuel + 1) (quotedBy escape s ++ rest) = some (.str s, rest) := by
  simp only [quotedBy, List.cons_append, List.append_assoc, List.nil_append, readValue?,
    readString?_escaped, Option.map_some]

/-- The elements of an array begin on a line of their own. -/
theorem readValue?_elements (opens : Opens text) :
    readValue? (fuel + 1) ('[' :: (newline level ++ text)) =
      (readElements? fuel text).map fun p => (.arr p.1, p.2) := by
  rw [readValue?, skipSpace_newline, opens.skipSpace_eq]
  split
  · exact absurd rfl opens.2.1
  · rfl

/-- The members of an object begin on a line of their own. -/
theorem readValue?_members (opens : Opens text) :
    readValue? (fuel + 1) ('{' :: (newline level ++ text)) =
      (readMembers? fuel text).map fun p => (.obj (Table.ofList p.1), p.2) := by
  rw [readValue?, skipSpace_newline, opens.skipSpace_eq]
  split
  · exact absurd rfl opens.2.2
  · rfl

theorem readElements?_last
    (value : readValue? fuel text = some (v, newline level ++ ']' :: rest)) :
    readElements? (fuel + 1) text = some ([v], rest) := by
  simp only [readElements?, value, Option.bind_eq_bind, Option.bind_some, skipSpace_newline,
    skipSpace_cons (by rfl : isSpace ']' = false), Option.pure_def]

theorem readElements?_next (opens : Opens next)
    (value : readValue? fuel text = some (v, ',' :: (newline level ++ next)))
    (others : readElements? fuel next = some (vs, rest)) :
    readElements? (fuel + 1) text = some (v :: vs, rest) := by
  simp only [readElements?, value, Option.bind_eq_bind, Option.bind_some,
    skipSpace_cons (by rfl : isSpace ',' = false), skipSpace_newline, opens.skipSpace_eq, others,
    Option.pure_def]

theorem readMembers?_last (opens : Opens text)
    (value : readValue? fuel text = some (v, newline level ++ '}' :: rest)) :
    readMembers? (fuel + 1) (quotedBy escape key ++ (':' :: ' ' :: text)) =
      some ([(key, v)], rest) := by
  have blank : skipSpace (' ' :: text) = text := opens.skipSpace_eq
  simp only [quotedBy, List.cons_append, List.append_assoc, List.nil_append, readMembers?,
    readString?_escaped, Option.bind_eq_bind, Option.bind_some,
    skipSpace_cons (by rfl : isSpace ':' = false), blank, value, skipSpace_newline,
    skipSpace_cons (by rfl : isSpace '}' = false), Option.pure_def]

theorem readMembers?_next (opens : Opens text) (opens' : Opens next)
    (value : readValue? fuel text = some (v, ',' :: (newline level ++ next)))
    (others : readMembers? fuel next = some (ms, rest)) :
    readMembers? (fuel + 1) (quotedBy escape key ++ (':' :: ' ' :: text)) =
      some ((key, v) :: ms, rest) := by
  have blank : skipSpace (' ' :: text) = text := opens.skipSpace_eq
  simp only [quotedBy, List.cons_append, List.append_assoc, List.nil_append, readMembers?,
    readString?_escaped, Option.bind_eq_bind, Option.bind_some,
    skipSpace_cons (by rfl : isSpace ':' = false), blank, value,
    skipSpace_cons (by rfl : isSpace ',' = false), skipSpace_newline, opens'.skipSpace_eq, others,
    Option.pure_def]

end Steps

/-! ### The whole text

The recursion is on the steps of the reader, as the reader's own is.  A layout has more characters
than its reading has steps: every collection has a bracket, and every part but the first a comma. -/

mutual

/-- **A value is read back from its layout** — in the middle of a text, in more steps than the
layout has characters. -/
theorem readValue?_indentedAt : ∀ {v : Json} {level fuel : Nat} {rest : List Char},
    v.DistinctKeys → (v.indentedAt level).length < fuel → NumberEnds rest →
      readValue? fuel (v.indentedAt level ++ rest) = some (v, rest)
  | _, _, 0, _, _, steps, _ => absurd steps (Nat.not_lt_zero _)
  | .null, _, _ + 1, _, _, _, _ => rfl
  | .bool true, _, _ + 1, _, _, _, _ => rfl
  | .bool false, _, _ + 1, _, _, _, _ => rfl
  | .int i, _, _ + 1, _, _, _, ends => readValue?_digits i ends
  | .str s, _, _ + 1, _, _, _, _ => readValue?_quoted s
  | .arr [], _, _ + 1, _, _, _, _ => rfl
  | .obj [], _, _ + 1, _, _, _, _ => rfl
  | .arr (e :: es), level, fuel + 1, rest, distinct, steps, _ => by
    rw [indentedAt_arr_cons] at steps ⊢
    have elements : readElements? fuel (indentedElements (level + 1) (e :: es) ++
        (newline level ++ ']' :: rest)) = some (e :: es, rest) := by
      refine readElements?_indentedElements distinct ?_
      simp only [List.length_cons, List.length_append] at steps
      omega
    have opens := (opens_indentedElements (level + 1) e es).append (newline level ++ ']' :: rest)
    simp only [List.cons_append, List.append_assoc, List.nil_append, readValue?_elements opens,
      elements, Option.map_some]
  | .obj (m :: ms), level, fuel + 1, rest, distinct, steps, _ => by
    rw [indentedAt_obj_cons] at steps ⊢
    have members : readMembers? fuel (indentedMembers (level + 1) (m :: ms) ++
        (newline level ++ '}' :: rest)) = some (m :: ms, rest) := by
      refine readMembers?_indentedMembers distinct.2 ?_
      simp only [List.length_cons, List.length_append] at steps
      omega
    have opens := (opens_indentedMembers (level + 1) m ms).append (newline level ++ '}' :: rest)
    simp only [List.cons_append, List.append_assoc, List.nil_append, readValue?_members opens,
      members, Option.map_some, Table.ofList_eq_self distinct.1]
termination_by structural _ _ fuel => fuel

/-- Elements are read back, up to the bracket that closes their array. -/
theorem readElements?_indentedElements : ∀ {e : Json} {es : List Json} {level closing fuel : Nat}
    {rest : List Char}, DistinctElements (e :: es) →
    (indentedElements level (e :: es)).length + 1 < fuel →
      readElements? fuel (indentedElements level (e :: es) ++ (newline closing ++ ']' :: rest)) =
        some (e :: es, rest)
  | _, _, _, _, 0, _, _, steps => absurd steps (Nat.not_lt_zero _)
  | e, [], level, closing, fuel + 1, rest, distinct, steps => by
    rw [indentedElements_singleton] at steps ⊢
    exact readElements?_last (readValue?_indentedAt distinct.1 (Nat.lt_of_succ_lt_succ steps)
      (numberEnds_newline closing _))
  | e, f :: es, level, closing, fuel + 1, rest, distinct, steps => by
    rw [indentedElements_cons_cons] at steps ⊢
    simp only [List.length_cons, List.length_append] at steps
    have others : readElements? fuel (indentedElements level (f :: es) ++
        (newline closing ++ ']' :: rest)) = some (f :: es, rest) :=
      readElements?_indentedElements distinct.2 (by omega)
    rw [List.append_assoc, List.cons_append, List.append_assoc]
    exact readElements?_next ((opens_indentedElements level f es).append _)
      (readValue?_indentedAt distinct.1 (by omega) (numberEnds_cons rfl _)) others
termination_by structural _ _ _ _ fuel => fuel

/-- Members are read back, up to the brace that closes their object. -/
theorem readMembers?_indentedMembers : ∀ {m : String × Json} {ms : List (String × Json)}
    {level closing fuel : Nat} {rest : List Char}, DistinctMembers (m :: ms) →
    (indentedMembers level (m :: ms)).length + 1 < fuel →
      readMembers? fuel (indentedMembers level (m :: ms) ++ (newline closing ++ '}' :: rest)) =
        some (m :: ms, rest)
  | _, _, _, _, 0, _, _, steps => absurd steps (Nat.not_lt_zero _)
  | (k, v), [], level, closing, fuel + 1, rest, distinct, steps => by
    rw [indentedMembers_singleton] at steps ⊢
    simp only [List.length_cons, List.length_append] at steps
    rw [List.append_assoc, List.cons_append, List.cons_append]
    exact readMembers?_last ((opens_indentedAt level v).append _)
      (readValue?_indentedAt distinct.1 (by omega) (numberEnds_newline closing _))
  | (k, v), n :: ms, level, closing, fuel + 1, rest, distinct, steps => by
    rw [indentedMembers_cons_cons] at steps ⊢
    simp only [List.length_cons, List.length_append] at steps
    have others : readMembers? fuel (indentedMembers level (n :: ms) ++
        (newline closing ++ '}' :: rest)) = some (n :: ms, rest) :=
      readMembers?_indentedMembers distinct.2 (by omega)
    simp only [List.append_assoc, List.cons_append]
    exact readMembers?_next ((opens_indentedAt level v).append _)
      ((opens_indentedMembers level n ms).append _)
      (readValue?_indentedAt distinct.1 (by omega) (numberEnds_cons rfl _)) others
termination_by structural _ _ _ _ fuel => fuel

end

/-- The layout of a value, followed by a line break, writes the value. -/
theorem parse?_indented {v : Json} (h : v.DistinctKeys) : parse? (v.indented ++ "\n") = some v := by
  have text : (v.indented ++ "\n").toList = v.indentedAt 0 ++ ['\n'] := by simp [indented]
  have opens : skipSpace (v.indentedAt 0 ++ ['\n']) = v.indentedAt 0 ++ ['\n'] :=
    ((opens_indentedAt 0 v).append _).skipSpace_eq
  have read : readValue? ((v.indentedAt 0 ++ ['\n']).length + 1) (v.indentedAt 0 ++ ['\n']) =
      some (v, ['\n']) := by
    refine readValue?_indentedAt h ?_ (numberEnds_cons rfl [])
    simp only [List.length_append]
    omega
  simp only [parse?, text, opens, read, Option.bind_eq_bind, Option.bind_some]
  exact if_pos rfl

end Json

/-! ## Documents -/

/-- **Writing a document as JSON loses nothing** — reading the text gives the document back, with
the keys of every object in their order, so different documents have different texts. -/
theorem Document.lossless_render_json :
    (∀ d : Document, d.toJson.DistinctKeys → Json.parse? (d.render .json) = some d.toJson) ∧
      ∀ d e : Document, d.toJson.DistinctKeys → e.toJson.DistinctKeys → d ≠ e →
        d.render .json ≠ e.render .json := by
  have read (d : Document) (h : d.toJson.DistinctKeys) :
      Json.parse? (d.render .json) = some d.toJson := Json.parse?_indented h
  refine ⟨read, fun d e hd he differ same => differ ?_⟩
  have value : some d.toJson = some e.toJson := by rw [← read d hd, same, read e he]
  obtain ⟨ds⟩ := d
  obtain ⟨es⟩ := e
  obtain rfl : ds = es := Json.obj.inj (Option.some.inj value)
  rfl

/-- Characters that are escaped and others, a negative number, empty collections and nested ones,
in two orders of the keys. -/
theorem Document.lossless_render_json_reordered :
    let text := ("te\"xt", Json.str "a\\\n\x01é\u2028")
    let parts := ("parts", Json.arr [.int (-120), .obj [], .arr [.null, .bool true], .int 0])
    (⟨[text, parts]⟩ : Document).toJson.DistinctKeys ∧
      (⟨[parts, text]⟩ : Document).toJson.DistinctKeys ∧
      Json.parse? (Document.render ⟨[text, parts]⟩ .json) = some (.obj [text, parts]) ∧
      Document.render ⟨[text, parts]⟩ .json ≠ Document.render ⟨[parts, text]⟩ .json := by
  intro text parts
  have distinct : (⟨[text, parts]⟩ : Document).toJson.DistinctKeys := by
    simp [Document.toJson, Json.DistinctKeys, Json.DistinctElements, Json.DistinctMembers, text,
      parts]
  have distinct' : (⟨[parts, text]⟩ : Document).toJson.DistinctKeys := by
    simp [Document.toJson, Json.DistinctKeys, Json.DistinctElements, Json.DistinctMembers, text,
      parts]
  exact ⟨distinct, distinct', lossless_render_json.1 _ distinct,
    lossless_render_json.2 _ _ distinct distinct' (by simp [text, parts])⟩

end OpenApi
