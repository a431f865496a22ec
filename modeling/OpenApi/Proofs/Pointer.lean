import Mathlib.Data.List.Infix
import OpenApi.Document.Basic
import OpenApi.Schema.Render
import OpenApi.Text.Split

/-!
# Proofs/Pointer — where a reference leads in the value it stands in

    #/components/schemas/a~1b   ──read──▸   components, schemas, a/b   ──follow──▸   a value

A reference into the same value is a `#` and a JSON pointer: after each slash a key of an object or
a position in an array, with `~1` for a slash and `~0` for a tilde in it.  A text that is put behind
a slash as it is comes out as the one key that it is exactly if it has none of the three in it
(`tokens_eq_singleton_iff`).
-/

namespace OpenApi

/-- A place in a value: the keys and positions on the way to it, outermost first. -/
abbrev Pointer := List String

namespace Pointer

/-! ## Reading -/

/-- A piece of a pointer with its escapes read; they do not overlap, so one pass reads both. -/
def unescape : List Char → List Char
  | '~' :: '1' :: cs => '/' :: unescape cs
  | '~' :: '0' :: cs => '~' :: unescape cs
  | c :: cs => c :: unescape cs
  | [] => []

/-- The pieces between slashes, with the escapes in them read. -/
def tokens (text : List Char) : Pointer :=
  (Text.splitBy (· = '/') text).map fun piece => String.ofList (unescape piece)

/-- The place that a reference into the same value leads to, if it is written as one. -/
def ofReference? (reference : String) : Option Pointer :=
  match reference.toList with
  | ['#'] => some []
  | '#' :: '/' :: text => some (tokens text)
  | _ => none

/-- **A name that is written in a pointer as it is**: there is no slash in it and nothing that looks
like an escape. -/
def Plain (name : String) : Prop :=
  '/' ∉ name.toList ∧ ¬ ['~', '1'] <:+: name.toList ∧ ¬ ['~', '0'] <:+: name.toList

instance (name : String) : Decidable (Plain name) :=
  inferInstanceAs (Decidable ('/' ∉ name.toList ∧ _))

theorem length_unescape_le (cs : List Char) : (unescape cs).length ≤ cs.length := by
  induction cs using unescape.induct with
  | case1 cs ih => simpa [unescape] using Nat.le_succ_of_le ih
  | case2 cs ih => simpa [unescape] using Nat.le_succ_of_le ih
  | case3 c cs h₁ h₀ ih => simpa [unescape] using ih
  | case4 => rfl

/-- **What has no escapes is read as it is**, and only that. -/
theorem unescape_eq_self_iff (cs : List Char) :
    unescape cs = cs ↔ ¬ ['~', '1'] <:+: cs ∧ ¬ ['~', '0'] <:+: cs := by
  induction cs using unescape.induct with
  | case1 cs ih =>
    have hescape : ['~', '1'] <:+: '~' :: '1' :: cs := (List.prefix_append _ cs).isInfix
    simp [unescape, hescape]
  | case2 cs ih =>
    have hescape : ['~', '0'] <:+: '~' :: '0' :: cs := (List.prefix_append _ cs).isInfix
    have hlength : unescape cs ≠ '0' :: cs := by
      intro he
      have hle := length_unescape_le cs
      rw [he, List.length_cons] at hle
      omega
    simp [unescape, hescape, hlength]
  | case3 c cs h₁ h₀ ih =>
    have hnone : ¬ ['~', '1'] <+: c :: cs ∧ ¬ ['~', '0'] <+: c :: cs := by
      constructor
      · rintro ⟨rest, he⟩
        cases he
        exact h₁ rest rfl rfl
      · rintro ⟨rest, he⟩
        cases he
        exact h₀ rest rfl rfl
    simp [unescape, List.infix_cons_iff, hnone, ih]
  | case4 => simp [unescape]

theorem tokens_ne_nil (text : List Char) : tokens text ≠ [] :=
  List.map_eq_nil_iff.not.mpr (Text.splitBy_ne_nil _ text)

/-- **A plain name is one key**, and no other name is the key that it is written as. -/
theorem tokens_eq_singleton_iff (name : String) : tokens name.toList = [name] ↔ Plain name := by
  have hslash : '/' ∉ name.toList ↔ ∀ c ∈ name.toList, decide (c = '/') = false := by
    simp only [decide_eq_false_iff_not]
    exact ⟨fun h c hc he => h (he ▸ hc), fun h hc => h '/' hc rfl⟩
  have hself : String.ofList (unescape name.toList) = name ↔
      unescape name.toList = name.toList := by
    rw [← String.toList_inj, String.toList_ofList]
  rw [Plain, ← unescape_eq_self_iff, ← hself]
  constructor
  · intro h
    have hlength := congrArg List.length h
    rw [tokens, List.length_map, Text.length_splitBy, List.length_singleton, Nat.succ_inj,
      List.countP_eq_zero] at hlength
    have hpieces := fun c hc => Bool.eq_false_iff.mpr (hlength c hc)
    rw [tokens, Text.splitBy_eq_self hpieces] at h
    exact ⟨hslash.mpr hpieces, List.singleton_inj.mp h⟩
  · rintro ⟨hpieces, hname⟩
    rw [tokens, Text.splitBy_eq_self (hslash.mp hpieces), List.map_singleton, hname]

end Pointer

/-! ## Following -/

namespace Json

/-- What stands under a key of an object, or at a position of an array. -/
def child? (token : String) : Json → Option Json
  | .obj members => Table.get? token members
  | .arr elements => (elements.zipIdx.find? fun e => toString e.2 = token).map (·.1)
  | _ => none

/-- The value at a place. -/
def at? (v : Json) : Pointer → Option Json
  | [] => some v
  | token :: rest => (v.child? token).bind fun child => child.at? rest

end Json

/-- The value that a reference in a document leads to. -/
def Document.target? (d : Document) (reference : String) : Option Json :=
  (Pointer.ofReference? reference).bind d.toJson.at?

/-- The name of a schema is read behind the place of the schemas. -/
theorem Pointer.ofReference?_name (name : String) :
    ofReference? (Schema.referencePrefix ++ name) =
      some ("components" :: "schemas" :: tokens name.toList) := by
  rw [ofReference?, String.toList_append]
  rfl

end OpenApi
