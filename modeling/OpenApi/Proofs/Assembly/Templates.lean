import Mathlib.Data.List.TakeWhile
import OpenApi.Assembly.Paths

/-!
# Proofs/Assembly/Templates — one template in several spellings

    pets · ⟨id⟩      /pets/ · ⟨id⟩      pets · // · ⟨id⟩      ──▸      /pets/{id}

The slashes at the ends of a literal segment are dropped, and so is a segment without anything else.
Segments that differ in nothing but such slashes have one template (`templateOf_respelled`).
-/

namespace OpenApi

/-! ## Trimming -/

namespace Text

variable {α : Type} {p : α → Bool} {l m : List α}

theorem trimEnds_append_left (h : ∀ a ∈ l, p a) : trimEnds p (l ++ m) = trimEnds p m := by
  rw [trimEnds, trimEnds, List.dropWhile_append_of_pos h]

theorem trimEnds_append_right (h : ∀ a ∈ m, p a) : trimEnds p (l ++ m) = trimEnds p l := by
  rw [trimEnds, trimEnds, List.dropWhile_append]
  split
  · next hl =>
    rw [List.isEmpty_iff.mp hl, List.dropWhile_eq_nil_iff.mpr h]
  · rw [List.reverse_append, List.dropWhile_append_of_pos]
    exact fun a ha => h a (List.mem_reverse.mp ha)

theorem trimEnds_eq_nil (h : ∀ a ∈ l, p a) : trimEnds p l = [] := by
  rw [trimEnds, List.dropWhile_eq_nil_iff.mpr h]
  rfl

end Text

/-! ## Spellings -/

namespace PathSegment

/-- A text of nothing but slashes, or of nothing at all. -/
def OnlySlashes (text : String) : Prop := ∀ c ∈ text.toList, c = '/'

/-- **The same segments in another spelling** — literals with other slashes around them, and
segments of slashes put in or left out. -/
inductive Respelled : List PathSegment → List PathSegment → Prop
  | nil : Respelled [] []
  | parameter (type : Descriptor) (name : Option String) {ss ss' : List PathSegment} :
    Respelled ss ss' → Respelled (.parameter type name :: ss) (.parameter type name :: ss')
  | literal (text : String) {before after before' after' : String} {ss ss' : List PathSegment} :
    OnlySlashes before → OnlySlashes after → OnlySlashes before' → OnlySlashes after' →
    Respelled ss ss' →
    Respelled (.literal (before ++ text ++ after) :: ss)
      (.literal (before' ++ text ++ after') :: ss')
  | left {text : String} {ss ss' : List PathSegment} : OnlySlashes text → Respelled ss ss' →
    Respelled (.literal text :: ss) ss'
  | right {text : String} {ss ss' : List PathSegment} : OnlySlashes text → Respelled ss ss' →
    Respelled ss (.literal text :: ss')

variable {text before after : String}

theorem OnlySlashes.all (h : OnlySlashes text) : ∀ c ∈ text.toList, decide (c = '/') :=
  fun c hc => decide_eq_true (h c hc)

theorem render_slashes (h : OnlySlashes text) : (literal text).render = .ok ("", []) := by
  rw [render, Text.trimEnds_eq_nil h.all]

/-- The slashes around a literal do not show. -/
theorem render_between (hb : OnlySlashes before) (ha : OnlySlashes after) :
    (literal (before ++ text ++ after)).render = (literal text).render := by
  rw [render, render, String.toList_append, String.toList_append,
    Text.trimEnds_append_right ha.all, Text.trimEnds_append_left hb.all]

end PathSegment

open PathSegment

/-! ## Templates -/

/-- The texts of some segments that stand in the template, with the parameters they imply. -/
def keptSegments (ss : List PathSegment) : Except ApiFault (List String × List Parameter) :=
  (renderSegments ss).map fun x => (x.1.filter (· ≠ ""), x.2)

theorem templateOf_eq (ss : List PathSegment) :
    templateOf ss = (keptSegments ss).map fun x => ("/" ++ "/".intercalate x.1, x.2) := by
  rw [templateOf, keptSegments]
  cases renderSegments ss <;> rfl

theorem keptSegments_cons (s : PathSegment) (ss : List PathSegment) :
    keptSegments (s :: ss) = s.render.bind fun r => (keptSegments ss).map fun x =>
      ([r.1].filter (· ≠ "") ++ x.1, r.2 ++ x.2) := by
  rw [keptSegments, renderSegments, keptSegments]
  cases s.render with
  | error e => rfl
  | ok r =>
    cases renderSegments ss with
    | error e => rfl
    | ok x =>
      change Except.ok ((r.1 :: x.1).filter (· ≠ ""), r.2 ++ x.2) = _
      rw [← List.singleton_append, List.filter_append]
      rfl

theorem keptSegments_slashes {text : String} (h : OnlySlashes text) (ss : List PathSegment) :
    keptSegments (.literal text :: ss) = keptSegments ss := by
  rw [keptSegments_cons, render_slashes h]
  cases keptSegments ss <;> rfl

/-- **Another spelling has the same template**, or the same failure. -/
theorem templateOf_respelled {ss ss' : List PathSegment} (h : Respelled ss ss') :
    templateOf ss = templateOf ss' := by
  suffices hkept : keptSegments ss = keptSegments ss' by
    rw [templateOf_eq, templateOf_eq, hkept]
  induction h with
  | nil => rfl
  | parameter type name _ ih => rw [keptSegments_cons, keptSegments_cons, ih]
  | literal text hb ha hb' ha' _ ih =>
    rw [keptSegments_cons, keptSegments_cons, render_between hb ha, render_between hb' ha', ih]
  | left h _ ih => rw [keptSegments_slashes h, ih]
  | right h _ ih => rw [keptSegments_slashes h, ih]

end OpenApi
