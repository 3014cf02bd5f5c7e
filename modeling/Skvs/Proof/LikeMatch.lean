import Skvs.Expr
import Skvs.Lib.Pieces

/-!
# LIKE patterns

The matcher for LIKE tries each way to go on at a `%`: past it, or past the next character of the
text. Either way one of the two lists gets shorter, and the text matches exactly if it can be cut
into one piece for each character of the pattern.
-/

namespace Skvs

/-- The pieces of the text that a character of the pattern stands for. -/
def LikeTakes (c : Char) (piece : List Char) : Prop :=
  if c = '%' then True
  else if c = '_' then piece.length = 1
  else piece = [c]

theorem likeTakes_percent (piece : List Char) : LikeTakes '%' piece := trivial

/-- Every character but `%` takes one character. -/
theorem likeTakes_iff {c : Char} (hc : c ≠ '%') (piece : List Char) :
    LikeTakes c piece ↔ ∃ t, piece = [t] ∧ (c = '_' ∨ t = c) := by
  unfold LikeTakes
  rw [if_neg hc]
  split
  case isTrue hunderscore =>
    rw [List.length_eq_one_iff]
    simp [hunderscore]
  case isFalse hunderscore =>
    constructor
    · rintro rfl
      exact ⟨c, rfl, .inr rfl⟩
    · rintro ⟨t, rfl, h⟩
      rw [h.resolve_left hunderscore]

/-- `like_match_chars` with the calls on slices that the source makes. -/
def likeMatchSlices (text pattern : List Char) : Bool :=
  match pattern with
  | [] => text.isEmpty
  | c :: rest =>
    if c = '%' then
      likeMatchSlices text rest ||
        match text with
        | [] => false
        | _ :: text => likeMatchSlices text (c :: rest)
    else
      match text with
      | [] => false
      | t :: text => (c = '_' || t = c) && likeMatchSlices text rest
termination_by (pattern.length, text.length)

theorem likeMatchChars_percent (text pattern : List Char) :
    likeMatchChars text ('%' :: pattern) =
      (likeMatchChars text pattern ||
        match text with
        | [] => false
        | _ :: rest => likeMatchChars rest ('%' :: pattern)) := by
  cases text with
  | nil => simp [likeMatchChars]
  | cons t rest => simp [likeMatchChars]

theorem likeMatchSlices_eq (text pattern : List Char) :
    likeMatchSlices text pattern = likeMatchChars text pattern := by
  fun_induction likeMatchSlices text pattern with
  | case1 text => rfl
  | case2 text pattern ihpattern ihtext =>
      rw [likeMatchChars_percent, ihpattern]
      cases text with
      | nil => rfl
      | cons t rest => exact congrArg (likeMatchChars (t :: rest) pattern || ·) ihtext
  | case3 c pattern hc => rw [likeMatchChars, if_neg hc]
  | case4 c pattern hc t text ih => rw [likeMatchChars, if_neg hc, ih]

theorem likeMatchSlices_iff (text pattern : List Char) :
    likeMatchSlices text pattern = true ↔ CutAlong LikeTakes pattern text := by
  fun_induction likeMatchSlices text pattern with
  | case1 text => rw [List.isEmpty_iff, cutAlong_nil]
  | case2 text pattern ihpattern ihtext =>
      rw [Bool.or_eq_true, ihpattern, cutAlong_cons_any likeTakes_percent]
      cases text with
      | nil => simp
      | cons t rest =>
          have hrest : likeMatchSlices rest ('%' :: pattern) = true ↔
              CutAlong LikeTakes ('%' :: pattern) rest := ihtext
          simp [hrest]
  | case3 c pattern hc =>
      rw [cutAlong_cons_one (likeTakes_iff hc)]
      simp
  | case4 c pattern hc t text ih =>
      rw [cutAlong_cons_one (likeTakes_iff hc), Bool.and_eq_true, ih]
      simp

/-- **LIKE matches by pieces.** The calls on slices end, with the matcher's answer: whether the text
can be cut into consecutive pieces, one that each character of the pattern takes. -/
theorem likeMatchChars_iff_cut (text pattern : List Char) :
    likeMatchSlices text pattern = likeMatchChars text pattern ∧
      (likeMatchChars text pattern = true ↔
        ∃ pieces : List (List Char),
          text = pieces.flatten ∧ List.Forall₂ LikeTakes pattern pieces) := by
  refine ⟨likeMatchSlices_eq text pattern, ?_⟩
  rw [← likeMatchSlices_eq]
  exact likeMatchSlices_iff text pattern

end Skvs
