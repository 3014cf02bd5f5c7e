import Mathlib.Data.List.Forall2

/-!
# Cutting a list along a pattern

Each symbol of a pattern takes some lists. A list is cut along the pattern when it is made of one
piece for each symbol, in order, that the symbol takes.
-/

namespace Skvs

variable {α β : Type} {takes : β → List α → Prop} {b : β} {pattern : List β} {text : List α}

def CutAlong (takes : β → List α → Prop) (pattern : List β) (text : List α) : Prop :=
  ∃ pieces : List (List α), text = pieces.flatten ∧ List.Forall₂ takes pattern pieces

theorem cutAlong_nil : CutAlong takes [] text ↔ text = [] := by
  constructor
  · rintro ⟨pieces, rfl, h⟩
    rw [List.forall₂_nil_left_iff.mp h]
    rfl
  · rintro rfl
    exact ⟨[], rfl, List.Forall₂.nil⟩

theorem cutAlong_cons :
    CutAlong takes (b :: pattern) text ↔
      ∃ piece rest, text = piece ++ rest ∧ takes b piece ∧ CutAlong takes pattern rest := by
  constructor
  · rintro ⟨pieces, rfl, h⟩
    obtain ⟨piece, pieces', hpiece, hpieces, rfl⟩ := List.forall₂_cons_left_iff.mp h
    exact ⟨piece, pieces'.flatten, rfl, hpiece, pieces', rfl, hpieces⟩
  · rintro ⟨piece, rest, rfl, hpiece, pieces, rfl, hpieces⟩
    exact ⟨piece :: pieces, rfl, List.Forall₂.cons hpiece hpieces⟩

/-- A symbol that takes every list takes nothing, or one more element. -/
theorem cutAlong_cons_any (hany : ∀ piece, takes b piece) :
    CutAlong takes (b :: pattern) text ↔
      CutAlong takes pattern text ∨
        ∃ t rest, text = t :: rest ∧ CutAlong takes (b :: pattern) rest := by
  rw [cutAlong_cons]
  constructor
  · rintro ⟨piece, rest, rfl, -, hrest⟩
    cases piece with
    | nil => exact .inl hrest
    | cons t piece =>
        exact .inr ⟨t, piece ++ rest, rfl, cutAlong_cons.mpr ⟨piece, rest, rfl, hany piece, hrest⟩⟩
  · rintro (hrest | ⟨t, rest, rfl, hrest⟩)
    · exact ⟨[], text, rfl, hany [], hrest⟩
    · obtain ⟨piece, rest', rfl, -, hrest'⟩ := cutAlong_cons.mp hrest
      exact ⟨t :: piece, rest', rfl, hany _, hrest'⟩

/-- A symbol that takes single elements is cut off together with the first one. -/
theorem cutAlong_cons_one {ok : α → Prop} (hone : ∀ piece, takes b piece ↔ ∃ t, piece = [t] ∧ ok t) :
    CutAlong takes (b :: pattern) text ↔
      ∃ t rest, text = t :: rest ∧ ok t ∧ CutAlong takes pattern rest := by
  rw [cutAlong_cons]
  constructor
  · rintro ⟨piece, rest, rfl, hpiece, hrest⟩
    obtain ⟨t, rfl, ht⟩ := (hone piece).mp hpiece
    exact ⟨t, rest, rfl, ht, hrest⟩
  · rintro ⟨t, rest, rfl, ht, hrest⟩
    exact ⟨[t], rest, rfl, (hone [t]).mpr ⟨t, rfl, ht⟩, hrest⟩

end Skvs
