import Skvs.Lib.Links
import Mathlib.Data.List.Nodup
import Mathlib.Data.Set.Finite.List

/-!
# Replacing elements one after the other

Every element of a list is replaced once, in some order. It is let through if it is sound, and clashes
neither with the new form of an element replaced before it nor with the old form of one still to
be replaced.
-/

namespace Skvs.Schedule

open Relation Links

variable {α : Type}

/-! ### Orders along an acyclic relation -/

section Order

variable {r : α → α → Prop} {l : List α}

theorem exists_sink (hr : Acyclic r) (hl : l ≠ []) : ∃ m ∈ l, ∀ x ∈ l, ¬r m x := by
  let inside : α → α → Prop := fun x y => x ∈ l ∧ y ∈ l ∧ r x y
  have hinside : Acyclic inside := fun x hx =>
    hr x (TransGen.mono (fun _ _ h => h.2.2) _ _ hx)
  have hfin : {x | ∃ y, inside x y}.Finite := l.finite_toSet.subset fun x ⟨_, hx, _⟩ => hx
  have hends : ∀ a, Ends inside a := fun a =>
    Straight.ends hfin (acyclic_iff_straight.mp hinside a)
  obtain ⟨a, ha⟩ := List.exists_mem_of_ne_nil l hl
  induction hends a with
  | intro a _ ih =>
      by_cases hnext : ∃ y ∈ l, r a y
      · obtain ⟨y, hy, hay⟩ := hnext
        exact ih y ⟨ha, hy, hay⟩ hy
      · exact ⟨a, ha, fun y hy hay => hnext ⟨y, hy, hay⟩⟩

/-- The elements of a list can be put in an order in which none is related to a later one. -/
theorem exists_order [DecidableEq α] (hr : Acyclic r) (l : List α) :
    ∃ l' : List α, l'.Perm l ∧ l'.Pairwise fun a b => ¬r a b := by
  induction hn : l.length generalizing l with
  | zero => exact ⟨[], (List.eq_nil_of_length_eq_zero hn) ▸ .nil, .nil⟩
  | succ n ih =>
      have hl : l ≠ [] := List.ne_nil_of_length_eq_add_one hn
      obtain ⟨m, hm, hsink⟩ := exists_sink hr hl
      have hperm : (m :: l.erase m).Perm l := (List.perm_cons_erase hm).symm
      obtain ⟨l', hl', hordered⟩ := ih (l.erase m) (by rw [List.length_erase_of_mem hm]; omega)
      refine ⟨m :: l', (hl'.cons m).trans hperm, List.pairwise_cons.mpr ⟨fun x hx => ?_, hordered⟩⟩
      exact hsink x (List.mem_of_mem_erase (hl'.subset hx))

end Order

/-! ### Which orders pass -/

/-- What an element must meet to be replaced. -/
structure Rules (α : Type) where
  sound : α → Prop
  clashesNew : α → α → Prop
  clashesOld : α → α → Prop
  symm : ∀ {a b}, clashesNew a b → clashesNew b a

variable (rules : Rules α)

def Rules.LetThrough (done rest : List α) (a : α) : Prop :=
  rules.sound a ∧ (∀ b ∈ done, ¬rules.clashesNew a b) ∧ ∀ b ∈ rest, ¬rules.clashesOld a b

/-- Every element is let through in its turn. -/
def Rules.Passes : List α → List α → Prop
  | _, [] => True
  | done, a :: rest => rules.LetThrough done rest a ∧ Passes (a :: done) rest

/-- `a` may be replaced before `b`. -/
def Rules.Before (a b : α) : Prop := ¬rules.clashesNew a b ∧ ¬rules.clashesOld a b

variable {rules} {l done : List α}

theorem passes_iff :
    rules.Passes done l ↔ (∀ a ∈ l, rules.sound a) ∧ (∀ a ∈ l, ∀ b ∈ done, ¬rules.clashesNew a b) ∧
      l.Pairwise rules.Before := by
  induction l generalizing done with
  | nil => simp [Rules.Passes]
  | cons a l ih =>
      rw [Rules.Passes, Rules.LetThrough, ih, List.pairwise_cons]
      simp only [List.forall_mem_cons, Rules.Before]
      constructor
      · rintro ⟨⟨hsound, hnew, hold⟩, hsounds, hnews, hrest⟩
        exact ⟨⟨hsound, hsounds⟩, ⟨hnew, fun b hb => (hnews b hb).2⟩,
          fun b hb => ⟨fun h => (hnews b hb).1 (rules.symm h), hold b hb⟩, hrest⟩
      · rintro ⟨⟨hsound, hsounds⟩, ⟨hnew, hnews⟩, hbefore, hrest⟩
        exact ⟨⟨hsound, hnew, fun b hb => (hbefore b hb).2⟩, hsounds,
          fun b hb => ⟨fun h => (hbefore b hb).1 (rules.symm h), hnews b hb⟩, hrest⟩

/-- The element takes over something that another one of the list gives up. -/
def Rules.TakesOver (rules : Rules α) (l : List α) (a b : α) : Prop :=
  a ∈ l ∧ b ∈ l ∧ a ≠ b ∧ rules.clashesOld a b

/-- In no order are all elements let through. -/
def Rules.Refused (rules : Rules α) (l : List α) : Prop :=
  (∃ a ∈ l, ¬rules.sound a) ∨ (∃ a ∈ l, ∃ b ∈ l, a ≠ b ∧ rules.clashesNew a b) ∨
    ∃ a, TransGen (rules.TakesOver l) a a

section

variable {es : List α} (hes : es.Perm l)
include hes

theorem not_passes_of_refused (h : rules.Refused l) : ¬rules.Passes [] es := by
  classical
  intro hpasses
  obtain ⟨hsound, -, hbefore⟩ := passes_iff.mp hpasses
  rcases h with ⟨a, ha, hnot⟩ | ⟨a, ha, b, hb, hne, hclash⟩ | ⟨a, hcycle⟩
  · exact hnot (hsound a (hes.mem_iff.mpr ha))
  · have hapart : es.Pairwise fun a b => ¬rules.clashesNew a b := hbefore.imp And.left
    have : Std.Symm fun a b => ¬rules.clashesNew a b := ⟨fun _ _ h h' => h (rules.symm h')⟩
    exact hapart.forall (hes.mem_iff.mpr ha) (hes.mem_iff.mpr hb) hne hclash
  · -- what takes something over stands behind what gives it up
    have hstep : ∀ x y, rules.TakesOver l x y → es.idxOf y < es.idxOf x := by
      rintro x y ⟨hx, hy, hne, hold⟩
      have hx' := List.idxOf_lt_length_iff.mpr (hes.mem_iff.mpr hx)
      have hy' := List.idxOf_lt_length_iff.mpr (hes.mem_iff.mpr hy)
      by_contra hle
      have hidx : es.idxOf x ≠ es.idxOf y := fun heq =>
        hne ((List.idxOf_inj (hes.mem_iff.mpr hx)).mp heq)
      have hlt : es.idxOf x < es.idxOf y := by omega
      have hrel := List.pairwise_iff_getElem.mp hbefore _ _ hx' hy' hlt
      rw [List.getElem_idxOf, List.getElem_idxOf] at hrel
      exact hrel.2 hold
    have hdescend : ∀ x y, TransGen (rules.TakesOver l) x y → es.idxOf y < es.idxOf x := by
      intro x y hxy
      induction hxy with
      | single h => exact hstep _ _ h
      | tail _ h ih => exact (hstep _ _ h).trans ih
    exact absurd (hdescend a a hcycle) (lt_irrefl _)

theorem passes_of_free (hl : l.Nodup) (hrefused : ¬rules.Refused l) (hfree : ∀ a b, ¬rules.TakesOver l a b) :
    rules.Passes [] es := by
  rw [Rules.Refused, not_or, not_or] at hrefused
  push Not at hrefused
  refine passes_iff.mpr ⟨fun a ha => hrefused.1 a (hes.subset ha),
    fun _ _ _ h => absurd h List.not_mem_nil, (hes.nodup_iff.mpr hl).pairwise_of_forall_ne fun a ha b hb hne => ⟨?_, ?_⟩⟩
  · exact hrefused.2.1 a (hes.subset ha) b (hes.subset hb) hne
  · exact fun hold => hfree a b ⟨hes.subset ha, hes.subset hb, hne, hold⟩

end

/-- All orders pass or none does, if and only if every order is refused or nothing is taken over. -/
theorem passes_independent_iff (hl : l.Nodup) :
    (∀ es es', es.Perm l → es'.Perm l → (rules.Passes [] es ↔ rules.Passes [] es')) ↔
      rules.Refused l ∨ ∀ a b, ¬rules.TakesOver l a b := by
  classical
  constructor
  · intro hsame
    by_contra hneither
    rw [not_or] at hneither
    obtain ⟨hrefused, htaken⟩ := hneither
    push Not at htaken
    obtain ⟨a, b, ha, hb, hne, hold⟩ := htaken
    -- giving up comes first in this order
    have hacyclic : Acyclic (rules.TakesOver l) := fun x hx => hrefused (.inr (.inr ⟨x, hx⟩))
    obtain ⟨es, hes, hordered⟩ := exists_order hacyclic l
    have hpasses : rules.Passes [] es := by
      rw [Rules.Refused, not_or, not_or] at hrefused
      push Not at hrefused
      refine passes_iff.mpr ⟨fun x hx => hrefused.1 x (hes.subset hx),
        fun _ _ _ h => absurd h List.not_mem_nil, ?_⟩
      have hnodup : es.Nodup := hes.nodup_iff.mpr hl
      refine (hordered.and hnodup).imp_of_mem fun hx hy hxy => ⟨?_, fun hold => hxy.1 ?_⟩
      · exact hrefused.2.1 _ (hes.subset hx) _ (hes.subset hy) hxy.2
      · exact ⟨hes.subset hx, hes.subset hy, hxy.2, hold⟩
    -- and last in this one
    have hb' : b ∈ l.erase a := (List.mem_erase_of_ne (Ne.symm hne)).mpr hb
    have hfirst : (a :: l.erase a).Perm l := (List.perm_cons_erase ha).symm
    have hstuck := (hsame es (a :: l.erase a) hes hfirst).mp hpasses
    exact hstuck.1.2.2 b hb' hold
  · rintro (hrefused | hfree) es es' hes hes'
    · exact iff_of_false (not_passes_of_refused hes hrefused) (not_passes_of_refused hes' hrefused)
    · by_cases hrefused : rules.Refused l
      · exact iff_of_false (not_passes_of_refused hes hrefused)
          (not_passes_of_refused hes' hrefused)
      · exact iff_of_true (passes_of_free hes hl hrefused hfree) (passes_of_free hes' hl hrefused hfree)

end Skvs.Schedule
