import Mathlib.Data.List.Basic
import Mathlib.Data.Nat.ModEq

/-!
# Tickets from a counter that wraps

Some steps of a run issue a ticket, the next number modulo `M`. A ticket is live from the step that
issues it until some later step. No live ticket is issued a second time exactly if each ticket has
ceased to be live when its number comes up again, `M` issues later.
-/

namespace Tickets

variable (issues : Nat → Bool)

/-- How many of the first `n` steps issue a ticket. -/
def issued : Nat → Nat
  | 0 => 0
  | n + 1 => issued n + if issues n then 1 else 0

variable {issues}

theorem issued_succ_of_issues {n : Nat} (h : issues n = true) :
    issued issues (n + 1) = issued issues n + 1 := by
  rw [issued, if_pos h]

theorem issued_mono {m n : Nat} (h : m ≤ n) : issued issues m ≤ issued issues n := by
  induction h with
  | refl => exact Nat.le_refl _
  | step _ ih => exact ih.trans (Nat.le_add_right _ _)

/-- The counter goes through all numbers. -/
theorem exists_issue {n c : Nat} (h : c < issued issues n) :
    ∃ j < n, issues j = true ∧ issued issues j = c := by
  induction n with
  | zero => exact absurd h (Nat.not_lt_zero c)
  | succ n ih =>
      by_cases hn : c < issued issues n
      · obtain ⟨j, hj, hissues⟩ := ih hn
        exact ⟨j, Nat.lt_succ_of_lt hj, hissues⟩
      · rw [issued] at h
        by_cases hissues : issues n = true
        · rw [if_pos hissues] at h
          exact ⟨n, Nat.lt_succ_self n, hissues, by omega⟩
        · rw [if_neg hissues] at h
          omega

/-- A run that issues tickets from the number `first` on, with the tickets that are live before each
step. -/
structure Run (issues : Nat → Bool) (M first : Nat) (live : Nat → Nat → Prop) : Prop where
  none_live : ∀ t, ¬live 0 t
  issued_or_live : ∀ i t, live (i + 1) t → live i t ∨
    issues i = true ∧ t = (first + issued issues i) % M

variable {M first : Nat} {live : Nat → Nat → Prop} (h : Run issues M first live)
include h

/-- A live ticket was issued, and has been live ever since. -/
theorem Run.origin {j t : Nat} (hlive : live j t) :
    ∃ i < j, issues i = true ∧ t = (first + issued issues i) % M ∧
      ∀ m, i < m → m ≤ j → live m t := by
  induction j with
  | zero => exact absurd hlive (h.none_live t)
  | succ j ih =>
      rcases h.issued_or_live j t hlive with hbefore | ⟨hissues, ht⟩
      · obtain ⟨i, hi, hissues, ht, hsince⟩ := ih hbefore
        refine ⟨i, Nat.lt_succ_of_lt hi, hissues, ht, fun m him hmj => ?_⟩
        rcases Nat.le_succ_iff.mp hmj with hm | rfl
        · exact hsince m him hm
        · exact hlive
      · refine ⟨j, Nat.lt_succ_self j, hissues, ht, fun m him hmj => ?_⟩
        obtain rfl : m = j + 1 := Nat.le_antisymm hmj him
        exact hlive

theorem Run.fresh_iff (hM : 0 < M) (n : Nat) :
    (∀ i < n, issues i = true → ¬live i ((first + issued issues i) % M)) ↔
      ∀ i j, j < n → issues i = true → issues j = true →
        issued issues j = issued issues i + M →
        ∃ m, i < m ∧ m ≤ j ∧ ¬live m ((first + issued issues i) % M) := by
  constructor
  · intro hfresh i j hj _ hissues hround
    have hij : i < j := by
      by_contra hle
      have hmono : issued issues j ≤ issued issues i := issued_mono (Nat.le_of_not_lt hle)
      omega
    refine ⟨j, hij, Nat.le_refl j, ?_⟩
    have hticket := hfresh j hj hissues
    rwa [hround, ← Nat.add_assoc, Nat.add_mod_right] at hticket
  · intro hshort i hi hissues hlive
    obtain ⟨i₀, hi₀, hissues₀, hticket, hsince⟩ := h.origin hlive
    have hlater : issued issues i₀ + 1 ≤ issued issues i := by
      rw [← issued_succ_of_issues hissues₀]
      exact issued_mono hi₀
    -- the same number comes up only after a whole round
    have hround : issued issues i₀ + M ≤ issued issues i := by
      have hmod : (first + issued issues i₀) ≡ (first + issued issues i) [MOD M] := hticket.symm
      have hdvd := (Nat.modEq_iff_dvd' (by omega)).mp hmod
      have hle := Nat.le_of_dvd (by omega) hdvd
      omega
    have hreached : issued issues i₀ + M < issued issues (i + 1) := by
      rw [issued_succ_of_issues hissues]
      omega
    obtain ⟨j, hj, hissuesj, hcount⟩ := exists_issue hreached
    obtain ⟨m, him, hmj, hdead⟩ := hshort i₀ j (by omega) hissues₀ hissuesj hcount
    rw [← hticket] at hdead
    exact hdead (hsince m him (by omega))

end Tickets
