import Mathlib.Data.Set.Finite.Basic
import Mathlib.Logic.Relation
import Mathlib.Order.WellFounded
import Mathlib.Data.Fintype.Card

/-!
# Following links

Where finitely many points have links, following them from a point comes to an end exactly if no
point met on the way leads back to itself.
-/

namespace Skvs.Links

open Relation

variable {α : Type} {r r' : α → α → Prop} {a b c v : α}

/-- Following the links from a point ends, whichever of them is taken. -/
def Ends (r : α → α → Prop) (a : α) : Prop := Acc (fun y x => r x y) a

/-- No point that is met from here leads back to itself. -/
def Straight (r : α → α → Prop) (a : α) : Prop := ∀ b, ReflTransGen r a b → ¬TransGen r b b

def Acyclic (r : α → α → Prop) : Prop := ∀ a, ¬TransGen r a a

theorem Ends.of_reach (h : Ends r a) (hab : ReflTransGen r a b) : Ends r b := by
  induction hab with
  | refl => exact h
  | tail _ hstep ih => exact ih.inv hstep

theorem Ends.not_cycle (h : Ends r a) : ¬TransGen r a a := by
  induction h with
  | intro x _ ih =>
      intro hcycle
      obtain ⟨y, hxy, hyx⟩ := TransGen.head'_iff.mp hcycle
      exact ih y hxy (TransGen.tail' hyx hxy)

theorem Ends.straight (h : Ends r a) : Straight r a := fun _ hab => (h.of_reach hab).not_cycle

theorem Straight.ends (hfin : {x | ∃ y, r x y}.Finite) (h : Straight r a) : Ends r a := by
  -- the points with links that are met from `a`, each below those that lead to it
  let Met := {x // ReflTransGen r a x ∧ ∃ y, r x y}
  have hmet : Finite Met := (hfin.subset fun x hx => hx.2 : {x | _}.Finite).to_subtype
  let below : Met → Met → Prop := fun y x => TransGen r x.1 y.1
  have htrans : IsTrans Met below := ⟨fun _ _ _ hxy hyz => hyz.trans hxy⟩
  have hirr : Std.Irrefl below := ⟨fun x => h x.1 x.2.1⟩
  have hwf : WellFounded below := Finite.wellFounded_of_trans_of_irrefl below
  have hends : ∀ x : Met, Ends r x.1 := by
    intro x
    induction x using hwf.induction with
    | _ x ih =>
        refine Acc.intro _ fun y hxy => ?_
        by_cases hy : ∃ z, r y z
        · exact ih ⟨y, x.2.1.tail hxy, hy⟩ (.single hxy)
        · exact Acc.intro _ fun z hyz => absurd ⟨z, hyz⟩ hy
  by_cases ha : ∃ y, r a y
  · exact hends ⟨a, .refl, ha⟩
  · exact Acc.intro _ fun y hay => absurd ⟨y, hay⟩ ha

theorem acyclic_iff_straight : Acyclic r ↔ ∀ a, Straight r a :=
  ⟨fun h _ b _ => h b, fun h a => h a a .refl⟩

/-! ### Giving one point new links -/

section Relink

variable (hsame : ∀ x, x ≠ v → ∀ y, r' x y ↔ r x y)
include hsame

/-- A path to the point that was relinked never follows its links. -/
theorem reach_relink (h : ReflTransGen r a v) : ReflTransGen r' a v := by
  induction h using ReflTransGen.head_induction_on with
  | refl => exact .refl
  | head hxy hyv ih =>
      rename_i x y
      by_cases hx : x = v
      · exact hx ▸ .refl
      · exact .head ((hsame x hx y).mpr hxy) ih

/-- A path with the new links is an old one, or passes through the point. -/
theorem path_relink (h : TransGen r' a c) :
    TransGen r a c ∨ ReflTransGen r' a v ∧ ∃ b, r' v b ∧ ReflTransGen r' b c := by
  induction h using TransGen.head_induction_on with
  | single hxc =>
      rename_i x
      by_cases hx : x = v
      · exact .inr ⟨hx ▸ .refl, c, hx ▸ hxc, .refl⟩
      · exact .inl (.single ((hsame x hx c).mp hxc))
  | head hxy hyc ih =>
      rename_i x y
      by_cases hx : x = v
      · exact .inr ⟨hx ▸ .refl, y, hx ▸ hxy, hyc.to_reflTransGen⟩
      · obtain hold | ⟨hyv, hvc⟩ := ih
        · exact .inl (.head ((hsame x hx y).mp hxy) hold)
        · exact .inr ⟨.head hxy hyv, hvc⟩

theorem acyclic_relink_iff (h : Acyclic r) :
    Acyclic r' ↔ ∀ b, r' v b → ¬ReflTransGen r b v := by
  constructor
  · intro hnew b hvb hbv
    exact hnew v (.head' hvb (reach_relink hsame hbv))
  · intro hback a hcycle
    obtain hold | ⟨hav, b, hvb, hba⟩ := path_relink hsame hcycle
    · exact h a hold
    · have hsame' : ∀ x, x ≠ v → ∀ y, r x y ↔ r' x y := fun x hx y => (hsame x hx y).symm
      exact hback b hvb (reach_relink hsame' (hba.trans hav))

end Relink

end Skvs.Links
