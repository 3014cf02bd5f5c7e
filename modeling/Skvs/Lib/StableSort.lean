import Mathlib.Data.List.Pairwise
import Mathlib.Data.Set.List

/-!
# Stable sorts by several keys

A list sorted by its least significant key first and by its most significant one last is sorted
lexicographically, since each stable pass keeps what the passes before it have put in order.
-/

universe u

namespace Skvs.StableSort

variable {α : Type u} {p : α → Prop} {cmp cmp' : α → α → Ordering} {l l' : List α} {a b : α}

/-- A comparison that is a total preorder on what satisfies `p`. -/
structure PreorderOn (p : α → Prop) (cmp : α → α → Ordering) : Prop where
  swap : ∀ {a b}, p a → p b → cmp b a = (cmp a b).swap
  trans : ∀ {a b c}, p a → p b → p c → cmp a b ≠ .gt → cmp b c ≠ .gt → cmp a c ≠ .gt

/-- Compare by the first key, where that is a tie by the second, and so on. -/
def lexCompare : List (α → α → Ordering) → α → α → Ordering
  | [] => fun _ _ => .eq
  | cmp :: cmps => compareLex cmp (lexCompare cmps)

/-- One pass of a stable sort. -/
def pass (cmp : α → α → Ordering) (l : List α) : List α := l.mergeSort fun a b => cmp a b != .gt

/-- What ties with `a`, in the order of the list. -/
def ties (cmp : α → α → Ordering) (a : α) (l : List α) : List α := l.filter fun b => cmp a b == .eq

/-- `l'` is `l` sorted, ties kept in their order. -/
structure SortedBy (cmp : α → α → Ordering) (l l' : List α) : Prop where
  perm : l'.Perm l
  sorted : l'.Pairwise fun a b => cmp a b ≠ .gt
  stable : ∀ a ∈ l, ties cmp a l' = ties cmp a l

/-- A pass sees only the elements of the list. -/
theorem pass_eq_map (cmp : α → α → Ordering) (hl : ∀ a ∈ l, p a) :
    ∃ l₀ : List {a // p a}, l = l₀.map Subtype.val ∧
      pass cmp l = (l₀.mergeSort fun a b => cmp a.1 b.1 != .gt).map Subtype.val := by
  lift l to List {a // p a} using hl
  refine ⟨l, rfl, Eq.symm ?_⟩
  exact List.map_mergeSort (f := Subtype.val) fun _ _ _ _ => rfl

namespace PreorderOn

variable (hcmp : PreorderOn p cmp)

include hcmp

theorem self (ha : p a) : cmp a a = .eq := by
  have hswap := hcmp.swap ha ha
  cases h : cmp a a with
  | eq => rfl
  | lt | gt => rw [h] at hswap; exact nomatch hswap

theorem not_gt_of_tie {c : α} (ha : p a) (hb : p b) (hc : p c) (hab : cmp a b = .eq)
    (hac : cmp a c = .eq) : cmp b c ≠ .gt := by
  apply hcmp.trans hb ha hc
  · rw [hcmp.swap ha hb, hab]
    exact nofun
  · rw [hac]
    exact nofun

theorem le_trans (a b c : {a // p a}) (hab : (cmp a.1 b.1 != .gt) = true)
    (hbc : (cmp b.1 c.1 != .gt) = true) : (cmp a.1 c.1 != .gt) = true := by
  rw [bne_iff_ne] at hab hbc ⊢
  exact hcmp.trans a.2 b.2 c.2 hab hbc

theorem le_total (a b : {a // p a}) : (cmp a.1 b.1 != .gt || cmp b.1 a.1 != .gt) = true := by
  rw [hcmp.swap a.2 b.2]
  cases cmp a.1 b.1 <;> rfl

theorem sorted_pass (hl : ∀ a ∈ l, p a) : (pass cmp l).Pairwise fun a b => cmp a b ≠ .gt := by
  obtain ⟨l₀, rfl, hpass⟩ := pass_eq_map cmp hl
  rw [hpass, List.pairwise_map]
  have hsorted := List.pairwise_mergeSort hcmp.le_trans hcmp.le_total l₀
  exact hsorted.imp bne_iff_ne.mp

theorem ties_pass (hl : ∀ a ∈ l, p a) (ha : p a) : ties cmp a (pass cmp l) = ties cmp a l := by
  have hperm : (ties cmp a (pass cmp l)).Perm (ties cmp a l) :=
    (List.mergeSort_perm l _).filter _
  obtain ⟨l₀, rfl, hpass⟩ := pass_eq_map cmp hl
  let tie : {a // p a} → Bool := fun b => cmp a b.1 == .eq
  -- what ties with `a` is in order already, so the pass leaves it as it stands
  have hordered : (l₀.filter tie).Pairwise fun b c => (cmp b.1 c.1 != .gt) = true := by
    apply List.pairwise_of_forall_mem_list
    intro b hb c hc
    rw [List.mem_filter, beq_iff_eq] at hb hc
    exact bne_iff_ne.mpr (hcmp.not_gt_of_tie ha b.2 c.2 hb.2 hc.2)
  have hsublist := List.sublist_mergeSort hcmp.le_trans hcmp.le_total hordered List.filter_sublist
  have hties : (ties cmp a (l₀.map Subtype.val)).Sublist
      (ties cmp a (pass cmp (l₀.map Subtype.val))) := by
    rw [hpass, ties, ties, List.filter_map, List.filter_map]
    have hfilter := (hsublist.filter tie).map Subtype.val
    rwa [List.filter_filter, List.filter_congr fun b _ => Bool.and_self (tie b)] at hfilter
  exact (hties.eq_of_length hperm.length_eq.symm).symm

end PreorderOn

theorem ties_compareLex (a : α) (l : List α) :
    ties (compareLex cmp cmp') a l = ties cmp' a (ties cmp a l) := by
  rw [ties, ties, ties, List.filter_filter]
  congr 1
  funext b
  rw [Bool.eq_iff_iff, Bool.and_eq_true, beq_iff_eq, beq_iff_eq, beq_iff_eq, compareLex_eq_eq,
    and_comm]

theorem ties_comm (a b : α) (l : List α) :
    ties cmp a (ties cmp' b l) = ties cmp' b (ties cmp a l) := by
  rw [ties, ties, ties, ties, List.filter_filter, List.filter_filter]
  congr 1
  funext c
  exact Bool.and_comm _ _

/-- A stable pass by a more significant key. -/
theorem SortedBy.pass (h : SortedBy cmp' l l') (hcmp : PreorderOn p cmp) (hl : ∀ a ∈ l, p a) :
    SortedBy (compareLex cmp cmp') l (pass cmp l') := by
  have hl' : ∀ a ∈ l', p a := fun a ha => hl a (h.perm.subset ha)
  have hperm : (StableSort.pass cmp l').Perm l' := List.mergeSort_perm l' _
  constructor
  case perm => exact hperm.trans h.perm
  case sorted =>
    have hsorted := hcmp.sorted_pass hl'
    rw [List.pairwise_iff_forall_sublist] at hsorted ⊢
    intro a b hab hgt
    rw [compareLex, Ordering.then_eq_gt] at hgt
    obtain hgt | ⟨htie, hgt⟩ := hgt
    · exact hsorted hab hgt
    · -- two that tie stand in the order that the passes before have given them
      have ha : p a := hl' a (hperm.subset (hab.subset List.mem_cons_self))
      have hsublist : [a, b].Sublist (ties cmp a l') := by
        rw [← hcmp.ties_pass hl' ha]
        have hboth : ([a, b].filter fun c => cmp a c == .eq) = [a, b] := by
          simp only [List.filter_cons, List.filter_nil, hcmp.self ha, htie, beq_self_eq_true, if_true]
        rw [← hboth]
        exact hab.filter _
      exact List.pairwise_iff_forall_sublist.mp h.sorted (hsublist.trans List.filter_sublist) hgt
  case stable =>
    intro a ha
    calc ties (compareLex cmp cmp') a (StableSort.pass cmp l')
        = ties cmp' a (ties cmp a (StableSort.pass cmp l')) := ties_compareLex a _
      _ = ties cmp' a (ties cmp a l') := by rw [hcmp.ties_pass hl' (hl a ha)]
      _ = ties cmp a (ties cmp' a l') := ties_comm a a l'
      _ = ties cmp a (ties cmp' a l) := by rw [h.stable a ha]
      _ = ties cmp' a (ties cmp a l) := ties_comm a a l
      _ = ties (compareLex cmp cmp') a l := (ties_compareLex a l).symm

/-- Passes from the last key to the first. -/
theorem sortedBy_passes {cmps : List (α → α → Ordering)} (hcmps : ∀ cmp ∈ cmps, PreorderOn p cmp)
    (hl : ∀ a ∈ l, p a) : SortedBy (lexCompare cmps) l (cmps.foldr StableSort.pass l) := by
  induction cmps with
  | nil =>
      refine ⟨.refl l, List.pairwise_of_forall_mem_list fun _ _ _ _ => ?_, fun _ _ => rfl⟩
      exact nofun
  | cons cmp cmps ih =>
      have hlast := ih fun cmp' hmem => hcmps cmp' (List.mem_cons_of_mem cmp hmem)
      exact hlast.pass (hcmps cmp List.mem_cons_self) hl

/-- In the order of several keys, the first key on which two differ decides. -/
theorem lexCompare_eq_eq {cmps : List (α → α → Ordering)} :
    lexCompare cmps a b = .eq ↔ ∀ cmp ∈ cmps, cmp a b = .eq := by
  induction cmps with
  | nil => exact ⟨fun _ => nofun, fun _ => rfl⟩
  | cons cmp cmps ih => rw [lexCompare, compareLex_eq_eq, ih, List.forall_mem_cons]

theorem lexCompare_swap {cmps : List (α → α → Ordering)} (hcmps : ∀ cmp ∈ cmps, PreorderOn p cmp)
    (ha : p a) (hb : p b) : lexCompare cmps b a = (lexCompare cmps a b).swap := by
  induction cmps with
  | nil => rfl
  | cons cmp cmps ih =>
      rw [lexCompare, compareLex, compareLex, (hcmps cmp List.mem_cons_self).swap ha hb,
        ih fun cmp' hmem => hcmps cmp' (List.mem_cons_of_mem cmp hmem), Ordering.swap_then]

/-- Where no two elements tie, only the elements decide how a list is sorted. -/
theorem passes_eq_of_perm {cmps : List (α → α → Ordering)} (hcmps : ∀ cmp ∈ cmps, PreorderOn p cmp)
    (hl : ∀ a ∈ l, p a) (hties : ∀ a ∈ l, ∀ b ∈ l, lexCompare cmps a b = .eq → a = b)
    (hperm : l'.Perm l) : cmps.foldr pass l' = cmps.foldr pass l := by
  have hsorted := sortedBy_passes hcmps hl
  have hsorted' := sortedBy_passes hcmps fun a ha => hl a (hperm.subset ha)
  refine List.Perm.eq_of_pairwise (fun a b ha hb hab hba => ?_) hsorted'.sorted hsorted.sorted
    ((hsorted'.perm.trans hperm).trans hsorted.perm.symm)
  have ha := hperm.subset (hsorted'.perm.subset ha)
  have hb := hsorted.perm.subset hb
  rw [lexCompare_swap hcmps (hl a ha) (hl b hb)] at hba
  cases hcmp : lexCompare cmps a b with
  | lt => rw [hcmp] at hba; exact absurd rfl hba
  | eq => exact hties a ha b hb hcmp
  | gt => exact absurd hcmp hab

end Skvs.StableSort
