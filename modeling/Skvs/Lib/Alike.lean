import Skvs.Lib.IndexMap
import Mathlib.Data.List.Forall2

/-!
# Maps with the same keys

Two insertion-ordered maps with the same keys, in the same order, and related values. The operations
on a key keep them alike.
-/

namespace IndexMap

universe u v w

variable {κ : Type u} {ν : Type v} {μ : Type w} {P : ν → μ → Prop}

/-- The same keys in the same order, and related values. -/
def Alike (P : ν → μ → Prop) (m : IndexMap κ ν) (n : IndexMap κ μ) : Prop :=
  List.Forall₂ (fun e e' => e'.1 = e.1 ∧ P e.2 e'.2) m.entries n.entries

theorem alike_self {P : ν → ν → Prop} (m : IndexMap κ ν) (h : ∀ e ∈ m.entries, P e.2 e.2) :
    Alike P m m := List.forall₂_same.mpr fun e he => ⟨rfl, h e he⟩

theorem alike_mapValues (m : IndexMap κ ν) {f : κ → ν → μ} (h : ∀ e ∈ m.entries, P e.2 (f e.1 e.2)) :
    Alike P m (m.mapValues f) :=
  List.forall₂_map_right_iff.mpr (List.forall₂_same.mpr fun e he => ⟨rfl, h e he⟩)

theorem forall₂_filter {p : κ → ν → Bool} {q : κ → μ → Bool}
    (hpq : ∀ k v v', P v v' → q k v' = p k v) {l : List (κ × ν)} {l' : List (κ × μ)}
    (h : List.Forall₂ (fun e e' => e'.1 = e.1 ∧ P e.2 e'.2) l l') :
    List.Forall₂ (fun e e' => e'.1 = e.1 ∧ P e.2 e'.2) (l.filter fun e => p e.1 e.2)
      (l'.filter fun e => q e.1 e.2) := by
  refine List.rel_filter (fun e e' he => ?_) h
  have heq : q e'.1 e'.2 = p e.1 e.2 := by rw [he.1, hpq _ _ _ he.2]
  exact (congrArg (· = true) heq.symm).to_iff

namespace Alike

variable {m : IndexMap κ ν} {n : IndexMap κ μ} (h : Alike P m n)
include h

theorem any_eq {p : κ → ν → Bool} {q : κ → μ → Bool}
    (hpq : ∀ k v v', P v v' → q k v' = p k v) :
    (n.entries.any fun e => q e.1 e.2) = m.entries.any fun e => p e.1 e.2 := by
  rw [Alike] at h
  generalize m.entries = es at h ⊢
  generalize n.entries = es' at h ⊢
  induction h with
  | nil => rfl
  | cons hhead _ ih => rw [List.any_cons, List.any_cons, ih, hhead.1, hpq _ _ _ hhead.2]

variable [DecidableEq κ]

theorem get (k : κ) : Option.Rel P (m.get k) (n.get k) := by
  rw [Alike] at h
  rw [IndexMap.get, IndexMap.get]
  generalize m.entries = es at h ⊢
  generalize n.entries = es' at h ⊢
  induction h with
  | nil => exact .none
  | @cons e e' _ _ hhead _ ih =>
      rw [lookup_cons_ite, lookup_cons_ite, hhead.1]
      split_ifs
      · exact .some hhead.2
      · exact ih

theorem insert (k : κ) {v : ν} {v' : μ} (hv : P v v') : Alike P (m.insert k v) (n.insert k v') := by
  rw [Alike] at h
  rw [Alike, IndexMap.insert, IndexMap.insert]
  simp only
  generalize m.entries = es at h ⊢
  generalize n.entries = es' at h ⊢
  induction h with
  | nil => exact .cons ⟨rfl, hv⟩ .nil
  | cons hhead htail ih =>
      rw [insertEntry, insertEntry, hhead.1]
      split_ifs
      · exact .cons ⟨rfl, hv⟩ htail
      · exact .cons hhead ih

theorem erase (k : κ) : Alike P (m.erase k) (n.erase k) :=
  forall₂_filter (p := fun k' _ => decide (k' ≠ k)) (q := fun k' _ => decide (k' ≠ k))
    (fun _ _ _ _ => rfl) h

end Alike

end IndexMap
