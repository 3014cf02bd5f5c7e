import Skvs.Lib.IndexMap
import Mathlib.Data.List.Induction

/-!
# Grouping a list by keys

Going through a list, each element is put at the end of the bucket of its key. A bucket is then the
elements of its key in their order, and the keys stand in the order in which they first appeared.
-/

universe u v w

namespace IndexMap

variable {α : Type u} {κ : Type v} [DecidableEq κ] (key : α → Option κ)

/-- Put an element at the end of the bucket of its key; one without a key is dropped. -/
def pushBucket (m : IndexMap κ (List α)) (x : α) : IndexMap κ (List α) :=
  match key x with
  | some k => m.insert k (m.getD k [] ++ [x])
  | none => m

def buckets (xs : List α) : IndexMap κ (List α) := xs.foldl (pushBucket key) ∅

theorem get_pushBucket (m : IndexMap κ (List α)) (x : α) (k : κ) :
    (pushBucket key m x).get k =
      if key x = some k then some (m.getD k [] ++ [x]) else m.get k := by
  rw [pushBucket]
  cases key x with
  | none => rw [if_neg (Option.some_ne_none k).symm]
  | some k' =>
      simp only [get_insert, Option.some.injEq]
      by_cases h : k = k'
      · rw [if_pos h, if_pos h.symm, h]
      · rw [if_neg h, if_neg (Ne.symm h)]

theorem getD_foldl_pushBucket (xs : List α) (m : IndexMap κ (List α)) (k : κ) :
    (xs.foldl (pushBucket key) m).getD k [] =
      m.getD k [] ++ xs.filter fun x => key x = some k := by
  induction xs generalizing m with
  | nil => exact (List.append_nil _).symm
  | cons x xs ih =>
      have hstep : (pushBucket key m x).getD k [] =
          m.getD k [] ++ if key x = some k then [x] else [] := by
        rw [getD, get_pushBucket]
        by_cases h : key x = some k
        · rw [if_pos h, if_pos h]
          rfl
        · rw [if_neg h, if_neg h, List.append_nil]
          rfl
      rw [List.foldl_cons, ih, hstep, List.append_assoc, List.filter_cons]
      by_cases h : key x = some k <;> simp [h]

/-- The bucket of a key holds the elements of that key. -/
theorem getD_buckets (xs : List α) (k : κ) :
    (buckets key xs).getD k [] = xs.filter fun x => key x = some k :=
  getD_foldl_pushBucket key xs ∅ k

theorem keys_pushBucket (m : IndexMap κ (List α)) (x : α) :
    (pushBucket key m x).keys = m.keys ++ (key x).toList.removeAll m.keys := by
  rw [pushBucket]
  cases key x with
  | none => exact (List.append_nil _).symm
  | some k =>
      by_cases hk : k ∈ m.keys
      · simp [keys_insert_of_mem _ hk, List.removeAll, hk]
      · simp [keys_insert_of_not_mem _ hk, List.removeAll, hk]

theorem keys_foldl_pushBucket (xs : List α) (m : IndexMap κ (List α)) :
    (xs.foldl (pushBucket key) m).keys =
      m.keys ++ ((xs.filterMap key).removeAll m.keys).eraseDups := by
  induction xs generalizing m with
  | nil => exact (List.append_nil _).symm
  | cons x xs ih =>
      rw [List.foldl_cons, ih, keys_pushBucket, List.append_assoc, List.filterMap_cons]
      refine congrArg _ ?_
      cases key x with
      | none => simp [List.removeAll]
      | some k =>
          by_cases hk : k ∈ m.keys
          · simp [List.removeAll, hk]
          · simp [List.removeAll, hk, List.eraseDups_cons, List.filter_filter, Bool.and_comm,
              Bool.beq_eq_decide_eq]

/-- The keys, in the order in which they first appear. -/
theorem keys_buckets (xs : List α) : (buckets key xs).keys = (xs.filterMap key).eraseDups := by
  refine (keys_foldl_pushBucket key xs ∅).trans ?_
  have hnone : (∅ : IndexMap κ (List α)).keys = [] := rfl
  simp [hnone, List.removeAll]

/-- The buckets themselves, in that order. -/
theorem values_buckets (xs : List α) :
    (buckets key xs).values =
      (xs.filterMap key).eraseDups.map fun k => xs.filter fun x => key x = some k := by
  rw [← keys_buckets, keys, values, List.map_map]
  refine List.map_congr_left fun e he => ?_
  rw [Function.comp_apply, ← getD_buckets, getD, (mem_entries_iff_get _ e.1 e.2).mp he]
  rfl

end IndexMap

/-! ### Positions -/

/-- Groups of the positions below `n`: every position is in one group, once; the positions of a group
increase; two are together just when they are alike; and a group comes before those that start
later. -/
structure IsGrouping (alike : Nat → Nat → Prop) (n : Nat) (groups : List (List Nat)) : Prop where
  perm : groups.flatten.Perm (List.range n)
  nonempty : ∀ g ∈ groups, g ≠ []
  increasing : ∀ g ∈ groups, g.Pairwise (· < ·)
  together : ∀ i < n, ∀ j < n, (∃ g ∈ groups, i ∈ g ∧ j ∈ g) ↔ alike i j
  inOrder : groups.Pairwise fun g h => ∀ j ∈ h, ∃ i ∈ g, i < j

/-- Positions that are all alike are in one group. -/
theorem IsGrouping.length_le_one {alike : Nat → Nat → Prop} {n : Nat} {groups : List (List Nat)}
    (h : IsGrouping alike n groups) (hall : ∀ i < n, ∀ j < n, alike i j) : groups.length ≤ 1 := by
  match groups, h with
  | [], _ => simp
  | [_], _ => simp
  | g :: g' :: rest, h =>
    obtain ⟨i, hi⟩ := List.exists_mem_of_ne_nil g (h.nonempty g (by simp))
    obtain ⟨j, hj⟩ := List.exists_mem_of_ne_nil g' (h.nonempty g' (by simp))
    have hbelow : ∀ k, k ∈ (g :: g' :: rest).flatten → k < n := fun k hk =>
      List.mem_range.mp (h.perm.mem_iff.mp hk)
    have hdisjoint := (List.pairwise_cons.mp
      (List.nodup_flatten.mp (h.perm.nodup_iff.mpr List.nodup_range)).2).1
    obtain ⟨k, hk, hik, hjk⟩ := (h.together i (hbelow i (by simp [hi])) j
      (hbelow j (by simp [hj]))).mpr (hall i (hbelow i (by simp [hi])) j (hbelow j (by simp [hj])))
    cases hk with
    | head => exact (hdisjoint g' (by simp) hjk hj).elim
    | tail _ hk => exact (hdisjoint k hk hi hik).elim

namespace List

variable {κ : Type v} [DecidableEq κ]

/-- Erasing duplicates keeps the order of the first appearances. -/
theorem eraseDups_pairwise_idxOf (ks : List κ) :
    ks.eraseDups.Pairwise fun a b => ks.idxOf a < ks.idxOf b := by
  induction ks using List.reverseRecOn with
  | nil => exact .nil
  | append_singleton ks k ih =>
      have hkeep : ∀ a ∈ ks, (ks ++ [k]).idxOf a = ks.idxOf a := fun a ha => idxOf_append_of_mem ha
      have hold : ks.eraseDups.Pairwise fun a b => (ks ++ [k]).idxOf a < (ks ++ [k]).idxOf b := by
        refine ih.imp_of_mem fun ha hb hlt => ?_
        rwa [hkeep _ (mem_eraseDups.mp ha), hkeep _ (mem_eraseDups.mp hb)]
      rw [eraseDups_append]
      by_cases hk : k ∈ ks
      · simpa [removeAll, hk] using hold
      · have hnew : ([k].removeAll ks).eraseDups = [k] := by
          simp [removeAll, hk, eraseDups_cons]
        rw [hnew, pairwise_append]
        refine ⟨hold, pairwise_singleton .., fun a ha b hb => ?_⟩
        obtain rfl := mem_singleton.mp hb
        rw [hkeep a (mem_eraseDups.mp ha), idxOf_append_of_notMem hk]
        exact Nat.lt_of_lt_of_le (idxOf_lt_length_of_mem (mem_eraseDups.mp ha)) (Nat.le_add_right ..)

theorem idxOf_le_of_getElem? {ks : List κ} {k : κ} {j : Nat} (h : ks[j]? = some k) :
    ks.idxOf k ≤ j := by
  have hmem : k ∈ ks.take (j + 1) := by
    rw [take_add_one, h]
    exact mem_append_right _ mem_cons_self
  have hlt := idxOf_lt_length_of_mem hmem
  have hsame : (ks.take (j + 1) ++ ks.drop (j + 1)).idxOf k = (ks.take (j + 1)).idxOf k :=
    idxOf_append_of_mem hmem
  rw [← hsame, take_append_drop, length_take] at hlt
  omega

/-- The positions of each key, key by key in the order in which they first appear. -/
def keyPositions (ks : List κ) : List (List Nat) :=
  ks.eraseDups.map fun k => (range ks.length).filter fun i => ks[i]? = some k

theorem mem_keyPositions_group {ks : List κ} {k : κ} {i : Nat} :
    i ∈ (range ks.length).filter (fun i => ks[i]? = some k) ↔ ks[i]? = some k := by
  rw [mem_filter, mem_range, decide_eq_true_iff, and_iff_right_iff_imp]
  exact fun h => (getElem?_eq_some_iff.mp h).1

theorem mem_keyPositions {ks : List κ} {g : List Nat} :
    g ∈ ks.keyPositions ↔ ∃ k ∈ ks, (range ks.length).filter (fun i => ks[i]? = some k) = g := by
  simp only [keyPositions, mem_map, mem_eraseDups]

theorem keyPositions_isGrouping (ks : List κ) :
    IsGrouping (fun i j => ks[i]? = ks[j]?) ks.length ks.keyPositions where
  perm := by
    have hnodup : ks.keyPositions.flatten.Nodup := by
      refine nodup_flatten.mpr ⟨fun g hg => ?_, ?_⟩
      · obtain ⟨k, -, rfl⟩ := mem_keyPositions.mp hg
        exact nodup_range.filter _
      · rw [keyPositions, pairwise_map]
        refine (eraseDups_pairwise_idxOf ks).imp fun hlt i hi hj => ?_
        rw [mem_keyPositions_group] at hi hj
        rw [Option.some.inj (hi.symm.trans hj)] at hlt
        exact Nat.lt_irrefl _ hlt
    refine (perm_ext_iff_of_nodup hnodup nodup_range).mpr fun i => ?_
    simp only [mem_flatten, mem_keyPositions, mem_range]
    constructor
    · rintro ⟨g, ⟨k, -, rfl⟩, hi⟩
      exact (getElem?_eq_some_iff.mp (mem_keyPositions_group.mp hi)).1
    · intro hi
      exact ⟨_, ⟨ks[i], getElem_mem hi, rfl⟩, mem_keyPositions_group.mpr (getElem?_eq_getElem hi)⟩
  nonempty g hg := by
    obtain ⟨k, hk, rfl⟩ := mem_keyPositions.mp hg
    obtain ⟨i, hi, hget⟩ := getElem_of_mem hk
    exact ne_nil_of_mem (mem_keyPositions_group.mpr (getElem?_eq_some_iff.mpr ⟨hi, hget⟩))
  increasing g hg := by
    obtain ⟨k, -, rfl⟩ := mem_keyPositions.mp hg
    exact pairwise_lt_range.filter _
  together i hi j hj := by
    simp only [mem_keyPositions]
    constructor
    · rintro ⟨g, ⟨k, -, rfl⟩, hig, hjg⟩
      rw [mem_keyPositions_group] at hig hjg
      exact hig.trans hjg.symm
    · intro hsame
      exact ⟨_, ⟨ks[i], getElem_mem hi, rfl⟩,
        mem_keyPositions_group.mpr (getElem?_eq_getElem hi),
        mem_keyPositions_group.mpr (hsame.symm.trans (getElem?_eq_getElem hi))⟩
  inOrder := by
    rw [keyPositions, pairwise_map]
    refine (eraseDups_pairwise_idxOf ks).imp_of_mem fun {a b} ha _ hlt j hj => ?_
    have hmem := mem_eraseDups.mp ha
    refine ⟨ks.idxOf a, mem_keyPositions_group.mpr ?_,
      Nat.lt_of_lt_of_le hlt (idxOf_le_of_getElem? (mem_keyPositions_group.mp hj))⟩
    rw [getElem?_eq_getElem (idxOf_lt_length_of_mem hmem), getElem_idxOf]

end List

namespace IndexMap

variable {α : Type u} {κ : Type v} [DecidableEq κ]

theorem filter_eq_positions (key : α → κ) (xs : List α) (k : κ) :
    (xs.filter fun x => key x = k) =
      ((List.range xs.length).filter fun i => (xs.map key)[i]? = some k).filterMap fun i => xs[i]? := by
  induction xs using List.reverseRecOn with
  | nil => rfl
  | append_singleton xs x ih =>
      have hkeys : ∀ i ∈ List.range xs.length, ((xs ++ [x]).map key)[i]? = (xs.map key)[i]? := by
        intro i hi
        rw [List.map_append, List.getElem?_append_left (by simpa using hi)]
      have hold : ((List.range xs.length).filter fun i => ((xs ++ [x]).map key)[i]? = some k).filterMap
          (fun i => (xs ++ [x])[i]?) = xs.filter fun x => key x = k := by
        rw [ih, List.filter_congr fun i hi => by rw [hkeys i hi]]
        refine List.filterMap_congr fun i hi => ?_
        exact List.getElem?_append_left (List.mem_range.mp (List.mem_filter.mp hi).1)
      rw [List.length_append, List.length_singleton, List.range_succ, List.filter_append,
        List.filter_append, List.filterMap_append, hold]
      refine congrArg _ ?_
      by_cases hk : key x = k <;> simp [hk]

/-- The buckets hold the elements at the positions of their keys. -/
theorem values_buckets_eq_positions (key : α → κ) (xs : List α) :
    (buckets (fun x => some (key x)) xs).values =
      (xs.map key).keyPositions.map fun g => g.filterMap fun i => xs[i]? := by
  rw [values_buckets, List.keyPositions, List.map_map, List.filterMap_eq_map', List.length_map]
  refine List.map_congr_left fun k _ => ?_
  simp only [Option.some.injEq, Function.comp_apply]
  exact filter_eq_positions key xs k

end IndexMap
