import Skvs.Lib.IndexMap

/-!
# The order in which keys come in

A key takes the place after those that came before it, and keeps it. The keys of a map are what a
fold of insertions makes of the keys of another, so maps built alike from maps with the same keys
have the same keys, in the same order.
-/

universe u v w

namespace IndexMap

variable {κ : Type u} {ν : Type v} [DecidableEq κ]

/-- The keys after one more key has come in. -/
def appendKey (ks : List κ) (k : κ) : List κ := if k ∈ ks then ks else ks ++ [k]

theorem keys_insert (m : IndexMap κ ν) (k : κ) (v : ν) :
    (m.insert k v).keys = appendKey m.keys k := by
  unfold appendKey
  split_ifs with h
  · exact keys_insert_of_mem v h
  · exact keys_insert_of_not_mem v h

theorem keys_insertIfNew (m : IndexMap κ ν) (k : κ) (v : ν) :
    (m.insertIfNew k v).keys = appendKey m.keys k := by
  have hcontains : m.contains k = true ↔ k ∈ m.keys :=
    (contains_iff m k).trans (mem_keys_iff_get m k).symm
  unfold insertIfNew appendKey
  by_cases h : k ∈ m.keys
  · rw [if_pos (hcontains.mpr h), if_pos h]
  · rw [if_neg (mt hcontains.mp h), if_neg h, keys_insert_of_not_mem v h]

theorem keys_foldl_insert {μ : Type w} (f : μ → κ) (g : μ → ν) (es : List μ)
    (m : IndexMap κ ν) :
    (es.foldl (fun m e => m.insert (f e) (g e)) m).keys = (es.map f).foldl appendKey m.keys := by
  induction es generalizing m with
  | nil => rfl
  | cons e es ih => rw [List.foldl_cons, ih, keys_insert, List.map_cons, List.foldl_cons]

theorem mem_foldl_appendKey {ks acc : List κ} {k : κ} :
    k ∈ ks.foldl appendKey acc ↔ k ∈ acc ∨ k ∈ ks := by
  induction ks generalizing acc with
  | nil => simp
  | cons x ks ih =>
      rw [List.foldl_cons, ih, List.mem_cons, appendKey]
      split_ifs with h
      · constructor
        · rintro (hacc | hks)
          · exact .inl hacc
          · exact .inr (.inr hks)
        · rintro (hacc | rfl | hks)
          · exact .inl hacc
          · exact .inl h
          · exact .inr hks
      · rw [List.mem_append, List.mem_singleton, or_assoc]

/-- Keys that have come in somewhere else first come in here in the same order. -/
theorem foldl_appendKey_foldl (acc : List κ) (ks : List κ) (init : List κ) :
    (ks.foldl appendKey init).foldl appendKey acc = ks.foldl appendKey (init.foldl appendKey acc) := by
  induction ks generalizing init with
  | nil => rfl
  | cons k ks ih =>
      rw [List.foldl_cons, ih, List.foldl_cons]
      congr 1
      by_cases h : k ∈ init
      · rw [appendKey, if_pos h, appendKey, if_pos (mem_foldl_appendKey.mpr (.inr h))]
      · rw [appendKey, if_neg h, List.foldl_append]
        rfl

/-- Keys without repetition come in as they are. -/
theorem foldl_appendKey_of_nodup {ks : List κ} (h : ks.Nodup) : ks.foldl appendKey [] = ks := by
  have hfold : ∀ acc, (acc ++ ks).Nodup → ks.foldl appendKey acc = acc ++ ks := by
    clear h
    induction ks with
    | nil => exact fun acc _ => (List.append_nil acc).symm
    | cons k ks ih =>
        intro acc hnodup
        have hk : k ∉ acc := fun hmem =>
          (List.nodup_append.mp hnodup).2.2 k hmem k List.mem_cons_self rfl
        rw [List.foldl_cons, appendKey, if_neg hk, ih, List.append_assoc, List.singleton_append]
        rwa [List.append_assoc, List.singleton_append]
  exact hfold [] h

/-- Maps with the same value under each key have the same entries, in one order or another. -/
theorem perm_of_get_eq {m n : IndexMap κ ν} (h : ∀ k, m.get k = n.get k) :
    m.entries.Perm n.entries := by
  have hnodup : ∀ m : IndexMap κ ν, m.entries.Nodup := fun m => .of_map _ m.nodup
  refine (List.perm_ext_iff_of_nodup (hnodup m) (hnodup n)).mpr fun e => ?_
  rw [mem_entries_iff_get, mem_entries_iff_get, h]

end IndexMap
