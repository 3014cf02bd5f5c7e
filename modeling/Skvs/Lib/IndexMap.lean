import Mathlib.Data.List.Nodup
import Mathlib.Data.List.Perm.Basic

/-!
# Finite maps that keep their insertion order

A map is the list of its entries, in the order the keys were first inserted. Overwriting a key keeps
its place, and removing one closes the gap. The distinctness of the keys is a field, so every lookup
lemma below is free of side conditions.
-/

universe u v w

/-- An insertion-ordered map with pairwise distinct keys. -/
structure IndexMap (κ : Type u) (ν : Type v) where
  entries : List (κ × ν)
  nodup : (entries.map Prod.fst).Nodup

namespace IndexMap

variable {κ : Type u} {ν : Type v} {μ : Type w}

theorem ext_entries {m n : IndexMap κ ν} (h : m.entries = n.entries) : m = n := by
  cases m
  cases n
  cases h
  rfl

instance [DecidableEq κ] [DecidableEq ν] : DecidableEq (IndexMap κ ν) := fun m n =>
  decidable_of_iff (m.entries = n.entries) ⟨ext_entries, fun h => h ▸ rfl⟩

def empty : IndexMap κ ν := ⟨[], List.nodup_nil⟩

instance : EmptyCollection (IndexMap κ ν) := ⟨empty⟩

instance : Inhabited (IndexMap κ ν) := ⟨∅⟩

def keys (m : IndexMap κ ν) : List κ := m.entries.map Prod.fst

def values (m : IndexMap κ ν) : List ν := m.entries.map Prod.snd

theorem keys_nodup (m : IndexMap κ ν) : m.keys.Nodup := m.nodup

theorem entries_nodup (m : IndexMap κ ν) : m.entries.Nodup := m.nodup.of_map

/-- Apply `f` to every value, in place. -/
def mapValues (f : κ → ν → μ) (m : IndexMap κ ν) : IndexMap κ μ where
  entries := m.entries.map fun e => (e.1, f e.1 e.2)
  nodup := by
    rw [List.map_map]
    exact m.nodup

@[simp]
theorem keys_mapValues (f : κ → ν → μ) (m : IndexMap κ ν) : (m.mapValues f).keys = m.keys := by
  simp only [keys, mapValues, List.map_map]
  rfl

section Lookup

variable [DecidableEq κ]

def get (m : IndexMap κ ν) (k : κ) : Option ν := m.entries.lookup k

def contains (m : IndexMap κ ν) (k : κ) : Bool := (m.get k).isSome

/-- Overwrite the value of `k` where it stands, or append the new entry. -/
def insertEntry (k : κ) (v : ν) : List (κ × ν) → List (κ × ν)
  | [] => [(k, v)]
  | e :: es => if e.1 = k then (k, v) :: es else e :: insertEntry k v es

theorem mem_keys_insertEntry (k : κ) (v : ν) (es : List (κ × ν)) (k' : κ) :
    k' ∈ (insertEntry k v es).map Prod.fst ↔ k' = k ∨ k' ∈ es.map Prod.fst := by
  induction es with
  | nil => simp [insertEntry]
  | cons e es ih =>
      rw [insertEntry]
      split_ifs with h
      · simp only [List.map_cons, List.mem_cons, h]
        tauto
      · simp only [List.map_cons, List.mem_cons, ih]
        tauto

theorem insertEntry_nodup (k : κ) (v : ν) (es : List (κ × ν)) (h : (es.map Prod.fst).Nodup) :
    ((insertEntry k v es).map Prod.fst).Nodup := by
  induction es with
  | nil => simp [insertEntry]
  | cons e es ih =>
      rw [List.map_cons, List.nodup_cons] at h
      rw [insertEntry]
      split_ifs with he
      · rw [List.map_cons, List.nodup_cons]
        exact ⟨he ▸ h.1, h.2⟩
      · rw [List.map_cons, List.nodup_cons, mem_keys_insertEntry]
        exact ⟨fun hmem => hmem.elim he h.1, ih h.2⟩

def insert (m : IndexMap κ ν) (k : κ) (v : ν) : IndexMap κ ν :=
  ⟨insertEntry k v m.entries, insertEntry_nodup k v m.entries m.nodup⟩

/-- Remove `k`, keeping the order of the other entries. -/
def erase (m : IndexMap κ ν) (k : κ) : IndexMap κ ν where
  entries := m.entries.filter fun e => e.1 ≠ k
  nodup := (List.filter_sublist.map Prod.fst).nodup m.nodup

/-- Rewrite the value of `k`, if it is there. -/
def modify (m : IndexMap κ ν) (k : κ) (f : ν → ν) : IndexMap κ ν :=
  m.mapValues fun k' v => if k' = k then f v else v

/-- The entry API: insert `d` where `k` is absent, and leave the map alone otherwise. -/
def insertIfNew (m : IndexMap κ ν) (k : κ) (d : ν) : IndexMap κ ν :=
  if m.contains k then m else m.insert k d

def getD (m : IndexMap κ ν) (k : κ) (d : ν) : ν := (m.get k).getD d

/-- Put a key at a position of the order, moving it there if it was present. -/
def insertAt (m : IndexMap κ ν) (i : Nat) (k : κ) (v : ν) : IndexMap κ ν where
  entries := (m.erase k).entries.take i ++ (k, v) :: (m.erase k).entries.drop i
  nodup := by
    have hperm : ((m.erase k).entries.take i ++ (k, v) :: (m.erase k).entries.drop i).Perm
        ((k, v) :: (m.erase k).entries) := by
      have h : ((m.erase k).entries.take i ++ (k, v) :: (m.erase k).entries.drop i).Perm
          ((k, v) :: ((m.erase k).entries.take i ++ (m.erase k).entries.drop i)) :=
        List.perm_middle
      rwa [List.take_append_drop] at h
    rw [(hperm.map Prod.fst).nodup_iff, List.map_cons, List.nodup_cons]
    refine ⟨fun hmem => ?_, (m.erase k).nodup⟩
    obtain ⟨e, he, hek⟩ := List.mem_map.mp hmem
    exact (of_decide_eq_true (List.mem_filter.mp he).2) hek

def ofList (es : List (κ × ν)) : IndexMap κ ν := es.foldl (fun m e => m.insert e.1 e.2) ∅

/-! ### What a lookup returns after each operation -/

@[simp]
theorem get_empty (k : κ) : (∅ : IndexMap κ ν).get k = none := rfl

theorem lookup_cons_ite (k : κ) (e : κ × ν) (es : List (κ × ν)) :
    (e :: es).lookup k = if k = e.1 then some e.2 else es.lookup k := by
  rw [List.lookup_cons]
  by_cases h : k = e.1
  · simp [h]
  · rw [if_neg h, beq_eq_false_iff_ne.mpr h]

theorem mem_entries_iff_get (m : IndexMap κ ν) (k : κ) (v : ν) :
    (k, v) ∈ m.entries ↔ m.get k = some v := by
  obtain ⟨es, hes⟩ := m
  simp only [get]
  induction es with
  | nil => simp
  | cons e es ih =>
      obtain ⟨k', v'⟩ := e
      rw [List.map_cons, List.nodup_cons] at hes
      rw [List.mem_cons, lookup_cons_ite, ih hes.2, Prod.mk.injEq]
      by_cases hk : k = k'
      · subst hk
        have hnot : es.lookup k ≠ some v := fun h =>
          hes.1 (List.mem_map.mpr ⟨(k, v), (ih hes.2).mpr h, rfl⟩)
        simp [hnot, eq_comm]
      · simp [hk]

theorem mem_keys_iff_get (m : IndexMap κ ν) (k : κ) : k ∈ m.keys ↔ ∃ v, m.get k = some v := by
  simp only [keys, List.mem_map, Prod.exists, mem_entries_iff_get]
  exact ⟨fun ⟨_, v, h, rfl⟩ => ⟨v, h⟩, fun ⟨v, h⟩ => ⟨k, v, h, rfl⟩⟩

theorem get_eq_none_iff (m : IndexMap κ ν) (k : κ) : m.get k = none ↔ k ∉ m.keys := by
  rw [mem_keys_iff_get]
  cases m.get k <;> simp

theorem contains_iff (m : IndexMap κ ν) (k : κ) : m.contains k = true ↔ ∃ v, m.get k = some v :=
  Option.isSome_iff_exists

theorem lookup_insertEntry (k : κ) (v : ν) (es : List (κ × ν)) (k' : κ) :
    (insertEntry k v es).lookup k' = if k' = k then some v else es.lookup k' := by
  induction es with
  | nil => rw [insertEntry, lookup_cons_ite]
  | cons e es ih =>
      rw [insertEntry]
      by_cases he : e.1 = k
      · rw [if_pos he, lookup_cons_ite, lookup_cons_ite, he]
        split_ifs <;> rfl
      · rw [if_neg he, lookup_cons_ite, lookup_cons_ite, ih]
        by_cases hk : k' = k
        · have hne : k' ≠ e.1 := fun h => he (h ▸ hk)
          rw [if_neg hne, if_pos hk, if_pos hk]
        · rw [if_neg hk]
          rw [if_neg hk]

@[simp]
theorem get_insert (m : IndexMap κ ν) (k : κ) (v : ν) (k' : κ) :
    (m.insert k v).get k' = if k' = k then some v else m.get k' :=
  lookup_insertEntry k v m.entries k'

theorem get_insert_self (m : IndexMap κ ν) (k : κ) (v : ν) : (m.insert k v).get k = some v := by
  simp

@[simp]
theorem get_erase (m : IndexMap κ ν) (k k' : κ) :
    (m.erase k).get k' = if k' = k then none else m.get k' := by
  apply Option.ext
  intro v
  rw [← mem_entries_iff_get]
  simp only [erase, List.mem_filter, mem_entries_iff_get, decide_not, Bool.not_eq_true',
    decide_eq_false_iff_not]
  split_ifs with h <;> simp [h]

@[simp]
theorem get_mapValues (f : κ → ν → μ) (m : IndexMap κ ν) (k : κ) :
    (m.mapValues f).get k = (m.get k).map (f k) := by
  apply Option.ext
  intro x
  rw [← mem_entries_iff_get, Option.map_eq_some_iff]
  simp only [mapValues, List.mem_map, Prod.exists, Prod.mk.injEq, mem_entries_iff_get]
  exact ⟨fun ⟨_, v, h, hk, hx⟩ => ⟨v, hk ▸ h, by rw [← hx, hk]⟩, fun ⟨v, h, hx⟩ => ⟨k, v, h, rfl, hx⟩⟩

@[simp]
theorem get_modify (m : IndexMap κ ν) (k : κ) (f : ν → ν) (k' : κ) :
    (m.modify k f).get k' = if k' = k then (m.get k').map f else m.get k' := by
  rw [modify, get_mapValues]
  split_ifs with h <;> simp

theorem get_insertIfNew (m : IndexMap κ ν) (k : κ) (d : ν) (k' : κ) :
    (m.insertIfNew k d).get k' = if k' = k then some (m.getD k d) else m.get k' := by
  rw [insertIfNew, getD, contains]
  split_ifs with hc hk hk
  · subst hk
    cases h : m.get k' with
    | none => simp [h] at hc
    | some v => rfl
  · rfl
  · subst hk
    cases h : m.get k' with
    | none => simp
    | some v => simp [h] at hc
  · simp [hk]

@[simp]
theorem keys_modify (m : IndexMap κ ν) (k : κ) (f : ν → ν) : (m.modify k f).keys = m.keys :=
  keys_mapValues _ m

@[simp]
theorem contains_modify (m : IndexMap κ ν) (k : κ) (f : ν → ν) (k' : κ) :
    (m.modify k f).contains k' = m.contains k' := by
  rw [contains, contains, get_modify]
  split_ifs <;> simp

theorem modify_eq_self {m : IndexMap κ ν} {k : κ} {f : ν → ν}
    (h : ∀ v, m.get k = some v → f v = v) : m.modify k f = m := by
  refine ext_entries ((List.map_congr_left fun e he => ?_).trans (List.map_id _))
  simp only [id_eq]
  split_ifs with hk
  · exact Prod.ext rfl (h e.2 (hk ▸ (mem_entries_iff_get m e.1 e.2).mp he))
  · rfl

theorem erase_eq_self {m : IndexMap κ ν} {k : κ} (h : m.get k = none) : m.erase k = m := by
  refine ext_entries (List.filter_eq_self.mpr fun e he => decide_eq_true fun hk => ?_)
  have hget := (mem_entries_iff_get m e.1 e.2).mp he
  rw [hk, h] at hget
  exact nomatch hget

/-- Making sure of a key and changing its value, where the change leaves the default alone. -/
theorem insertIfNew_modify_insertIfNew (m : IndexMap κ ν) (k : κ) {d : ν} {f : ν → ν} (hd : f d = d) :
    ((m.insertIfNew k d).modify k f).insertIfNew k d = (m.modify k f).insertIfNew k d := by
  cases hc : m.contains k with
  | true => rw [show m.insertIfNew k d = m from if_pos hc]
  | false =>
      have hnone : m.get k = none := by simpa [contains] using hc
      have hinsert : m.insertIfNew k d = m.insert k d := if_neg (by simp [hc])
      have hkept : (m.insert k d).modify k f = m.insert k d := by
        refine modify_eq_self fun v hv => ?_
        rw [get_insert_self] at hv
        exact Option.some.inj hv ▸ hd
      have hsame : m.modify k f = m := modify_eq_self fun v hv => nomatch hnone.symm.trans hv
      rw [hinsert, hkept, hsame, hinsert]
      exact if_pos ((contains_iff ..).mpr ⟨d, get_insert_self ..⟩)

/-- Removing a key that was just added leaves the map as it was. -/
theorem erase_insert_of_get_eq_none {m : IndexMap κ ν} {k : κ} (v : ν) (h : m.get k = none) :
    (m.insert k v).erase k = m := by
  rw [get_eq_none_iff, keys] at h
  refine ext_entries ?_
  simp only [erase, insert]
  generalize m.entries = es at h
  induction es with
  | nil => simp [insertEntry]
  | cons e es ih =>
      rw [List.map_cons, List.mem_cons, not_or] at h
      rw [insertEntry, if_neg (Ne.symm h.1), List.filter_cons_of_pos (by simpa using Ne.symm h.1),
        ih h.2]

/-! ### The order of the keys -/

theorem keys_insert_of_mem {m : IndexMap κ ν} {k : κ} (v : ν) (h : k ∈ m.keys) :
    (m.insert k v).keys = m.keys := by
  simp only [keys, insert] at h ⊢
  generalize m.entries = es at h
  induction es with
  | nil => exact absurd h List.not_mem_nil
  | cons e es ih =>
      rw [insertEntry]
      split_ifs with he
      · rw [List.map_cons, List.map_cons, he]
      · rw [List.map_cons, List.mem_cons] at h
        rw [List.map_cons, List.map_cons, ih (h.resolve_left (Ne.symm he))]

theorem keys_insert_of_not_mem {m : IndexMap κ ν} {k : κ} (v : ν) (h : k ∉ m.keys) :
    (m.insert k v).keys = m.keys ++ [k] := by
  simp only [keys, insert] at h ⊢
  generalize m.entries = es at h
  induction es with
  | nil => rfl
  | cons e es ih =>
      rw [List.map_cons, List.mem_cons, not_or] at h
      rw [insertEntry, if_neg (Ne.symm h.1), List.map_cons, List.map_cons, ih h.2, List.cons_append]

theorem length_keys_insert {m : IndexMap κ ν} {k : κ} (v : ν) (h : m.get k = none) :
    (m.insert k v).keys.length = m.keys.length + 1 := by
  rw [keys_insert_of_not_mem v ((get_eq_none_iff m k).mp h), List.length_append]
  rfl

theorem keys_erase (m : IndexMap κ ν) (k : κ) : (m.erase k).keys = m.keys.erase k := by
  rw [m.keys_nodup.erase_eq_filter, keys, keys, erase, List.filter_map]
  refine congrArg (List.map Prod.fst) (List.filter_congr fun e _ => ?_)
  rw [Function.comp_apply, bne, Bool.beq_eq_decide_eq, decide_not]

theorem keys_insertAt (m : IndexMap κ ν) (i : Nat) (k : κ) (v : ν) :
    (m.insertAt i k v).keys = (m.keys.erase k).take i ++ k :: (m.keys.erase k).drop i := by
  rw [← keys_erase, keys, keys, insertAt, List.map_append, List.map_cons, List.map_take, List.map_drop]

/-- Adding what is missing of some entries appends the missing keys in their order. -/
theorem keys_foldl_insertIfNew {μ : Type w} (f : κ × μ → ν) (es : List (κ × μ))
    (hes : (es.map Prod.fst).Nodup) (m : IndexMap κ ν) :
    (es.foldl (fun m e => m.insertIfNew e.1 (f e)) m).keys =
      m.keys ++ (es.map Prod.fst).filter fun k => k ∉ m.keys := by
  induction es generalizing m with
  | nil => exact (List.append_nil _).symm
  | cons e es ih =>
      rw [List.map_cons, List.nodup_cons] at hes
      rw [List.foldl_cons, ih hes.2, List.map_cons]
      by_cases he : e.1 ∈ m.keys
      · have hsame : m.insertIfNew e.1 (f e) = m := if_pos ((contains_iff ..).mpr
          ((mem_keys_iff_get ..).mp he))
        rw [hsame, List.filter_cons_of_neg (by simpa using he)]
      · have hnew : m.insertIfNew e.1 (f e) = m.insert e.1 (f e) := if_neg fun hc => he
          ((mem_keys_iff_get ..).mpr ((contains_iff ..).mp hc))
        rw [hnew, keys_insert_of_not_mem _ he, List.filter_cons_of_pos (by simpa using he),
          List.append_assoc, List.singleton_append]
        refine congrArg (fun l => m.keys ++ e.1 :: l) (List.filter_congr fun k hk => ?_)
        have hne : k ≠ e.1 := fun heq => hes.1 (heq ▸ hk)
        simp [hne]

theorem length_keys_erase {m : IndexMap κ ν} {k : κ} {v : ν} (h : m.get k = some v) :
    (m.erase k).keys.length + 1 = m.keys.length := by
  have hmem : k ∈ m.keys := (mem_keys_iff_get m k).mpr ⟨v, h⟩
  rw [keys_erase, List.length_erase_of_mem hmem]
  exact Nat.sub_add_cancel (List.length_pos_of_mem hmem)

theorem mem_of_get_ofList (es : List (κ × ν)) {k : κ} {v : ν} (h : (ofList es).get k = some v) :
    (k, v) ∈ es := by
  have hfold : ∀ (es : List (κ × ν)) (m : IndexMap κ ν),
      (es.foldl (fun m e => m.insert e.1 e.2) m).get k = some v →
        m.get k = some v ∨ (k, v) ∈ es := by
    intro es m hm
    induction es generalizing m with
    | nil => exact .inl hm
    | cons e es ih =>
        rcases ih (m.insert e.1 e.2) hm with hget | hmem
        · rw [get_insert] at hget
          split_ifs at hget with hk
          · rw [← Option.some.inj hget, hk]
            exact .inr List.mem_cons_self
          · exact .inl hget
        · exact .inr (List.mem_cons_of_mem e hmem)
  rcases hfold es ∅ h with hget | hmem
  · exact nomatch hget
  · exact hmem

/-- Maps with the same lookups have equally many keys. -/
theorem length_keys_eq {m n : IndexMap κ ν} (h : ∀ k, m.get k = n.get k) :
    m.keys.length = n.keys.length := by
  refine List.Perm.length_eq ((List.perm_ext_iff_of_nodup m.keys_nodup n.keys_nodup).mpr fun k => ?_)
  rw [mem_keys_iff_get, mem_keys_iff_get, h]

theorem entries_eq_filterMap (m : IndexMap κ ν) :
    m.entries = m.keys.filterMap fun k => (m.get k).map fun v => (k, v) := by
  rw [keys, List.filterMap_map]
  refine (List.filterMap_some ..).symm.trans (List.filterMap_congr fun e he => ?_)
  rw [Function.comp_apply, (mem_entries_iff_get m e.1 e.2).mp he]
  rfl

theorem ext_keys_get {m n : IndexMap κ ν} (hkeys : m.keys = n.keys) (hget : ∀ k, m.get k = n.get k) :
    m = n := by
  refine ext_entries ?_
  rw [entries_eq_filterMap, entries_eq_filterMap, hkeys]
  simp only [hget]

theorem filter_ne_self {l : List (κ × ν)} {k : κ} (h : k ∉ l.map Prod.fst) :
    l.filter (fun e => decide (e.1 ≠ k)) = l :=
  List.filter_eq_self.mpr fun _ he => decide_eq_true fun heq => h (heq ▸ List.mem_map_of_mem he)

theorem get_insertAt (m : IndexMap κ ν) (i : Nat) (k : κ) (v : ν) (k' : κ) :
    (m.insertAt i k v).get k' = if k' = k then some v else m.get k' := by
  have hsplit : (m.insertAt i k v).get k' = (((m.erase k).entries.take i).lookup k').or
      (((k, v) :: (m.erase k).entries.drop i).lookup k') := List.lookup_append
  have hwhole : (m.erase k).get k' = (((m.erase k).entries.take i).lookup k').or
      (((m.erase k).entries.drop i).lookup k') := by
    rw [← List.lookup_append, List.take_append_drop]
    rfl
  rw [hsplit, lookup_cons_ite]
  split_ifs with hk
  · have hnone : ((m.erase k).entries.take i).lookup k' = none := by
      rw [get_erase, if_pos hk] at hwhole
      exact (Option.or_eq_none_iff.mp hwhole.symm).1
    rw [hnone, Option.none_or]
  · rw [← hwhole, get_erase, if_neg hk]

/-- A new key in the place of another. -/
theorem entries_insertAt_erase {m : IndexMap κ ν} {k k' : κ} {v : ν} {l₁ l₂ : List (κ × ν)}
    (hm : m.entries = l₁ ++ (k, v) :: l₂) (hk' : k' ∉ m.keys) (v' : ν) :
    ((m.erase k).insertAt (min (m.keys.idxOf k) (m.erase k).keys.length) k' v').entries =
      l₁ ++ (k', v') :: l₂ := by
  have hnodup := m.nodup
  rw [hm, List.map_append, List.map_cons, List.nodup_append, List.nodup_cons] at hnodup
  obtain ⟨-, ⟨hk₂, -⟩, hdisj⟩ := hnodup
  have hk₁ : k ∉ l₁.map Prod.fst := fun hmem => hdisj k hmem k List.mem_cons_self rfl
  rw [keys, hm, List.map_append, List.map_cons, List.mem_append, List.mem_cons, not_or, not_or] at hk'
  have herase : (m.erase k).entries = l₁ ++ l₂ := by
    simp only [erase, hm, List.filter_append, List.filter_cons, filter_ne_self hk₁,
      filter_ne_self hk₂, ne_eq, not_true_eq_false, decide_false, Bool.false_eq_true, if_false]
  have hidx : m.keys.idxOf k = l₁.length := by
    rw [keys, hm, List.map_append, List.idxOf_append_of_notMem hk₁, List.map_cons,
      List.idxOf_cons_self, List.length_map, Nat.add_zero]
  have hmin : min (m.keys.idxOf k) (m.erase k).keys.length = l₁.length := by
    rw [hidx, keys, herase, List.length_map, List.length_append]
    exact Nat.min_eq_left (Nat.le_add_right _ _)
  have herase' : ((m.erase k).erase k').entries = l₁ ++ l₂ := by
    simp only [erase] at herase ⊢
    rw [herase, List.filter_append, filter_ne_self hk'.1, filter_ne_self hk'.2.2]
  simp only [insertAt, hmin, herase', List.take_left, List.drop_left]

end Lookup

end IndexMap
