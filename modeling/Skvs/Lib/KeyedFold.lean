import Skvs.Lib.IndexMap
import Skvs.Lib.Distinct

/-!
# Folds over entries

Going through entries with distinct keys, each step changes what is seen at its own key and nothing
else. What is seen at a key afterwards is what the entry of that key, if there is one, makes of what
was seen before.
-/

universe u v w x

theorem lookup_eq_none_of_not_mem {κ : Type v} {μ : Type w} [DecidableEq κ] {es : List (κ × μ)} {k : κ}
    (h : k ∉ es.map Prod.fst) : es.lookup k = none := by
  rw [List.lookup_eq_none_iff]
  intro e he
  rw [bne_iff_ne]
  intro heq
  exact h (heq ▸ List.mem_map_of_mem he)

section KeyedFold

variable {σ : Type u} {κ : Type v} {μ : Type w} {β : Type x} [DecidableEq κ]

theorem foldl_keyed (step : σ → κ × μ → σ) (see : σ → κ → β) (act : κ → μ → β → β)
    (I : σ → Prop) (hkeep : ∀ s e, I s → I (step s e))
    (hstep : ∀ s e k, I s → see (step s e) k = if k = e.1 then act k e.2 (see s k) else see s k)
    {es : List (κ × μ)} (hnodup : (es.map Prod.fst).Nodup) {s : σ} (hs : I s) (k : κ) :
    I (es.foldl step s) ∧
      see (es.foldl step s) k = (es.lookup k).elim (see s k) fun m => act k m (see s k) := by
  induction es generalizing s with
  | nil => exact ⟨hs, rfl⟩
  | cons e es ih =>
      rw [List.map_cons, List.nodup_cons] at hnodup
      obtain ⟨hkept, hsee⟩ := ih hnodup.2 (hkeep s e hs)
      refine ⟨hkept, ?_⟩
      rw [List.foldl_cons, hsee, hstep s e k hs, IndexMap.lookup_cons_ite]
      by_cases hk : k = e.1
      · have hlookup : es.lookup k = none := lookup_eq_none_of_not_mem (hk ▸ hnodup.1)
        rw [hlookup, if_pos hk, if_pos hk]
        rfl
      · rw [if_neg hk, if_neg hk]

end KeyedFold

namespace IndexMap

variable {κ : Type u} {ν : Type v} {μ : Type w} [DecidableEq κ]

theorem get_ofList_of_nodup {es : List (κ × ν)} (hnodup : (es.map Prod.fst).Nodup) (k : κ) :
    (ofList es).get k = es.lookup k := by
  have hfold := (foldl_keyed (fun (m : IndexMap κ ν) (e : κ × ν) => m.insert e.1 e.2) get
    (fun _ v _ => some v) (fun _ => True) (fun _ _ _ => trivial)
    (fun m e k _ => get_insert m e.1 e.2 k) hnodup (s := ∅) trivial k).2
  exact hfold.trans (by cases es.lookup k <;> rfl)

/-- The entries in any order. -/
theorem lookup_of_perm {m : IndexMap κ ν} {es : List (κ × ν)} (h : es.Perm m.entries) (k : κ) :
    es.lookup k = m.get k := by
  have hnodup : (es.map Prod.fst).Nodup := (h.map Prod.fst).nodup_iff.mpr m.nodup
  apply Option.ext
  intro v
  rw [← mem_entries_iff_get m k v, ← h.mem_iff]
  exact (mem_entries_iff_get ⟨es, hnodup⟩ k v).symm

theorem lookup_map (es : List (κ × ν)) (f : κ → ν → μ) (k : κ) :
    (es.map fun e => (e.1, f e.1 e.2)).lookup k = (es.lookup k).map (f k) := by
  induction es with
  | nil => rfl
  | cons e es ih =>
      rw [List.map_cons, lookup_cons_ite, lookup_cons_ite, ih]
      split_ifs with hk
      · rw [hk]
        rfl
      · rfl

theorem lookup_append_singleton (es : List (κ × ν)) (e : κ × ν) (k : κ) :
    (es ++ [e]).lookup k = (es.lookup k).or (if k = e.1 then some e.2 else none) := by
  induction es with
  | nil => exact lookup_cons_ite k e []
  | cons e' es ih =>
      rw [List.cons_append, lookup_cons_ite, lookup_cons_ite, ih]
      split_ifs <;> rfl

/-- Of the entries inserted for a key the last one stays. -/
theorem get_foldl_insert (es : List (κ × ν)) (m : IndexMap κ ν) (k : κ) :
    (es.foldl (fun m e => m.insert e.1 e.2) m).get k = (es.reverse.lookup k).or (m.get k) := by
  induction es generalizing m with
  | nil => rfl
  | cons e es ih =>
      rw [List.foldl_cons, ih, get_insert, List.reverse_cons, lookup_append_singleton,
        Option.or_assoc]
      split_ifs <;> rfl

theorem keys_insert_congr {m m' : IndexMap κ ν} (h : m.keys = m'.keys) (k : κ) (v v' : ν) :
    (m.insert k v).keys = (m'.insert k v').keys := by
  by_cases hk : k ∈ m.keys
  · rw [keys_insert_of_mem v hk, keys_insert_of_mem v' (h ▸ hk), h]
  · rw [keys_insert_of_not_mem v hk, keys_insert_of_not_mem v' (h ▸ hk), h]

/-- The keys that insertions leave, and their order, do not depend on the values. -/
theorem keys_foldl_insert_congr {es es' : List (κ × ν)} (h : es.map Prod.fst = es'.map Prod.fst)
    {m m' : IndexMap κ ν} (hkeys : m.keys = m'.keys) :
    (es.foldl (fun m e => m.insert e.1 e.2) m).keys =
      (es'.foldl (fun m e => m.insert e.1 e.2) m').keys := by
  induction es generalizing es' m m' with
  | nil =>
      rw [List.map_eq_nil_iff.mp h.symm]
      exact hkeys
  | cons e es ih =>
      cases es' with
      | nil => exact nomatch h
      | cons e' es' =>
          rw [List.map_cons, List.map_cons, List.cons.injEq] at h
          rw [List.foldl_cons, List.foldl_cons, h.1]
          exact ih h.2 (keys_insert_congr hkeys ..)

theorem get_ofList_map_const (ks : List κ) (v : ν) (k : κ) :
    (ofList (ks.map fun k => (k, v))).get k = if k ∈ ks then some v else none := by
  have hfold : ∀ m : IndexMap κ ν,
      ((ks.map fun k => (k, v)).foldl (fun m e => m.insert e.1 e.2) m).get k =
        if k ∈ ks then some v else m.get k := by
    intro m
    induction ks generalizing m with
    | nil => rfl
    | cons k' ks ih =>
        rw [List.map_cons, List.foldl_cons, ih, get_insert]
        by_cases hk : k = k' <;> simp [hk]
  exact hfold ∅

theorem getElem?_values (m : IndexMap κ ν) (i : Nat) : m.values[i]? = m.keys[i]?.bind m.get := by
  rw [values, keys, List.getElem?_map, List.getElem?_map]
  cases hentry : m.entries[i]? with
  | none => rfl
  | some e => exact ((mem_entries_iff_get m e.1 e.2).mp (List.mem_of_getElem? hentry)).symm

/-! ### Insertions under given names -/

section Named

variable {α : Type w} {name : α → κ} {step : IndexMap κ ν → α → IndexMap κ ν} {l : List α}

/-- Insertions add the keys that are new, each where it first occurs. -/
theorem keys_foldl (hstep : ∀ a ∈ l, ∀ m, ∃ v, step m a = m.insert (name a) v) (m : IndexMap κ ν) :
    (l.foldl step m).keys = m.keys ++ Distinct.firsts id m.keys (l.map name) := by
  induction l generalizing m with
  | nil => exact (List.append_nil _).symm
  | cons a l ih =>
      rw [List.forall_mem_cons] at hstep
      obtain ⟨v, hv⟩ := hstep.1 m
      rw [List.foldl_cons, hv, ih hstep.2, List.map_cons, Distinct.firsts]
      by_cases ha : name a ∈ m.keys
      · rw [keys_insert_of_mem v ha, id, if_pos ha]
      · rw [keys_insert_of_not_mem v ha, id, if_neg ha, List.append_assoc, List.singleton_append]
        refine congrArg (fun rest => m.keys ++ name a :: rest) (Distinct.firsts_congr fun b _ => ?_)
        rw [List.mem_append, List.mem_singleton, List.mem_cons, or_comm]

theorem keys_foldl_congr {step' : IndexMap κ ν → α → IndexMap κ ν}
    (hstep : ∀ a ∈ l, ∀ m, ∃ v, step m a = m.insert (name a) v)
    (hstep' : ∀ a ∈ l, ∀ m, ∃ v, step' m a = m.insert (name a) v) {m m' : IndexMap κ ν}
    (hkeys : m.keys = m'.keys) : (l.foldl step m).keys = (l.foldl step' m').keys := by
  rw [keys_foldl hstep, keys_foldl hstep', hkeys]

/-- When the keys, less one that is taken out in the end, are a given list as long as that of the
names: the names are that list, they are distinct, and the one is not among them. -/
theorem keys_erase_foldl_eq_iff (hstep : ∀ a ∈ l, ∀ m, ∃ v, step m a = m.insert (name a) v)
    (k : κ) {names : List κ} (hlength : names.length = l.length) :
    ((l.foldl step ∅).erase k).keys = names ↔ l.map name = names ∧ names.Nodup ∧ k ∉ names := by
  have hkeys : (l.foldl step ∅).keys = Distinct.firsts id [] (l.map name) := keys_foldl hstep ∅
  rw [keys_erase, hkeys]
  constructor
  · intro h
    have hsub : (Distinct.firsts id [] (l.map name)).Sublist (l.map name) :=
      Distinct.firsts_sublist [] _
    have hlength' : names.length = (l.map name).length := by rw [hlength, List.length_map]
    have herase : names.Sublist (Distinct.firsts id [] (l.map name)) := h ▸ List.erase_sublist
    have hall : names = l.map name := (herase.trans hsub).eq_of_length hlength'
    have hfirsts : Distinct.firsts id [] (l.map name) = l.map name :=
      hsub.eq_of_length_le (hlength' ▸ herase.length_le)
    have hnodup := Distinct.firsts_eq_self_iff.mp hfirsts
    rw [List.map_id] at hnodup
    refine ⟨hall.symm, hall ▸ hnodup, fun hmem => ?_⟩
    rw [← h, hfirsts] at hmem
    exact (hnodup.mem_erase_iff.mp hmem).1 rfl
  · rintro ⟨rfl, hnodup, hk⟩
    rw [Distinct.firsts_eq_self_iff.mpr (by rwa [List.map_id]), List.erase_of_not_mem hk]

end Named

end IndexMap
