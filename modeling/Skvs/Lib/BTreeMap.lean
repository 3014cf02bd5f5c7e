import Mathlib.Data.List.Find
import Mathlib.Data.List.Nodup
import Mathlib.Data.List.Perm.Basic

/-!
# Ordered maps over a caller-supplied comparison

A map is its entries in ascending order of their keys. The comparison is an argument and need not be
lawful: the operations are total either way. The lookup lemmas ask only that on the keys in play,
given by a predicate `S`, comparing equal means being equal.
-/

universe u v

structure BTreeMap (κ : Type u) (ν : Type v) where
  entries : List (κ × ν)
  deriving DecidableEq

/-- One end of a range of keys. -/
inductive Bound (κ : Type u) where
  | included (k : κ)
  | excluded (k : κ)
  | unbounded
  deriving DecidableEq

/-- The key that a bound stands at. -/
def Bound.key? {κ : Type u} : Bound κ → Option κ
  | .included k | .excluded k => some k
  | .unbounded => none

namespace BTreeMap

variable {κ : Type u} {ν : Type v} (cmp : κ → κ → Ordering)

def empty : BTreeMap κ ν := ⟨[]⟩

instance : EmptyCollection (BTreeMap κ ν) := ⟨empty⟩

instance : Inhabited (BTreeMap κ ν) := ⟨∅⟩

def get (m : BTreeMap κ ν) (k : κ) : Option ν :=
  (m.entries.find? fun e => cmp k e.1 == .eq).map Prod.snd

/-- Put a new key before the first greater one. -/
def insertSorted (k : κ) (v : ν) : List (κ × ν) → List (κ × ν)
  | [] => [(k, v)]
  | e :: es => if cmp k e.1 = .lt then (k, v) :: e :: es else e :: insertSorted k v es

def modifyAt (k : κ) (f : ν → ν) : List (κ × ν) → List (κ × ν)
  | [] => []
  | e :: es => if cmp k e.1 = .eq then (e.1, f e.2) :: es else e :: modifyAt k f es

/-- The entry API: start from `d` where `k` is absent, then apply `f` in place. -/
def upsert (m : BTreeMap κ ν) (k : κ) (d : ν) (f : ν → ν) : BTreeMap κ ν :=
  if (m.get cmp k).isSome then ⟨modifyAt cmp k f m.entries⟩ else ⟨insertSorted cmp k (f d) m.entries⟩

def remove (m : BTreeMap κ ν) (k : κ) : BTreeMap κ ν :=
  ⟨m.entries.eraseP fun e => cmp k e.1 == .eq⟩

def aboveLower (b : Bound κ) (k : κ) : Bool :=
  match b with
  | .included lo => cmp lo k != .gt
  | .excluded lo => cmp lo k == .lt
  | .unbounded => true

def belowUpper (b : Bound κ) (k : κ) : Bool :=
  match b with
  | .included hi => cmp k hi != .gt
  | .excluded hi => cmp k hi == .lt
  | .unbounded => true

/-- The precondition of `range`: the bounds do not cross, and are not one excluded key twice. -/
def rangeOk (lower upper : Bound κ) : Bool :=
  match lower, upper with
  | .unbounded, _ | _, .unbounded => true
  | .excluded lo, .excluded hi => cmp lo hi == .lt
  | .included lo, .included hi | .included lo, .excluded hi | .excluded lo, .included hi =>
    cmp lo hi != .gt

theorem rangeOk_iff {lower upper : Bound κ} :
    rangeOk cmp lower upper = true ↔
      (∀ lo hi, lower.key? = some lo → upper.key? = some hi → cmp lo hi ≠ .gt) ∧
        ∀ lo hi, lower = .excluded lo → upper = .excluded hi → cmp lo hi ≠ .eq := by
  cases lower <;> cases upper <;> simp [rangeOk, Bound.key?]
  case excluded.excluded lo hi => cases cmp lo hi <;> simp

def range (m : BTreeMap κ ν) (lower upper : Bound κ) : List (κ × ν) :=
  m.entries.filter fun e => aboveLower cmp lower e.1 && belowUpper cmp upper e.1

/-! ### Lookups on keys the comparison tells apart -/

/-- On `S`, comparing equal is equality. -/
def Reflects (S : κ → Prop) : Prop :=
  ∀ a b, S a → S b → (cmp a b = .eq ↔ a = b)

/-- All keys lie in `S`, and no key occurs twice. -/
structure Keyed (S : κ → Prop) (m : BTreeMap κ ν) : Prop where
  mem : ∀ e ∈ m.entries, S e.1
  nodup : (m.entries.map Prod.fst).Nodup

variable {cmp} {S : κ → Prop}

theorem Keyed.empty : Keyed S (∅ : BTreeMap κ ν) :=
  ⟨fun _ he => absurd he List.not_mem_nil, List.nodup_nil⟩

theorem get_eq_some_iff {m : BTreeMap κ ν} {k : κ} {v : ν} (hcmp : Reflects cmp S)
    (hm : Keyed S m) (hk : S k) : m.get cmp k = some v ↔ (k, v) ∈ m.entries := by
  obtain ⟨es⟩ := m
  obtain ⟨hmem, hnodup⟩ := hm
  simp only [get] at *
  induction es with
  | nil => simp
  | cons e es ih =>
      rw [List.map_cons, List.nodup_cons] at hnodup
      have hes := ih (fun e' he' => hmem e' (List.mem_cons_of_mem e he')) hnodup.2
      have heq : cmp k e.1 = .eq ↔ k = e.1 := hcmp k e.1 hk (hmem e List.mem_cons_self)
      rw [List.find?_cons, List.mem_cons]
      by_cases h : k = e.1
      · subst h
        have hnot : (e.1, v) ∉ es := fun h => hnodup.1 (List.mem_map.mpr ⟨_, h, rfl⟩)
        simp only [heq.mpr rfl, beq_self_eq_true, Option.map_some, Option.some.injEq, hnot, or_false]
        exact ⟨fun h => Prod.ext rfl h.symm, fun h => (congrArg Prod.snd h).symm⟩
      · have hcmpNe : (cmp k e.1 == .eq) = false := by
          simpa using fun hc => h (heq.mp hc)
        have hne : (k, v) ≠ e := fun he => h (by rw [← he])
        simp only [hcmpNe, hne, false_or]
        exact hes

theorem get_eq_none_iff {m : BTreeMap κ ν} {k : κ} (hcmp : Reflects cmp S) (hm : Keyed S m)
    (hk : S k) : m.get cmp k = none ↔ k ∉ m.entries.map Prod.fst := by
  rw [Option.eq_none_iff_forall_ne_some, List.mem_map]
  simp only [ne_eq, get_eq_some_iff hcmp hm hk]
  exact ⟨fun h ⟨e, he, hek⟩ => h e.2 (hek ▸ he), fun h v hv => h ⟨_, hv, rfl⟩⟩

theorem mem_insertSorted {k : κ} {v : ν} {es : List (κ × ν)} {e : κ × ν} :
    e ∈ insertSorted cmp k v es ↔ e = (k, v) ∨ e ∈ es := by
  induction es with
  | nil => simp [insertSorted]
  | cons e' es ih =>
      rw [insertSorted]
      split_ifs
      · rw [List.mem_cons]
      · rw [List.mem_cons, ih, List.mem_cons]
        tauto

theorem nodup_insertSorted {k : κ} {v : ν} {es : List (κ × ν)}
    (hk : k ∉ es.map Prod.fst) (h : (es.map Prod.fst).Nodup) :
    ((insertSorted cmp k v es).map Prod.fst).Nodup := by
  induction es with
  | nil => simp [insertSorted]
  | cons e es ih =>
      rw [insertSorted]
      split_ifs
      · exact List.nodup_cons.mpr ⟨hk, h⟩
      · rw [List.map_cons, List.mem_cons, not_or] at hk
        rw [List.map_cons, List.nodup_cons] at h ⊢
        refine ⟨fun hmem => ?_, ih hk.2 h.2⟩
        obtain ⟨e', he', hfst⟩ := List.mem_map.mp hmem
        rcases mem_insertSorted.mp he' with rfl | hin
        · exact hk.1 hfst
        · exact h.1 (List.mem_map.mpr ⟨e', hin, hfst⟩)

theorem map_fst_modifyAt {k : κ} {f : ν → ν} {es : List (κ × ν)} :
    (modifyAt cmp k f es).map Prod.fst = es.map Prod.fst := by
  induction es with
  | nil => rfl
  | cons e es ih =>
      rw [modifyAt]
      split_ifs
      · rfl
      · rw [List.map_cons, List.map_cons, ih]

theorem mem_modifyAt {k : κ} {f : ν → ν} {es : List (κ × ν)} {e : κ × ν} (hcmp : Reflects cmp S)
    (hmem : ∀ e ∈ es, S e.1) (hnodup : (es.map Prod.fst).Nodup) (hk : S k) :
    e ∈ modifyAt cmp k f es ↔
      (∃ v, (k, v) ∈ es ∧ e = (k, f v)) ∨ (e.1 ≠ k ∧ e ∈ es) := by
  induction es with
  | nil => simp [modifyAt]
  | cons e' es ih =>
      rw [List.map_cons, List.nodup_cons] at hnodup
      have hes := ih (fun x hx => hmem x (List.mem_cons_of_mem e' hx)) hnodup.2
      have heq : cmp k e'.1 = .eq ↔ k = e'.1 := hcmp k e'.1 hk (hmem e' List.mem_cons_self)
      obtain ⟨k', v'⟩ := e'
      rw [modifyAt]
      by_cases h : k = k'
      · subst h
        have hnot : ∀ v, (k, v) ∉ es := fun v hv => hnodup.1 (List.mem_map.mpr ⟨_, hv, rfl⟩)
        have hnotMem : e ∈ es → e.1 ≠ k := fun he hek => hnot e.2 (hek ▸ he)
        rw [if_pos (heq.mpr rfl), List.mem_cons]
        constructor
        · rintro (rfl | he)
          · exact Or.inl ⟨v', List.mem_cons_self, rfl⟩
          · exact Or.inr ⟨hnotMem he, List.mem_cons_of_mem _ he⟩
        · rintro (⟨v, hv, rfl⟩ | ⟨hne, he⟩)
          · rcases List.mem_cons.mp hv with hv | hv
            · rw [(Prod.mk.injEq _ _ _ _ ▸ hv : k = k ∧ v = v').2]
              exact Or.inl rfl
            · exact absurd hv (hnot v)
          · rcases List.mem_cons.mp he with rfl | he
            · exact absurd rfl hne
            · exact Or.inr he
      · rw [if_neg (fun hc => h (heq.mp hc)), List.mem_cons, hes]
        simp only [List.mem_cons, Prod.mk.injEq, h, false_and, false_or]
        constructor
        · rintro (rfl | hv | he)
          · exact Or.inr ⟨fun hk' => h hk'.symm, Or.inl rfl⟩
          · exact Or.inl hv
          · exact Or.inr ⟨he.1, Or.inr he.2⟩
        · rintro (hv | ⟨hne, rfl | he⟩)
          · exact Or.inr (Or.inl hv)
          · exact Or.inl rfl
          · exact Or.inr (Or.inr ⟨hne, he⟩)

theorem Keyed.upsert {m : BTreeMap κ ν} {k : κ} {d : ν} {f : ν → ν} (hcmp : Reflects cmp S)
    (hm : Keyed S m) (hk : S k) : Keyed S (m.upsert cmp k d f) := by
  rw [BTreeMap.upsert]
  split_ifs with h
  · have hkeys : (modifyAt cmp k f m.entries).map Prod.fst = m.entries.map Prod.fst :=
      map_fst_modifyAt
    refine ⟨fun e he => ?_, hkeys ▸ hm.nodup⟩
    have hfst : e.1 ∈ m.entries.map Prod.fst := hkeys ▸ List.mem_map_of_mem he
    obtain ⟨e', he', heq⟩ := List.mem_map.mp hfst
    exact heq ▸ hm.mem e' he'
  · rw [Option.isSome_iff_ne_none, not_not, get_eq_none_iff hcmp hm hk] at h
    refine ⟨fun e he => ?_, nodup_insertSorted h hm.nodup⟩
    rcases mem_insertSorted.mp he with rfl | he
    · exact hk
    · exact hm.mem e he

theorem get_upsert {m : BTreeMap κ ν} {k k' : κ} {d : ν} {f : ν → ν} [DecidableEq κ]
    (hcmp : Reflects cmp S) (hm : Keyed S m) (hk : S k) (hk' : S k') :
    (m.upsert cmp k d f).get cmp k' =
      if k' = k then some (f ((m.get cmp k).getD d)) else m.get cmp k' := by
  apply Option.ext
  intro v
  rw [get_eq_some_iff hcmp (hm.upsert hcmp hk) hk', BTreeMap.upsert]
  cases hget : m.get cmp k with
  | some v₀ =>
      rw [Option.isSome_some, if_pos rfl, mem_modifyAt hcmp hm.mem hm.nodup hk]
      have hin := (get_eq_some_iff hcmp hm hk).mp hget
      have huniq : ∀ v, (k, v) ∈ m.entries → v = v₀ := fun v hv =>
        Option.some.inj (((get_eq_some_iff hcmp hm hk).mpr hv).symm.trans hget)
      split_ifs with hkk
      · subst hkk
        simp only [Prod.mk.injEq, true_and, ne_eq, not_true_eq_false, false_and, or_false,
          Option.getD_some, Option.some.injEq]
        exact ⟨fun ⟨w, hw, hv⟩ => by rw [hv, huniq w hw], fun hv => ⟨v₀, hin, hv.symm⟩⟩
      · rw [get_eq_some_iff hcmp hm hk']
        simp [hkk]
  | none =>
      rw [Option.isSome_none, if_neg (by simp), mem_insertSorted]
      split_ifs with hkk
      · subst hkk
        have hnot := (get_eq_none_iff hcmp hm hk).mp hget
        have hnotMem : (k', v) ∉ m.entries := fun h => hnot (List.mem_map.mpr ⟨_, h, rfl⟩)
        simp [hnotMem, eq_comm]
      · rw [get_eq_some_iff hcmp hm hk']
        simp [hkk]

theorem mem_remove {m : BTreeMap κ ν} {k : κ} {e : κ × ν} (hcmp : Reflects cmp S) (hm : Keyed S m)
    (hk : S k) : e ∈ (m.remove cmp k).entries ↔ e.1 ≠ k ∧ e ∈ m.entries := by
  obtain ⟨es⟩ := m
  obtain ⟨hmem, hnodup⟩ := hm
  simp only [remove] at *
  induction es with
  | nil => simp
  | cons e' es ih =>
      rw [List.map_cons, List.nodup_cons] at hnodup
      have hes := ih (fun x hx => hmem x (List.mem_cons_of_mem e' hx)) hnodup.2
      have heq : cmp k e'.1 = .eq ↔ k = e'.1 := hcmp k e'.1 hk (hmem e' List.mem_cons_self)
      by_cases h : k = e'.1
      · have hnot : e ∈ es → e.1 ≠ k := fun he hek =>
          hnodup.1 (List.mem_map.mpr ⟨e, he, hek.trans h⟩)
        rw [List.eraseP_cons_of_pos (by simpa using heq.mpr h), List.mem_cons]
        exact ⟨fun he => ⟨hnot he, Or.inr he⟩,
          fun ⟨hne, he⟩ => he.resolve_left fun hee => hne (by rw [hee, h])⟩
      · rw [List.eraseP_cons_of_neg (by simpa using fun hc => h (heq.mp hc)), List.mem_cons, hes,
          List.mem_cons]
        constructor
        · rintro (rfl | he)
          · exact ⟨fun hk' => h hk'.symm, Or.inl rfl⟩
          · exact ⟨he.1, Or.inr he.2⟩
        · rintro ⟨hne, rfl | he⟩
          · exact Or.inl rfl
          · exact Or.inr ⟨hne, he⟩

theorem Keyed.remove {m : BTreeMap κ ν} {k : κ} (hm : Keyed S m) : Keyed S (m.remove cmp k) :=
  ⟨fun e he => hm.mem e (List.mem_of_mem_eraseP he),
    (List.eraseP_sublist.map Prod.fst).nodup hm.nodup⟩

theorem get_remove {m : BTreeMap κ ν} {k k' : κ} [DecidableEq κ] (hcmp : Reflects cmp S)
    (hm : Keyed S m) (hk : S k) (hk' : S k') :
    (m.remove cmp k).get cmp k' = if k' = k then none else m.get cmp k' := by
  apply Option.ext
  intro v
  rw [get_eq_some_iff hcmp hm.remove hk', mem_remove hcmp hm hk]
  split_ifs with hkk
  · simp [hkk]
  · rw [get_eq_some_iff hcmp hm hk']
    simp [hkk]

/-! ### Lookups on keys that may tie -/

/-- On `S`, comparing equal is an equivalence, though different keys may compare equal. -/
structure Ties (cmp : κ → κ → Ordering) (S : κ → Prop) : Prop where
  refl : ∀ {a}, S a → cmp a a = .eq
  symm : ∀ {a b}, S a → S b → cmp a b = .eq → cmp b a = .eq
  trans : ∀ {a b c}, S a → S b → S c → cmp a b = .eq → cmp b c = .eq → cmp a c = .eq

section Ties

variable {m : BTreeMap κ ν} {k k' : κ} {f : ν → ν} (hcmp : Ties cmp S)
include hcmp

theorem Ties.congr {a : κ} (ha : S a) (hk : S k) (hk' : S k') (h : cmp k' k = .eq) :
    cmp k' a = .eq ↔ cmp k a = .eq :=
  ⟨hcmp.trans hk hk' ha (hcmp.symm hk' hk h), hcmp.trans hk' hk ha h⟩

/-- Keys that tie find the same. -/
theorem get_of_tie (hm : ∀ e ∈ m.entries, S e.1) (hk : S k) (hk' : S k') (h : cmp k' k = .eq) :
    m.get cmp k' = m.get cmp k := by
  rw [get, get]
  congr 1
  apply List.find?_congr
  intro e he
  rw [Bool.eq_iff_iff, beq_iff_eq, beq_iff_eq]
  exact hcmp.congr (hm e he) hk hk' h

theorem find?_insertSorted {v : ν} {es : List (κ × ν)} (hes : ∀ e ∈ es, S e.1) (hk : S k) (hk' : S k')
    (hnew : ∀ e ∈ es, cmp k e.1 ≠ .eq) :
    ((insertSorted cmp k v es).find? fun e => cmp k' e.1 == .eq).map Prod.snd =
      if cmp k' k = .eq then some v else (es.find? fun e => cmp k' e.1 == .eq).map Prod.snd := by
  induction es with
  | nil => by_cases h : cmp k' k = .eq <;> simp [insertSorted, h]
  | cons e es ih =>
      obtain ⟨he, hes⟩ := List.forall_mem_cons.mp hes
      obtain ⟨hne, hnew⟩ := List.forall_mem_cons.mp hnew
      rw [insertSorted]
      split_ifs with hlt htie htie
      · rw [List.find?_cons, htie]
        rfl
      · rw [List.find?_cons, beq_eq_false_iff_ne.mpr htie]
      · have hpast : cmp k' e.1 ≠ .eq := fun h => hne ((hcmp.congr he hk hk' htie).mp h)
        rw [List.find?_cons, beq_eq_false_iff_ne.mpr hpast, ih hes hnew, if_pos htie]
      · rw [List.find?_cons, List.find?_cons]
        cases cmp k' e.1 == .eq with
        | true => rfl
        | false => rw [ih hes hnew, if_neg htie]

theorem find?_modifyAt {es : List (κ × ν)} (hes : ∀ e ∈ es, S e.1) (hk : S k) (hk' : S k') :
    ((modifyAt cmp k f es).find? fun e => cmp k' e.1 == .eq).map Prod.snd =
      if cmp k' k = .eq then ((es.find? fun e => cmp k' e.1 == .eq).map Prod.snd).map f
      else (es.find? fun e => cmp k' e.1 == .eq).map Prod.snd := by
  induction es with
  | nil => simp [modifyAt]
  | cons e es ih =>
      obtain ⟨he, hes⟩ := List.forall_mem_cons.mp hes
      rw [modifyAt, List.find?_cons]
      by_cases htie : cmp k' k = .eq
      · have hboth := hcmp.congr he hk hk' htie
        rw [if_pos htie]
        split_ifs with hke
        · rw [List.find?_cons, hboth.mpr hke]
          rfl
        · have hpast : cmp k' e.1 ≠ .eq := fun h => hke (hboth.mp h)
          rw [List.find?_cons, beq_eq_false_iff_ne.mpr hpast, ih hes, if_pos htie]
      · rw [if_neg htie]
        split_ifs with hke
        · have hpast : cmp k' e.1 ≠ .eq := fun h =>
            htie (hcmp.trans hk' he hk h (hcmp.symm hk he hke))
          rw [List.find?_cons, beq_eq_false_iff_ne.mpr hpast]
        · rw [List.find?_cons]
          cases cmp k' e.1 == .eq with
          | true => rfl
          | false => rw [ih hes, if_neg htie]

theorem get_upsert_of_ties {d : ν} (hm : ∀ e ∈ m.entries, S e.1) (hk : S k) (hk' : S k') :
    (m.upsert cmp k d f).get cmp k' =
      if cmp k' k = .eq then some (f ((m.get cmp k).getD d)) else m.get cmp k' := by
  rw [upsert]
  split_ifs with hin htie htie
  · obtain ⟨v, hv⟩ := Option.isSome_iff_exists.mp hin
    rw [get, find?_modifyAt hcmp hm hk hk', if_pos htie, ← get, get_of_tie hcmp hm hk hk' htie, hv]
    rfl
  · rw [get, find?_modifyAt hcmp hm hk hk', if_neg htie, ← get]
  all_goals
    have hnew : ∀ e ∈ m.entries, cmp k e.1 ≠ .eq := by
      rw [get, Option.isSome_map, List.find?_isSome] at hin
      exact fun e he htie => hin ⟨e, he, beq_iff_eq.mpr htie⟩
    rw [get, find?_insertSorted hcmp hm hk hk' hnew]
  · have hnone : m.get cmp k = none := Option.not_isSome_iff_eq_none.mp hin
    rw [if_pos htie, hnone]
    rfl
  · rw [if_neg htie, ← get]

end Ties

theorem upsert_keys {m : BTreeMap κ ν} {k : κ} {d : ν} {f : ν → ν} (hm : ∀ e ∈ m.entries, S e.1)
    (hk : S k) : ∀ e ∈ (m.upsert cmp k d f).entries, S e.1 := by
  intro e he
  rw [upsert] at he
  split_ifs at he with hin
  · have hkey : e.1 ∈ m.entries.map Prod.fst := by
      rw [← map_fst_modifyAt]
      exact List.mem_map_of_mem he
    obtain ⟨e', he', heq⟩ := List.mem_map.mp hkey
    exact heq ▸ hm e' he'
  · obtain rfl | he := mem_insertSorted.mp he
    · exact hk
    · exact hm e he

end BTreeMap
