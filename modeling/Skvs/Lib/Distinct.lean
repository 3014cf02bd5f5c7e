import Mathlib.Data.List.Nodup
import Mathlib.Data.List.Pairwise
import Mathlib.Data.List.TakeDrop

/-!
# The first element of each key

Going through a list once, with the set of the keys seen so far, keeps the first element of each key.
Of the window of a list it keeps what a window of the kept elements holds only where the window does
not cut between elements of one key.
-/

universe u v w

namespace Distinct

variable {α : Type u} {κ : Type v} [DecidableEq κ] (key : α → κ)

def firsts : List κ → List α → List α
  | _, [] => []
  | seen, a :: l => if key a ∈ seen then firsts seen l else a :: firsts (key a :: seen) l

variable {key}

theorem firsts_sublist (seen : List κ) (l : List α) : (firsts key seen l).Sublist l := by
  induction l generalizing seen with
  | nil => exact .refl []
  | cons a l ih =>
      rw [firsts]
      split_ifs
      · exact (ih seen).cons a
      · exact (ih _).cons_cons a

theorem key_not_mem_seen {seen : List κ} {l : List α} {a : α} (ha : a ∈ firsts key seen l) :
    key a ∉ seen := by
  induction l generalizing seen with
  | nil => exact absurd ha List.not_mem_nil
  | cons b l ih =>
      rw [firsts] at ha
      split_ifs at ha with hb
      · exact ih ha
      · rcases List.mem_cons.mp ha with rfl | hmem
        · exact hb
        · exact fun hseen => ih hmem (List.mem_cons_of_mem _ hseen)

/-- Every key that was not seen before is kept. -/
theorem mem_keys_firsts {seen : List κ} {l : List α} {a : α} (ha : a ∈ l) (hseen : key a ∉ seen) :
    ∃ b ∈ firsts key seen l, key b = key a := by
  induction l generalizing seen with
  | nil => exact absurd ha List.not_mem_nil
  | cons b l ih =>
      rw [firsts]
      by_cases hb : key b = key a
      · rw [if_neg (hb ▸ hseen)]
        exact ⟨b, List.mem_cons_self, hb⟩
      · have ha : a ∈ l := (List.mem_cons.mp ha).resolve_left fun heq => hb (heq ▸ rfl)
        split_ifs
        · exact ih ha hseen
        · have hnew : key a ∉ key b :: seen := List.not_mem_cons_of_ne_of_not_mem (Ne.symm hb) hseen
          obtain ⟨c, hc, hkey⟩ := ih ha hnew
          exact ⟨c, List.mem_cons_of_mem b hc, hkey⟩

theorem firsts_nodup (seen : List κ) (l : List α) : ((firsts key seen l).map key).Nodup := by
  induction l generalizing seen with
  | nil => exact List.nodup_nil
  | cons a l ih =>
      rw [firsts]
      split_ifs
      · exact ih seen
      · rw [List.map_cons, List.nodup_cons]
        refine ⟨fun hmem => ?_, ih _⟩
        obtain ⟨b, hb, hkey⟩ := List.mem_map.mp hmem
        exact key_not_mem_seen hb (hkey ▸ List.mem_cons_self)

theorem firsts_congr {seen seen' : List κ} {l : List α}
    (h : ∀ a ∈ l, key a ∈ seen ↔ key a ∈ seen') : firsts key seen l = firsts key seen' l := by
  induction l generalizing seen seen' with
  | nil => rfl
  | cons a l ih =>
      rw [List.forall_mem_cons] at h
      have hcons : ∀ b ∈ l, key b ∈ key a :: seen ↔ key b ∈ key a :: seen' := fun b hb => by
        rw [List.mem_cons, List.mem_cons, h.2 b hb]
      rw [firsts, firsts, ih h.2, ih hcons]
      exact if_congr h.1 rfl rfl

theorem firsts_append (seen : List κ) (l l' : List α) :
    firsts key seen (l ++ l') = firsts key seen l ++ firsts key (l.map key ++ seen) l' := by
  induction l generalizing seen with
  | nil => rfl
  | cons a l ih =>
      rw [List.cons_append, firsts, firsts]
      split_ifs with ha
      · rw [ih]
        refine congrArg _ (firsts_congr fun b _ => ?_)
        simp only [List.map_cons, List.cons_append, List.mem_cons, List.mem_append]
        exact ⟨.inr, fun h => h.elim (fun heq => .inr (heq ▸ ha)) id⟩
      · rw [ih, List.cons_append]
        refine congrArg (fun rest => a :: (firsts key (key a :: seen) l ++ rest)) (firsts_congr fun b _ => ?_)
        simp only [List.map_cons, List.cons_append, List.mem_cons, List.mem_append]
        tauto

theorem firsts_eq_self {seen : List κ} {l : List α} (hnodup : (l.map key).Nodup)
    (hseen : ∀ a ∈ l, key a ∉ seen) : firsts key seen l = l := by
  induction l generalizing seen with
  | nil => rfl
  | cons a l ih =>
      rw [List.map_cons, List.nodup_cons] at hnodup
      rw [List.forall_mem_cons] at hseen
      rw [firsts, if_neg hseen.1, ih hnodup.2]
      intro b hb hmem
      rcases List.mem_cons.mp hmem with heq | hmem
      · exact hnodup.1 (heq ▸ List.mem_map_of_mem hb)
      · exact hseen.2 b hb hmem

theorem firsts_eq_self_iff {l : List α} : firsts key [] l = l ↔ (l.map key).Nodup :=
  ⟨fun h => h ▸ firsts_nodup [] l, fun h => firsts_eq_self h fun _ _ => List.not_mem_nil⟩

theorem firsts_eq_nil_iff {seen : List κ} {l : List α} :
    firsts key seen l = [] ↔ ∀ a ∈ l, key a ∈ seen := by
  constructor
  · intro h a ha
    by_contra hnew
    obtain ⟨b, hb, -⟩ := mem_keys_firsts ha hnew
    exact List.not_mem_nil (h ▸ hb)
  · intro h
    refine List.eq_nil_iff_forall_not_mem.mpr fun a ha => ?_
    exact key_not_mem_seen ha (h a ((firsts_sublist seen l).subset ha))

/-! ### Representatives -/

/-- The kept elements are pairwise unrelated and stand for all, each for those it is related to. -/
structure Represents (r : α → α → Prop) (kept all : List α) : Prop where
  apart : kept.Pairwise fun a b => ¬r a b
  among : ∀ a ∈ kept, ∃ b ∈ all, r a b
  covers : ∀ b ∈ all, ∃ a ∈ kept, r a b

variable {r : α → α → Prop} {l : List α}

theorem firsts_represents (hrefl : ∀ a, r a a)
    (hkey : ∀ a ∈ l, ∀ b ∈ l, key a = key b ↔ r a b) : Represents r (firsts key [] l) l where
  apart := by
    have hnodup : ((firsts key [] l).map key).Nodup := firsts_nodup [] l
    have hkeys := List.pairwise_map.mp hnodup
    have hmem : firsts key [] l ⊆ l := (firsts_sublist [] l).subset
    refine hkeys.imp_of_mem fun ha hb hne hr => hne ?_
    exact (hkey _ (hmem ha) _ (hmem hb)).mpr hr
  among := fun a ha => ⟨a, (firsts_sublist [] l).subset ha, hrefl a⟩
  covers := fun b hb => by
    obtain ⟨a, ha, hab⟩ : ∃ a ∈ firsts key [] l, key a = key b :=
      mem_keys_firsts hb List.not_mem_nil
    exact ⟨a, ha, (hkey a ((firsts_sublist [] l).subset ha) b hb).mp hab⟩

/-- Keys that tell all elements apart keep every element, so related ones are not told from equal. -/
theorem eq_of_represents (hsymm : ∀ a b, r a b → r b a)
    (hkey : ∀ a ∈ l, ∀ b ∈ l, key a = key b → a = b) (h : Represents r (firsts key [] l) l) {a b : α}
    (ha : a ∈ l) (hb : b ∈ l) (hr : r a b) : a = b := by
  have hkept : ∀ c ∈ l, c ∈ firsts key [] l := by
    intro c hc
    obtain ⟨d, hd, hdc⟩ : ∃ d ∈ firsts key [] l, key d = key c :=
      mem_keys_firsts hc List.not_mem_nil
    exact hkey d ((firsts_sublist [] l).subset hd) c hc hdc ▸ hd
  have hsym : Std.Symm fun a b => ¬r a b := ⟨fun _ _ hnot hr => hnot (hsymm _ _ hr)⟩
  by_contra hne
  exact h.apart.forall (hkept a ha) (hkept b hb) hne hr

theorem represents_map_iff {β : Type w} {s : β → β → Prop} {f : α → β} {kept all : List α} :
    Represents s (kept.map f) (all.map f) ↔ Represents (fun a b => s (f a) (f b)) kept all := by
  constructor
  · rintro ⟨hapart, hamong, hcovers⟩
    simp only [List.mem_map, forall_exists_index, and_imp, forall_apply_eq_imp_iff₂,
      exists_exists_and_eq_and] at hamong hcovers
    exact ⟨List.pairwise_map.mp hapart, hamong, hcovers⟩
  · rintro ⟨hapart, hamong, hcovers⟩
    refine ⟨List.pairwise_map.mpr hapart, ?_, ?_⟩
    · simpa only [List.mem_map, forall_exists_index, and_imp, forall_apply_eq_imp_iff₂,
      exists_exists_and_eq_and] using hamong
    · simpa only [List.mem_map, forall_exists_index, and_imp, forall_apply_eq_imp_iff₂,
      exists_exists_and_eq_and] using hcovers

/-! ### Windows -/

section Window

variable (key) in
/-- The window does not cut between elements of one key: it is empty, or all elements up to its end
are distinct, or those before it are, none of them recurs in it, and nothing new comes after it. -/
def WindowDistinct (m n : Nat) (l : List α) : Prop :=
  n = 0 ∨ l.length ≤ m ∨ ((l.take (m + n)).map key).Nodup ∨
    ((l.take m).map key).Nodup ∧
      (∀ a ∈ (l.drop m).take n, key a ∉ (l.take m).map key) ∧
      ∀ a ∈ l.drop (m + n), key a ∈ (l.take (m + n)).map key

variable {m n : Nat}

/-- Behind its first place, the kept elements do not hold the head of the list. -/
theorem head_not_mem_drop_firsts {seen : List κ} {a : α} {k : Nat} (hk : 0 < k) :
    a ∉ (firsts key seen (a :: l)).drop k := by
  obtain ⟨k, rfl⟩ := Nat.exists_eq_add_one_of_ne_zero (Nat.ne_of_gt hk)
  rw [firsts]
  split_ifs with ha
  · exact fun hmem => key_not_mem_seen (List.mem_of_mem_drop hmem) ha
  · rw [List.drop_succ_cons]
    exact fun hmem => key_not_mem_seen (List.mem_of_mem_drop hmem) List.mem_cons_self

/-- The element at which the window starts is only at its place among the kept ones where all before
it are kept. -/
theorem take_nodup_of_head_mem {a : α} {rest : List α} (hdrop : l.drop m = a :: rest)
    (ha : a ∈ (firsts key [] l).drop m) : ((l.take m).map key).Nodup := by
  rw [← List.take_append_drop m l, firsts_append, List.append_nil, List.drop_append, hdrop] at ha
  have hkept : (firsts key [] (l.take m)).length ≤ m :=
    Nat.le_trans (firsts_sublist _ _).length_le (List.length_take_le m l)
  rw [List.drop_eq_nil_of_le hkept, List.nil_append] at ha
  have hlength : m ≤ (firsts key [] (l.take m)).length := by
    by_contra hshort
    exact head_not_mem_drop_firsts (Nat.sub_pos_of_lt (Nat.lt_of_not_le hshort)) ha
  refine firsts_eq_self_iff.mp ((firsts_sublist _ _).eq_of_length_le ?_)
  exact Nat.le_trans (List.length_take_le m l) hlength

/-- The window of the kept elements, where all before it are kept. -/
theorem window_of_take_nodup (hnodup : ((l.take m).map key).Nodup) :
    ((firsts key [] l).drop m).take n =
      (firsts key ((l.take m).map key) ((l.drop m).take n) ++
        firsts key (((l.drop m).take n).map key ++ (l.take m).map key) (l.drop (m + n))).take n := by
  have hsplit : l = l.take m ++ ((l.drop m).take n ++ l.drop (m + n)) := by
    rw [← List.drop_drop, List.take_append_drop, List.take_append_drop]
  have hfirsts : firsts key [] l = l.take m ++ (firsts key ((l.take m).map key)
      ((l.drop m).take n) ++ firsts key (((l.drop m).take n).map key ++ (l.take m).map key)
        (l.drop (m + n))) := by
    conv_lhs => rw [hsplit]
    rw [firsts_append, firsts_append, firsts_eq_self_iff.mpr hnodup, List.append_nil]
  rcases Nat.le_total m l.length with hlength | hlength
  · rw [hfirsts, List.drop_left' (List.length_take_of_le hlength)]
  · have hkept : (firsts key [] l).length ≤ m :=
      Nat.le_trans (firsts_sublist [] l).length_le hlength
    have hend : l.drop (m + n) = [] := List.drop_eq_nil_of_le (by omega)
    simp only [List.drop_eq_nil_of_le hkept, List.drop_eq_nil_of_le hlength, hend, List.take_nil,
      firsts, List.append_nil]

theorem firsts_window_iff : firsts key [] ((l.drop m).take n) = ((firsts key [] l).drop m).take n ↔
    WindowDistinct key m n l := by
  have hshort : (firsts key [] ((l.drop m).take n)).length ≤ n :=
    Nat.le_trans (firsts_sublist _ _).length_le (List.length_take_le n _)
  have happart : (∀ a ∈ (l.drop m).take n, key a ∉ (l.take m).map key) →
      firsts key ((l.take m).map key) ((l.drop m).take n) =
        firsts key [] ((l.drop m).take n) := fun h =>
    firsts_congr fun a ha => iff_of_false (h a ha) List.not_mem_nil
  constructor
  · intro h
    refine or_iff_not_imp_left.mpr fun hn => or_iff_not_imp_left.mpr fun hm => ?_
    have hlength : m < l.length := Nat.lt_of_not_le hm
    obtain ⟨n, rfl⟩ := Nat.exists_eq_add_one_of_ne_zero hn
    have hhead : l[m] ∈ (firsts key [] l).drop m := by
      refine List.mem_of_mem_take (i := n + 1) (h ▸ ?_)
      rw [List.drop_eq_getElem_cons hlength, List.take_succ_cons, firsts,
        if_neg List.not_mem_nil]
      exact List.mem_cons_self
    have hbefore := take_nodup_of_head_mem (List.drop_eq_getElem_cons hlength) hhead
    rw [window_of_take_nodup hbefore] at h
    have hnew : ∀ a ∈ (l.drop m).take (n + 1), key a ∉ (l.take m).map key := by
      intro a ha
      obtain ⟨b, hb, hkey⟩ : ∃ b ∈ firsts key [] ((l.drop m).take (n + 1)), key b = key a :=
        mem_keys_firsts ha List.not_mem_nil
      rw [h] at hb
      rcases List.mem_append.mp (List.mem_of_mem_take hb) with hb | hb
      · exact hkey ▸ key_not_mem_seen hb
      · exact hkey ▸ fun hmem => key_not_mem_seen hb (List.mem_append_right _ hmem)
    rw [happart hnew, List.take_append, List.take_of_length_le hshort] at h
    have hrest := List.append_cancel_left ((List.append_nil _).trans h)
    rcases List.take_eq_nil_iff.mp hrest.symm with hfull | hold
    · left
      have hwindow : firsts key [] ((l.drop m).take (n + 1)) = (l.drop m).take (n + 1) := by
        have htake := List.length_take_le (n + 1) (l.drop m)
        exact (firsts_sublist _ _).eq_of_length_le (by omega)
      rw [List.take_add, List.map_append, List.nodup_append']
      refine ⟨hbefore, firsts_eq_self_iff.mp hwindow, fun k hk hk' => ?_⟩
      obtain ⟨a, ha, rfl⟩ := List.mem_map.mp hk'
      exact hnew a ha hk
    · right
      refine ⟨hbefore, hnew, fun a ha => ?_⟩
      rw [List.take_add, List.map_append]
      exact List.mem_append.mpr ((List.mem_append.mp (firsts_eq_nil_iff.mp hold a ha)).symm)
  · rintro (rfl | hm | hnodup | ⟨hbefore, hnew, hold⟩)
    · rw [List.take_zero, List.take_zero, firsts]
    · have hkept : (firsts key [] l).length ≤ m :=
        Nat.le_trans (firsts_sublist [] l).length_le hm
      rw [List.drop_eq_nil_of_le hm, List.drop_eq_nil_of_le hkept, List.take_nil, firsts]
    · rw [List.take_add, List.map_append, List.nodup_append'] at hnodup
      obtain ⟨hbefore, hwindow, hdisjoint⟩ := hnodup
      have hnew : ∀ a ∈ (l.drop m).take n, key a ∉ (l.take m).map key :=
        fun a ha hmem => hdisjoint hmem (List.mem_map_of_mem ha)
      rw [window_of_take_nodup hbefore, happart hnew,
        firsts_eq_self_iff.mpr hwindow]
      by_cases hfull : ((l.drop m).take n).length = n
      · exact (List.take_left' hfull).symm
      · have hend : l.drop (m + n) = [] := by
          rw [List.length_take, List.length_drop] at hfull
          exact List.drop_eq_nil_of_le (by omega)
        rw [hend, firsts, List.append_nil, List.take_take, Nat.min_self]
    · have hend : firsts key (((l.drop m).take n).map key ++ (l.take m).map key)
          (l.drop (m + n)) = [] := by
        refine firsts_eq_nil_iff.mpr fun a ha => ?_
        have hmem := hold a ha
        rw [List.take_add, List.map_append] at hmem
        exact List.mem_append.mpr (List.mem_append.mp hmem).symm
      rw [window_of_take_nodup hbefore, happart hnew, hend, List.append_nil,
        List.take_of_length_le hshort]

end Window

end Distinct
