import Skvs.Lib.Text
import Mathlib.Data.List.Infix
import Mathlib.Algebra.BigOperators.Group.List.Basic

/-!
# Searching and slicing texts

An offset that a search returns is the byte length of a part of the text before the match. A slice
exists exactly if its ends are in order and on boundaries of characters.
-/

namespace Text

@[simp]
theorem byteLength_nil : byteLength [] = 0 := rfl

theorem byteLength_append (a b : List Char) : byteLength (a ++ b) = byteLength a + byteLength b := by
  rw [byteLength, List.map_append, List.sum_append, byteLength, byteLength]

theorem byteLength_cons (c : Char) (cs : List Char) :
    byteLength (c :: cs) = c.utf8Size + byteLength cs := by
  rw [byteLength, List.map_cons, List.sum_cons, byteLength]

theorem byteLength_eq_zero {cs : List Char} : byteLength cs = 0 ↔ cs = [] := by
  cases cs with
  | nil => simp
  | cons c cs =>
      have hpos := c.utf8Size_pos
      rw [byteLength_cons]
      simp
      omega

theorem length_le_byteLength (cs : List Char) : cs.length ≤ byteLength cs := by
  induction cs with
  | nil => rfl
  | cons c cs ih =>
      have hpos := c.utf8Size_pos
      rw [byteLength_cons, List.length_cons]
      omega

theorem splitAtByte_append (a b : List Char) : splitAtByte (byteLength a) (a ++ b) = some (a, b) := by
  induction a with
  | nil => rw [byteLength_nil, splitAtByte, List.nil_append]
  | cons c a ih =>
      obtain ⟨n, hn⟩ := Nat.exists_eq_add_of_lt c.utf8Size_pos
      rw [byteLength_cons, List.cons_append, show c.utf8Size + byteLength a = n + byteLength a + 1 by omega,
        splitAtByte, if_pos (by omega), show n + byteLength a + 1 - c.utf8Size = byteLength a by omega, ih]
      rfl

theorem eq_append_of_splitAtByte {n : Nat} {cs a b : List Char} (h : splitAtByte n cs = some (a, b)) :
    cs = a ++ b ∧ byteLength a = n := by
  induction cs generalizing n a b with
  | nil =>
      cases n with
      | zero =>
          cases h
          exact ⟨rfl, rfl⟩
      | succ n => exact nomatch h
  | cons c cs ih =>
      cases n with
      | zero =>
          cases h
          exact ⟨rfl, rfl⟩
      | succ n =>
          rw [splitAtByte, Option.ite_none_right_eq_some] at h
          obtain ⟨hle, h⟩ := h
          obtain ⟨⟨a', b'⟩, hsplit, heq⟩ := Option.map_eq_some_iff.mp h
          cases heq
          obtain ⟨rfl, hlen⟩ := ih hsplit
          refine ⟨rfl, ?_⟩
          rw [byteLength_cons, hlen]
          omega

/-- A character begins, or the text ends, this many bytes in. -/
def IsBoundary (cs : List Char) (n : Nat) : Prop := ∃ a b, cs = a ++ b ∧ byteLength a = n

theorem byteLength_take_of_sizes {cs a b : List Char}
    (h : cs.map Char.utf8Size = (a ++ b).map Char.utf8Size) : byteLength (cs.take a.length) = byteLength a := by
  rw [byteLength, byteLength, List.map_take, h, List.map_append, List.take_left' (List.length_map _)]

/-- Two texts whose characters have the same sizes have the same boundaries. -/
theorem IsBoundary.of_sizes {cs ds : List Char} {n : Nat}
    (h : cs.map Char.utf8Size = ds.map Char.utf8Size) (hds : IsBoundary ds n) : IsBoundary cs n := by
  obtain ⟨a, b, rfl, rfl⟩ := hds
  exact ⟨cs.take a.length, cs.drop a.length, (List.take_append_drop ..).symm, byteLength_take_of_sizes h⟩

theorem byteLength_of_sizes {cs ds : List Char} (h : cs.map Char.utf8Size = ds.map Char.utf8Size) :
    byteLength cs = byteLength ds := congrArg List.sum h

theorem sliceFrom_append (a b : List Char) : sliceFrom (a ++ b) (byteLength a) = some b := by
  rw [sliceFrom, splitAtByte_append, Option.map_some]

theorem isSome_sliceFrom {cs : List Char} {n : Nat} : (sliceFrom cs n).isSome = true ↔ IsBoundary cs n := by
  rw [sliceFrom, Option.isSome_map, Option.isSome_iff_exists]
  constructor
  · rintro ⟨⟨a, b⟩, h⟩
    exact ⟨a, b, eq_append_of_splitAtByte h⟩
  · rintro ⟨a, b, rfl, rfl⟩
    exact ⟨_, splitAtByte_append a b⟩

theorem slice_append (a b c : List Char) :
    slice (a ++ b ++ c) (byteLength a) (byteLength (a ++ b)) = some b := by
  rw [slice, byteLength_append, if_pos (Nat.le_add_right _ _), List.append_assoc, sliceFrom_append,
    Option.bind_some, Nat.add_sub_cancel_left, splitAtByte_append, Option.map_some]

theorem isSome_slice {cs : List Char} {i j : Nat} :
    (slice cs i j).isSome = true ↔ i ≤ j ∧ IsBoundary cs i ∧ IsBoundary cs j := by
  constructor
  · intro h
    obtain ⟨m, hm⟩ := Option.isSome_iff_exists.mp h
    rw [slice, Option.ite_none_right_eq_some] at hm
    obtain ⟨hle, hm⟩ := hm
    obtain ⟨rest, hrest, hm⟩ := Option.bind_eq_some_iff.mp hm
    obtain ⟨⟨a, rest'⟩, hfrom, rfl⟩ := Option.map_eq_some_iff.mp hrest
    obtain ⟨⟨m', b⟩, hto, rfl⟩ := Option.map_eq_some_iff.mp hm
    obtain ⟨rfl, rfl⟩ := eq_append_of_splitAtByte hfrom
    obtain ⟨heq, hlen⟩ := eq_append_of_splitAtByte hto
    simp only at heq
    subst heq
    refine ⟨hle, ⟨a, _, rfl, rfl⟩, ⟨a ++ m', b, (List.append_assoc ..).symm, ?_⟩⟩
    rw [byteLength_append, hlen]
    omega
  · rintro ⟨hle, ⟨a, rest, rfl, rfl⟩, a', b, heq, rfl⟩
    rcases List.append_eq_append_iff.mp heq with ⟨m, rfl, rfl⟩ | ⟨m, rfl, rfl⟩
    · rw [← List.append_assoc, slice_append]
      rfl
    · -- the other end lies before this one only if the two are the same
      rw [byteLength_append] at hle
      obtain rfl := byteLength_eq_zero.mp (by omega : byteLength m = 0)
      have hempty := slice_append a' [] rest
      simp only [List.append_nil] at hempty
      rw [List.append_nil, hempty]
      rfl

/-! ### The first and the last match -/

/-- A match in a text with one more character is at its front, or one in the text without it. -/
theorem cons_eq_append_iff {pat a b cs : List Char} {c : Char} :
    c :: cs = a ++ pat ++ b ↔
      a = [] ∧ c :: cs = pat ++ b ∨ ∃ a', a = c :: a' ∧ cs = a' ++ pat ++ b := by
  cases a with
  | nil => simp
  | cons d a =>
      simp only [List.cons_append, List.cons.injEq, reduceCtorEq, false_and, false_or]
      constructor
      · rintro ⟨rfl, rfl⟩
        exact ⟨a, ⟨rfl, rfl⟩, rfl⟩
      · rintro ⟨a', ⟨rfl, rfl⟩, rfl⟩
        exact ⟨rfl, rfl⟩

/-- A search finds the first match. -/
theorem find_eq_some {pat cs : List Char} {n : Nat} (h : find pat cs = some n) :
    ∃ a b, cs = a ++ pat ++ b ∧ byteLength a = n ∧
      ∀ a' b', cs = a' ++ pat ++ b' → a.length ≤ a'.length := by
  induction cs generalizing n with
  | nil =>
      rw [find, Option.ite_none_right_eq_some, List.isEmpty_iff] at h
      obtain ⟨rfl, h⟩ := h
      cases h
      exact ⟨[], [], rfl, rfl, fun _ _ _ => Nat.zero_le _⟩
  | cons c cs ih =>
      rw [find] at h
      split_ifs at h with hstarts
      · cases h
        obtain ⟨b, hb⟩ := List.isPrefixOf_iff_prefix.mp hstarts
        exact ⟨[], b, hb.symm, rfl, fun _ _ _ => Nat.zero_le _⟩
      · obtain ⟨m, hm, rfl⟩ := Option.map_eq_some_iff.mp h
        obtain ⟨a, b, rfl, rfl, hfirst⟩ := ih hm
        refine ⟨c :: a, b, rfl, byteLength_cons c a, fun a' b' heq => ?_⟩
        rcases cons_eq_append_iff.mp heq with ⟨-, hpre⟩ | ⟨a'', rfl, hrest⟩
        · exact absurd (List.isPrefixOf_iff_prefix.mpr ⟨b', hpre.symm⟩) hstarts
        · exact Nat.succ_le_succ (hfirst a'' b' hrest)

theorem find_eq_none {pat cs : List Char} : find pat cs = none ↔ ¬pat <:+: cs := by
  induction cs with
  | nil =>
      rw [find]
      cases pat <;> simp
  | cons c cs ih =>
      rw [find, List.infix_cons_iff, ← List.isPrefixOf_iff_prefix]
      split_ifs with hstarts <;> simp [hstarts, ih]

theorem find_of_first {pat a b : List Char}
    (hfirst : ∀ a' b', a ++ pat ++ b = a' ++ pat ++ b' → a.length ≤ a'.length) :
    find pat (a ++ pat ++ b) = some (byteLength a) := by
  cases h : find pat (a ++ pat ++ b) with
  | none => exact absurd ⟨a, b, rfl⟩ (find_eq_none.mp h)
  | some n =>
      obtain ⟨a', b', heq, rfl, hfirst'⟩ := find_eq_some h
      have hlen := Nat.le_antisymm (hfirst a' b' heq) (hfirst' a b rfl)
      rw [List.append_assoc, List.append_assoc] at heq
      rw [(List.append_inj heq hlen).1]

/-- A search from the end finds the last match. -/
theorem rfind_eq_some {pat cs : List Char} {n : Nat} (h : rfind pat cs = some n) :
    ∃ a b, cs = a ++ pat ++ b ∧ byteLength a = n := by
  induction cs generalizing n with
  | nil =>
      rw [rfind, Option.ite_none_right_eq_some, List.isEmpty_iff] at h
      obtain ⟨rfl, h⟩ := h
      cases h
      exact ⟨[], [], rfl, rfl⟩
  | cons c cs ih =>
      rw [rfind] at h
      cases hrest : rfind pat cs with
      | some m =>
          rw [hrest] at h
          cases h
          obtain ⟨a, b, rfl, rfl⟩ := ih hrest
          exact ⟨c :: a, b, rfl, byteLength_cons c a⟩
      | none =>
          simp only [hrest, Option.ite_none_right_eq_some] at h
          obtain ⟨hstarts, h⟩ := h
          cases h
          obtain ⟨b, hb⟩ := List.isPrefixOf_iff_prefix.mp hstarts
          exact ⟨[], b, hb.symm, rfl⟩

theorem rfind_append {pat : List Char} (hne : pat ≠ []) (a : List Char) :
    rfind pat (a ++ pat) = some (byteLength a) := by
  have hshort : ∀ cs : List Char, cs.length < pat.length → rfind pat cs = none := by
    intro cs
    induction cs with
    | nil =>
        intro _
        rw [rfind, if_neg (by simpa using hne)]
    | cons c cs ih =>
        intro hlen
        rw [List.length_cons] at hlen
        have hstarts : ¬pat.isPrefixOf (c :: cs) = true := by
          intro hpre
          have hle := (List.isPrefixOf_iff_prefix.mp hpre).length_le
          rw [List.length_cons] at hle
          omega
        simp only [rfind, ih (by omega), if_neg hstarts]
  induction a with
  | nil =>
      obtain ⟨c, cs, rfl⟩ := List.exists_cons_of_ne_nil hne
      simp [rfind, hshort cs (by simp)]
  | cons c a ih => simp [rfind, ih, byteLength_cons]

end Text
