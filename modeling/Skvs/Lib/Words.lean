import Skvs.Lib.TextSearch
import Mathlib.Data.List.TakeWhile

/-!
# Words of a text

The words are the maximal runs of characters that satisfy a predicate; what is between them are gaps.
A word that stands only once in a text is found there and nowhere else.
-/

namespace Text

variable {p : Char → Bool} {a b w x y pat : List Char} {c : Char}

/-- A word: not empty, and without gaps. -/
structure IsWord (p : Char → Bool) (w : List Char) : Prop where
  nonempty : w ≠ []
  all : ∀ c ∈ w, p c = true

structure IsGap (p : Char → Bool) (s : List Char) : Prop where
  nonempty : s ≠ []
  all : ∀ c ∈ s, p c = false

/-- What `decide` finds by going through the characters of a text, and not through all characters. -/
theorem forall_mem_of_all {q : Char → Prop} [DecidablePred q] (h : w.all (fun c => decide (q c)) = true) :
    ∀ c ∈ w, q c := fun c hc => of_decide_eq_true (List.all_eq_true.mp h c hc)

/-! ### The words of a text with a gap in it -/

theorem runs_cons_of_gap (hc : p c = false) (cs : List Char) : runs p (c :: cs) = runs p cs := by
  simp [runs, hc]

theorem exists_runs_cons {d : Char} (hd : p d = true) (cs : List Char) :
    ∃ v vs, runs p (d :: cs) = v :: vs := by
  rw [runs.eq_def]
  cases cs with
  | nil => exact ⟨[d], [], by simp [hd, runs]⟩
  | cons e cs =>
      cases hruns : runs p (e :: cs) with
      | nil => exact ⟨[d], [], by simp only [hd, hruns, if_true]⟩
      | cons v vs =>
          simp only [hd, hruns, if_true]
          split_ifs <;> exact ⟨_, _, rfl⟩

/-- A character before a word belongs to it. -/
theorem runs_cons_cons {d : Char} (hc : p c = true) (hd : p d = true) (cs : List Char) :
    ∃ v vs, runs p (d :: cs) = v :: vs ∧ runs p (c :: d :: cs) = (c :: v) :: vs := by
  obtain ⟨v, vs, hruns⟩ := exists_runs_cons hd cs
  refine ⟨v, vs, hruns, ?_⟩
  rw [runs.eq_def]
  simp only [hc, hruns, hd, if_true]

/-- A character before a gap is a word. -/
theorem runs_cons_of_head (hc : p c = true) {cs : List Char} (h : ∀ d, cs.head? = some d → p d = false) :
    runs p (c :: cs) = [c] :: runs p cs := by
  rw [runs.eq_def]
  cases cs with
  | nil => simp [hc, runs]
  | cons d cs =>
      have hd : p d = false := h d rfl
      cases hruns : runs p (d :: cs) <;> simp [hc, hd, hruns]

/-- A gap separates the words before it from those after it. -/
theorem runs_append_cons (hc : p c = false) (a b : List Char) :
    runs p (a ++ c :: b) = runs p a ++ runs p b := by
  induction a with
  | nil => exact runs_cons_of_gap hc b
  | cons d a ih =>
      cases hd : p d with
      | false => rw [List.cons_append, runs_cons_of_gap hd, runs_cons_of_gap hd, ih]
      | true =>
          cases a with
          | nil =>
              rw [List.cons_append, List.nil_append, runs_cons_of_head hd (by simpa using hc), runs_cons_of_gap hc,
                runs_cons_of_head hd (by simp)]
              rfl
          | cons e a =>
              cases he : p e with
              | false =>
                  rw [List.cons_append, runs_cons_of_head hd (by simpa using he), ih,
                    runs_cons_of_head hd (by simpa using he), List.cons_append]
              | true =>
                  obtain ⟨v, vs, hv, hruns⟩ := runs_cons_cons hd he a
                  obtain ⟨v', vs', hv', hruns'⟩ := runs_cons_cons hd he (a ++ c :: b)
                  rw [List.cons_append, hv', hv, List.cons_append, List.cons.injEq] at ih
                  rw [List.cons_append, List.cons_append, hruns', hruns, ih.1, ih.2, List.cons_append]

theorem IsGap.runs_append {s : List Char} (hs : IsGap p s) (a b : List Char) :
    runs p (a ++ (s ++ b)) = runs p a ++ runs p b := by
  obtain ⟨hne, hall⟩ := hs
  induction s generalizing a with
  | nil => exact absurd rfl hne
  | cons c s ih =>
      rw [List.cons_append, runs_append_cons (hall c List.mem_cons_self)]
      by_cases hnil : s = []
      · rw [hnil, List.nil_append]
      · have hrest := ih [] hnil fun d hd => hall d (List.mem_cons_of_mem c hd)
        rw [List.nil_append] at hrest
        rw [hrest]
        rfl

theorem IsWord.runs_eq (h : IsWord p w) : runs p w = [w] := by
  obtain ⟨hne, hall⟩ := h
  induction w with
  | nil => exact absurd rfl hne
  | cons c w ih =>
      have hc := hall c List.mem_cons_self
      cases w with
      | nil => exact runs_cons_of_head hc (by simp)
      | cons d w =>
          have hrest := ih (by simp) fun e he => hall e (List.mem_cons_of_mem c he)
          obtain ⟨v, vs, hv, hruns⟩ := runs_cons_cons hc (hall d (by simp)) w
          rw [hrest, List.cons.injEq] at hv
          rw [hruns, ← hv.1, ← hv.2]

theorem runs_map {f : Char → Char} (hf : ∀ c, p (f c) = p c) (cs : List Char) :
    runs p (cs.map f) = (runs p cs).map (List.map f) := by
  induction cs with
  | nil => rfl
  | cons c cs ih =>
      cases hc : p c with
      | false => rw [List.map_cons, runs_cons_of_gap ((hf c).trans hc), runs_cons_of_gap hc, ih]
      | true =>
          cases cs with
          | nil => rw [List.map_cons, runs_cons_of_head ((hf c).trans hc) (by simp), runs_cons_of_head hc (by simp)]; rfl
          | cons d cs =>
              cases hd : p d with
              | false =>
                  rw [List.map_cons, runs_cons_of_head ((hf c).trans hc) (by simpa using (hf d).trans hd), ih,
                    runs_cons_of_head hc (by simpa using hd), List.map_cons]
                  rfl
              | true =>
                  obtain ⟨v, vs, hv, hruns⟩ := runs_cons_cons hc hd cs
                  obtain ⟨v', vs', hv', hruns'⟩ :=
                    runs_cons_cons ((hf c).trans hc) ((hf d).trans hd) (cs.map f)
                  rw [List.map_cons, hv', hv, List.map_cons, List.cons.injEq] at ih
                  rw [List.map_cons, List.map_cons, hruns', hruns, ih.1, ih.2]
                  rfl

/-! ### A word between two separators -/

theorem mem_runs_of_flanked {s s' : Char} (hs : p s = false) (hs' : p s' = false) (h : IsWord p w)
    (a b : List Char) : w ∈ runs p (a ++ s :: w ++ s' :: b) := by
  rw [runs_append_cons hs', runs_append_cons hs, h.runs_eq]
  simp

/-- The last character of a text is no part of a word. -/
def EndsInGap (p : Char → Bool) (x : List Char) : Prop := ∃ c ∈ x.getLast?, p c = false

theorem EndsInGap.of_append {m : List Char} (h : EndsInGap p (a ++ m)) (hm : m ≠ []) : EndsInGap p m := by
  obtain ⟨c, hc, hp⟩ := h
  rw [List.getLast?_append_of_ne_nil a hm] at hc
  exact ⟨c, hc, hp⟩

/-- What is at the end of a word does not end in a gap. -/
theorem IsWord.not_endsInGap {m m' : List Char} (h : IsWord p (m ++ m')) : ¬EndsInGap p m := by
  rintro ⟨c, hc, hp⟩
  have hmem : c ∈ m ++ m' := List.mem_append_left m' (List.mem_of_getLast? hc)
  rw [h.all c hmem] at hp
  exact nomatch hp

theorem IsWord.not_endsInGap_self (h : IsWord p w) : ¬EndsInGap p w := by
  rw [← List.append_nil w] at h
  exact h.not_endsInGap

/-- A word that stands only once in a text, with these separators around it or with others. -/
theorem flanked_unique {s : Char} (hs : p s = false) (hw : IsWord p w) (hx : EndsInGap p x)
    (hwx : w ∉ runs p x) (hwy : w ∉ runs p y) (h : x ++ (w ++ y) = a ++ [s] ++ (w ++ s :: b)) :
    x = a ++ [s] ∧ y = s :: b := by
  have hsep : EndsInGap p (a ++ [s]) := ⟨s, by simp, hs⟩
  rcases List.append_eq_append_iff.mp h with ⟨m, hxm, hm⟩ | ⟨m, rfl, hm⟩
  · rcases eq_or_ne m [] with rfl | hne
    · rw [List.append_nil] at hxm
      exact ⟨hxm.symm, by simpa using hm⟩
    -- the other word begins later, so it is in `y`
    have hends : EndsInGap p m := (hxm ▸ hsep).of_append hne
    exfalso
    rcases List.append_eq_append_iff.mp hm with ⟨m', rfl, rfl⟩ | ⟨m', rfl, -⟩
    · rcases List.eq_nil_or_concat m' with rfl | ⟨m'', c, rfl⟩
      · rw [List.append_nil] at hends
        exact hw.not_endsInGap_self hends
      · obtain ⟨c', hc', hp⟩ := hends
        simp at hc'
        subst hc'
        exact hwy (by simpa using mem_runs_of_flanked hp hs hw m'' b)
    · exact hw.not_endsInGap hends
  · rcases eq_or_ne m [] with rfl | hne
    · exact ⟨List.append_nil _, by simpa using hm.symm⟩
    -- the other word begins earlier, so it is in `x`
    have hends : EndsInGap p m := hx.of_append hne
    exfalso
    rcases List.append_eq_append_iff.mp hm with ⟨m', rfl, hm'⟩ | ⟨m', rfl, -⟩
    · cases m' with
      | nil =>
          rw [List.append_nil] at hends
          exact hw.not_endsInGap_self hends
      | cons c m' =>
          obtain rfl := (List.cons.inj hm').1
          exact hwx (by simpa using mem_runs_of_flanked hs hs hw a m')
    · exact hw.not_endsInGap hends

section

variable {s : Char}

theorem find_flanked (hs : p s = false) (hw : IsWord p w) (hwx : w ∉ runs p x) (hwy : w ∉ runs p y) :
    find (s :: w ++ [s]) (x ++ [s] ++ (w ++ s :: y)) = some (byteLength x) := by
  cases hfind : find (s :: w ++ [s]) (x ++ [s] ++ (w ++ s :: y)) with
  | none => exact absurd ⟨x, y, by simp⟩ (find_eq_none.mp hfind)
  | some n =>
      obtain ⟨a, b, heq, rfl, -⟩ := find_eq_some hfind
      have hends : EndsInGap p (x ++ [s]) := ⟨s, by simp, hs⟩
      have hsame : x ++ [s] ++ (w ++ s :: y) = a ++ [s] ++ (w ++ s :: b) := heq.trans (by simp)
      obtain ⟨hxa, -⟩ := flanked_unique hs hw hends (by simpa [runs_append_cons hs, runs] using hwx)
        (by rwa [runs_cons_of_gap hs]) hsame
      rw [List.append_cancel_right hxa]

theorem find_eq_none_of_not_mem_runs {cs : List Char} (hs : p s = false) (hw : IsWord p w)
    (h : w ∉ runs p cs) : find (s :: w ++ [s]) cs = none := by
  refine find_eq_none.mpr ?_
  rintro ⟨a, b, rfl⟩
  exact h (by simpa using mem_runs_of_flanked hs hs hw a b)

end

/-! ### A word anywhere -/

theorem infix_append_cons (hw : IsWord p pat) (hc : p c = false) :
    pat <:+: a ++ c :: b ↔ pat <:+: a ∨ pat <:+: b := by
  induction a with
  | nil =>
      have hnot : ¬pat <+: c :: b := by
        rintro ⟨t, ht⟩
        obtain ⟨d, pat', rfl⟩ := List.exists_cons_of_ne_nil hw.nonempty
        have hd := hw.all d List.mem_cons_self
        rw [(List.cons.inj ht).1, hc] at hd
        exact nomatch hd
      simp [List.infix_cons_iff, hnot, hw.nonempty]
  | cons d a ih =>
      have hpre : pat <+: (d :: a) ++ c :: b ↔ pat <+: d :: a := by
        refine ⟨fun h => ?_, fun h => h.trans (List.prefix_append _ _)⟩
        rcases le_or_gt pat.length (d :: a).length with hle | hlt
        · exact List.prefix_of_prefix_length_le h (List.prefix_append _ _) hle
        · -- the separator would be a character of the word
          have hsep : (d :: a) ++ [c] <+: (d :: a) ++ c :: b := ⟨b, by simp⟩
          have hmem := (List.prefix_of_prefix_length_le hsep h (by simpa [Nat.succ_le_iff] using hlt)).subset
            (List.mem_append_right _ (List.mem_singleton_self c))
          rw [hw.all c hmem] at hc
          exact nomatch hc
      rw [List.cons_append, List.infix_cons_iff, ih, ← List.cons_append, hpre, List.infix_cons_iff, or_assoc]

theorem IsGap.infix_append (hw : IsWord p pat) {s : List Char} (hs : IsGap p s) (a b : List Char) :
    pat <:+: a ++ (s ++ b) ↔ pat <:+: a ∨ pat <:+: b := by
  obtain ⟨hne, hall⟩ := hs
  induction s generalizing a with
  | nil => exact absurd rfl hne
  | cons c s ih =>
      rw [List.cons_append, infix_append_cons hw (hall c List.mem_cons_self)]
      by_cases hnil : s = []
      · rw [hnil, List.nil_append]
      · have hrest := ih [] hnil fun d hd => hall d (List.mem_cons_of_mem c hd)
        rw [List.nil_append, List.infix_nil, or_iff_right hw.nonempty] at hrest
        rw [hrest]

/-- The first occurrence of a word that is nowhere before. -/
theorem find_append_of_gap (hw : IsWord p pat) (hx : EndsInGap p x) (hfree : ¬pat <:+: x) :
    find pat (x ++ pat ++ y) = some (byteLength x) := by
  refine find_of_first fun a b heq => ?_
  by_contra hlt
  rw [List.append_assoc, List.append_assoc] at heq
  rcases List.append_eq_append_iff.mp heq with ⟨m, rfl, -⟩ | ⟨m, rfl, hm⟩
  · simp at hlt
  · have hends : EndsInGap p m := hx.of_append (by rintro rfl; simp at hlt)
    rcases List.append_eq_append_iff.mp hm with ⟨m', rfl, -⟩ | ⟨m', rfl, -⟩
    · exact hfree ⟨a, m', by simp⟩
    · exact hw.not_endsInGap hends

theorem find_append_of_infix (h : pat <:+: x) (y : List Char) :
    ∃ a r, x = a ++ pat ++ r ∧ find pat (x ++ y) = some (byteLength a) := by
  cases hfind : find pat (x ++ y) with
  | none => exact absurd (h.trans (List.prefix_append x y).isInfix) (find_eq_none.mp hfind)
  | some n =>
      obtain ⟨a, b, heq, rfl, hfirst⟩ := find_eq_some hfind
      obtain ⟨a', r', hx⟩ := h
      have hle : a.length ≤ a'.length := hfirst a' (r' ++ y) (by rw [← hx]; simp)
      have hlen : (a ++ pat).length ≤ x.length := by
        rw [← hx]
        simp
        omega
      obtain ⟨r, hr⟩ := List.prefix_of_prefix_length_le ⟨b, heq.symm⟩ (List.prefix_append x y) hlen
      exact ⟨a, r, hr.symm, rfl⟩

/-! ### Parts with gaps after them -/

def glue (parts : List (List Char × List Char)) : List Char := parts.flatMap fun part => part.1 ++ part.2

section

variable {parts : List (List Char × List Char)}

@[simp]
theorem glue_nil : glue [] = [] := rfl

@[simp]
theorem glue_cons (part : List Char × List Char) (parts : List (List Char × List Char)) :
    glue (part :: parts) = part.1 ++ (part.2 ++ glue parts) := by
  simp [glue]

theorem runs_glue (h : ∀ part ∈ parts, IsGap p part.2) (y : List Char) :
    runs p (glue parts ++ y) = parts.flatMap (fun part => runs p part.1) ++ runs p y := by
  induction parts with
  | nil => rfl
  | cons part parts ih =>
      rw [List.forall_mem_cons] at h
      rw [glue_cons, List.append_assoc, List.append_assoc, h.1.runs_append, ih h.2, List.flatMap_cons,
        List.append_assoc]

theorem infix_glue (hw : IsWord p pat) (h : ∀ part ∈ parts, IsGap p part.2) :
    pat <:+: glue parts ↔ ∃ part ∈ parts, pat <:+: part.1 := by
  induction parts with
  | nil => simp [hw.nonempty]
  | cons part parts ih =>
      rw [List.forall_mem_cons] at h
      rw [glue_cons, h.1.infix_append hw, ih h.2]
      simp

theorem endsInGap_glue (h : ∀ part ∈ parts, IsGap p part.2) (hne : parts ≠ []) : EndsInGap p (glue parts) := by
  induction parts with
  | nil => exact absurd rfl hne
  | cons part parts ih =>
      rw [List.forall_mem_cons] at h
      obtain ⟨c, hc⟩ : ∃ c, part.2.getLast? = some c := by
        rw [← Option.isSome_iff_exists, List.getLast?_isSome]
        exact h.1.nonempty
      by_cases hnil : parts = []
      · refine ⟨c, ?_, h.1.all c (List.mem_of_getLast? hc)⟩
        rw [hnil, glue_cons, glue_nil, List.append_nil, List.getLast?_append_of_ne_nil _ h.1.nonempty, hc]
        rfl
      · obtain ⟨d, hd, hp⟩ := ih h.2 hnil
        have hne' : glue parts ≠ [] := by rintro heq; rw [heq] at hd; exact nomatch hd
        refine ⟨d, ?_, hp⟩
        rwa [glue_cons, ← List.append_assoc, List.getLast?_append_of_ne_nil _ hne']

theorem glue_append (parts parts' : List (List Char × List Char)) :
    glue (parts ++ parts') = glue parts ++ glue parts' := List.flatMap_append ..

theorem map_glue (f : Char → Char) (parts : List (List Char × List Char)) :
    (glue parts).map f = glue (parts.map fun part => (part.1.map f, part.2.map f)) := by
  induction parts with
  | nil => rfl
  | cons part parts ih => rw [glue_cons, List.map_append, List.map_append, ih, List.map_cons, glue_cons]

end

/-! ### Trimming -/

section

variable {s s' cs : List Char}

theorem trimStart_append (hs : ∀ c ∈ s, isWhitespace c = true) (cs : List Char) :
    trimStart (s ++ cs) = trimStart cs := by
  rw [trimStart, List.dropWhile_append_of_pos hs, trimStart]

theorem trimEnd_append (hs : ∀ c ∈ s, isWhitespace c = true) (cs : List Char) :
    trimEnd (cs ++ s) = trimEnd cs := by
  rw [trimEnd, trimEndMatches, List.reverse_append,
    List.dropWhile_append_of_pos fun c hc => hs c (List.mem_reverse.mp hc), trimEnd, trimEndMatches]

theorem trim_append (hs : ∀ c ∈ s, isWhitespace c = true) (hs' : ∀ c ∈ s', isWhitespace c = true)
    (cs : List Char) : trim (s ++ cs ++ s') = trim cs := by
  rw [trim, List.append_assoc, trimStart_append hs, trim]
  rw [trimStart, List.dropWhile_append]
  split_ifs with hnil
  · rw [List.isEmpty_iff] at hnil
    rw [List.dropWhile_eq_nil_iff.mpr hs', trimStart, hnil]
  · rw [trimEnd_append hs', trimStart]

theorem dropWhile_eq_self (h : ∀ c, cs.head? = some c → p c = false) : cs.dropWhile p = cs := by
  cases cs with
  | nil => rfl
  | cons c cs => rw [List.dropWhile_cons, if_neg (by simp [h c rfl])]

theorem trimEndMatches_eq_self (h : ∀ c, cs.getLast? = some c → p c = false) : trimEndMatches p cs = cs := by
  rw [trimEndMatches, dropWhile_eq_self, List.reverse_reverse]
  rwa [List.head?_reverse]

theorem trim_eq_self (hhead : ∀ c, cs.head? = some c → isWhitespace c = false)
    (hlast : ∀ c, cs.getLast? = some c → isWhitespace c = false) : trim cs = cs := by
  rw [trim, trimStart, dropWhile_eq_self hhead, trimEnd, trimEndMatches_eq_self hlast]

theorem trimMatches_eq_self (h : ∀ c ∈ cs, p c = false) : trimMatches p cs = cs := by
  rw [trimMatches, dropWhile_eq_self fun c hc => h c (List.mem_of_head? hc),
    trimEndMatches_eq_self fun c hc => h c (List.mem_of_getLast? hc)]

theorem splitWhitespace_trimStart (cs : List Char) : splitWhitespace (trimStart cs) = splitWhitespace cs := by
  induction cs with
  | nil => rfl
  | cons c cs ih =>
      rw [trimStart, List.dropWhile_cons]
      split_ifs with hc
      · rw [← trimStart, ih, splitWhitespace, splitWhitespace, runs_cons_of_gap (by simpa using hc)]
      · rfl

theorem splitWhitespace_trimEnd (cs : List Char) : splitWhitespace (trimEnd cs) = splitWhitespace cs := by
  have hsplit : cs = trimEnd cs ++ (cs.reverse.takeWhile isWhitespace).reverse := by
    rw [trimEnd, trimEndMatches, ← List.reverse_append, List.takeWhile_append_dropWhile, List.reverse_reverse]
  generalize hs : (cs.reverse.takeWhile isWhitespace).reverse = s at hsplit
  have hall : ∀ c ∈ s, (!isWhitespace c) = false := by
    intro c hc
    rw [← hs, List.mem_reverse] at hc
    rw [List.mem_takeWhile_imp hc]
    rfl
  conv_rhs => rw [hsplit]
  rcases eq_or_ne s [] with rfl | hne
  · rw [List.append_nil]
  · have hruns := IsGap.runs_append ⟨hne, hall⟩ (trimEnd cs) []
    rw [List.append_nil, runs, List.append_nil] at hruns
    exact hruns.symm

theorem splitWhitespace_trim (cs : List Char) : splitWhitespace (trim cs) = splitWhitespace cs := by
  rw [trim, splitWhitespace_trimEnd, splitWhitespace_trimStart]

end

end Text
