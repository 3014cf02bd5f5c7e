import Mathlib.Data.List.MinMax
import Mathlib.Data.List.Nodup
import Skvs.Lib.Text

/-!
# Replacing several patterns in a text

Replacing them all at once puts each replacement in place of a longest pattern of the text as it is
given. Replacing them one after the other looks for each in a text that holds the replacements of those
before it, and does the same as long as a pattern turns up nowhere but where the text has it.
-/

namespace Text

/-! ### One pattern -/

/-- No occurrence of the pattern starts in `t` where `rest` follows. -/
def Clear (pat t rest : List Char) : Prop := ∀ i < t.length, ¬pat <+: t.drop i ++ rest

instance (pat t rest : List Char) : Decidable (Clear pat t rest) :=
  inferInstanceAs (Decidable (∀ i < t.length, ¬pat <+: t.drop i ++ rest))

theorem clear_cons {pat t rest : List Char} {c : Char} :
    Clear pat (c :: t) rest ↔ ¬pat <+: c :: t ++ rest ∧ Clear pat t rest := by
  constructor
  · intro h
    exact ⟨h 0 (Nat.succ_pos _), fun i hi => h (i + 1) (Nat.succ_lt_succ hi)⟩
  · rintro ⟨hhead, htail⟩ i hi
    cases i with
    | zero => exact hhead
    | succ i => exact htail i (Nat.lt_of_succ_lt_succ hi)

section Replace

variable {pat : List Char} (rep : List Char) (hpat : pat ≠ [])
include hpat

theorem replaceFrom_cons_skip {c : Char} {cs : List Char} (h : ¬pat <+: c :: cs) :
    replaceFrom pat rep 0 (c :: cs) = c :: replaceFrom pat rep 0 cs := by
  rw [replaceFrom, if_neg (by simpa using hpat), if_neg (by simpa using h)]

/-- A text in which no occurrence starts stays. -/
theorem replaceFrom_clear {t rest : List Char} (h : Clear pat t rest) :
    replaceFrom pat rep 0 (t ++ rest) = t ++ replaceFrom pat rep 0 rest := by
  induction t with
  | nil => rfl
  | cons c t ih =>
      obtain ⟨hhead, htail⟩ := clear_cons.mp h
      rw [List.cons_append] at hhead ⊢
      rw [replaceFrom_cons_skip rep hpat hhead, ih htail, List.cons_append]

omit hpat in
theorem replaceFrom_skip (t rest : List Char) :
    replaceFrom pat rep t.length (t ++ rest) = replaceFrom pat rep 0 rest := by
  induction t with
  | nil => rfl
  | cons c t ih =>
      rw [List.cons_append, List.length_cons, replaceFrom]
      exact ih

/-- The pattern itself is replaced as a whole. -/
theorem replaceFrom_append (rest : List Char) :
    replaceFrom pat rep 0 (pat ++ rest) = rep ++ replaceFrom pat rep 0 rest := by
  cases pat with
  | nil => exact absurd rfl hpat
  | cons c pat =>
      have hstarts : (c :: pat).isPrefixOf (c :: (pat ++ rest)) = true := by simp
      rw [List.cons_append, replaceFrom, if_neg (by simp), if_pos hstarts]
      exact congrArg (rep ++ ·) (replaceFrom_skip rep pat rest)

end Replace

/-! ### Several patterns -/

/-- A text to look for, and what to put in its place. -/
structure Rule where
  pattern : List Char
  replacement : List Char
  deriving DecidableEq

/-- The rule with the longest pattern of those that match here. -/
def longest (rules : List Rule) (cs : List Char) : Option Rule :=
  (rules.filter fun r => r.pattern.isPrefixOf cs).argmax fun r => r.pattern.length

inductive Piece where
  | char (c : Char)
  | reference (r : Rule)
  deriving DecidableEq

/-- A text cut from the left into longest patterns and the characters between them; `skip` characters
are still part of the last pattern. -/
def pieces (rules : List Rule) : Nat → List Char → List Piece
  | _, [] => []
  | skip + 1, _ :: cs => pieces rules skip cs
  | 0, c :: cs =>
    match longest rules (c :: cs) with
    | some r => .reference r :: pieces rules (r.pattern.length - 1) cs
    | none => .char c :: pieces rules 0 cs

/-- The text of a piece once the given rules are done. -/
def Piece.text (done : List Rule) : Piece → List Char
  | .char c => [c]
  | .reference r => if r ∈ done then r.replacement else r.pattern

def render (done : List Rule) (ps : List Piece) : List Char := ps.flatMap (Piece.text done)

/-- Replace all patterns at once. -/
def replaceEach (rules : List Rule) (cs : List Char) : List Char := render rules (pieces rules 0 cs)

/-- Replace the patterns one after the other. -/
def replaceInTurn (rules : List Rule) (cs : List Char) : List Char :=
  rules.foldl (fun cs r => replaceFrom r.pattern r.replacement 0 cs) cs

/-- Once the rules `done` are done, the pattern of `r` starts nowhere but at the pieces that are its
own. -/
def OnlyOwn (done : List Rule) (r : Rule) : List Piece → Prop
  | [] => True
  | p :: ps =>
    (p ≠ .reference r → Clear r.pattern (p.text done) (render done ps)) ∧ OnlyOwn done r ps

instance decidableOnlyOwn (done : List Rule) (r : Rule) : ∀ ps, Decidable (OnlyOwn done r ps)
  | [] => inferInstanceAs (Decidable True)
  | _ :: ps =>
    have := decidableOnlyOwn done r ps
    inferInstanceAs (Decidable (_ ∧ _))

/-- When its turn comes, each pattern is found only where the text given has it as a longest one. -/
def Hygienic (rules : List Rule) (cs : List Char) : Prop :=
  ∀ i, (h : i < rules.length) → OnlyOwn (rules.take i) (rules.get ⟨i, h⟩) (pieces rules 0 cs)

instance (rules : List Rule) (cs : List Char) : Decidable (Hygienic rules cs) :=
  inferInstanceAs (Decidable (∀ i, (h : i < rules.length) →
    OnlyOwn (rules.take i) (rules.get ⟨i, h⟩) (pieces rules 0 cs)))

/-- The pattern starts with two different characters, and no text that starts with the replacement
starts with these. -/
def Rule.Marked (r : Rule) : Prop :=
  ∃ a b tail, r.pattern = a :: b :: tail ∧ a ≠ b ∧ ∀ t t', r.replacement ++ t ≠ a :: b :: t'

section Pieces

variable {rules done : List Rule} {r : Rule}

theorem mem_of_longest {cs : List Char} (h : longest rules cs = some r) :
    r ∈ rules ∧ r.pattern <+: cs := by
  obtain ⟨hin, hstarts⟩ := List.mem_filter.mp (List.argmax_mem h)
  exact ⟨hin, List.isPrefixOf_iff_prefix.mp hstarts⟩

theorem mem_rules_of_mem_pieces {skip : Nat} {cs : List Char}
    (h : .reference r ∈ pieces rules skip cs) : r ∈ rules := by
  induction cs generalizing skip with
  | nil => cases skip <;> exact absurd h List.not_mem_nil
  | cons c cs ih =>
      cases skip with
      | succ skip => exact ih h
      | zero =>
          rw [pieces] at h
          split at h
          next r' hlongest =>
            rcases List.mem_cons.mp h with heq | h
            · obtain rfl := Piece.reference.inj heq
              exact (mem_of_longest hlongest).1
            · exact ih h
          next =>
            rcases List.mem_cons.mp h with heq | h
            · exact nomatch heq
            · exact ih h

/-- With no rule done, the pieces make up the text. -/
theorem render_pieces (hrules : ∀ r ∈ rules, r.pattern ≠ []) (skip : Nat) (cs : List Char) :
    render [] (pieces rules skip cs) = cs.drop skip := by
  induction cs generalizing skip with
  | nil => cases skip <;> rfl
  | cons c cs ih =>
      cases skip with
      | succ skip => exact ih skip
      | zero =>
          rw [pieces]
          split
          next r hlongest =>
            obtain ⟨hin, t, ht⟩ := mem_of_longest hlongest
            obtain ⟨c', tail, hpat⟩ := List.exists_cons_of_ne_nil (hrules r hin)
            rw [hpat, List.cons_append] at ht
            obtain ⟨rfl, rfl⟩ := List.cons.inj ht
            have hrest := ih tail.length
            rw [List.drop_left] at hrest
            simp only [render, List.flatMap_cons, Piece.text, List.not_mem_nil, if_false, hpat,
              List.length_cons, Nat.add_sub_cancel] at hrest ⊢
            rw [hrest]
            rfl
          next => exact congrArg (c :: ·) (ih 0)

end Pieces

/-! ### One step -/

section Step

variable {done : List Rule} {r : Rule}

theorem render_cons (p : Piece) (ps : List Piece) :
    render done (p :: ps) = p.text done ++ render done ps := rfl

/-- Doing one more rule changes the pieces that are its own. -/
theorem Piece.text_append_of_ne {p : Piece} (h : p ≠ .reference r) :
    p.text (done ++ [r]) = p.text done := by
  cases p with
  | char => rfl
  | reference r' =>
      have hne : r' ≠ r := fun heq => h (congrArg Piece.reference heq)
      simp [Piece.text, hne]

theorem Piece.text_own (hr : r ∉ done) :
    Piece.text done (.reference r) = r.pattern ∧
      Piece.text (done ++ [r]) (.reference r) = r.replacement := by
  simp [Piece.text, hr]

/-- Where the pattern starts nowhere but at its own pieces, these are what is replaced. -/
theorem OnlyOwn.replaceFrom (hpat : r.pattern ≠ []) (hr : r ∉ done) {ps : List Piece}
    (h : OnlyOwn done r ps) :
    Text.replaceFrom r.pattern r.replacement 0 (render done ps) = render (done ++ [r]) ps := by
  induction ps with
  | nil =>
      rw [render, List.flatMap_nil, Text.replaceFrom, if_neg (by simpa using hpat)]
      rfl
  | cons p ps ih =>
      rw [render_cons, render_cons]
      by_cases hown : p = .reference r
      · subst hown
        rw [(Piece.text_own hr).1, (Piece.text_own hr).2, replaceFrom_append _ hpat, ih h.2]
      · rw [Piece.text_append_of_ne hown, replaceFrom_clear _ hpat (h.1 hown), ih h.2]

/-! ### The other direction -/

theorem Rule.Marked.ne_nil (h : r.Marked) : r.pattern ≠ [] := by
  obtain ⟨a, b, tail, hpat, -⟩ := h
  rw [hpat]
  exact List.cons_ne_nil _ _

theorem Rule.Marked.replacement_ne_nil (h : r.Marked) : r.replacement ≠ [] := by
  obtain ⟨a, b, tail, -, -, hrep⟩ := h
  intro hnil
  exact hrep [a, b] [] (by rw [hnil]; rfl)

/-- The first character stays, unless it is the first of the pattern. -/
theorem head_render {a b : Char} {tail : List Char} (hpat : r.pattern = a :: tail) (hr : r ∉ done)
    {ps : List Piece} (htext : ∀ p ∈ ps, p.text done ≠ []) (hne : b ≠ a)
    (h : (render done ps).head? = some b) : (render (done ++ [r]) ps).head? = some b := by
  cases ps with
  | nil => exact h
  | cons p ps =>
      obtain ⟨c, t, ht⟩ := List.exists_cons_of_ne_nil (htext p List.mem_cons_self)
      rw [render_cons, ht, List.cons_append, List.head?_cons] at h
      obtain rfl := Option.some.inj h
      have hother : p ≠ .reference r := by
        rintro rfl
        rw [(Piece.text_own hr).1, hpat] at ht
        exact hne (List.cons.inj ht).1.symm
      rw [render_cons, Piece.text_append_of_ne hother, ht]
      rfl

/-- A text that is left as it is has no occurrence of the pattern. -/
theorem clear_of_replaceFrom_eq (hmark : r.Marked) (hr : r ∉ done) {ps : List Piece}
    (htext : ∀ p ∈ ps, p.text done ≠ []) {t : List Char}
    (h : replaceFrom r.pattern r.replacement 0 (t ++ render done ps) = t ++ render (done ++ [r]) ps) :
    Clear r.pattern t (render done ps) ∧
      replaceFrom r.pattern r.replacement 0 (render done ps) = render (done ++ [r]) ps := by
  induction t with
  | nil => exact ⟨fun i hi => absurd hi (Nat.not_lt_zero i), h⟩
  | cons c t ih =>
      by_cases hstarts : r.pattern <+: c :: (t ++ render done ps)
      · exfalso
        obtain ⟨a, b, tail, hpat, hab, hrep⟩ := hmark
        obtain ⟨rest, hrest⟩ := hstarts
        rw [List.cons_append, ← hrest, replaceFrom_append _ (by rw [hpat]; exact nofun)] at h
        rw [hpat, List.cons_append, List.cons_append] at hrest
        obtain ⟨rfl, hsecond⟩ := List.cons.inj hrest
        -- the second character is the one that follows, whether in this piece or in the next
        have hhead : (t ++ render (done ++ [r]) ps).head? = some b := by
          cases t with
          | nil => exact head_render hpat hr htext hab.symm (congrArg List.head? hsecond).symm
          | cons c t => exact congrArg some (List.cons.inj hsecond).1.symm
        obtain ⟨t', ht'⟩ := List.head?_eq_some_iff.mp hhead
        rw [List.cons_append, ht'] at h
        exact hrep _ t' h
      · rw [List.cons_append, replaceFrom_cons_skip _ hmark.ne_nil hstarts] at h
        obtain ⟨hclear, hrest⟩ := ih (List.cons.inj h).2
        exact ⟨clear_cons.mpr ⟨hstarts, hclear⟩, hrest⟩

/-- A step replaces exactly the pieces that are its own if and only if its pattern starts nowhere
else. -/
theorem replaceFrom_render_iff (hmark : r.Marked) (hr : r ∉ done) {ps : List Piece}
    (htext : ∀ p ∈ ps, p.text done ≠ []) :
    replaceFrom r.pattern r.replacement 0 (render done ps) = render (done ++ [r]) ps ↔
      OnlyOwn done r ps := by
  refine ⟨fun h => ?_, OnlyOwn.replaceFrom hmark.ne_nil hr⟩
  induction ps with
  | nil => trivial
  | cons p ps ih =>
      have hps : ∀ p ∈ ps, p.text done ≠ [] := fun p hp => htext p (List.mem_cons_of_mem _ hp)
      rw [render_cons, render_cons] at h
      by_cases hown : p = .reference r
      · subst hown
        rw [(Piece.text_own hr).1, (Piece.text_own hr).2, replaceFrom_append _ hmark.ne_nil] at h
        exact ⟨fun hne => absurd rfl hne, ih hps (List.append_cancel_left h)⟩
      · rw [Piece.text_append_of_ne hown] at h
        obtain ⟨hclear, hrest⟩ := clear_of_replaceFrom_eq hmark hr hps h
        exact ⟨fun _ => hclear, ih hps hrest⟩

end Step

/-! ### All steps -/

section Steps

variable {rules : List Rule} {cs : List Char}

theorem replaceInTurn_take_succ {i : Nat} (h : i < rules.length) :
    replaceInTurn (rules.take (i + 1)) cs =
      replaceFrom (rules.get ⟨i, h⟩).pattern (rules.get ⟨i, h⟩).replacement 0
        (replaceInTurn (rules.take i) cs) := by
  rw [List.take_succ_eq_append_getElem h, replaceInTurn, List.foldl_append]
  rfl

theorem not_mem_take_of_nodup (hnodup : rules.Nodup) {i : Nat} (h : i < rules.length) :
    rules.get ⟨i, h⟩ ∉ rules.take i := by
  intro hin
  obtain ⟨j, hj, heq⟩ := List.mem_take_iff_getElem.mp hin
  have hij := (List.Nodup.getElem_inj_iff hnodup).mp heq
  omega

/-- Replacing in turn goes through the texts in which the rules so far are replaced at once, if and only
if each pattern, when its turn comes, is found only where the text has it. -/
theorem hygienic_iff (hnodup : rules.Nodup) (hmark : ∀ r ∈ rules, r.Marked) :
    Hygienic rules cs ↔ ∀ i ≤ rules.length,
      replaceInTurn (rules.take i) cs = render (rules.take i) (pieces rules 0 cs) := by
  have hstart : replaceInTurn (rules.take 0) cs = render (rules.take 0) (pieces rules 0 cs) :=
    (render_pieces (fun r hr => (hmark r hr).ne_nil) 0 cs).symm
  have htext : ∀ i, ∀ p ∈ pieces rules 0 cs, p.text (rules.take i) ≠ [] := by
    intro i p hp
    cases p with
    | char c => exact List.cons_ne_nil c []
    | reference r =>
        have hr := hmark r (mem_rules_of_mem_pieces hp)
        rw [Piece.text]
        split
        · exact hr.replacement_ne_nil
        · exact hr.ne_nil
  have hstep : ∀ i, (h : i < rules.length) →
      replaceInTurn (rules.take i) cs = render (rules.take i) (pieces rules 0 cs) →
        (replaceInTurn (rules.take (i + 1)) cs = render (rules.take (i + 1)) (pieces rules 0 cs) ↔
          OnlyOwn (rules.take i) (rules.get ⟨i, h⟩) (pieces rules 0 cs)) := by
    intro i h heq
    rw [replaceInTurn_take_succ h, heq, List.take_succ_eq_append_getElem h]
    exact replaceFrom_render_iff (hmark _ (List.getElem_mem h)) (not_mem_take_of_nodup hnodup h)
      (htext i)
  constructor
  · intro hygienic i
    induction i with
    | zero => exact fun _ => hstart
    | succ i ih => exact fun hi => (hstep i hi (ih (Nat.le_of_succ_le hi))).mpr (hygienic i hi)
  · intro hall i hi
    exact (hstep i hi (hall i hi.le)).mp (hall (i + 1) hi)

/-- Then all is as if they were replaced at once. -/
theorem Hygienic.replaceInTurn_eq (hnodup : rules.Nodup) (hmark : ∀ r ∈ rules, r.Marked)
    (h : Hygienic rules cs) : replaceInTurn rules cs = replaceEach rules cs := by
  have hall := (hygienic_iff hnodup hmark).mp h rules.length le_rfl
  rw [List.take_length] at hall
  exact hall

end Steps

/-! ### Quoted texts -/

/-- Read a text up to the closing quote; a doubled quote is part of the text. -/
def readQuoted (q : Char) : List Char → Option (List Char × List Char)
  | [] => none
  | [c] => if c = q then some ([], []) else none
  | c :: c' :: cs =>
    if c = q then
      if c' = q then (readQuoted q cs).map fun x => (q :: x.1, x.2) else some ([], c' :: cs)
    else (readQuoted q (c' :: cs)).map fun x => (c :: x.1, x.2)

theorem replaceFrom_singleton (q : Char) (rep cs : List Char) :
    replaceFrom [q] rep 0 cs = cs.flatMap fun c => if c = q then rep else [c] := by
  induction cs with
  | nil => rfl
  | cons c cs ih =>
      rw [List.flatMap_cons]
      by_cases hc : c = q
      · subst hc
        rw [if_pos rfl, ← ih]
        exact replaceFrom_append rep (List.cons_ne_nil c []) cs
      · have hstarts : ¬[q] <+: c :: cs := fun ⟨_, h⟩ => hc (List.cons.inj h).1.symm
        rw [if_neg hc, replaceFrom_cons_skip rep (List.cons_ne_nil q []) hstarts, ih]
        rfl

/-- A text whose quotes are doubled is read back up to the quote behind it. -/
theorem readQuoted_doubled {q : Char} {rest : List Char} (hrest : rest.head? ≠ some q) (cs : List Char) :
    readQuoted q (replaceFrom [q] [q, q] 0 cs ++ q :: rest) = some (cs, rest) := by
  rw [replaceFrom_singleton]
  induction cs with
  | nil =>
      cases rest with
      | nil => simp [readQuoted]
      | cons c rest =>
          have hc : c ≠ q := fun heq => hrest (congrArg some heq)
          simp [readQuoted, hc]
  | cons c cs ih =>
      rw [List.flatMap_cons]
      by_cases hc : c = q
      · subst hc
        simp only [if_true, List.cons_append, List.nil_append, readQuoted, ih, Option.map_some]
      · rw [if_neg hc, List.cons_append, List.cons_append, List.nil_append]
        -- something follows, if only the closing quote
        obtain ⟨c', t, ht⟩ := List.exists_cons_of_ne_nil (l := (cs.flatMap fun c =>
          if c = q then [q, q] else [c]) ++ q :: rest) (by simp)
        rw [ht] at ih ⊢
        rw [readQuoted, if_neg hc, ih]
        rfl

end Text
