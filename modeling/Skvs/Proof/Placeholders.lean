import Skvs.Dml

/-!
# How many parameters an evaluation reads

`countPlaceholders` is a count on the syntax, while `eval` may skip an operand (the right side of an
AND, the rest of an IN list, the CASE branches not taken) or read one again (a CASE operand, once per
branch tried). A reading describes one expression from both sides; its tally says how many
placeholders a run from a given index leaves unread and how many it reads over again. The law is that
the advance of the index plus what stays unread is the count plus what is read again.
-/

namespace Skvs

@[ext]
structure Tally where
  unread : Nat
  reread : Nat

namespace Tally

instance : Zero Tally := ⟨⟨0, 0⟩⟩

instance : Add Tally := ⟨fun a b => ⟨a.unread + b.unread, a.reread + b.reread⟩⟩

@[simp]
theorem zero_unread : (0 : Tally).unread = 0 := rfl

@[simp]
theorem zero_reread : (0 : Tally).reread = 0 := rfl

@[simp]
theorem add_unread (a b : Tally) : (a + b).unread = a.unread + b.unread := rfl

@[simp]
theorem add_reread (a b : Tally) : (a + b).reread = a.reread + b.reread := rfl

theorem add_eq_zero (a b : Tally) : a + b = 0 ↔ a = 0 ∧ b = 0 := by
  simp only [Tally.ext_iff, add_unread, add_reread, zero_unread, zero_reread]
  omega

theorem skip_eq_zero (n : Nat) : (⟨n, 0⟩ : Tally) = 0 ↔ n = 0 := by
  simp [Tally.ext_iff]

theorem again_eq_zero (n : Nat) : (⟨0, n⟩ : Tally) = 0 ↔ n = 0 := by
  simp [Tally.ext_iff]

end Tally

/-- An expression seen from both sides: how it runs, how many placeholders it counts, how many more
its text holds where nothing looks, its tally, and its value when the `k`-th placeholder of its text
reads the `k`-th parameter from a given one on. -/
structure Reading where
  run : Eval
  count : Nat
  hidden : Nat
  tally : Nat → Tally
  pos : Nat → Value

namespace Reading

/-- The placeholders in the text of the expression. -/
def text (p : Reading) : Nat := p.count + p.hidden

structure Lawful (p : Reading) : Prop where
  balanced : ∀ i, (p.run i).2 + (p.tally i).unread = i + p.count + (p.tally i).reread
  exact : ∀ i, p.hidden = 0 → p.tally i = 0 → p.run i = (p.pos i, i + p.count)
  steady : p.text = 0 → ∀ i j, p.pos i = p.pos j

def countAll (ps : List Reading) : Nat := (ps.map count).sum

def hiddenAll (ps : List Reading) : Nat := (ps.map hidden).sum

@[simp]
theorem countAll_nil : countAll [] = 0 := rfl

@[simp]
theorem countAll_cons (p : Reading) (ps : List Reading) :
    countAll (p :: ps) = p.count + countAll ps := rfl

@[simp]
theorem hiddenAll_nil : hiddenAll [] = 0 := rfl

@[simp]
theorem hiddenAll_cons (p : Reading) (ps : List Reading) :
    hiddenAll (p :: ps) = p.hidden + hiddenAll ps := rfl

/-! ### One operand after the other -/

def const (v : Value) (hidden : Nat) : Reading := ⟨pure v, 0, hidden, fun _ => 0, fun _ => v⟩

theorem const_lawful (v : Value) (hidden : Nat) : (const v hidden).Lawful :=
  ⟨fun _ => rfl, fun _ _ _ => rfl, fun _ _ _ => rfl⟩

def param (params : List Value) : Reading where
  run := fun i => (params.getD i .null, i + 1)
  count := 1
  hidden := 0
  tally := fun _ => 0
  pos := fun k => params.getD k .null

theorem param_lawful (params : List Value) : (param params).Lawful :=
  ⟨fun _ => rfl, fun _ _ _ => rfl, fun h => absurd h (by simp [param, text])⟩

def map (f : Value → Value) (p : Reading) : Reading where
  run := do return f (← p.run)
  count := p.count
  hidden := p.hidden
  tally := p.tally
  pos := fun k => f (p.pos k)

theorem map_run (f : Value → Value) (p : Reading) (i : Nat) :
    (map f p).run i = (f (p.run i).1, (p.run i).2) := rfl

theorem map_lawful (f : Value → Value) {p : Reading} (hp : p.Lawful) : (map f p).Lawful where
  balanced := hp.balanced
  exact := fun i hh ht => by
    rw [map_run, hp.exact i hh ht]
    rfl
  steady := fun h i j => congrArg f (hp.steady h i j)

def map₂ (f : Value → Value → Value) (p q : Reading) : Reading where
  run := do
    let v ← p.run
    let w ← q.run
    return f v w
  count := p.count + q.count
  hidden := p.hidden + q.hidden
  tally := fun i => p.tally i + q.tally (p.run i).2
  pos := fun k => f (p.pos k) (q.pos (k + p.text))

theorem map₂_run (f : Value → Value → Value) (p q : Reading) (i : Nat) :
    (map₂ f p q).run i = (f (p.run i).1 (q.run (p.run i).2).1, (q.run (p.run i).2).2) := rfl

theorem map₂_lawful (f : Value → Value → Value) {p q : Reading} (hp : p.Lawful) (hq : q.Lawful) :
    (map₂ f p q).Lawful where
  balanced := fun i => by
    have h₁ := hp.balanced i
    have h₂ := hq.balanced (p.run i).2
    rw [map₂_run]
    simp only [map₂, Tally.add_unread, Tally.add_reread]
    omega
  exact := fun i hh ht => by
    simp only [map₂, Nat.add_eq_zero_iff] at hh
    obtain ⟨htp, htq⟩ := (Tally.add_eq_zero _ _).mp ht
    have hrun := hp.exact i hh.1 htp
    rw [hrun] at htq
    rw [map₂_run, hrun, hq.exact _ hh.2 htq]
    simp only [map₂, text, hh.1, Nat.add_zero, Nat.add_assoc]
  steady := fun h i j => by
    simp only [text, map₂] at h
    have hp0 : p.text = 0 := by simp only [text]; omega
    have hq0 : q.text = 0 := by simp only [text]; omega
    simp only [map₂]
    rw [hp.steady hp0 i j, hq.steady hq0 (i + p.text) (j + p.text)]

def map₃ (f : Value → Value → Value → Value) (p q r : Reading) : Reading where
  run := do
    let v ← p.run
    let w ← q.run
    let u ← r.run
    return f v w u
  count := p.count + q.count + r.count
  hidden := p.hidden + q.hidden + r.hidden
  tally := fun i => p.tally i + q.tally (p.run i).2 + r.tally (q.run (p.run i).2).2
  pos := fun k => f (p.pos k) (q.pos (k + p.text)) (r.pos (k + p.text + q.text))

theorem map₃_run (f : Value → Value → Value → Value) (p q r : Reading) (i : Nat) :
    (map₃ f p q r).run i =
      (f (p.run i).1 (q.run (p.run i).2).1 (r.run (q.run (p.run i).2).2).1,
        (r.run (q.run (p.run i).2).2).2) := rfl

theorem map₃_lawful (f : Value → Value → Value → Value) {p q r : Reading} (hp : p.Lawful)
    (hq : q.Lawful) (hr : r.Lawful) : (map₃ f p q r).Lawful where
  balanced := fun i => by
    have h₁ := hp.balanced i
    have h₂ := hq.balanced (p.run i).2
    have h₃ := hr.balanced (q.run (p.run i).2).2
    rw [map₃_run]
    simp only [map₃, Tally.add_unread, Tally.add_reread]
    omega
  exact := fun i hh ht => by
    simp only [map₃, Nat.add_eq_zero_iff] at hh
    simp only [map₃, Tally.add_eq_zero] at ht
    obtain ⟨⟨htp, htq⟩, htr⟩ := ht
    have hrun := hp.exact i hh.1.1 htp
    rw [hrun] at htq htr
    have hrun₂ := hq.exact _ hh.1.2 htq
    rw [hrun₂] at htr
    rw [map₃_run, hrun, hrun₂, hr.exact _ hh.2 htr]
    simp only [map₃, text, hh.1.1, hh.1.2, Nat.add_zero, Nat.add_assoc]
  steady := fun h i j => by
    simp only [text, map₃] at h
    have hp0 : p.text = 0 := by simp only [text]; omega
    have hq0 : q.text = 0 := by simp only [text]; omega
    have hr0 : r.text = 0 := by simp only [text]; omega
    simp only [map₃]
    rw [hp.steady hp0 i j, hq.steady hq0 (i + p.text) (j + p.text),
      hr.steady hr0 (i + p.text + q.text) (j + p.text + q.text)]

/-! ### AND -/

/-- AND leaves the placeholders of its right side unread when the left is false. -/
def and (p q : Reading) : Reading where
  run := evalBinaryOp p.run .and q.run
  count := p.count + q.count
  hidden := p.hidden + q.hidden
  tally := fun i =>
    p.tally i + if truthy (p.run i).1 then q.tally (p.run i).2 else ⟨q.count, 0⟩
  pos := fun k => boolVal (truthy (p.pos k) && truthy (q.pos (k + p.text)))

theorem and_run (p q : Reading) (i : Nat) :
    (and p q).run i = if truthy (p.run i).1 then
      (boolVal (truthy (q.run (p.run i).2).1), (q.run (p.run i).2).2)
    else (boolVal false, (p.run i).2) := by
  change (if !truthy (p.run i).1 then pure (boolVal false) else (do
    let r ← q.run
    return boolVal (truthy r)) : Eval) (p.run i).2 = _
  cases truthy (p.run i).1 <;> rfl

theorem and_lawful {p q : Reading} (hp : p.Lawful) (hq : q.Lawful) : (and p q).Lawful where
  balanced := fun i => by
    have h₁ := hp.balanced i
    have h₂ := hq.balanced (p.run i).2
    rw [and_run]
    simp only [and, Tally.add_unread, Tally.add_reread]
    cases truthy (p.run i).1 <;> simp only [Bool.false_eq_true, if_true, if_false] <;> omega
  exact := fun i hh ht => by
    simp only [and, Nat.add_eq_zero_iff] at hh
    obtain ⟨htp, htq⟩ := (Tally.add_eq_zero _ _).mp ht
    have hrun := hp.exact i hh.1 htp
    rw [hrun] at htq
    rw [and_run, hrun]
    simp only [and, text, hh.1, Nat.add_zero]
    cases hl : truthy (p.pos i) with
    | true =>
        simp only [hl, if_true] at htq
        simp only [if_true, hq.exact _ hh.2 htq, Bool.true_and, Nat.add_assoc]
    | false =>
        simp only [hl, Bool.false_eq_true, if_false, Tally.skip_eq_zero] at htq
        simp only [Bool.false_eq_true, if_false, Bool.false_and, htq, Nat.add_zero]
  steady := fun h i j => by
    simp only [text, and] at h
    have hp0 : p.text = 0 := by simp only [text]; omega
    have hq0 : q.text = 0 := by simp only [text]; omega
    simp only [and]
    rw [hp.steady hp0 i j, hq.steady hq0 (i + p.text) (j + p.text)]

/-! ### IN lists and argument lists -/

/-- The items after the first hit stay unread. -/
def anyTally (v : Value) : List Reading → Nat → Tally
  | [], _ => 0
  | p :: ps, i =>
    p.tally i +
      if (p.run i).1.partialEq v then ⟨countAll ps, 0⟩ else anyTally v ps (p.run i).2

def posEach : List Reading → Nat → List Value
  | [], _ => []
  | p :: ps, k => p.pos k :: posEach ps (k + p.text)

theorem anyEqual_cons (v : Value) (p : Reading) (ps : List Reading) (i : Nat) :
    anyEqual v ((p :: ps).map run) i =
      if (p.run i).1.partialEq v then (true, (p.run i).2)
      else anyEqual v (ps.map run) (p.run i).2 := by
  change (if (p.run i).1.partialEq v then pure true else anyEqual v (ps.map run) :
    StateM Nat Bool) (p.run i).2 = _
  split <;> rfl

theorem anyEqual_balanced (v : Value) {ps : List Reading} (hps : ∀ p ∈ ps, p.Lawful) (i : Nat) :
    (anyEqual v (ps.map run) i).2 + (anyTally v ps i).unread =
      i + countAll ps + (anyTally v ps i).reread := by
  induction ps generalizing i with
  | nil => rfl
  | cons p ps ih =>
      have hp := (hps p List.mem_cons_self).balanced i
      have hrest := ih (fun q hq => hps q (List.mem_cons_of_mem p hq)) (p.run i).2
      rw [anyEqual_cons]
      simp only [anyTally, countAll_cons, Tally.add_unread, Tally.add_reread]
      cases (p.run i).1.partialEq v <;> simp only [Bool.false_eq_true, if_true, if_false] <;> omega

theorem anyEqual_exact (v : Value) {ps : List Reading} (hps : ∀ p ∈ ps, p.Lawful) (i : Nat)
    (hh : hiddenAll ps = 0) (ht : anyTally v ps i = 0) :
    anyEqual v (ps.map run) i = ((posEach ps i).any fun w => w.partialEq v, i + countAll ps) := by
  induction ps generalizing i with
  | nil => rfl
  | cons p ps ih =>
      rw [hiddenAll_cons, Nat.add_eq_zero_iff] at hh
      obtain ⟨htp, htrest⟩ := (Tally.add_eq_zero _ _).mp ht
      have hrun := (hps p List.mem_cons_self).exact i hh.1 htp
      have hrest := ih (fun q hq => hps q (List.mem_cons_of_mem p hq)) (i + p.count) hh.2
      rw [hrun] at htrest
      rw [anyEqual_cons, hrun]
      simp only [posEach, List.any_cons, text, hh.1, Nat.add_zero, countAll_cons]
      cases hit : (p.pos i).partialEq v with
      | true =>
          simp only [hit, if_true, Tally.skip_eq_zero] at htrest
          simp only [if_true, Bool.true_or, htrest, Nat.add_zero]
      | false =>
          simp only [hit, Bool.false_eq_true, if_false] at htrest
          simp only [Bool.false_eq_true, if_false, Bool.false_or, hrest htrest, Nat.add_assoc]

theorem posEach_steady {ps : List Reading} (hps : ∀ p ∈ ps, p.Lawful)
    (h : countAll ps + hiddenAll ps = 0) (i j : Nat) : posEach ps i = posEach ps j := by
  induction ps generalizing i j with
  | nil => rfl
  | cons p ps ih =>
      rw [countAll_cons, hiddenAll_cons] at h
      have hp : p.text = 0 := by simp only [text]; omega
      simp only [posEach]
      rw [(hps p List.mem_cons_self).steady hp i j,
        ih (fun q hq => hps q (List.mem_cons_of_mem p hq)) (by omega) (i + p.text) (j + p.text)]

def inList (negated : Bool) (p : Reading) (ps : List Reading) : Reading where
  run := do
    let v ← p.run
    let found ← anyEqual v (ps.map run)
    return boolVal (found != negated)
  count := p.count + countAll ps
  hidden := p.hidden + hiddenAll ps
  tally := fun i => p.tally i + anyTally (p.run i).1 ps (p.run i).2
  pos := fun k =>
    boolVal (((posEach ps (k + p.text)).any fun w => w.partialEq (p.pos k)) != negated)

theorem inList_run (negated : Bool) (p : Reading) (ps : List Reading) (i : Nat) :
    (inList negated p ps).run i =
      (boolVal ((anyEqual (p.run i).1 (ps.map run) (p.run i).2).1 != negated),
        (anyEqual (p.run i).1 (ps.map run) (p.run i).2).2) := rfl

theorem inList_lawful (negated : Bool) {p : Reading} {ps : List Reading} (hp : p.Lawful)
    (hps : ∀ q ∈ ps, q.Lawful) : (inList negated p ps).Lawful where
  balanced := fun i => by
    have h₁ := hp.balanced i
    have h₂ := anyEqual_balanced (p.run i).1 hps (p.run i).2
    rw [inList_run]
    simp only [inList, Tally.add_unread, Tally.add_reread]
    omega
  exact := fun i hh ht => by
    simp only [inList, Nat.add_eq_zero_iff] at hh
    obtain ⟨htp, htps⟩ := (Tally.add_eq_zero _ _).mp ht
    have hrun := hp.exact i hh.1 htp
    rw [hrun] at htps
    rw [inList_run, hrun, anyEqual_exact _ hps _ hh.2 htps]
    simp only [inList, text, hh.1, Nat.add_zero, Nat.add_assoc]
  steady := fun h i j => by
    simp only [text, inList] at h
    have hp0 : p.text = 0 := by simp only [text]; omega
    simp only [inList]
    rw [hp.steady hp0 i j, posEach_steady hps (by omega) (i + p.text) (j + p.text)]

def allTally : List Reading → Nat → Tally
  | [], _ => 0
  | p :: ps, i => p.tally i + allTally ps (p.run i).2

theorem collect_cons (p : Reading) (ps : List Reading) (i : Nat) :
    collect ((p :: ps).map run) i =
      ((p.run i).1 :: (collect (ps.map run) (p.run i).2).1,
        (collect (ps.map run) (p.run i).2).2) := rfl

theorem collect_balanced {ps : List Reading} (hps : ∀ p ∈ ps, p.Lawful) (i : Nat) :
    (collect (ps.map run) i).2 + (allTally ps i).unread =
      i + countAll ps + (allTally ps i).reread := by
  induction ps generalizing i with
  | nil => rfl
  | cons p ps ih =>
      have hp := (hps p List.mem_cons_self).balanced i
      have hrest := ih (fun q hq => hps q (List.mem_cons_of_mem p hq)) (p.run i).2
      rw [collect_cons]
      simp only [allTally, countAll_cons, Tally.add_unread, Tally.add_reread]
      omega

theorem collect_exact {ps : List Reading} (hps : ∀ p ∈ ps, p.Lawful) (i : Nat)
    (hh : hiddenAll ps = 0) (ht : allTally ps i = 0) :
    collect (ps.map run) i = (posEach ps i, i + countAll ps) := by
  induction ps generalizing i with
  | nil => rfl
  | cons p ps ih =>
      rw [hiddenAll_cons, Nat.add_eq_zero_iff] at hh
      obtain ⟨htp, htps⟩ := (Tally.add_eq_zero _ _).mp ht
      have hrun := (hps p List.mem_cons_self).exact i hh.1 htp
      rw [hrun] at htps
      rw [collect_cons, hrun, ih (fun q hq => hps q (List.mem_cons_of_mem p hq)) _ hh.2 htps]
      simp only [posEach, countAll_cons, text, hh.1, Nat.add_zero, Nat.add_assoc]

def apply (f : List Value → Value) (ps : List Reading) (hidden : Nat) : Reading where
  run := do return f (← collect (ps.map run))
  count := countAll ps
  hidden := hiddenAll ps + hidden
  tally := allTally ps
  pos := fun k => f (posEach ps k)

theorem apply_run (f : List Value → Value) (ps : List Reading) (hidden i : Nat) :
    (apply f ps hidden).run i = (f (collect (ps.map run) i).1, (collect (ps.map run) i).2) := rfl

theorem apply_lawful (f : List Value → Value) {ps : List Reading} (hidden : Nat)
    (hps : ∀ p ∈ ps, p.Lawful) : (apply f ps hidden).Lawful where
  balanced := collect_balanced hps
  exact := fun i hh ht => by
    rw [apply_run, collect_exact hps i (Nat.add_eq_zero_iff.mp hh).1 ht]
    rfl
  steady := fun h i j => by
    simp only [text, apply] at h
    exact congrArg f (posEach_steady hps (by omega) i j)

/-! ### CASE -/

def branchTaken (opv : Option Value) (cv : Value) : Bool :=
  match opv with
  | some v => v.partialEq cv
  | none => truthy cv

def operandCount (operand : Option Reading) : Nat := (operand.map count).getD 0

def operandHidden (operand : Option Reading) : Nat := (operand.map hidden).getD 0

/-- What evaluating the operand for one branch leaves unread or reads again; from the second branch
on, `again`, all its placeholders are read again. -/
def operandTally (operand : Option Reading) (again : Bool) (i : Nat) : Tally :=
  match operand with
  | some op => op.tally i + ⟨0, if again then op.count else 0⟩
  | none => 0

def operandEnd (operand : Option Reading) (i : Nat) : Nat :=
  match operand with
  | some op => (op.run i).2
  | none => i

def taken (operand : Option Reading) (c : Reading) (i : Nat) : Bool :=
  branchTaken (operand.map fun op => (op.run i).1) (c.run (operandEnd operand i)).1

def caseTally (operand : Option Reading) (els : Reading) :
    Bool → List Reading → List Reading → Nat → Tally
  | again, c :: cs, r :: rs, i =>
    let j := (c.run (operandEnd operand i)).2
    operandTally operand again i + c.tally (operandEnd operand i) +
      if taken operand c i then r.tally j + ⟨countAll cs + countAll rs + els.count, 0⟩
      else ⟨r.count, 0⟩ + caseTally operand els true cs rs j
  | again, cs, rs, i =>
    ⟨(if again then 0 else operandCount operand) + countAll cs + countAll rs, 0⟩ + els.tally i

/-- In the text the results stand between the conditions. -/
def casePos (opv : Option Value) (els : Reading) : List Reading → List Reading → Nat → Value
  | c :: cs, r :: rs, k =>
    if branchTaken opv (c.pos k) then r.pos (k + c.text)
    else casePos opv els cs rs (k + c.text + r.text)
  | _, _, k => els.pos k

theorem caseMatches_run (operand : Option Reading) (c : Reading) (i : Nat) :
    caseMatches (operand.map run) c.run i =
      (taken operand c i, (c.run (operandEnd operand i)).2) := by
  cases operand <;> rfl

theorem caseBranches_cons (operand : Option Reading) (els c r : Reading) (cs rs : List Reading)
    (i : Nat) :
    caseBranches (operand.map run) els.run ((c :: cs).map run) ((r :: rs).map run) i =
      if taken operand c i then r.run (c.run (operandEnd operand i)).2
      else caseBranches (operand.map run) els.run (cs.map run) (rs.map run)
        (c.run (operandEnd operand i)).2 := by
  change (if (caseMatches (operand.map run) c.run i).1 then r.run
    else caseBranches (operand.map run) els.run (cs.map run) (rs.map run) : Eval)
      (caseMatches (operand.map run) c.run i).2 = _
  rw [caseMatches_run]
  split <;> rfl

theorem operand_balanced {operand : Option Reading} (hop : ∀ p ∈ operand, p.Lawful) (again : Bool)
    (i : Nat) :
    operandEnd operand i + (operandTally operand again i).unread +
        (if again then operandCount operand else 0) =
      i + operandCount operand + (operandTally operand again i).reread := by
  cases operand with
  | none => cases again <;> rfl
  | some op =>
      have h := (hop op rfl).balanced i
      cases again <;> simp [operandEnd, operandTally, operandCount] <;> omega

theorem case_balanced {operand : Option Reading} {els : Reading} (hop : ∀ p ∈ operand, p.Lawful)
    (hels : els.Lawful) {cs rs : List Reading} (hcs : ∀ p ∈ cs, p.Lawful)
    (hrs : ∀ p ∈ rs, p.Lawful) (again : Bool) (i : Nat) :
    (caseBranches (operand.map run) els.run (cs.map run) (rs.map run) i).2 +
        (caseTally operand els again cs rs i).unread +
        (if again then operandCount operand else 0) =
      i + operandCount operand + countAll cs + countAll rs + els.count +
        (caseTally operand els again cs rs i).reread := by
  induction cs generalizing rs again i with
  | nil =>
      have h := hels.balanced i
      simp only [caseTally, caseBranches, List.map_nil, countAll_nil, Tally.add_unread,
        Tally.add_reread]
      cases again <;> simp only [Bool.false_eq_true, if_true, if_false] <;> omega
  | cons c cs ih =>
      cases rs with
      | nil =>
          have h := hels.balanced i
          simp only [caseTally, caseBranches, List.map_nil, List.map_cons, countAll_nil,
            Tally.add_unread, Tally.add_reread]
          cases again <;> simp only [Bool.false_eq_true, if_true, if_false] <;> omega
      | cons r rs =>
          have hopb := operand_balanced hop again i
          have hc := (hcs c List.mem_cons_self).balanced (operandEnd operand i)
          have hr := (hrs r List.mem_cons_self).balanced (c.run (operandEnd operand i)).2
          have hrest := ih (fun p hp => hcs p (List.mem_cons_of_mem c hp))
            (fun p hp => hrs p (List.mem_cons_of_mem r hp)) true (c.run (operandEnd operand i)).2
          rw [caseBranches_cons]
          simp only [caseTally, countAll_cons, Tally.add_unread, Tally.add_reread, if_true] at *
          cases taken operand c i <;>
            simp only [Bool.false_eq_true, if_true, if_false, Tally.add_unread,
              Tally.add_reread] <;> omega

theorem operandTally_eq_zero {operand : Option Reading} (hop : ∀ p ∈ operand, p.Lawful)
    {again : Bool} {i : Nat} (hh : operandHidden operand = 0)
    (ht : operandTally operand again i = 0) :
    (operand.map fun op => (op.run i).1) = (operand.map fun op => op.pos i) ∧
      operandEnd operand i = i + operandCount operand ∧
      (again = true → operandCount operand = 0) := by
  cases operand with
  | none => exact ⟨rfl, rfl, fun _ => rfl⟩
  | some op =>
      obtain ⟨hop', hagain⟩ := (Tally.add_eq_zero _ _).mp ht
      have hrun := (hop op rfl).exact i hh hop'
      refine ⟨?_, ?_, fun h => ?_⟩
      · rw [Option.map_some, Option.map_some, hrun]
      · exact congrArg Prod.snd hrun
      · rwa [Tally.again_eq_zero, if_pos h] at hagain

theorem operand_steady {operand : Option Reading} (hop : ∀ p ∈ operand, p.Lawful)
    (hh : operandHidden operand = 0) (hc : operandCount operand = 0) (i j : Nat) :
    (operand.map fun op => op.pos i) = (operand.map fun op => op.pos j) := by
  cases operand with
  | none => rfl
  | some op =>
      have htext : op.text = 0 := by
        change op.count + op.hidden = 0
        rw [show op.count = 0 from hc, show op.hidden = 0 from hh]
      rw [Option.map_some, Option.map_some, (hop op rfl).steady htext i j]

/-- The first branch starts at the operand, each later one where its condition stands in the text;
a run that gets that far has an operand without placeholders. -/
def operandOffset (operand : Option Reading) (again : Bool) : Nat :=
  if again then 0 else operandCount operand

theorem operandOffset_of_skip {operand : Option Reading} {again : Bool} {m n : Nat}
    (h : (if again then 0 else operandCount operand) + m + n = 0) :
    operandOffset operand again = 0 := by
  rw [operandOffset]
  omega

theorem case_exact {operand : Option Reading} {els : Reading} {opv : Option Value}
    (hop : ∀ p ∈ operand, p.Lawful) (hels : els.Lawful) (hhop : operandHidden operand = 0)
    (hhels : els.hidden = 0) {cs rs : List Reading} (hcs : ∀ p ∈ cs, p.Lawful)
    (hrs : ∀ p ∈ rs, p.Lawful) (again : Bool) (i : Nat) (hhcs : hiddenAll cs = 0)
    (hhrs : hiddenAll rs = 0)
    (hopv : ∃ k, opv = (operand.map fun op => op.pos k) ∧ (again = false → k = i))
    (ht : caseTally operand els again cs rs i = 0) :
    caseBranches (operand.map run) els.run (cs.map run) (rs.map run) i =
      (casePos opv els cs rs (i + operandOffset operand again),
        i + operandOffset operand again + countAll cs + countAll rs + els.count) := by
  induction cs generalizing rs again i with
  | nil =>
      obtain ⟨hskip, hte⟩ := (Tally.add_eq_zero _ _).mp ht
      rw [Tally.skip_eq_zero] at hskip
      have hrs0 : countAll rs = 0 := by omega
      change els.run i = _
      rw [hels.exact i hhels hte, operandOffset_of_skip hskip, hrs0]
      rfl
  | cons c cs ih =>
      cases rs with
      | nil =>
          obtain ⟨hskip, hte⟩ := (Tally.add_eq_zero _ _).mp ht
          rw [Tally.skip_eq_zero] at hskip
          have hcs0 : countAll (c :: cs) = 0 := by omega
          change els.run i = _
          rw [hels.exact i hhels hte, operandOffset_of_skip hskip, hcs0]
          rfl
      | cons r rs =>
          rw [hiddenAll_cons, Nat.add_eq_zero_iff] at hhcs hhrs
          simp only [caseTally, Tally.add_eq_zero] at ht
          obtain ⟨⟨htop, htc⟩, htrest⟩ := ht
          obtain ⟨hrunv, hopEnd, hop0⟩ := operandTally_eq_zero hop hhop htop
          have hoff : operandOffset operand again = operandCount operand := by
            cases again with
            | true => exact (hop0 rfl).symm
            | false => rfl
          have hvalue : (operand.map fun op => op.pos i) = opv := by
            obtain ⟨k, rfl, hk⟩ := hopv
            cases again with
            | true => exact operand_steady hop hhop (hop0 rfl) i k
            | false => rw [hk rfl]
          have hc := (hcs c List.mem_cons_self).exact _ hhcs.1 htc
          have htaken : taken operand c i = branchTaken opv (c.pos (i + operandCount operand)) := by
            rw [taken, hrunv, hvalue, hc, hopEnd]
          rw [caseBranches_cons, hoff]
          simp only [casePos, text, hhcs.1, hhrs.1, Nat.add_zero, countAll_cons, ← htaken]
          rw [hc, hopEnd] at htrest
          rw [hc, hopEnd]
          cases hit : taken operand c i with
          | true =>
              simp only [hit, if_true, Tally.add_eq_zero, Tally.skip_eq_zero] at htrest
              obtain ⟨htr, hskip⟩ := htrest
              simp only [if_true, (hrs r List.mem_cons_self).exact _ hhrs.1 htr]
              exact congrArg (Prod.mk _) (by omega)
          | false =>
              simp only [hit, Bool.false_eq_true, if_false, Tally.add_eq_zero,
                Tally.skip_eq_zero] at htrest
              obtain ⟨hr0, htrest⟩ := htrest
              simp only [Bool.false_eq_true, if_false]
              rw [ih (fun p hp => hcs p (List.mem_cons_of_mem c hp))
                (fun p hp => hrs p (List.mem_cons_of_mem r hp)) true _ hhcs.2 hhrs.2
                ⟨i, hvalue.symm, fun h => absurd h (by simp)⟩ htrest, hr0]
              exact congrArg (Prod.mk _) (by simp only [operandOffset, if_true]; omega)

theorem casePos_steady {opv : Option Value} {els : Reading} (hels : els.Lawful)
    (hels0 : els.text = 0) {cs rs : List Reading} (hcs : ∀ p ∈ cs, p.Lawful)
    (hrs : ∀ p ∈ rs, p.Lawful) (hc0 : countAll cs + hiddenAll cs = 0)
    (hr0 : countAll rs + hiddenAll rs = 0) (i j : Nat) :
    casePos opv els cs rs i = casePos opv els cs rs j := by
  induction cs generalizing rs i j with
  | nil => exact hels.steady hels0 i j
  | cons c cs ih =>
      cases rs with
      | nil => exact hels.steady hels0 i j
      | cons r rs =>
          rw [countAll_cons, hiddenAll_cons] at hc0 hr0
          have hc : c.text = 0 := by simp only [text]; omega
          have hr : r.text = 0 := by simp only [text]; omega
          simp only [casePos]
          rw [(hcs c List.mem_cons_self).steady hc i j,
            (hrs r List.mem_cons_self).steady hr (i + c.text) (j + c.text),
            ih (fun p hp => hcs p (List.mem_cons_of_mem c hp))
              (fun p hp => hrs p (List.mem_cons_of_mem r hp)) (by omega) (by omega)
              (i + c.text + r.text) (j + c.text + r.text)]

def case (operand : Option Reading) (els : Reading) (cs rs : List Reading) : Reading where
  run := caseBranches (operand.map run) els.run (cs.map run) (rs.map run)
  count := operandCount operand + countAll cs + countAll rs + els.count
  hidden := operandHidden operand + hiddenAll cs + hiddenAll rs + els.hidden
  tally := caseTally operand els false cs rs
  pos := fun k => casePos (operand.map fun op => op.pos k) els cs rs
    (k + operandCount operand + operandHidden operand)

theorem case_lawful {operand : Option Reading} {els : Reading} {cs rs : List Reading}
    (hop : ∀ p ∈ operand, p.Lawful) (hels : els.Lawful) (hcs : ∀ p ∈ cs, p.Lawful)
    (hrs : ∀ p ∈ rs, p.Lawful) : (case operand els cs rs).Lawful where
  balanced := fun i => by
    have h := case_balanced hop hels hcs hrs false i
    simp only [Bool.false_eq_true, if_false] at h
    simp only [case]
    omega
  exact := fun i hh ht => by
    simp only [case, Nat.add_eq_zero_iff] at hh
    obtain ⟨⟨⟨hhop, hhcs⟩, hhrs⟩, hhels⟩ := hh
    have h := case_exact hop hels hhop hhels hcs hrs false i hhcs hhrs
      ⟨i, rfl, fun _ => rfl⟩ ht
    simp only [case, hhop, Nat.add_zero]
    rw [h]
    exact congrArg (Prod.mk _) (by simp only [operandOffset, Bool.false_eq_true, if_false]; omega)
  steady := fun h i j => by
    simp only [text, case] at h
    simp only [case]
    rw [operand_steady hop (by omega) (by omega) i j,
      casePos_steady hels (by simp only [text]; omega) hcs hrs (by omega) (by omega)
        (i + operandCount operand + operandHidden operand)
        (j + operandCount operand + operandHidden operand)]

end Reading

/-! ### The reading of an expression -/

section Expr

variable [Externals] (ctx : EvalCtx) (params : List Value)

mutual

def reading : Expr → Reading
  | .identifier id => .const (lookupColumn ctx id.value) 0
  | .compoundIdentifier parts => .const (lookupCompound ctx parts) 0
  | .value (.placeholder _) => .param params
  | .value v => .const (evalLiteral v params 0).1 0
  | .nested inner => reading inner
  | .unaryOp op expr => .map (applyUnary op) (reading expr)
  | .binaryOp left .and right => .and (reading left) (reading right)
  | .binaryOp left .or right =>
    .map₂ (fun l r => boolVal (truthy l || truthy r)) (reading left) (reading right)
  | .binaryOp left op right => .map₂ (applyBinary op) (reading left) (reading right)
  | .isNull inner => .map (fun v => boolVal v.isNull) (reading inner)
  | .isNotNull inner => .map (fun v => boolVal !v.isNull) (reading inner)
  | .between expr negated low high =>
    .map₃ (applyBetween negated) (reading expr) (reading low) (reading high)
  | .inList expr list negated => .inList negated (reading expr) (readingEach list)
  | .like negated expr pattern => .map₂ (applyLike false negated) (reading expr) (reading pattern)
  | .iLike negated expr pattern => .map₂ (applyLike true negated) (reading expr) (reading pattern)
  | .case operand conditions results elseResult =>
    .case (readingOption operand) ((readingOption elseResult).getD (.const .null 0))
      (readingEach conditions) (readingEach results)
  | .function name args _ clausePlaceholders =>
    .apply (applyFunction (toLowercase name)) (readingArgs args) clausePlaceholders
  | .other _ placeholders => .const .null placeholders

def readingEach : List Expr → List Reading
  | [] => []
  | e :: es => reading e :: readingEach es

def readingOption : Option Expr → Option Reading
  | none => none
  | some e => some (reading e)

def readingArgs : List FunctionArg → List Reading
  | [] => []
  | arg :: args => readingArg arg :: readingArgs args

def readingArg : FunctionArg → Reading
  | .unnamed arg => readingArgExpr arg
  | .named _ arg => readingArgExpr arg

def readingArgExpr : FunctionArgExpr → Reading
  | .expr e => reading e
  | .qualifiedWildcard => .const .null 0
  | .wildcard => .const .null 0

end

mutual

theorem reading_lawful (e : Expr) : (reading ctx params e).Lawful := by
  match e with
  | .identifier _ | .compoundIdentifier _ | .other _ _ => exact Reading.const_lawful _ _
  | .value (.placeholder _) => exact Reading.param_lawful params
  | .value (.number _) | .value (.singleQuotedString _) | .value (.doubleQuotedString _)
  | .value .null | .value (.boolean _) | .value .other => exact Reading.const_lawful _ _
  | .nested inner => exact reading_lawful inner
  | .unaryOp _ inner | .isNull inner | .isNotNull inner =>
    exact Reading.map_lawful _ (reading_lawful inner)
  | .binaryOp left op right =>
    have hl := reading_lawful left
    have hr := reading_lawful right
    cases op
    case and => exact Reading.and_lawful hl hr
    all_goals exact Reading.map₂_lawful _ hl hr
  | .between expr _ low high =>
    exact Reading.map₃_lawful _ (reading_lawful expr) (reading_lawful low) (reading_lawful high)
  | .inList expr list negated =>
    exact Reading.inList_lawful negated (reading_lawful expr) (readingEach_lawful list)
  | .like _ expr pattern | .iLike _ expr pattern =>
    exact Reading.map₂_lawful _ (reading_lawful expr) (reading_lawful pattern)
  | .case operand conditions results elseResult =>
    refine Reading.case_lawful (readingOption_lawful operand) ?_ (readingEach_lawful conditions)
      (readingEach_lawful results)
    have h := readingOption_lawful elseResult
    cases helse : readingOption ctx params elseResult with
    | none => exact Reading.const_lawful _ _
    | some p => exact h p (by rw [helse]; rfl)
  | .function _ args _ _ => exact Reading.apply_lawful _ _ (readingArgs_lawful args)

theorem readingEach_lawful (es : List Expr) : ∀ p ∈ readingEach ctx params es, p.Lawful := by
  match es with
  | [] => exact fun _ h => absurd h List.not_mem_nil
  | e :: es =>
    exact List.forall_mem_cons.mpr ⟨reading_lawful e, readingEach_lawful es⟩

theorem readingOption_lawful (o : Option Expr) : ∀ p ∈ readingOption ctx params o, p.Lawful := by
  match o with
  | none => exact fun _ h => absurd h (by simp [readingOption])
  | some e =>
    intro p hp
    rw [readingOption, Option.mem_some_iff] at hp
    exact hp ▸ reading_lawful e

theorem readingArgs_lawful (args : List FunctionArg) :
    ∀ p ∈ readingArgs ctx params args, p.Lawful := by
  match args with
  | [] => exact fun _ h => absurd h List.not_mem_nil
  | arg :: args => exact List.forall_mem_cons.mpr ⟨readingArg_lawful arg, readingArgs_lawful args⟩

theorem readingArg_lawful (arg : FunctionArg) : (readingArg ctx params arg).Lawful := by
  match arg with
  | .unnamed arg | .named _ arg => exact readingArgExpr_lawful arg

theorem readingArgExpr_lawful (arg : FunctionArgExpr) :
    (readingArgExpr ctx params arg).Lawful := by
  match arg with
  | .expr e => exact reading_lawful e
  | .qualifiedWildcard | .wildcard => exact Reading.const_lawful _ _

end

mutual

/-- The reading runs as `eval` does and counts what `countPlaceholders` counts. -/
theorem reading_spec (e : Expr) :
    (reading ctx params e).run = eval ctx params e ∧
      (reading ctx params e).count = countPlaceholders e := by
  match e with
  | .identifier _ | .compoundIdentifier _ | .other _ _ => exact ⟨rfl, rfl⟩
  | .value v => cases v <;> exact ⟨rfl, rfl⟩
  | .nested inner => exact reading_spec inner
  | .unaryOp _ inner | .isNull inner | .isNotNull inner =>
    obtain ⟨hrun, hcount⟩ := reading_spec inner
    simp only [reading, eval, countPlaceholders, Reading.map, hrun, hcount, and_self]
  | .binaryOp left op right =>
    obtain ⟨hrunl, hcountl⟩ := reading_spec left
    obtain ⟨hrunr, hcountr⟩ := reading_spec right
    cases op <;>
      simp only [reading, eval, countPlaceholders, Reading.and, Reading.map₂, evalBinaryOp, hrunl,
        hcountl, hrunr, hcountr, and_true]
    funext i
    change (_, _) = (if truthy (eval ctx params left i).1 then pure (boolVal true)
      else pure (boolVal (truthy (eval ctx params right (eval ctx params left i).2).1)) : Eval)
        (eval ctx params right (eval ctx params left i).2).2
    cases truthy (eval ctx params left i).1 <;> rfl
  | .between expr _ low high =>
    obtain ⟨hrun₁, hcount₁⟩ := reading_spec expr
    obtain ⟨hrun₂, hcount₂⟩ := reading_spec low
    obtain ⟨hrun₃, hcount₃⟩ := reading_spec high
    simp only [reading, eval, countPlaceholders, Reading.map₃, hrun₁, hcount₁, hrun₂, hcount₂,
      hrun₃, hcount₃, and_self]
  | .inList expr list _ =>
    obtain ⟨hrun, hcount⟩ := reading_spec expr
    obtain ⟨hruns, hcounts⟩ := readingEach_spec list
    simp only [reading, eval, countPlaceholders, Reading.inList, Reading.countAll, hrun, hcount,
      hruns, hcounts, and_self]
  | .like _ expr pattern | .iLike _ expr pattern =>
    obtain ⟨hrun₁, hcount₁⟩ := reading_spec expr
    obtain ⟨hrun₂, hcount₂⟩ := reading_spec pattern
    simp only [reading, eval, countPlaceholders, Reading.map₂, hrun₁, hcount₁, hrun₂, hcount₂,
      and_self]
  | .case operand conditions results elseResult =>
    obtain ⟨hrun₁, hcount₁⟩ := readingOption_spec operand
    obtain ⟨hrun₂, hcount₂⟩ := readingEach_spec conditions
    obtain ⟨hrun₃, hcount₃⟩ := readingEach_spec results
    obtain ⟨hrun₄, hcount₄⟩ := readingOption_spec elseResult
    simp only [reading, eval, countPlaceholders, Reading.case, Reading.operandCount,
      Reading.countAll, hrun₁, hcount₁, hrun₂, hcount₂, hrun₃, hcount₃, ← hrun₄, ← hcount₄]
    cases readingOption ctx params elseResult <;> exact ⟨rfl, rfl⟩
  | .function _ args _ _ =>
    obtain ⟨hruns, hcounts⟩ := readingArgs_spec args
    simp only [reading, eval, countPlaceholders, Reading.apply, Reading.countAll, hruns, hcounts,
      and_self]

theorem readingEach_spec (es : List Expr) :
    (readingEach ctx params es).map Reading.run = evalEach ctx params es ∧
      (readingEach ctx params es).map Reading.count = countEach es := by
  match es with
  | [] => exact ⟨rfl, rfl⟩
  | e :: es =>
    obtain ⟨hrun, hcount⟩ := reading_spec e
    obtain ⟨hruns, hcounts⟩ := readingEach_spec es
    simp only [readingEach, evalEach, countEach, List.map_cons, hrun, hcount, hruns, hcounts,
      and_self]

theorem readingOption_spec (o : Option Expr) :
    (readingOption ctx params o).map Reading.run = evalOption ctx params o ∧
      ((readingOption ctx params o).map Reading.count).getD 0 = countOption o := by
  match o with
  | none => exact ⟨rfl, rfl⟩
  | some e =>
    obtain ⟨hrun, hcount⟩ := reading_spec e
    simp only [readingOption, evalOption, countOption, Option.map_some, Option.getD_some, hrun,
      hcount, and_self]

theorem readingArgs_spec (args : List FunctionArg) :
    (readingArgs ctx params args).map Reading.run = evalArgs ctx params args ∧
      (readingArgs ctx params args).map Reading.count = countArgs args := by
  match args with
  | [] => exact ⟨rfl, rfl⟩
  | arg :: args =>
    obtain ⟨hrun, hcount⟩ := readingArg_spec arg
    obtain ⟨hruns, hcounts⟩ := readingArgs_spec args
    simp only [readingArgs, evalArgs, countArgs, List.map_cons, hrun, hcount, hruns, hcounts,
      and_self]

theorem readingArg_spec (arg : FunctionArg) :
    (readingArg ctx params arg).run = evalArg ctx params arg ∧
      (readingArg ctx params arg).count = countArg arg := by
  match arg with
  | .unnamed arg | .named _ arg =>
    obtain ⟨hrun, hcount⟩ := readingArgExpr_spec arg
    simp only [readingArg, evalArg, countArg, hrun, hcount, and_self]

theorem readingArgExpr_spec (arg : FunctionArgExpr) :
    (readingArgExpr ctx params arg).run = evalArgExpr ctx params arg ∧
      (readingArgExpr ctx params arg).count = countArgExpr arg := by
  match arg with
  | .expr e =>
    obtain ⟨hrun, hcount⟩ := reading_spec e
    simp only [readingArgExpr, evalArgExpr, countArgExpr, hrun, hcount, and_self]
  | .qualifiedWildcard | .wildcard => exact ⟨rfl, rfl⟩

end

/-- The placeholders of the expression that a run from parameter `i` on leaves unread, and those it
reads again. -/
def tally (e : Expr) (i : Nat) : Tally := (reading ctx params e).tally i

/-- The value of the expression when its placeholders read the parameters from `k` on in the order of
the text. -/
def positionalEval (e : Expr) (k : Nat) : Value := (reading ctx params e).pos k

theorem eval_balanced (e : Expr) (i : Nat) :
    (eval ctx params e i).2 + (tally ctx params e i).unread =
      i + countPlaceholders e + (tally ctx params e i).reread := by
  obtain ⟨hrun, hcount⟩ := reading_spec ctx params e
  have h := (reading_lawful ctx params e).balanced i
  rwa [hrun, hcount] at h

theorem eval_advances_iff (e : Expr) (i : Nat) :
    (eval ctx params e i).2 = i + countPlaceholders e ↔
      (tally ctx params e i).unread = (tally ctx params e i).reread := by
  have h := eval_balanced ctx params e i
  omega

/-! ### Placeholders that nothing looks at -/

mutual

/-- The placeholders that stand in the text of an expression, in a clause of a function call or in a
node that is not evaluated, beside those that are counted. -/
def hiddenPlaceholders : Expr → Nat
  | .value _ | .identifier _ | .compoundIdentifier _ => 0
  | .nested inner | .unaryOp _ inner | .isNull inner | .isNotNull inner => hiddenPlaceholders inner
  | .binaryOp left _ right => hiddenPlaceholders left + hiddenPlaceholders right
  | .between expr _ low high =>
    hiddenPlaceholders expr + hiddenPlaceholders low + hiddenPlaceholders high
  | .inList expr list _ => hiddenPlaceholders expr + (hiddenEach list).sum
  | .like _ expr pattern | .iLike _ expr pattern =>
    hiddenPlaceholders expr + hiddenPlaceholders pattern
  | .case operand conditions results elseResult =>
    hiddenOption operand + (hiddenEach conditions).sum + (hiddenEach results).sum
      + hiddenOption elseResult
  | .function _ args _ clausePlaceholders => (hiddenArgs args).sum + clausePlaceholders
  | .other _ placeholders => placeholders

def hiddenEach : List Expr → List Nat
  | [] => []
  | e :: es => hiddenPlaceholders e :: hiddenEach es

def hiddenOption : Option Expr → Nat
  | none => 0
  | some e => hiddenPlaceholders e

def hiddenArgs : List FunctionArg → List Nat
  | [] => []
  | arg :: args => hiddenArg arg :: hiddenArgs args

def hiddenArg : FunctionArg → Nat
  | .unnamed arg | .named _ arg => hiddenArgExpr arg

def hiddenArgExpr : FunctionArgExpr → Nat
  | .expr e => hiddenPlaceholders e
  | .qualifiedWildcard | .wildcard => 0

end

mutual

theorem reading_hidden (e : Expr) : (reading ctx params e).hidden = hiddenPlaceholders e := by
  match e with
  | .identifier _ | .compoundIdentifier _ | .other _ _ => rfl
  | .value v => cases v <;> rfl
  | .nested inner => exact reading_hidden inner
  | .unaryOp _ inner | .isNull inner | .isNotNull inner =>
    simp only [reading, Reading.map, hiddenPlaceholders, reading_hidden inner]
  | .binaryOp left op right =>
    cases op <;> simp only [reading, Reading.and, Reading.map₂, hiddenPlaceholders,
      reading_hidden left, reading_hidden right]
  | .between expr _ low high =>
    simp only [reading, Reading.map₃, hiddenPlaceholders, reading_hidden expr, reading_hidden low,
      reading_hidden high]
  | .inList expr list _ =>
    simp only [reading, Reading.inList, Reading.hiddenAll, hiddenPlaceholders, reading_hidden expr,
      readingEach_hidden list]
  | .like _ expr pattern | .iLike _ expr pattern =>
    simp only [reading, Reading.map₂, hiddenPlaceholders, reading_hidden expr,
      reading_hidden pattern]
  | .case operand conditions results elseResult =>
    simp only [reading, Reading.case, Reading.operandHidden, Reading.hiddenAll, hiddenPlaceholders,
      readingOption_hidden operand, readingEach_hidden conditions, readingEach_hidden results,
      ← readingOption_hidden elseResult]
    cases readingOption ctx params elseResult <;> rfl
  | .function _ args _ _ =>
    simp only [reading, Reading.apply, Reading.hiddenAll, hiddenPlaceholders,
      readingArgs_hidden args]

theorem readingEach_hidden (es : List Expr) :
    (readingEach ctx params es).map Reading.hidden = hiddenEach es := by
  match es with
  | [] => rfl
  | e :: es =>
    simp only [readingEach, hiddenEach, List.map_cons, reading_hidden e, readingEach_hidden es]

theorem readingOption_hidden (o : Option Expr) :
    ((readingOption ctx params o).map Reading.hidden).getD 0 = hiddenOption o := by
  match o with
  | none => rfl
  | some e =>
    simp only [readingOption, hiddenOption, Option.map_some, Option.getD_some, reading_hidden e]

theorem readingArgs_hidden (args : List FunctionArg) :
    (readingArgs ctx params args).map Reading.hidden = hiddenArgs args := by
  match args with
  | [] => rfl
  | arg :: args =>
    simp only [readingArgs, hiddenArgs, List.map_cons, readingArg_hidden arg,
      readingArgs_hidden args]

theorem readingArg_hidden (arg : FunctionArg) :
    (readingArg ctx params arg).hidden = hiddenArg arg := by
  match arg with
  | .unnamed arg | .named _ arg => exact readingArgExpr_hidden arg

theorem readingArgExpr_hidden (arg : FunctionArgExpr) :
    (readingArgExpr ctx params arg).hidden = hiddenArgExpr arg := by
  match arg with
  | .expr e => exact reading_hidden e
  | .qualifiedWildcard | .wildcard => rfl

end

end Expr

def questionMark : Expr := .value (.placeholder "?")

def column (name : String) : Ident := ⟨name, name⟩

end Skvs
