import Skvs.Engine
import Skvs.Lib.TextSearch

/-!
# Parsing CREATE TRIGGER does not panic

The offsets at which the parts of the statement begin and end are found in an upper-cased copy of the
text, and some of them are used to slice the text itself.
-/

namespace Skvs

open Prog Text

section

variable [Externals]

/-! ### The steps of the parser -/

omit [Externals] in
theorem throw_bind {α β : Type} (e : Fail) (f : α → Except Fail β) :
    (throw e : Except Fail α) >>= f = throw e := rfl

omit [Externals] in
theorem ok_bind {α β : Type} (a : α) (f : α → Except Fail β) : Except.ok a >>= f = f a := rfl

omit [Externals] in
theorem ite_bind {α β : Type} (c : Prop) [Decidable c] (x y : Except Fail α) (f : α → Except Fail β) :
    (if c then x else y) >>= f = if c then x >>= f else y >>= f := by
  split_ifs <;> rfl

/-- The words between CREATE TRIGGER and the rest: name, timing, event, ON and table. -/
def parseHeader (restRaw : List Char) : Except Fail (String × TriggerTiming × TriggerEvent × String) := do
  let (name, words) ← nextWord (splitWhitespace restRaw)
  let (timingWord, words) ← nextWord words
  let (timing, words) ← parseTiming timingWord words
  let (eventWord, words) ← nextWord words
  let event ← parseEvent eventWord
  let (onWord, words) ← nextWord words
  if toUppercase onWord ≠ "ON" then throw malformedTrigger
  let (tableWord, _) ← nextWord words
  return (name, timing, event,
    String.ofList (trimMatches (fun c => c = ',' || c = ';') tableWord.toList))

/-- The text between the first BEGIN and the last END. -/
def parseBody (sql upper : List Char) : Except Fail String := do
  let beginPos ← orMalformed (find "BEGIN".toList upper)
  let endPos ← orMalformed (rfind "END".toList upper)
  if endPos ≤ beginPos then throw malformedTrigger
  let body ← orPanic (slice sql (beginPos + 5) endPos)
  return String.ofList (trim body)

theorem parseTrigger_eq (sql : String) :
    parseTrigger sql = (do
      let sql := trim sql.toList
      let upper := (toUppercase (String.ofList sql)).toList
      let rest ← orMalformed (stripPrefix "CREATE TRIGGER".toList upper)
      if byteLength sql < byteLength rest then throw .panic
      let restRaw ← orPanic (sliceFrom sql (byteLength sql - byteLength rest))
      let (name, timing, event, table) ← parseHeader restRaw
      let afterOn ← orPanic (sliceFrom upper (((find " ON ".toList upper).map fun i => i + 4).getD 0))
      let condition ← parseCondition sql upper
      let body ← parseBody sql upper
      return { name, timing, event, table, condition, body
               forEachRow := contains "FOR EACH ROW".toList afterOn }) := by
  simp only [parseTrigger, parseHeader, parseBody, bind_assoc, pure_bind, ite_bind, throw_bind]

/-! ### Which steps can panic -/

/-- The outcome is a result or an error. -/
def Returns {α : Type} : Except Fail α → Prop
  | .ok _ | .error (.err _) => True
  | .error .panic | .error .outOfFuel => False

section

omit [Externals]

variable {α β : Type}

theorem returns_ok (a : α) : Returns (.ok a) := trivial

theorem returns_bind {x : Except Fail α} {f : α → Except Fail β} :
    Returns (x >>= f) ↔ Returns x ∧ ∀ a, x = .ok a → Returns (f a) := by
  rcases x with (_ | _ | _) | a <;> simp [Returns, bind, Except.bind]

theorem returns_ite {c : Prop} [Decidable c] {x y : Except Fail α} :
    Returns (if c then x else y) ↔ (c → Returns x) ∧ (¬c → Returns y) := by
  split_ifs with hc <;> simp [hc]

theorem returns_malformed : Returns (throw malformedTrigger : Except Fail α) := trivial

theorem returns_orMalformed (o : Option α) : Returns (orMalformed o) := by cases o <;> trivial

theorem returns_orPanic {o : Option α} : Returns (orPanic o) ↔ o.isSome = true := by
  cases o <;> simp [Returns, orPanic]

theorem orMalformed_eq_ok {o : Option α} {a : α} : orMalformed o = .ok a ↔ o = some a := by
  cases o <;> simp [orMalformed]

theorem orPanic_eq_ok {o : Option α} {a : α} : orPanic o = .ok a ↔ o = some a := by
  cases o <;> simp [orPanic]

theorem returns_nextWord (words : List (List Char)) : Returns (nextWord words) := by
  cases words <;> trivial

end

theorem returns_parseTiming (word : String) (words : List (List Char)) : Returns (parseTiming word words) := by
  unfold parseTiming
  split <;> trivial

theorem returns_parseEvent (word : String) : Returns (parseEvent word) := by
  unfold parseEvent
  split <;> trivial

theorem returns_parseHeader (restRaw : List Char) : Returns (parseHeader restRaw) := by
  simp only [parseHeader, returns_bind, returns_ite, throw_bind]
  refine ⟨returns_nextWord _, fun a _ => ⟨returns_nextWord _, fun b _ => ⟨returns_parseTiming _ _,
    fun c _ => ⟨returns_nextWord _, fun d _ => ⟨returns_parseEvent _, fun e _ => ⟨returns_nextWord _,
      fun f _ => ⟨fun _ => returns_malformed, fun _ => ⟨returns_nextWord _, fun g _ => returns_ok _⟩⟩⟩⟩⟩⟩⟩⟩

/-! ### Aligned texts -/

/-- What the upper-cased copy has after CREATE TRIGGER is no longer than the text, and begins, counted
from the end, with a character of the text. -/
def HeaderAligned (sql rest : List Char) : Prop :=
  byteLength rest ≤ byteLength sql ∧ IsBoundary sql (byteLength sql - byteLength rest)

/-- If the copy has a WHEN and then a BEGIN, these do not overlap, and what is between them in the copy
begins and ends, counted from the front, with characters of the text. -/
def ConditionAligned (sql upper : List Char) : Prop :=
  ∀ whenPos fromWhen p, find " WHEN ".toList upper = some whenPos →
    sliceFrom upper whenPos = some fromWhen → find " BEGIN ".toList fromWhen = some p →
    6 ≤ p ∧ IsBoundary sql (whenPos + 6) ∧ IsBoundary sql (whenPos + p)

/-- If the copy has a BEGIN and an END after it, what is between them in the copy begins and ends,
counted from the front, with characters of the text. -/
def BodyAligned (sql upper : List Char) : Prop :=
  ∀ beginPos endPos, find "BEGIN".toList upper = some beginPos → rfind "END".toList upper = some endPos →
    beginPos < endPos → IsBoundary sql (beginPos + 5) ∧ IsBoundary sql endPos

def upperCopy (text : List Char) : List Char := (toUppercase (String.ofList text)).toList

/-- The text and its upper-cased copy line up where the parser, if it gets there, cuts the text. -/
def Aligned (text : List Char) : Prop :=
  ∀ rest, stripPrefix "CREATE TRIGGER".toList (upperCopy text) = some rest →
    HeaderAligned text rest ∧
    ∀ restRaw header, sliceFrom text (byteLength text - byteLength rest) = some restRaw →
      parseHeader restRaw = .ok header →
        ConditionAligned text (upperCopy text) ∧ BodyAligned text (upperCopy text)

omit [Externals] in
/-- A search leaves a rest of the text, which begins with the match. -/
theorem sliceFrom_of_find {pat cs : List Char} {n : Nat} (h : find pat cs = some n) :
    ∃ rest, sliceFrom cs n = some rest ∧ pat <+: rest := by
  obtain ⟨a, b, rfl, rfl, -⟩ := find_eq_some h
  exact ⟨pat ++ b, by rw [List.append_assoc, sliceFrom_append], List.prefix_append pat b⟩

omit [Externals] in
theorem isSome_afterOn (upper : List Char) :
    (sliceFrom upper (((find " ON ".toList upper).map fun i => i + 4).getD 0)).isSome = true := by
  rw [isSome_sliceFrom]
  cases hon : find " ON ".toList upper with
  | none => exact ⟨[], upper, rfl, rfl⟩
  | some n =>
      obtain ⟨a, b, rfl, rfl, -⟩ := find_eq_some hon
      exact ⟨a ++ " ON ".toList, b, rfl, by rw [byteLength_append]; rfl⟩

omit [Externals] in
theorem parseCondition_of_begin {sql upper fromWhen : List Char} {whenPos p : Nat}
    (hwhen : find " WHEN ".toList upper = some whenPos) (hfrom : sliceFrom upper whenPos = some fromWhen)
    (hbegin : find " BEGIN ".toList fromWhen = some p) :
    parseCondition sql upper =
      orPanic (slice sql (whenPos + 6) (whenPos + p)) >>= fun cond => .ok (some (String.ofList (trim cond))) := by
  simp only [parseCondition, hwhen, orPanic_eq_ok.mpr hfrom, ok_bind, hbegin]

omit [Externals] in
/-- Without a WHEN, or without a BEGIN after it, no condition is read. -/
theorem parseCondition_of_no_begin {sql upper : List Char}
    (h : ∀ whenPos fromWhen, find " WHEN ".toList upper = some whenPos →
      sliceFrom upper whenPos = some fromWhen → find " BEGIN ".toList fromWhen = none) :
    parseCondition sql upper = .ok none := by
  unfold parseCondition
  cases hwhen : find " WHEN ".toList upper with
  | none => rfl
  | some whenPos =>
      obtain ⟨fromWhen, hfrom, -⟩ := sliceFrom_of_find hwhen
      simp only [orPanic_eq_ok.mpr hfrom, ok_bind, h _ _ hwhen hfrom]

omit [Externals] in
/-- Reading the condition slices the text between the WHEN and the BEGIN of the copy, or does nothing. -/
theorem parseCondition_cases (sql upper : List Char) :
    (∃ whenPos fromWhen p, find " WHEN ".toList upper = some whenPos ∧
      sliceFrom upper whenPos = some fromWhen ∧ find " BEGIN ".toList fromWhen = some p ∧
      parseCondition sql upper =
        orPanic (slice sql (whenPos + 6) (whenPos + p)) >>= fun cond => .ok (some (String.ofList (trim cond)))) ∨
    ((∀ whenPos fromWhen, find " WHEN ".toList upper = some whenPos →
        sliceFrom upper whenPos = some fromWhen → find " BEGIN ".toList fromWhen = none) ∧
      parseCondition sql upper = .ok none) := by
  by_cases h : ∃ whenPos fromWhen p, find " WHEN ".toList upper = some whenPos ∧
      sliceFrom upper whenPos = some fromWhen ∧ find " BEGIN ".toList fromWhen = some p
  · obtain ⟨whenPos, fromWhen, p, hwhen, hfrom, hbegin⟩ := h
    exact .inl ⟨whenPos, fromWhen, p, hwhen, hfrom, hbegin, parseCondition_of_begin hwhen hfrom hbegin⟩
  · push Not at h
    have hnone : ∀ whenPos fromWhen, find " WHEN ".toList upper = some whenPos →
        sliceFrom upper whenPos = some fromWhen → find " BEGIN ".toList fromWhen = none := by
      intro whenPos fromWhen hwhen hfrom
      exact Option.eq_none_iff_forall_ne_some.mpr (h _ _ · hwhen hfrom)
    exact .inr ⟨hnone, parseCondition_of_no_begin hnone⟩

omit [Externals] in
theorem returns_parseCondition {sql upper : List Char} :
    Returns (parseCondition sql upper) ↔ ConditionAligned sql upper := by
  rcases parseCondition_cases sql upper with
    ⟨whenPos, fromWhen, p, hwhen, hfrom, hbegin, heq⟩ | ⟨hnone, heq⟩
  · rw [heq, returns_bind, returns_orPanic, isSome_slice, Nat.add_le_add_iff_left]
    constructor
    · rintro ⟨hreturns, -⟩ whenPos' fromWhen' p' hwhen' hfrom' hbegin'
      obtain rfl := Option.some.inj (hwhen.symm.trans hwhen')
      obtain rfl := Option.some.inj (hfrom.symm.trans hfrom')
      obtain rfl := Option.some.inj (hbegin.symm.trans hbegin')
      exact hreturns
    · exact fun haligned => ⟨haligned _ _ _ hwhen hfrom hbegin, fun _ _ => returns_ok _⟩
  · rw [heq]
    refine iff_of_true (returns_ok _) fun whenPos fromWhen p hwhen hfrom hbegin => ?_
    rw [hnone _ _ hwhen hfrom] at hbegin
    exact nomatch hbegin

omit [Externals] in
theorem exists_ok_of_returns_condition {sql upper : List Char} (h : Returns (parseCondition sql upper)) :
    ∃ condition, parseCondition sql upper = .ok condition := by
  rcases parseCondition_cases sql upper with ⟨whenPos, fromWhen, p, -, -, -, heq⟩ | ⟨-, heq⟩
  · rw [heq, returns_bind, returns_orPanic, Option.isSome_iff_exists] at h
    obtain ⟨⟨cond, hcond⟩, -⟩ := h
    exact ⟨_, by rw [heq, hcond]; rfl⟩
  · exact ⟨none, heq⟩

omit [Externals] in
/-- BEGIN and END have no common part, so an END after a BEGIN begins after its end. -/
theorem le_of_begin_end {a b a' b' : List Char}
    (heq : a ++ "BEGIN".toList ++ b = a' ++ "END".toList ++ b') (hlt : byteLength a < byteLength a') :
    byteLength a + 5 ≤ byteLength a' := by
  simp only [List.append_assoc] at heq
  rcases List.append_eq_append_iff.mp heq with ⟨m, rfl, hm⟩ | ⟨m, rfl, -⟩
  · rw [byteLength_append] at hlt ⊢
    rcases m with _ | ⟨c1, _ | ⟨c2, _ | ⟨c3, _ | ⟨c4, _ | ⟨c5, m⟩⟩⟩⟩⟩
    · simp at hlt
    all_goals simp at hm
    · refine Nat.add_le_add_left (le_trans ?_ (length_le_byteLength _)) _
      simp
  · rw [byteLength_append] at hlt
    omega

omit [Externals] in
theorem returns_parseBody {sql upper : List Char} : Returns (parseBody sql upper) ↔ BodyAligned sql upper := by
  simp only [parseBody, returns_bind, returns_ite, returns_orMalformed, returns_orPanic, orMalformed_eq_ok, isSome_slice,
    throw_bind, true_and]
  constructor
  · intro h beginPos endPos hbegin hend hlt
    exact ((h beginPos hbegin endPos hend).2 (by omega)).1.2
  · intro haligned beginPos hbegin endPos hend
    refine ⟨fun _ => returns_malformed, fun hlt => ⟨⟨?_, haligned _ _ hbegin hend (by omega)⟩, fun _ _ => returns_ok _⟩⟩
    obtain ⟨a, b, hcopy, rfl, -⟩ := find_eq_some hbegin
    obtain ⟨a', b', hcopy', rfl⟩ := rfind_eq_some hend
    exact le_of_begin_end (hcopy.symm.trans hcopy') (by omega)

/-- Parsing a CREATE TRIGGER panics exactly if the text and its upper-cased copy are not aligned. -/
theorem returns_parseTrigger (sql : String) : Returns (parseTrigger sql) ↔ Aligned (trim sql.toList) := by
  rw [parseTrigger_eq]
  simp only [Aligned, upperCopy, returns_bind, returns_ite, returns_orMalformed, returns_orPanic, returns_parseHeader, returns_parseBody,
    returns_parseCondition, isSome_afterOn, isSome_sliceFrom, orMalformed_eq_ok, orPanic_eq_ok, throw_bind,
    true_and]
  refine forall₂_congr fun rest hrest => ?_
  constructor
  · rintro ⟨hlen, h⟩
    have hle : byteLength rest ≤ byteLength (trim sql.toList) := not_lt.mp fun hlt => hlen hlt
    obtain ⟨hboundary, h⟩ := h (not_lt.mpr hle)
    refine ⟨⟨hle, hboundary⟩, fun restRaw header hfrom hheader => ?_⟩
    obtain ⟨afterOn, hafter⟩ := Option.isSome_iff_exists.mp (isSome_afterOn _)
    obtain ⟨hcondition, h⟩ := h restRaw hfrom header hheader afterOn hafter
    obtain ⟨condition, hok⟩ := exists_ok_of_returns_condition (returns_parseCondition.mpr hcondition)
    exact ⟨hcondition, (h condition hok).1⟩
  · rintro ⟨⟨hle, hboundary⟩, h⟩
    refine ⟨fun hlt => absurd hle (not_le.mpr hlt), fun _ => ⟨hboundary, ?_⟩⟩
    intro restRaw hfrom header hheader afterOn hafter
    obtain ⟨hcondition, hbody⟩ := h restRaw header hfrom hheader
    exact ⟨hcondition, fun _ _ => ⟨hbody, fun _ _ => returns_ok _⟩⟩

/-! ### Upper-casing that keeps the sizes of characters -/

/-- The first WHEN of the upper-cased copy has BEGIN as its next word, one blank between them. -/
def WhenMeetsBegin (upper : List Char) : Prop :=
  ∃ a b, upper = a ++ " WHEN BEGIN ".toList ++ b ∧
    ∀ a' b', upper = a' ++ " WHEN ".toList ++ b' → a.length ≤ a'.length

omit [Externals] in
/-- After a WHEN the next BEGIN overlaps with it exactly if it is the next word. -/
theorem six_le_iff {b : List Char} {p : Nat} (hbegin : find " BEGIN ".toList (" WHEN ".toList ++ b) = some p) :
    6 ≤ p ↔ ¬"BEGIN ".toList <+: b := by
  obtain ⟨c, d, heq, rfl, hfirst⟩ := find_eq_some hbegin
  rcases c with _ | ⟨c1, _ | ⟨c2, _ | ⟨c3, _ | ⟨c4, _ | ⟨c5, _ | ⟨c6, c⟩⟩⟩⟩⟩⟩
  all_goals simp at heq
  · obtain ⟨rfl, rfl, rfl, rfl, rfl, rfl⟩ := heq
    exact iff_of_false (by decide) (not_not_intro ⟨d, rfl⟩)
  · obtain ⟨rfl, rfl, rfl, rfl, rfl, rfl, rfl⟩ := heq
    refine iff_of_true (le_trans (by simp) (length_le_byteLength _)) ?_
    rintro ⟨e, he⟩
    have hlen : c.length + 6 ≤ 5 := hfirst " WHEN".toList e (by simpa using he.symm)
    omega

section

variable {text upper : List Char}

omit [Externals]

theorem sliceFrom_of_append {a b : List Char} {n : Nat} {rest : List Char} (h : sliceFrom (a ++ b) n = some rest)
    (hn : byteLength a = n) : rest = b := by
  subst hn
  rw [sliceFrom_append, Option.some.injEq] at h
  exact h.symm

theorem conditionAligned_of_sizes (hsizes : text.map Char.utf8Size = upper.map Char.utf8Size) :
    ConditionAligned text upper ↔ ¬WhenMeetsBegin upper := by
  constructor
  · rintro haligned ⟨a, b, rfl, hfirst⟩
    have hsplit : a ++ " WHEN BEGIN ".toList ++ b = a ++ " WHEN ".toList ++ ("BEGIN ".toList ++ b) := by simp
    rw [hsplit] at haligned hfirst
    cases hbegin : find " BEGIN ".toList (" WHEN ".toList ++ ("BEGIN ".toList ++ b)) with
    | none => exact find_eq_none.mp hbegin ⟨" WHEN".toList, b, by simp⟩
    | some p =>
        have hle := (haligned (byteLength a) _ p (find_of_first hfirst)
          (by rw [List.append_assoc, sliceFrom_append]) hbegin).1
        exact (six_le_iff hbegin).mp hle ⟨b, rfl⟩
  · intro hnot whenPos fromWhen p hwhen hfrom hbegin
    obtain ⟨a, b, rfl, rfl, hfirst⟩ := find_eq_some hwhen
    rw [List.append_assoc] at hfrom
    obtain rfl := sliceFrom_of_append hfrom rfl
    obtain ⟨c, d, heq, rfl, -⟩ := find_eq_some hbegin
    refine ⟨(six_le_iff hbegin).mpr ?_, .of_sizes hsizes ⟨a ++ " WHEN ".toList, b, rfl, byteLength_append ..⟩,
      .of_sizes hsizes ⟨a ++ c, " BEGIN ".toList ++ d, ?_, byteLength_append ..⟩⟩
    · rintro ⟨e, rfl⟩
      exact hnot ⟨a, e, by simp, hfirst⟩
    · rw [List.append_assoc, heq]
      simp only [List.append_assoc]

theorem bodyAligned_of_sizes (hsizes : text.map Char.utf8Size = upper.map Char.utf8Size) :
    BodyAligned text upper := by
  intro beginPos endPos hbegin hend _
  obtain ⟨a, b, hcopy, rfl, -⟩ := find_eq_some hbegin
  obtain ⟨a', b', hcopy', rfl⟩ := rfind_eq_some hend
  exact ⟨.of_sizes hsizes ⟨a ++ "BEGIN".toList, b, hcopy, byteLength_append ..⟩,
    .of_sizes hsizes ⟨a', "END".toList ++ b', by rw [hcopy', List.append_assoc], rfl⟩⟩

theorem sliceFrom_of_sizes {rest : List Char} (hsizes : text.map Char.utf8Size = upper.map Char.utf8Size)
    (hrest : stripPrefix "CREATE TRIGGER".toList upper = some rest) :
    byteLength rest ≤ byteLength text ∧
      sliceFrom text (byteLength text - byteLength rest) = some (text.drop 14) := by
  rw [stripPrefix, Option.ite_none_right_eq_some] at hrest
  obtain ⟨hpre, hrest⟩ := hrest
  obtain ⟨b, rfl⟩ := List.isPrefixOf_iff_prefix.mp hpre
  obtain rfl := Option.some.inj hrest
  rw [List.drop_left]
  have htake : byteLength (text.take 14) = 14 := byteLength_take_of_sizes hsizes
  have hlen : byteLength text = 14 + byteLength b := by
    rw [byteLength_of_sizes hsizes, byteLength_append]
    rfl
  refine ⟨by omega, ?_⟩
  have hfrom := sliceFrom_append (text.take 14) (text.drop 14)
  rw [List.take_append_drop, htake] at hfrom
  rwa [show byteLength text - byteLength b = 14 by omega]

end

/-- If upper-casing keeps the sizes of all characters, the text and the copy are aligned unless the
statement has a proper header, and BEGIN right after its first WHEN. -/
theorem aligned_of_sizes {text : List Char}
    (hsizes : text.map Char.utf8Size = (upperCopy text).map Char.utf8Size) :
    Aligned text ↔ ∀ rest header, stripPrefix "CREATE TRIGGER".toList (upperCopy text) = some rest →
      parseHeader (text.drop 14) = .ok header → ¬WhenMeetsBegin (upperCopy text) := by
  constructor
  · intro haligned rest header hrest hheader
    obtain ⟨-, hfrom⟩ := sliceFrom_of_sizes hsizes hrest
    exact (conditionAligned_of_sizes hsizes).mp ((haligned rest hrest).2 _ header hfrom hheader).1
  · intro h rest hrest
    obtain ⟨hle, hfrom⟩ := sliceFrom_of_sizes hsizes hrest
    refine ⟨⟨hle, isSome_sliceFrom.mp (by rw [hfrom]; rfl)⟩, fun restRaw header hraw hheader => ?_⟩
    obtain rfl := Option.some.inj (hraw.symm.trans hfrom)
    exact ⟨(conditionAligned_of_sizes hsizes).mpr (h rest header hrest hheader), bodyAligned_of_sizes hsizes⟩

/-! ### Executing the statement -/

theorem outcome_execute_trigger {sql : String}
    (hstarts : "CREATE TRIGGER".toList.isPrefixOf (upperCopy (trimStart sql.toList)) = true)
    (fuel : Nat) (dbId : UInt32) (params : List Value) (txId : Option UInt32) (w : World) :
    (exec (execute fuel dbId sql params txId) w).1 = (parseTrigger sql).map fun _ => .empty := by
  have hcreate : execute fuel dbId sql params txId = createTrigger dbId sql := if_pos hstarts
  rw [hcreate, createTrigger, exec_bind, exec_ofExcept]
  cases parseTrigger sql <;> rfl

omit [Externals] in
theorem returns_map {α β : Type} {x : Except Fail α} {f : α → β} : Returns (x.map f) ↔ Returns x := by
  rcases x with (_ | _ | _) | _ <;> rfl

/-- A statement that begins with CREATE TRIGGER returns a result or an error exactly if its text and the
upper-cased copy are aligned. Where upper-casing keeps the sizes of characters this fails in one way
only: the header is proper, and the first WHEN is followed by BEGIN. -/
theorem createTrigger_returns_iff {sql : String}
    (hstarts : "CREATE TRIGGER".toList.isPrefixOf (upperCopy (trimStart sql.toList)) = true)
    (fuel : Nat) (dbId : UInt32) (params : List Value) (txId : Option UInt32) (w : World) :
    (Returns (exec (execute fuel dbId sql params txId) w).1 ↔ Aligned (trim sql.toList)) ∧
      ((trim sql.toList).map Char.utf8Size = (upperCopy (trim sql.toList)).map Char.utf8Size →
        (Returns (exec (execute fuel dbId sql params txId) w).1 ↔
          ∀ rest header, stripPrefix "CREATE TRIGGER".toList (upperCopy (trim sql.toList)) = some rest →
            parseHeader ((trim sql.toList).drop 14) = .ok header →
              ¬WhenMeetsBegin (upperCopy (trim sql.toList)))) := by
  have hreturns : Returns (exec (execute fuel dbId sql params txId) w).1 ↔ Aligned (trim sql.toList) := by
    rw [outcome_execute_trigger hstarts, returns_map, returns_parseTrigger]
  exact ⟨hreturns, fun hsizes => hreturns.trans (aligned_of_sizes hsizes)⟩

end

theorem upperCopy_ofTexts (text : List Char) :
    letI := Externals.ofTexts [] []
    upperCopy text = text.map Char.toUpper := by
  change (String.ofList ((String.ofList text).toList.map Char.toUpper)).toList = _
  rw [String.toList_ofList, String.toList_ofList]

/-- A trigger without a condition. -/
def Sample.plainText : String := "CREATE TRIGGER a AFTER DELETE ON t BEGIN END"

/-- A trigger without a condition is read. -/
theorem createTrigger_returns_plain :
    letI := Externals.ofTexts [] []
    Returns (exec (execute 0 0 Sample.plainText [] none) ⟨.new [0], []⟩).1 := by
  let _ := Externals.ofTexts [] []
  have hstarts : "CREATE TRIGGER".toList.isPrefixOf (upperCopy (trimStart Sample.plainText.toList)) = true := by
    rw [upperCopy_ofTexts]
    decide
  have hsizes : (trim Sample.plainText.toList).map Char.utf8Size =
      (upperCopy (trim Sample.plainText.toList)).map Char.utf8Size := by
    rw [upperCopy_ofTexts]
    decide
  have hno : find " WHEN BEGIN ".toList (upperCopy (trim Sample.plainText.toList)) = none := by
    rw [upperCopy_ofTexts]
    decide
  refine ((createTrigger_returns_iff hstarts 0 0 [] none ⟨.new [0], []⟩).2 hsizes).mpr ?_
  rintro - - - - ⟨a, b, heq, -⟩
  exact find_eq_none.mp hno ⟨a, b, heq.symm⟩

/-- A WHEN with no condition after it. -/
def Sample.bareWhenText : String := "CREATE TRIGGER a AFTER DELETE ON t WHEN BEGIN END"

/-- The upper-case forms of `Externals.ofTexts`, and one that is longer. -/
def Sample.longerUpper (c : Char) : List Char := if c = 'ŉ' then ['ʼ', 'N'] else [c.toUpper]

@[reducible]
def Sample.longerUpperCase : Externals :=
  { Externals.ofTexts [] [] with
    toUppercase := fun s => String.ofList (s.toList.flatMap Sample.longerUpper) }

theorem upperCopy_longerUpperCase (text : List Char) :
    letI := Sample.longerUpperCase
    upperCopy text = text.flatMap Sample.longerUpper := by
  change (String.ofList ((String.ofList text).toList.flatMap Sample.longerUpper)).toList = _
  rw [String.toList_ofList, String.toList_ofList]

def Sample.longerText : String := "CREATE TRIGGER ŉŉŉŉŉŉŉŉŉŉŉŉŉŉŉ"

/-- A WHEN with no condition is a panic, and so are characters with longer upper-case forms. -/
theorem not_createTrigger_returns :
    ¬Returns (exec (@execute (Externals.ofTexts [] []) 0 0 Sample.bareWhenText [] none) ⟨.new [0], []⟩).1 ∧
    ¬Returns (exec (@execute Sample.longerUpperCase 0 0 Sample.longerText [] none) ⟨.new [0], []⟩).1 := by
  constructor
  · let _ := Externals.ofTexts [] []
    have hstarts : "CREATE TRIGGER".toList.isPrefixOf (upperCopy (trimStart Sample.bareWhenText.toList)) = true := by
      rw [upperCopy_ofTexts]
      decide
    have hpanic : parseTrigger Sample.bareWhenText = .error .panic := by decide
    rw [outcome_execute_trigger hstarts, hpanic]
    exact id
  · let _ := Sample.longerUpperCase
    have hstarts : "CREATE TRIGGER".toList.isPrefixOf (upperCopy (trimStart Sample.longerText.toList)) = true := by
      rw [upperCopy_longerUpperCase]
      decide
    have hpanic : parseTrigger Sample.longerText = .error .panic := by decide
    rw [outcome_execute_trigger hstarts, hpanic]
    exact id

end Skvs
