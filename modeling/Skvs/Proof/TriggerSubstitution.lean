import Skvs.Lib.Rewriting
import Skvs.Trigger

/-!
# OLD and NEW in a trigger body

The references to the columns of OLD and NEW are replaced one column after the other, in a text that
holds the values of the columns before. A column whose name begins the name of a later one takes part of
its references, and a value that looks like a reference to a later column is replaced in its turn.
-/

namespace Skvs

open Text

/-! ### What the substitution is meant to be -/

/-- The references to the columns of a row, with the literals of their values. -/
def references (tag : String) (row : Option Row) : List Rule :=
  match row with
  | none => []
  | some row => row.entries.map fun e => ⟨(tag ++ e.1).toList, (valueToSqlLiteral e.2).toList⟩

def triggerReferences (oldRow newRow : Option Row) : List Rule :=
  references "OLD." oldRow ++ references "NEW." newRow

/-- The body with each longest reference to a column replaced by the literal of its value, all at
once. -/
def substituteReferences (body : String) (oldRow newRow : Option Row) : String :=
  String.ofList (replaceEach (triggerReferences oldRow newRow) body.toList)

/-! ### What it is -/

theorem toList_substituteRow (tag : String) (row : Option Row) (body : String) :
    (substituteRow tag row body).toList = replaceInTurn (references tag row) body.toList := by
  cases row with
  | none => rfl
  | some row =>
      rw [substituteRow, references, replaceInTurn, List.foldl_map]
      induction row.entries generalizing body with
      | nil => rfl
      | cons e entries ih =>
          rw [List.foldl_cons, List.foldl_cons, ih, Text.replace, String.toList_ofList]

theorem toList_substituteTriggerVariables (body : String) (oldRow newRow : Option Row) :
    (substituteTriggerVariables body oldRow newRow).toList =
      replaceInTurn (triggerReferences oldRow newRow) body.toList := by
  rw [substituteTriggerVariables, toList_substituteRow, toList_substituteRow, triggerReferences,
    replaceInTurn, replaceInTurn, replaceInTurn, List.foldl_append]

theorem nodup_references (tag : String) (row : Option Row) : (references tag row).Nodup := by
  cases row with
  | none => exact List.nodup_nil
  | some row =>
      refine List.Nodup.of_map Rule.pattern ?_
      rw [references, List.map_map]
      have hkeys := row.nodup.map (f := fun c : String => (tag ++ c).toList) fun c c' h => by
        beta_reduce at h
        rw [String.toList_append, String.toList_append] at h
        exact String.toList_injective (List.append_cancel_left h)
      rw [List.map_map] at hkeys
      exact hkeys

theorem exists_pattern_of_mem {tag : String} {row : Option Row} {r : Rule}
    (h : r ∈ references tag row) :
    ∃ c v, r = ⟨tag.toList ++ c, (valueToSqlLiteral v).toList⟩ := by
  cases row with
  | none => exact absurd h List.not_mem_nil
  | some row =>
      obtain ⟨e, -, rfl⟩ := List.mem_map.mp h
      exact ⟨e.1.toList, e.2, by rw [String.toList_append]⟩

theorem nodup_triggerReferences (oldRow newRow : Option Row) :
    (triggerReferences oldRow newRow).Nodup := by
  refine (nodup_references _ _).append (nodup_references _ _) fun r hold hnew => ?_
  obtain ⟨c, v, rfl⟩ := exists_pattern_of_mem hold
  obtain ⟨c', v', heq⟩ := exists_pattern_of_mem hnew
  have hhead : 'O' = 'N' := (List.cons.inj (Rule.mk.inj heq).1).1
  exact absurd hhead (by decide)

/-! ### Literals -/

/-- The text starts with a digit or a minus sign. -/
def StartsAsNumber (s : String) : Prop := ∃ c t, s.toList = c :: t ∧ (c.isDigit = true ∨ c = '-')

theorem StartsAsNumber.append {s : String} (h : StartsAsNumber s) (s' : String) :
    StartsAsNumber (s ++ s') := by
  obtain ⟨c, t, hs, hc⟩ := h
  exact ⟨c, t ++ s'.toList, by rw [String.toList_append, hs]; rfl, hc⟩

theorem startsAsNumber_minus : StartsAsNumber "-" := ⟨'-', [], rfl, Or.inr rfl⟩

theorem startsAsNumber_zero : StartsAsNumber "0" := ⟨'0', [], rfl, Or.inl rfl⟩

theorem startsAsNumber_nat (n : Nat) : StartsAsNumber (toString n) := by
  obtain ⟨c, t, ht, hc⟩ := Text.exists_toDigits n
  exact ⟨c, t, Nat.toList_repr.trans ht, Or.inl hc⟩

theorem startsAsNumber_int (i : Int) : StartsAsNumber (toString i) := by
  cases i with
  | ofNat n => exact startsAsNumber_nat n
  | negSucc n =>
      change StartsAsNumber ("-" ++ Nat.repr (n + 1))
      exact startsAsNumber_minus.append _

theorem startsAsNumber_plainDecimal (c : Nat) (e : Int) : StartsAsNumber (F64.plainDecimal c e) := by
  rw [F64.plainDecimal]
  simp only
  split_ifs with hpos hlong
  · exact (startsAsNumber_nat c).append _
  · refine StartsAsNumber.append (StartsAsNumber.append ?_ _) _
    obtain ⟨d, t, ht, hd⟩ := startsAsNumber_nat c
    obtain ⟨m, hm⟩ := Nat.exists_eq_add_of_lt hlong
    refine ⟨d, t.take m, ?_, hd⟩
    rw [String.toList_ofList, ht, hm, show (-e).toNat + m + 1 - (-e).toNat = m + 1 by omega]
    rfl
  · exact (StartsAsNumber.append ⟨'0', ['.'], rfl, Or.inl rfl⟩ _).append _

theorem startsAsNumber_display (x : F64) :
    StartsAsNumber x.display ∨ x.display = "NaN" ∨ x.display = "inf" := by
  cases x with
  | nan => exact Or.inr (Or.inl rfl)
  | inf neg =>
      cases neg with
      | false => exact Or.inr (Or.inr rfl)
      | true => exact Or.inl (startsAsNumber_minus.append "inf")
  | negZero => exact Or.inl (startsAsNumber_minus.append "0")
  | fin q =>
      left
      rw [F64.display]
      split_ifs
      · exact startsAsNumber_zero
      · rw [F64.signText]
        split_ifs
        · exact startsAsNumber_minus.append _
        · rw [String.empty_append]
          exact startsAsNumber_plainDecimal _ _

theorem StartsAsNumber.not_reference {s : String} (h : StartsAsNumber s) (t t' : List Char) :
    s.toList ++ t ≠ 'O' :: 'L' :: t' ∧ s.toList ++ t ≠ 'N' :: 'E' :: t' := by
  obtain ⟨c, u, hs, hc⟩ := h
  rw [hs]
  constructor
  · intro heq
    obtain rfl : c = 'O' := (List.cons.inj heq).1
    exact absurd hc (by decide)
  · intro heq
    obtain rfl : c = 'N' := (List.cons.inj heq).1
    exact absurd hc (by decide)

/-- A literal does not start as a reference does. -/
theorem literal_not_reference (v : Value) (t t' : List Char) :
    (valueToSqlLiteral v).toList ++ t ≠ 'O' :: 'L' :: t' ∧
      (valueToSqlLiteral v).toList ++ t ≠ 'N' :: 'E' :: t' := by
  cases v with
  | null => exact ⟨nofun, nofun⟩
  | integer i => exact (startsAsNumber_int i.toInt).not_reference t t'
  | real x =>
      rcases startsAsNumber_display x with hnum | hnan | hinf
      · exact hnum.not_reference t t'
      · rw [valueToSqlLiteral, hnan]
        exact ⟨nofun, nofun⟩
      · rw [valueToSqlLiteral, hinf]
        exact ⟨nofun, nofun⟩
  | text s =>
      rw [valueToSqlLiteral, String.toList_append, String.toList_append]
      exact ⟨nofun, nofun⟩
  | blob b =>
      rw [valueToSqlLiteral, String.toList_append, String.toList_append]
      exact ⟨nofun, nofun⟩

theorem marked_triggerReferences (oldRow newRow : Option Row) :
    ∀ r ∈ triggerReferences oldRow newRow, r.Marked := by
  intro r hr
  rcases List.mem_append.mp hr with hold | hnew
  · obtain ⟨c, v, rfl⟩ := exists_pattern_of_mem hold
    exact ⟨'O', 'L', 'D' :: '.' :: c, rfl, by decide, fun t t' => (literal_not_reference v t t').1⟩
  · obtain ⟨c, v, rfl⟩ := exists_pattern_of_mem hnew
    exact ⟨'N', 'E', 'W' :: '.' :: c, rfl, by decide, fun t t' => (literal_not_reference v t t').2⟩

/-- The literal of a text holds the text and nothing else: read from its opening quote on, it ends at its
closing one. -/
theorem readQuoted_textLiteral (s : String) {rest : List Char} (hrest : rest.head? ≠ some '\'') :
    ∃ t, (valueToSqlLiteral (.text s)).toList ++ rest = '\'' :: t ∧
      readQuoted '\'' t = some (s.toList, rest) := by
  refine ⟨replaceFrom ['\''] ['\'', '\''] 0 s.toList ++ '\'' :: rest, ?_, readQuoted_doubled hrest _⟩
  simp only [valueToSqlLiteral, Text.replace, String.toList_append, String.toList_ofList,
    List.append_assoc]
  rfl

/-! ### When the two agree -/

/-- The substitution is the simultaneous one if each reference, when its column's turn comes, is found
only where the body has it as a longest one. This is so exactly if after each column the text is the
body with the references to the columns so far replaced. -/
theorem trigger_substitution_hygienic (body : String) (oldRow newRow : Option Row) :
    let rules := triggerReferences oldRow newRow
    (Hygienic rules body.toList →
      substituteTriggerVariables body oldRow newRow = substituteReferences body oldRow newRow) ∧
    (Hygienic rules body.toList ↔ ∀ i ≤ rules.length,
      replaceInTurn (rules.take i) body.toList =
        render (rules.take i) (pieces rules 0 body.toList)) ∧
    ∀ (s : String) (rest : List Char), rest.head? ≠ some '\'' →
      ∃ t, (valueToSqlLiteral (.text s)).toList ++ rest = '\'' :: t ∧
        readQuoted '\'' t = some (s.toList, rest) := by
  intro rules
  have hnodup := nodup_triggerReferences oldRow newRow
  have hmark := marked_triggerReferences oldRow newRow
  refine ⟨fun h => ?_, hygienic_iff hnodup hmark, fun s rest hrest => readQuoted_textLiteral s hrest⟩
  have heq := h.replaceInTurn_eq hnodup hmark
  rw [← toList_substituteTriggerVariables] at heq
  rw [substituteReferences, ← heq, String.ofList_toList]

example : Hygienic (triggerReferences (some (.ofList [("a", .integer 1)]))
    (some (.ofList [("a", .integer 2), ("b", .text "OLD.a")]))) "DELETE FROM u WHERE a = NEW.a".toList := by
  decide

/-- A value that looks like a reference is replaced in its turn, and takes the text of another value out
of its quotes. -/
theorem stored_text_injected :
    let body := "INSERT INTO u VALUES (NEW.a)"
    let newRow : Option Row := some (.ofList [("a", .text "NEW.b"), ("b", .text "); DELETE FROM t; --")])
    substituteTriggerVariables body none newRow = "INSERT INTO u VALUES (''); DELETE FROM t; --'')" ∧
      substituteReferences body none newRow = "INSERT INTO u VALUES ('NEW.b')" ∧
      substituteTriggerVariables body none newRow ≠ substituteReferences body none newRow := by
  decide

end Skvs
