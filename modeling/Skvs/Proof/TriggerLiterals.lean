import Skvs.Proof.TriggerSubstitution

/-!
# Literals in trigger bodies

The values of OLD and NEW reach the body of a trigger as text. Read back as an expression and
evaluated, the literal of a value is the value again, except that hexadecimal literals evaluate to NULL
and the digits of the smallest INTEGER, which are read apart from its sign, are no INTEGER.
-/

namespace Skvs

open Text

theorem parseI64_toString (n : Nat) :
    parseI64 (toString n) = if n < 2 ^ 63 then some (Int64.ofNat n) else none := by
  have hdigits : (toString n).toList = Nat.toDigits 10 n := Nat.toList_repr
  have hbounds : Int64.minValue.toInt ≤ (n : Int) ∧ (n : Int) ≤ Int64.maxValue.toInt ↔ n < 2 ^ 63 := by
    rw [Int64.toInt_minValue, Int64.toInt_maxValue]
    omega
  rw [parseI64, hdigits, parseInt_toDigits, Option.bind_some, if_congr hbounds rfl rfl]
  rfl

theorem parseNumber_toString {n : Nat} (h : n < 2 ^ 63) :
    parseNumber (toString n) = .integer (Int64.ofNat n) := by
  rw [parseNumber, parseI64_toString, if_pos h]

theorem parseNumber_ne_integer {n : Nat} (h : 2 ^ 63 ≤ n) (i : Int64) :
    applyUnary .minus (parseNumber (toString n)) ≠ .integer i := by
  rw [parseNumber, parseI64_toString, if_neg (not_lt.mpr h)]
  cases F64.parse (toString n) <;> exact nofun

theorem literal_of_ofNat {i : Int64} {n : Nat} (h : i.toInt = .ofNat n) :
    valueToSqlLiteral (.integer i) = toString n := by
  change toString i.toInt = _
  rw [h]
  rfl

theorem literal_of_negSucc {i : Int64} {n : Nat} (h : i.toInt = .negSucc n) :
    valueToSqlLiteral (.integer i) = "-" ++ toString (n + 1) := by
  change toString i.toInt = _
  rw [h]
  rfl

theorem quote_notMem_hexEncode (bytes : List UInt8) : '\'' ∉ (hexEncode bytes).toList := by
  have hdigit : ∀ n < 16, Nat.digitChar n ≠ '\'' := by decide
  rw [hexEncode, String.toList_ofList]
  intro hmem
  obtain ⟨b, -, hb⟩ := List.mem_flatMap.mp hmem
  have hhigh : b.toNat / 16 < 16 := by
    have := b.toNat_lt
    omega
  have hlow : b.toNat % 16 < 16 := Nat.mod_lt _ (by decide)
  rcases List.mem_pair.mp hb with heq | heq
  · exact hdigit _ hhigh heq.symm
  · exact hdigit _ hlow heq.symm

section

variable [Externals]

/-- How the SQL parser reads the literals that values are written as. -/
structure ReadsLiterals : Prop where
  null : parseExpr "NULL" = .ok (.value .null)
  number : ∀ n : Nat, parseExpr (toString n) = .ok (.value (.number (toString n)))
  minus : ∀ n : Nat, parseExpr ("-" ++ toString n) =
    .ok (.unaryOp .minus (.value (.number (toString n))))
  quoted : ∀ text s : List Char, readQuoted '\'' text = some (s, []) →
    parseExpr (String.ofList ('\'' :: text)) = .ok (.value (.singleQuotedString (String.ofList s)))
  hex : ∀ digits : String, '\'' ∉ digits.toList →
    parseExpr ("X'" ++ digits ++ "'") = .ok (.value .other)

variable {v : Value}

/-- The literal of a value evaluates to the value exactly if it is neither a BLOB nor the smallest
INTEGER. -/
theorem literal_evaluates_iff (hreads : ReadsLiterals) (hreal : v.isReal = false) (ctx : EvalCtx)
    (params : List Value) (paramIdx : Nat) :
    (∃ e, parseExpr (valueToSqlLiteral v) = .ok e ∧ evalFrom ctx params e paramIdx = v) ↔
      (∀ b, v ≠ .blob b) ∧ v ≠ .integer Int64.minValue := by
  have hread : ∀ {literal e}, parseExpr literal = .ok e →
      ((∃ e', parseExpr literal = .ok e' ∧ evalFrom ctx params e' paramIdx = v) ↔
        evalFrom ctx params e paramIdx = v) := by
    intro literal e he
    rw [he]
    simp
  cases v with
  | null => exact iff_of_true ⟨_, hreads.null, rfl⟩ (by simp)
  | real f => cases hreal
  | text s =>
      obtain ⟨t, htext, hquoted⟩ := @readQuoted_textLiteral s [] (by simp)
      rw [List.append_nil] at htext
      have hparse := hreads.quoted t s.toList hquoted
      rw [← htext, String.ofList_toList, String.ofList_toList] at hparse
      exact iff_of_true ⟨_, hparse, rfl⟩ (by simp)
  | blob b =>
      rw [valueToSqlLiteral, hread (hreads.hex _ (quote_notMem_hexEncode b))]
      refine iff_of_false (fun hb => ?_) fun h => h.1 b rfl
      cases hb
  | integer i =>
      have hhigh := i.toInt_lt
      have hlow := i.le_toInt
      have hmin : i = Int64.minValue ↔ i.toInt = -2 ^ 63 := by
        rw [← Int64.toInt_inj, Int64.toInt_minValue]
      cases hi : i.toInt with
      | ofNat n =>
          rw [hi, Int.ofNat_eq_natCast] at hhigh hmin
          have hvalue : Int64.ofNat n = i := by
            rw [← Int64.ofInt_toInt i, hi]
            rfl
          rw [literal_of_ofNat hi, hread (hreads.number n)]
          refine iff_of_true ?_ ⟨by simp, fun h => ?_⟩
          · change parseNumber (toString n) = _
            rw [parseNumber_toString (by omega), hvalue]
          · exact absurd (hmin.mp (Value.integer.inj h)) (by omega)
      | negSucc n =>
          rw [literal_of_negSucc hi, hread (hreads.minus (n + 1))]
          rw [hi] at hlow hmin
          change applyUnary .minus (parseNumber (toString (n + 1))) = _ ↔ _
          by_cases hsmall : n + 1 < 2 ^ 63
          · have hvalue : -Int64.ofNat (n + 1) = i := by
              rw [← Int64.ofInt_toInt i, hi, Int.negSucc_eq, Int64.ofInt_neg]
              rfl
            rw [parseNumber_toString hsmall, applyUnary, hvalue]
            refine iff_of_true rfl ⟨by simp, fun h => ?_⟩
            exact absurd (hmin.mp (Value.integer.inj h)) (by omega)
          · have hsame : i = Int64.minValue := hmin.mpr (by omega)
            refine iff_of_false (parseNumber_ne_integer (not_lt.mp hsmall) i) fun h => h.2 ?_
            rw [hsame]

end

namespace Sample

/-- A parser of single literals. -/
def readLiteral (text : String) : Except String Expr :=
  match text.toList with
  | '\'' :: cs =>
    match readQuoted '\'' cs with
    | some (s, []) => .ok (.value (.singleQuotedString (String.ofList s)))
    | _ => .error "unterminated string literal"
  | 'X' :: '\'' :: _ => .ok (.value .other)
  | '-' :: ds => .ok (.unaryOp .minus (.value (.number (String.ofList ds))))
  | _ => if text = "NULL" then .ok (.value .null) else .ok (.value (.number text))

@[reducible]
def literals : Externals := { Externals.ofTexts [] [] with parseExpr := readLiteral }

end Sample

theorem readsLiterals_literals :
    letI := Sample.literals
    ReadsLiterals :=
  let _ := Sample.literals
  { null := rfl
    number := by
      intro n
      obtain ⟨c, cs, hcs, hdigit⟩ := exists_toDigits n
      have hdigits : (toString n).toList = c :: cs := Nat.toList_repr.trans hcs
      have hnull : toString n ≠ "NULL" := by
        intro heq
        rw [heq] at hdigits
        obtain rfl : 'N' = c := (List.cons.inj hdigits).1
        exact absurd hdigit (by decide)
      change Sample.readLiteral (toString n) = _
      rw [Sample.readLiteral]
      split
      all_goals
        first
        | rw [if_neg hnull]
        | obtain rfl := (List.cons.inj (hdigits.symm.trans (by assumption))).1
          exact absurd hdigit (by decide)
    minus := by
      intro n
      change Sample.readLiteral ("-" ++ toString n) = _
      rw [Sample.readLiteral, String.toList_append]
      simp only [String.reduceToList, List.cons_append, List.nil_append, String.ofList_toList]
    quoted := by
      intro text s hread
      change Sample.readLiteral (String.ofList ('\'' :: text)) = _
      rw [Sample.readLiteral, String.toList_ofList]
      simp only [hread]
    hex := by
      intro digits _
      change Sample.readLiteral ("X'" ++ digits ++ "'") = _
      rw [Sample.readLiteral, String.toList_append, String.toList_append]
      simp }

/-- A text with a quote in it. -/
theorem literal_evaluates_quote :
    letI := Sample.literals
    ∃ e, parseExpr (valueToSqlLiteral (.text "it's")) = .ok e ∧
      evalFrom .noRow [] e 0 = .text "it's" :=
  let _ := Sample.literals
  (literal_evaluates_iff readsLiterals_literals rfl .noRow [] 0).mpr ⟨nofun, nofun⟩

/-- A BLOB comes back as NULL, and the smallest INTEGER as a REAL. -/
theorem literal_evaluates_otherwise :
    letI := Sample.literals
    (∃ e, parseExpr (valueToSqlLiteral (.blob [255])) = .ok e ∧ evalFrom .noRow [] e 0 = .null) ∧
      ∀ e, parseExpr (valueToSqlLiteral (.integer Int64.minValue)) = .ok e →
        evalFrom .noRow [] e 0 ≠ .integer Int64.minValue := by
  let _ := Sample.literals
  have hreads := readsLiterals_literals
  refine ⟨⟨.value .other, hreads.hex "ff" (by decide), rfl⟩, fun e he => ?_⟩
  obtain ⟨n, hn, hlarge⟩ : ∃ n, Int64.minValue.toInt = .negSucc n ∧ 2 ^ 63 ≤ n + 1 :=
    ⟨9223372036854775807, by decide, by decide⟩
  rw [literal_of_negSucc hn] at he
  obtain rfl := Except.ok.inj ((hreads.minus (n + 1)).symm.trans he)
  exact parseNumber_ne_integer hlarge Int64.minValue

end Skvs
