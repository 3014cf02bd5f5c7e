import Skvs.Proof.Renaming
import Skvs.Lib.KeyedFold

/-!
# Merged rows

A join puts the fields of a row of the next table into the row so far: under their qualified names
always, and under the bare names that are still free.
-/

namespace Skvs

theorem qualifiedName_inj (t : String) {c d : String} (h : qualifiedName t c = qualifiedName t d) :
    c = d := by
  have hlist := congrArg String.toList h
  simp only [qualifiedName, toString, String.toList_append] at hlist
  exact String.toList_inj.mp (List.append_cancel_left hlist)

theorem get_insertAll (target row : Row) (k : String) :
    (insertAll target row).get k = (row.get k).or (target.get k) := by
  have hfold := (foldl_keyed (fun (r : Row) (e : String × Value) => r.insert e.1 e.2) IndexMap.get
    (fun _ v _ => some v) (fun _ => True) (fun _ _ _ => trivial)
    (fun r e k _ => IndexMap.get_insert r e.1 e.2 k) row.nodup (s := target) trivial k).2
  refine hfold.trans ?_
  rw [← IndexMap.get]
  cases row.get k <;> rfl

/-- The field of a row that goes by a qualified name. -/
def qualifiedField (t : String) (row : Row) (k : String) : Option Value :=
  (row.entries.find? fun e => qualifiedName t e.1 = k).map Prod.snd

theorem get_foldl_qualified (t : String) {es : List (String × Value)}
    (hnodup : (es.map Prod.fst).Nodup) (r : Row) (k : String) :
    (es.foldl (fun r e => (r.insert (qualifiedName t e.1) e.2).insertIfNew e.1 e.2) r).get k =
      ((es.find? fun e => qualifiedName t e.1 = k).map Prod.snd).or
        ((r.get k).or (es.lookup k)) := by
  induction es generalizing r with
  | nil =>
      simp only [List.foldl_nil, List.find?_nil, Option.map_none, List.lookup_nil, Option.none_or,
        Option.or_none]
  | cons e es ih =>
      rw [List.map_cons, List.nodup_cons] at hnodup
      rw [List.foldl_cons, ih hnodup.2, IndexMap.get_insertIfNew, IndexMap.getD, IndexMap.get_insert,
        IndexMap.get_insert, IndexMap.lookup_cons_ite, List.find?_cons]
      by_cases hq : qualifiedName t e.1 = k
      · -- no later field has the same qualified name
        have hrest : es.find? (fun e' => qualifiedName t e'.1 = k) = none := by
          rw [List.find?_eq_none]
          intro e' he' heq
          have hsame := qualifiedName_inj t ((of_decide_eq_true heq).trans hq.symm)
          exact hnodup.1 (hsame ▸ List.mem_map_of_mem he')
        subst hq
        simp only [hrest, decide_true, Option.map_none, Option.none_or, Option.map_some,
          Option.some_or, if_true]
        by_cases hbare : qualifiedName t e.1 = e.1
        · simp only [hbare, if_true, Option.getD_some, Option.some_or]
        · simp only [hbare, if_false, Option.some_or]
      · simp only [hq, Ne.symm hq, decide_false, if_false]
        refine congrArg _ ?_
        by_cases hk : k = e.1
        · subst hk
          simp only [if_true, Ne.symm hq, if_false]
          cases r.get e.1 <;> rfl
        · simp only [hk, if_false]

theorem get_insertRowQualified (combined : Row) (t : String) (row : Row) (k : String) :
    (insertRowQualified combined t row).get k =
      (qualifiedField t row k).or ((combined.get k).or (row.get k)) :=
  get_foldl_qualified t row.nodup combined k

theorem qualifiedField_self (t : String) (row : Row) (c : String) :
    qualifiedField t row (qualifiedName t c) = row.get c := by
  have hpred : (fun e : String × Value => decide (qualifiedName t e.1 = qualifiedName t c)) =
      fun e => c == e.1 := by
    funext e
    rw [Bool.beq_eq_decide_eq, decide_eq_decide]
    exact ⟨fun h => (qualifiedName_inj t h).symm, fun h => h ▸ rfl⟩
  rw [qualifiedField, hpred, IndexMap.get]
  generalize row.entries = es
  induction es with
  | nil => rfl
  | cons e es ih =>
      rw [List.find?_cons, List.lookup_cons]
      cases c == e.1 with
      | true => rfl
      | false => exact ih

theorem qualifiedField_eq_none {t : String} {row : Row} {k : String}
    (h : ∀ c ∈ row.keys, qualifiedName t c ≠ k) : qualifiedField t row k = none := by
  rw [qualifiedField, Option.map_eq_none_iff, List.find?_eq_none]
  exact fun e he heq => h e.1 (List.mem_map_of_mem he) (of_decide_eq_true heq)

/-- A field of the row that is put in, under its qualified name. -/
theorem get_qualified (combined : Row) (t : String) {row : Row} {c : String} {v : Value}
    (h : row.get c = some v) : (insertRowQualified combined t row).get (qualifiedName t c) = some v := by
  rw [get_insertRowQualified, qualifiedField_self, h]
  rfl

/-- A field of the row so far, under a name that the new one does not qualify a column with. -/
theorem get_kept (combined : Row) {t : String} {row : Row} {k : String}
    (h : ∀ c ∈ row.keys, qualifiedName t c ≠ k) :
    (insertRowQualified combined t row).get k = (combined.get k).or (row.get k) := by
  rw [get_insertRowQualified, qualifiedField_eq_none h]
  rfl

/-! ### Qualified references -/

/-- A reference to a column of a table of the FROM list. -/
def columnOf (t c : String) : Expr := .compoundIdentifier [⟨t, t⟩, ⟨c, c⟩]

/-- A qualified reference falls back to the bare name where the qualified one is not there. -/
theorem lookupCompound_pair (row : Row) (t c : Ident) :
    lookupCompound (.withRow row) [t, c] =
      ((row.get (qualifiedName t.value c.value)).or (row.get c.value)).getD .null := by
  have hspelled : ".".intercalate ([t, c].map Ident.value) = qualifiedName t.value c.value := by
    simp [qualifiedName]
    rfl
  rw [lookupCompound, hspelled, EvalCtx.withRow, Option.bind_some]
  cases row.get (qualifiedName t.value c.value) with
  | some v => rfl
  | none => rfl

/-- No column of one table goes, bare or qualified, by the qualified name of one of the other. -/
structure NamesApart (name1 name2 : String) (cols1 cols2 : List String) : Prop where
  qualified : ∀ c ∈ cols1, ∀ d ∈ cols2, qualifiedName name2 d ≠ qualifiedName name1 c
  left : ∀ c ∈ cols1, ∀ d ∈ cols2, c ≠ qualifiedName name2 d
  right : ∀ c ∈ cols1, ∀ d ∈ cols2, d ≠ qualifiedName name1 c

theorem toList_qualifiedName (t c : String) :
    (qualifiedName t c).toList = t.toList ++ '.' :: c.toList := by
  simp [qualifiedName, toString]

/-- The last dot of a qualified name ends the name of the table. -/
theorem qualifiedName_table {t u c d : String} (hc : '.' ∉ c.toList) (hd : '.' ∉ d.toList)
    (h : qualifiedName t c = qualifiedName u d) : t = u := by
  have hlist := congrArg String.toList h
  rw [toList_qualifiedName, toList_qualifiedName] at hlist
  refine String.toList_inj.mp ?_
  rcases List.append_eq_append_iff.mp hlist with ⟨as, hu, has⟩ | ⟨as, ht, has⟩
  · cases as with
    | nil => rw [hu, List.append_nil]
    | cons a as =>
        rw [List.cons_append, List.cons.injEq] at has
        exact absurd (has.2 ▸ List.mem_append_right as List.mem_cons_self) hc
  · cases as with
    | nil => rw [ht, List.append_nil]
    | cons a as =>
        rw [List.cons_append, List.cons.injEq] at has
        exact absurd (has.2 ▸ List.mem_append_right as List.mem_cons_self) hd

theorem ne_qualifiedName {t c d : String} (hd : '.' ∉ d.toList) : d ≠ qualifiedName t c := by
  intro h
  rw [h, toList_qualifiedName] at hd
  exact hd (List.mem_append_right _ List.mem_cons_self)

/-- Tables with different names whose columns have no dot in theirs. -/
theorem NamesApart.of_dotFree {name1 name2 : String} {cols1 cols2 : List String}
    (hne : name1 ≠ name2) (h1 : ∀ c ∈ cols1, '.' ∉ c.toList) (h2 : ∀ d ∈ cols2, '.' ∉ d.toList) :
    NamesApart name1 name2 cols1 cols2 where
  qualified c hc d hd h := hne (qualifiedName_table (h2 d hd) (h1 c hc) h).symm
  left c hc _ _ := ne_qualifiedName (h1 c hc)
  right _ _ d hd := ne_qualifiedName (h2 d hd)

/-! ### Padding -/

/-- The columns that a row of NULLs stands for. -/
def paddedColumns (schema2 : Option TableSchema) (sample : Option Row) : List String :=
  match schema2 with
  | some s => s.columns.keys
  | none => (sample.map IndexMap.keys).getD []

theorem get_foldl_null (t : String) (cols : List String) {r : Row} {k : String}
    (hr : r.get k = none ∨ r.get k = some .null) :
    (cols.foldl (fun r col =>
        (r.insert (qualifiedName t col) .null).insertIfNew col .null) r).get k =
      if ∃ c ∈ cols, k = c ∨ k = qualifiedName t c then some .null else r.get k := by
  induction cols generalizing r with
  | nil => simp
  | cons c cols ih =>
      have hstep : ((r.insert (qualifiedName t c) .null).insertIfNew c .null).get k =
          if k = c ∨ k = qualifiedName t c then some .null else r.get k := by
        rw [IndexMap.get_insertIfNew, IndexMap.getD, IndexMap.get_insert, IndexMap.get_insert]
        by_cases hc : k = c
        · subst hc
          rw [if_pos rfl, if_pos (Or.inl rfl)]
          refine congrArg some ?_
          split_ifs
          · rfl
          · rcases hr with hr | hr <;> rw [hr] <;> rfl
        · simp [hc]
      have hnull : ((r.insert (qualifiedName t c) .null).insertIfNew c .null).get k = none ∨
          ((r.insert (qualifiedName t c) .null).insertIfNew c .null).get k = some .null := by
        rw [hstep]
        split_ifs
        · exact Or.inr rfl
        · exact hr
      rw [List.foldl_cons, ih hnull, hstep]
      by_cases hc : k = c ∨ k = qualifiedName t c
      · rw [if_pos hc, ite_self, if_pos ⟨c, List.mem_cons_self, hc⟩]
      · simp [hc]

/-- The padding has NULL under the bare and the qualified names of its columns. -/
theorem get_nullPadded (t : String) (schema2 : Option TableSchema) (sample : Option Row) (k : String) :
    (nullPadded t schema2 sample).get k =
      if ∃ c ∈ paddedColumns schema2 sample, k = c ∨ k = qualifiedName t c then some .null
      else none :=
  get_foldl_null t _ (Or.inl rfl)

end Skvs
