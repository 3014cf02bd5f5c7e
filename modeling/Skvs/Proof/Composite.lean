import Skvs.Ddl
import Skvs.Proof.Constraints

/-!
# Composite keys

CREATE TABLE records a table-level key twice: as a group of columns, which is what the SQL means, and
as a flag on each of its columns, which makes every column of the key unique by itself.
-/

namespace Skvs

/-- The row is refused, and the check that refuses it is one of the uniqueness checks. -/
def RejectedAsDuplicate [Externals] (state : KvsState) (dbId : UInt32) (schema : TableSchema)
    (row : Row) (rowid : RowId) : Prop :=
  ∃ e, checkNotNulls schema row = .ok () ∧ checkUniqueness state dbId schema row rowid = .error e ∧
    validateConstraints state dbId schema row rowid = .error e

theorem rejectedAsDuplicate_iff [Externals] {state : KvsState} {dbId : UInt32}
    {schema : TableSchema} {row : Row} {rowid : RowId} :
    RejectedAsDuplicate state dbId schema row rowid ↔
      checkNotNulls schema row = .ok () ∧ checkUniqueness state dbId schema row rowid ≠ .ok () := by
  constructor
  · rintro ⟨e, hnn, huniq, -⟩
    exact ⟨hnn, by rw [huniq]; exact fun h => nomatch h⟩
  · rintro ⟨hnn, huniq⟩
    obtain hok | ⟨e, he⟩ := Except.ok_or_error (checkUniqueness state dbId schema row rowid)
    · exact absurd hok huniq
    · exact ⟨e, hnn, he, by rw [validateConstraints_eq, hnn, he]; rfl⟩

def ColumnDef.flagged (colDef : ColumnDef) : Bool := colDef.unique || colDef.primaryKey

def ColumnOption.isKey : ColumnOption → Bool
  | .unique _ => true
  | _ => false

def TableConstraint.isKey : TableConstraint → Bool
  | .unique .. => true
  | _ => false

/-! ### What CREATE TABLE records -/

section BuildSchema

variable [Externals]

theorem parseColumnOption_flagged (colDef : ColumnDef) {opt : ColumnOption}
    (h : opt.isKey = false) : (parseColumnOption colDef opt).flagged = colDef.flagged := by
  cases opt with
  | unique isPrimary => simp [ColumnOption.isKey] at h
  | dialectSpecific tokens =>
      simp only [parseColumnOption]
      split_ifs <;> rfl
  | notNull | default | check | other => rfl

theorem parseColumnDef_flagged {col : SqlColumnDef} (h : ∀ opt ∈ col.options, opt.isKey = false) :
    (parseColumnDef col).flagged = false := by
  have hfold : ∀ (opts : List ColumnOption) (colDef : ColumnDef),
      (∀ opt ∈ opts, opt.isKey = false) →
        (opts.foldl parseColumnOption colDef).flagged = colDef.flagged := by
    intro opts
    induction opts with
    | nil => exact fun _ _ => rfl
    | cons opt opts ih =>
        intro colDef hopts
        rw [List.foldl_cons, ih _ fun o ho => hopts o (List.mem_cons_of_mem opt ho)]
        exact parseColumnOption_flagged colDef (hopts opt List.mem_cons_self)
  exact hfold col.options _ h

/-- No column is flagged, and there is no group yet. -/
structure Keyless (name : String) (schema : TableSchema) : Prop where
  name_eq : schema.name = name
  groups : schema.uniqueGroups = []
  unflagged : ∀ c colDef, schema.columns.get c = some colDef → colDef.flagged = false

theorem Keyless.addColumn {name : String} {schema : TableSchema} (h : Keyless name schema)
    {col : SqlColumnDef} (hcol : ∀ opt ∈ col.options, opt.isKey = false) :
    Keyless name (addColumn schema col) where
  name_eq := h.name_eq
  groups := h.groups
  unflagged := fun c colDef hget => by
    simp only [Skvs.addColumn, IndexMap.get_insert] at hget
    split_ifs at hget
    · rw [← Option.some.inj hget]
      exact parseColumnDef_flagged hcol
    · exact h.unflagged c colDef hget

theorem Keyless.addColumns {name : String} {columns : List SqlColumnDef} {schema : TableSchema}
    (h : Keyless name schema)
    (hcols : ∀ col ∈ columns, ∀ opt ∈ col.options, opt.isKey = false) :
    Keyless name (columns.foldl Skvs.addColumn schema) := by
  induction columns generalizing schema with
  | nil => exact h
  | cons col columns ih =>
      exact ih (h.addColumn (hcols col List.mem_cons_self))
        fun c hc => hcols c (List.mem_cons_of_mem col hc)

/-- A constraint that is no key leaves the columns and the groups alone. -/
theorem addConstraints_of_not_key {constraints : List TableConstraint}
    (h : ∀ c ∈ constraints, c.isKey = false) (schema : TableSchema) :
    (constraints.foldl addConstraint schema).name = schema.name ∧
      (constraints.foldl addConstraint schema).columns = schema.columns ∧
      (constraints.foldl addConstraint schema).uniqueGroups = schema.uniqueGroups := by
  induction constraints generalizing schema with
  | nil => exact ⟨rfl, rfl, rfl⟩
  | cons c constraints ih =>
      have hc := h c List.mem_cons_self
      rw [List.foldl_cons]
      obtain ⟨h₁, h₂, h₃⟩ := ih (fun d hd => h d (List.mem_cons_of_mem c hd)) (addConstraint schema c)
      rw [h₁, h₂, h₃]
      cases c with
      | unique => simp [TableConstraint.isKey] at hc
      | foreignKey | check | other => exact ⟨rfl, rfl, rfl⟩

omit [Externals] in
/-- Adding a key flags the declared columns of the key and no others. -/
theorem flagged_modifyAll (flag : ColumnDef → ColumnDef) (hflag : ∀ d, (flag d).flagged = true)
    (cols : List String) (columns : IndexMap String ColumnDef) (c : String) :
    ((cols.foldl (fun m c => m.modify c flag) columns).get c).map ColumnDef.flagged =
      (columns.get c).map fun d => d.flagged || decide (c ∈ cols) := by
  induction cols generalizing columns with
  | nil => simp
  | cons col cols ih =>
      rw [List.foldl_cons, ih, IndexMap.get_modify]
      cases hget : columns.get c with
      | none => simp
      | some d =>
          by_cases hc : c = col <;> simp [hc, hflag]

/-- The schema of a CREATE TABLE whose only key is the table-level key `cols`. -/
structure CompositeKey (name : String) (cols : List String) (isPrimary : Bool)
    (schema : TableSchema) : Prop where
  name_eq : schema.name = name
  groups : schema.uniqueGroups = [⟨cols, isPrimary⟩]
  flagged_iff : ∀ c colDef, schema.columns.get c = some colDef →
    (colDef.flagged = true ↔ c ∈ cols)

theorem buildSchema_compositeKey (name : String) {columns : List SqlColumnDef} (cols : List Ident)
    (isPrimary : Bool) {before after : List TableConstraint}
    (hcols : ∀ col ∈ columns, ∀ opt ∈ col.options, opt.isKey = false)
    (hbefore : ∀ c ∈ before, c.isKey = false) (hafter : ∀ c ∈ after, c.isKey = false) :
    CompositeKey name (cols.map Ident.value) isPrimary
      (buildSchema name columns (before ++ .unique cols isPrimary :: after)) := by
  have hempty : Keyless name (emptySchema name) :=
    ⟨rfl, rfl, fun c colDef h => absurd h (by simp [emptySchema])⟩
  have hkeyless := hempty.addColumns hcols
  rw [buildSchema, List.foldl_append, List.foldl_cons]
  obtain ⟨hname, hcolumns, hgroups⟩ := addConstraints_of_not_key hbefore
    (columns.foldl Skvs.addColumn (emptySchema name))
  generalize before.foldl addConstraint (columns.foldl Skvs.addColumn (emptySchema name)) = schema at *
  obtain ⟨hname', hcolumns', hgroups'⟩ := addConstraints_of_not_key hafter
    (addConstraint schema (.unique cols isPrimary))
  refine ⟨?_, ?_, fun c colDef hget => ?_⟩
  · rw [hname']
    exact hname.trans hkeyless.name_eq
  · rw [hgroups']
    simp only [addConstraint, addKey, hgroups, hkeyless.groups, List.nil_append]
  · rw [hcolumns'] at hget
    let flag (colDef : ColumnDef) : ColumnDef :=
      if isPrimary then { colDef with primaryKey := true, notNull := true }
      else { colDef with unique := true }
    have hflag := flagged_modifyAll flag
      (fun d => by cases isPrimary <;> simp [ColumnDef.flagged, flag]) (cols.map Ident.value)
      schema.columns c
    simp only [addConstraint, addKey] at hget
    rw [hget, hcolumns] at hflag
    cases hold : (columns.foldl Skvs.addColumn (emptySchema name)).columns.get c with
    | none => simp [hold] at hflag
    | some d =>
        rw [hold, Option.map_some, Option.map_some, hkeyless.unflagged c d hold,
          Bool.false_or] at hflag
        rw [Option.some.inj hflag, decide_eq_true_iff]

end BuildSchema

/-! ### What the checks make of it -/

section Checks

variable {state : KvsState} {dbId : UInt32} {name : String} {cols : List String}
  {isPrimary : Bool} {schema : TableSchema} {row : Row} {rowid : RowId}

/-- Some declared column of the key holds a value that a row elsewhere holds in that column alone. -/
def ColumnTaken (state : KvsState) (dbId : UInt32) (schema : TableSchema) (cols : List String)
    (row : Row) (rowid : RowId) : Prop :=
  ∃ c ∈ cols, schema.columns.contains c = true ∧ ∃ v, row.get c = some v ∧
    valueExistsElsewhere state dbId schema [c] [v] rowid = true

theorem groupValues_not_null (isPrimary : Bool)
    (hrow : ∀ c ∈ cols, ∃ v, row.get c = some v ∧ v.isNull = false) :
    (groupValues ⟨cols, isPrimary⟩ row).any Value.isNull = false := by
  rw [List.any_eq_false, groupValues]
  intro v hv
  obtain ⟨c, hc, rfl⟩ := List.mem_map.mp hv
  obtain ⟨v, hget, hnull⟩ := hrow c hc
  simp [hget, hnull]

theorem columnsUnique_ok_iff (hkey : CompositeKey name cols isPrimary schema)
    (hrow : ∀ c ∈ cols, ∃ v, row.get c = some v ∧ v.isNull = false) :
    (∀ e ∈ schema.columns.entries,
        checkColumnUnique state dbId schema row rowid e.1 e.2 = .ok ()) ↔
      ¬ColumnTaken state dbId schema cols row rowid := by
  simp only [checkColumnUnique_ok_iff]
  constructor
  · rintro h ⟨c, hc, hdeclared, v, hget, htaken⟩
    obtain ⟨colDef, hcolDef⟩ := (schema.columns.contains_iff c).mp hdeclared
    have hentry := (schema.columns.mem_entries_iff_get c colDef).mpr hcolDef
    obtain ⟨w, hw, hnull⟩ := hrow c hc
    rw [hget] at hw
    have hfree := h _ hentry ((hkey.flagged_iff c colDef hcolDef).mpr hc) v hget
      ((Option.some.inj hw) ▸ hnull)
    rw [hfree] at htaken
    exact absurd htaken (by simp)
  · intro h e he hflag v hget _
    have hcolDef := (schema.columns.mem_entries_iff_get e.1 e.2).mp he
    rw [← Bool.not_eq_true]
    intro htaken
    exact h ⟨e.1, (hkey.flagged_iff e.1 e.2 hcolDef).mp hflag,
      (schema.columns.contains_iff e.1).mpr ⟨e.2, hcolDef⟩, v, hget, htaken⟩

theorem groupUnique_ok_iff {store : Store} (hkey : CompositeKey name cols isPrimary schema)
    (hstore : state.getTableStore dbId name = some store) (hlen : 2 ≤ cols.length)
    (hrow : ∀ c ∈ cols, ∃ v, row.get c = some v ∧ v.isNull = false) :
    (∀ group ∈ schema.uniqueGroups,
        checkUniqueGroup state dbId schema row rowid group = .ok ()) ↔
      ¬AgreesElsewhere store cols (groupValues ⟨cols, isPrimary⟩ row) rowid := by
  have hnull := groupValues_not_null isPrimary hrow
  -- two or more columns are always compared by a scan
  have hseveral : ∀ col, cols = [col] → findIndex schema col = none := by
    rintro col rfl
    exact absurd hlen (by simp)
  rw [hkey.groups, List.forall_mem_singleton, checkUniqueGroup_ok_iff, hnull,
    ← valueExistsElsewhere_scan (hkey.name_eq ▸ hstore) hseveral]
  simp

variable [Externals]

/-- The checks refuse a row as a duplicate when a row agrees with it on the whole key, and also when
some column of the key is taken by itself. -/
theorem rejectedAsDuplicate_compositeKey {store : Store}
    (hkey : CompositeKey name cols isPrimary schema)
    (hstore : state.getTableStore dbId name = some store) (hlen : 2 ≤ cols.length)
    (hrow : ∀ c ∈ cols, ∃ v, row.get c = some v ∧ v.isNull = false) :
    RejectedAsDuplicate state dbId schema row rowid ↔
      checkNotNulls schema row = .ok () ∧
        (ColumnTaken state dbId schema cols row rowid ∨
          AgreesElsewhere store cols (groupValues ⟨cols, isPrimary⟩ row) rowid) := by
  rw [rejectedAsDuplicate_iff, Ne, checkUniqueness_ok_iff, columnsUnique_ok_iff hkey hrow,
    groupUnique_ok_iff hkey hstore hlen hrow, not_and_or, not_not, not_not]

/-- For a table created with one key, a composite one, and no other, the group rule holds of a row
exactly when no column of the key is taken by itself while the key as a whole is free; a row that
already fails NOT NULL must not have a free key refused, so there the key must be free. -/
theorem compositeKey_rule_iff {columns : List SqlColumnDef} {cols : List Ident}
    {isPrimary : Bool} {before after : List TableConstraint} {indices : List IndexDef}
    {store : Store}
    (hcols : ∀ col ∈ columns, ∀ opt ∈ col.options, opt.isKey = false)
    (hbefore : ∀ c ∈ before, c.isKey = false) (hafter : ∀ c ∈ after, c.isKey = false)
    (hlen : 2 ≤ cols.length) (hstore : state.getTableStore dbId name = some store)
    (hrow : ∀ c ∈ cols.map Ident.value, ∃ v, row.get c = some v ∧ v.isNull = false) :
    let key := cols.map Ident.value
    let schema :=
      { buildSchema name columns (before ++ .unique cols isPrimary :: after) with indices }
    let keyExists := AgreesElsewhere store key (groupValues ⟨key, isPrimary⟩ row) rowid
    (RejectedAsDuplicate state dbId schema row rowid ↔ keyExists) ↔
      (checkNotNulls schema row = .ok () → ColumnTaken state dbId schema key row rowid → keyExists) ∧
        (checkNotNulls schema row ≠ .ok () → ¬keyExists) := by
  intro key schema keyExists
  have hkey : CompositeKey name key isPrimary schema := by
    have h := buildSchema_compositeKey name cols isPrimary hcols hbefore hafter
    exact ⟨h.name_eq, h.groups, h.flagged_iff⟩
  rw [rejectedAsDuplicate_compositeKey hkey hstore (by simpa [key] using hlen) hrow]
  by_cases hnn : checkNotNulls schema row = .ok ()
  · simp only [hnn, true_and, forall_true_left, ne_eq, not_true_eq_false, false_implies, and_true]
    exact ⟨fun h htaken => h.mp (Or.inl htaken),
      fun h => ⟨fun h' => h'.elim h id, fun h' => Or.inr h'⟩⟩
  · simp only [hnn, false_and, false_iff, false_implies, true_and, ne_eq, not_false_eq_true,
      forall_true_left]

end Checks

/-! ### A pair of columns -/

/-- `CREATE TABLE t (a INTEGER, b INTEGER, UNIQUE (a, b))`. -/
def pairColumns : List SqlColumnDef :=
  [⟨⟨"a", "a"⟩, .integer, []⟩, ⟨⟨"b", "b"⟩, .integer, []⟩]

def pairKey : TableConstraint := .unique [⟨"a", "a"⟩, ⟨"b", "b"⟩] false

def pairRow (a b : Int64) : Row := .ofList [("a", .integer a), ("b", .integer b)]

/-- The table holding the one row `(1, 1)`. -/
def pairState : KvsState :=
  let s := ((KvsState.new [0]).freshTable 0 "t")
  s.modifyStore 0 "t" (setRow (some (pairRow 1 1)) 1)

/-- With the row `(1, 1)` stored, `(1, 2)` is refused as a duplicate although no row agrees with it
on both columns. -/
theorem pair_rejected_without_duplicate :
    letI := Externals.ofTexts [] []
    let schema := buildSchema "t" pairColumns [pairKey]
    RejectedAsDuplicate pairState 0 schema (pairRow 1 2) 2 ∧
      ¬∃ entry ∈ (((pairState.getTableStore 0 "t").getD ∅).entries), entry.1 ≠ 2 ∧
        Row.holds entry.2 "a" (.integer 1) ∧ Row.holds entry.2 "b" (.integer 2) :=
  ⟨⟨_, rfl, rfl, rfl⟩, by decide⟩

/-- `(2, 2)` is rightly accepted next to `(1, 1)`. -/
theorem pair_rule_two_two :
    letI := Externals.ofTexts [] []
    let schema := buildSchema "t" pairColumns [pairKey]
    RejectedAsDuplicate pairState 0 schema (pairRow 2 2) 2 ↔
      AgreesElsewhere (.ofList [(1, pairRow 1 1)]) ["a", "b"] [.integer 2, .integer 2] 2 :=
  letI := Externals.ofTexts [] []
  (@compositeKey_rule_iff pairState 0 "t" (pairRow 2 2) 2 _ pairColumns [⟨"a", "a"⟩, ⟨"b", "b"⟩]
    false [] [] [] (.ofList [(1, pairRow 1 1)]) (by decide) (by decide) (by decide) (by decide) rfl
    (by
      intro c hc
      rcases List.mem_cons.mp hc with rfl | hc
      · exact ⟨.integer 2, rfl, rfl⟩
      · rw [List.mem_singleton.mp hc]
        exact ⟨.integer 2, rfl, rfl⟩)).mpr
    ⟨fun _ ⟨c, hc, _, v, hv, htaken⟩ => by
      rcases List.mem_cons.mp hc with rfl | hc
      · rw [← Option.some.inj hv] at htaken
        exact absurd htaken (by decide)
      · rw [List.mem_singleton.mp hc] at hv htaken
        rw [← Option.some.inj hv] at htaken
        exact absurd htaken (by decide),
    fun h => absurd rfl h⟩

end Skvs
