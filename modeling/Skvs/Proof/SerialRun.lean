import Skvs.Proof.KeysHold

/-!
# One transaction at a time

In a serial run the statements of a transaction are not interleaved with any others, and CREATE INDEX
comes between transactions. Whatever happens to the statements, a table that started empty keeps its
rules.
-/

namespace Skvs

/-! ### CREATE INDEX -/

section CreateIndex

variable [Externals] {dbId : UInt32} {table : String}

/-- CREATE INDEX does nothing, or lists an index under a new name and makes it from the rows. -/
theorem createIndex_cases (name : Option String) (table' : String) (columns : List OrderByExpr)
    (unique ifNotExists : Bool) (w : World) :
    (Prog.exec (createIndex dbId name table' columns unique ifNotExists) w).2 = w ∨
    ∃ schema idx, w.kvs.getSchema dbId table' = some schema ∧
      idx.name ∉ schema.indices.map IndexDef.name ∧
      (Prog.exec (createIndex dbId name table' columns unique ifNotExists) w).2 =
        { w with kvs := rebuildIndex (w.kvs.setSchema dbId table'
          { schema with indices := schema.indices ++ [idx] }) dbId table' idx } := by
  rw [createIndex, Prog.exec_bind, Prog.exec_read]
  cases hdb : w.kvs.schemas.get dbId with
  | none =>
      simp only [hdb, orRaise]
      exact Or.inl rfl
  | some schemas =>
      cases hschema : schemas.get table' with
      | none =>
          simp only [hdb, hschema, orRaise, pure_bind]
          exact Or.inl rfl
      | some schema =>
          simp only [hdb, hschema, orRaise, pure_bind]
          split
          · split <;> exact Or.inl rfl
          next hfree =>
            refine Or.inr ⟨schema, _, ?_, ?_, rfl⟩
            · rw [KvsState.getSchema, hdb]
              exact hschema
            · rw [List.mem_map]
              rintro ⟨i, hi, hname⟩
              exact hfree (List.any_eq_true.mpr ⟨i, hi, decide_eq_true hname⟩)

variable (dbId) in
omit [Externals] in
theorem getSchema_setSchema (s : KvsState) (table' : String) (schema : TableSchema) (t : String) :
    (s.setSchema dbId table' schema).getSchema dbId t =
      if t = table' then some schema else s.getSchema dbId t := by
  simp only [KvsState.getSchema, KvsState.setSchema, IndexMap.get_insert, if_true, Option.bind_some]
  split_ifs
  · rfl
  · rw [IndexMap.getD]
    cases s.schemas.get dbId <;> rfl

variable (dbId) in
theorem rebuildIndex_frame (s : KvsState) (t : String) (idx : IndexDef) :
    ∃ indexes, rebuildIndex s dbId t idx = { s with indexes } := by
  unfold rebuildIndex
  split <;> exact ⟨_, rfl⟩

variable (dbId) in
/-- Rebuilding an index leaves the indexes of other tables and those of other names alone. -/
theorem indexStore_rebuildIndex_of_ne (s : KvsState) {t t' n : String} {idx : IndexDef}
    (hne : ¬(t = t' ∧ n = idx.name)) :
    (rebuildIndex s dbId t' idx).indexStore dbId t n = s.indexStore dbId t n := by
  unfold rebuildIndex
  split
  · rfl
  · rw [indexStore_modifyIndexStore, if_neg fun hand => hne hand.2]

theorem indexStore_rebuildIndex_self (s : KvsState) {t : String} {idx : IndexDef} {rows : Store}
    (hstore : s.getTableStore dbId t = some rows) :
    (rebuildIndex s dbId t idx).indexStore dbId t idx.name = rebuilt idx rows := by
  rw [KvsState.rebuildIndex_eq s dbId hstore, indexStore_modifyIndexStore, if_pos ⟨rfl, rfl, rfl⟩]

variable {s : KvsState} {schema : TableSchema} {idx : IndexDef}

/-- A new index that is made from the rows misses none. -/
theorem IndexCovers.addIndex (h : IndexCovers s dbId table)
    (hschema : s.getSchema dbId table = some schema)
    (hfree : idx.name ∉ schema.indices.map IndexDef.name) {rows : Store}
    (hrows : s.getTableStore dbId table = some rows) {s' : KvsState}
    (hschema' : s'.getSchema dbId table = some { schema with indices := schema.indices ++ [idx] })
    (hrow : ∀ k, s'.row k = s.row k)
    (hself : s'.indexStore dbId table idx.name = rebuilt idx rows)
    (hother : ∀ n, n ≠ idx.name → s'.indexStore dbId table n = s.indexStore dbId table n) :
    IndexCovers s' dbId table := by
  have hget : ∀ rowid, s.row ⟨dbId, table, rowid⟩ = rows.get rowid := fun rowid => by
    rw [KvsState.row, KvsState.rowAt, hrows]
    rfl
  have hreal : ∀ rowid row, rows.get rowid = some row → row.realFree := fun rowid row hrow =>
    h.realFree rowid row ((hget rowid).trans hrow)
  have hcases : ∀ idx' ∈ schema.indices ++ [idx], idx' = idx ∨
      idx' ∈ schema.indices ∧ idx'.name ≠ idx.name := by
    intro idx' hin
    rcases List.mem_append.mp hin with hold | hnew
    · exact Or.inr ⟨hold, fun heq => hfree (heq ▸ List.mem_map_of_mem hold)⟩
    · exact Or.inl (List.mem_singleton.mp hnew)
  refine ⟨⟨fun schema' hs => ?_, fun schema' hs idx' hin => ?_, fun rowid row hr => ?_⟩,
    fun rowid idx' v hlisted hfiled => ?_⟩
  · obtain rfl := Option.some.inj (hschema'.symm.trans hs)
    rw [List.map_append, List.nodup_append]
    refine ⟨h.names schema hschema, List.nodup_singleton _, fun n hn n' hn' heq => hfree ?_⟩
    rw [List.map_singleton, List.mem_singleton] at hn'
    exact hn' ▸ heq ▸ hn
  · obtain rfl := Option.some.inj (hschema'.symm.trans hs)
    rcases hcases idx' hin with rfl | ⟨hold, hne⟩
    · rw [hself]
      exact tidy_rebuilt _ hreal
    · rw [hother _ hne]
      exact h.tidy schema hschema idx' hold
  · exact h.realFree rowid row ((hrow _).symm.trans hr)
  · obtain ⟨schema', hs, hin⟩ := hlisted
    obtain rfl := Option.some.inj (hschema'.symm.trans hs)
    rw [hrow] at hfiled
    rcases hcases idx' hin with rfl | ⟨hold, hne⟩
    · rw [Entry, hself, mem_bucket_rebuilt _ hreal (filed_not_real (h.realFree rowid) hfiled),
        ← hget rowid]
      exact hfiled
    · rw [Entry, hother _ hne]
      exact h.listed rowid idx' v ⟨schema, hschema, hold⟩ hfiled

theorem Sound.createIndex (h : Sound s dbId table) {table' : String}
    (hschema : s.getSchema dbId table' = some schema)
    (hfree : idx.name ∉ schema.indices.map IndexDef.name) :
    Sound (rebuildIndex (s.setSchema dbId table'
      { schema with indices := schema.indices ++ [idx] }) dbId table' idx) dbId table := by
  have hset := getSchema_setSchema dbId s table'
    { schema with indices := schema.indices ++ [idx] } table
  have hother := fun n hne => @indexStore_rebuildIndex_of_ne _ dbId
    (s.setSchema dbId table' { schema with indices := schema.indices ++ [idx] }) table table' n idx hne
  by_cases ht : table = table'
  · subst ht
    obtain ⟨rows, hrows⟩ := Option.isSome_iff_exists.mp h.store
    have hself := @indexStore_rebuildIndex_self _ dbId
      (s.setSchema dbId table { schema with indices := schema.indices ++ [idx] }) table idx rows hrows
    obtain ⟨indexes, hframe⟩ := rebuildIndex_frame dbId
      (s.setSchema dbId table { schema with indices := schema.indices ++ [idx] }) table idx
    rw [if_pos rfl] at hset
    rw [hframe] at hself hother ⊢
    refine ⟨h.toIndexCovers.addIndex hschema hfree hrows hset (fun _ => rfl) hself fun n hne =>
      hother n fun hand => hne hand.2, h.store, fun schema' hs => ?_, fun schema' hs => ?_⟩
    · obtain rfl := Option.some.inj (hset.symm.trans hs)
      exact h.named schema hschema
    · obtain rfl := Option.some.inj (hset.symm.trans hs)
      exact h.keys schema hschema
  · obtain ⟨indexes, hframe⟩ := rebuildIndex_frame dbId
      (s.setSchema dbId table' { schema with indices := schema.indices ++ [idx] }) table' idx
    rw [if_neg ht] at hset
    rw [hframe] at hother ⊢
    have hindex := fun n => hother n fun hand => ht hand.1
    refine ⟨⟨⟨fun schema' hs => h.names schema' (hset.symm.trans hs),
      fun schema' hs idx' hin => ?_, h.realFree⟩, fun rowid idx' v ⟨schema', hs, hin⟩ hfiled => ?_⟩,
      h.store, fun schema' hs => h.named schema' (hset.symm.trans hs),
      fun schema' hs => h.keys schema' (hset.symm.trans hs)⟩
    · rw [hindex]
      exact h.tidy schema' (hset.symm.trans hs) idx' hin
    · rw [Entry, hindex]
      exact h.listed rowid idx' v ⟨schema', hset.symm.trans hs, hin⟩ hfiled

end CreateIndex

/-! ### Serial runs -/

/-- Whether a call may come next while `opened` is the transaction that is open, if any. Statements
carry its id, and CREATE INDEX comes between transactions. -/
def Call.serial (opened : Option UInt32) (c : Call) : Bool :=
  c.txId = opened && match c.stmt with
    | .startTransaction | .createIndex .. => opened.isNone
    | .commit | .rollback => opened.isSome
    | stmt => stmt.isPlain

/-- The transaction that is open after a call. -/
def Call.opens (opened : Option UInt32) (nextId : UInt32) (c : Call) : Option UInt32 :=
  match c.stmt with
  | .startTransaction => some nextId
  | .commit | .rollback => none
  | _ => opened

/-- One transaction at a time. -/
def serialCalls [Externals] (dbId : UInt32) : Option UInt32 → List Call → World → Bool
  | _, [], _ => true
  | opened, c :: calls, w =>
    c.serial opened && serialCalls dbId (c.opens opened w.kvs.txns.nextId) calls (c.run dbId w)

section Run

variable [Externals] {dbId : UInt32} {table : String} {opened : Option UInt32} {w : World}

/-- What every call of a serial run keeps. -/
structure SerialInv (dbId : UInt32) (table : String) (opened : Option UInt32) (w : World) : Prop where
  sound : Sound w.kvs dbId table
  revertible : ∀ id, opened = some id → Revertible dbId table id w

omit [Externals]

theorem Call.serial_txId {c : Call} (h : c.serial opened = true) : c.txId = opened :=
  of_decide_eq_true (Bool.and_eq_true .. ▸ h : _ ∧ _).1

theorem Call.serial_cases {c : Call} (h : c.serial opened = true) :
    c.isData = true ∨ opened = none ∧ ∃ name t columns unique ifNotExists,
      c.stmt = .createIndex name t columns unique ifNotExists := by
  rw [Call.serial, Bool.and_eq_true] at h
  obtain ⟨stmt, params, txId, fuel⟩ := c
  cases stmt with
  | createIndex name t columns unique ifNotExists =>
      exact Or.inr ⟨Option.isNone_iff_eq_none.mp h.2, name, t, columns, unique, ifNotExists, rfl⟩
  | startTransaction | commit | rollback | query | insert | update | delete => exact Or.inl rfl
  | _ => exact nomatch h.2

/-- Only BEGIN opens a transaction; the others leave the open one open, or end it. -/
theorem Call.opens_some {c : Call} {nextId id : UInt32} (h : c.opens opened nextId = some id) :
    c.stmt = .startTransaction ∧ nextId = id ∨ opened = some id ∧ c.ends = none := by
  obtain ⟨stmt, params, txId, fuel⟩ := c
  cases stmt with
  | startTransaction => exact Or.inl ⟨rfl, Option.some.inj h⟩
  | commit | rollback => exact nomatch h
  | _ => exact Or.inr ⟨h, rfl⟩

/-- A call that begins a transaction comes between transactions. -/
theorem Call.opened_of_begins {c : Call} (h : c.serial opened = true) (hb : c.begins = true) :
    opened = none := by
  have htx := c.serial_txId h
  rw [Call.serial, Bool.and_eq_true] at h
  obtain ⟨stmt, params, txId, fuel⟩ := c
  subst htx
  cases stmt with
  | startTransaction => exact Option.isNone_iff_eq_none.mp h.2
  | _ => exact Option.isNone_iff_eq_none.mp (Bool.and_eq_true .. ▸ hb : _ ∧ _).1

theorem Call.ne_startTransaction_of_isPlain {c : Call} (h : c.stmt.isPlain = true) :
    c.stmt ≠ .startTransaction := by
  rintro heq
  rw [heq] at h
  cases h

/-- A statement that began a transaction of its own has none open afterwards. -/
theorem Call.opens_ne_some_of_begins {c : Call} (hc : c.serial opened = true)
    (hplain : c.stmt.isPlain = true) (hb : c.begins = true) (nextId id : UInt32) :
    c.opens opened nextId ≠ some id := by
  intro hid
  rcases Call.opens_some hid with ⟨heq, -⟩ | ⟨heq, -⟩
  · exact Call.ne_startTransaction_of_isPlain hplain heq
  · cases (c.opened_of_begins hc hb).symm.trans heq

theorem Call.opens_ne_some_of_ends {c : Call} {ended : UInt32} (hends : c.ends = some ended)
    (nextId id : UInt32) : c.opens opened nextId ≠ some id := by
  intro hid
  rcases Call.opens_some hid with ⟨heq, -⟩ | ⟨-, hnone⟩
  · rw [Call.ends, heq] at hends
    cases hends
  · cases hnone.symm.trans hends

variable [Externals]

variable (dbId) in
/-- CREATE INDEX as a call. -/
theorem Call.run_createIndex {c : Call} {name : Option String} {t : String}
    {columns : List OrderByExpr} {unique ifNotExists : Bool}
    (hstmt : c.stmt = .createIndex name t columns unique ifNotExists) (w : World) :
    c.run dbId w = w ∨
      c.run dbId w = (Prog.exec (createIndex dbId name t columns unique ifNotExists) w).2 := by
  obtain ⟨stmt, params, txId, fuel⟩ := c
  obtain rfl : stmt = _ := hstmt
  have hrun : Call.run dbId ⟨.createIndex name t columns unique ifNotExists, params, txId, fuel⟩ w =
      (Prog.exec (executeSingleStatement fuel dbId
        (.createIndex name t columns unique ifNotExists) params txId) w).2 := by
    cases txId <;> rfl
  rw [hrun]
  cases fuel with
  | zero => exact Or.inl rfl
  | succ fuel => exact Or.inr rfl

variable (dbId) in
/-- What CREATE INDEX does to a world, as a call. -/
theorem Call.run_createIndex_cases {c : Call} {name : Option String} {t : String}
    {columns : List OrderByExpr} {unique ifNotExists : Bool}
    (hstmt : c.stmt = .createIndex name t columns unique ifNotExists) (w : World) :
    c.run dbId w = w ∨ ∃ schema idx, w.kvs.getSchema dbId t = some schema ∧
      idx.name ∉ schema.indices.map IndexDef.name ∧
      c.run dbId w = { w with kvs := rebuildIndex (w.kvs.setSchema dbId t
        { schema with indices := schema.indices ++ [idx] }) dbId t idx } := by
  rcases c.run_createIndex dbId hstmt w with heq | heq
  · exact Or.inl heq
  · rw [heq]
    exact createIndex_cases ..

theorem Call.triggers_of_serial {c : Call} (hc : c.serial opened = true)
    (hplain : PlainTriggers w.kvs dbId) : (c.run dbId w).kvs.triggers = w.kvs.triggers := by
  rcases c.serial_cases hc with hdata | ⟨-, name, t, columns, unique, ifNotExists, hstmt⟩
  · exact c.run_triggers hplain hdata
  · rcases c.run_createIndex_cases dbId hstmt w with heq | ⟨schema, idx, -, -, heq⟩
    · rw [heq]
    · obtain ⟨indexes, hframe⟩ := rebuildIndex_frame dbId
        (w.kvs.setSchema dbId t { schema with indices := schema.indices ++ [idx] }) t idx
      rw [heq, hframe]
      rfl

theorem Call.mem_writes_of_serial {c : Call} (hc : c.serial opened = true)
    (hplain : PlainTriggers w.kvs dbId) {x : Write} (hx : x ∈ w.writes) :
    x ∈ (c.run dbId w).writes := by
  rcases c.serial_cases hc with hdata | ⟨-, name, t, columns, unique, ifNotExists, hstmt⟩
  · exact c.run_mem_writes hplain hdata hx
  · rcases c.run_createIndex_cases dbId hstmt w with heq | ⟨_, _, _, _, heq⟩ <;> rw [heq] <;>
      exact hx

theorem mem_writes_of_serialCalls (calls : List Call) (hplain : PlainTriggers w.kvs dbId)
    (hserial : serialCalls dbId opened calls w = true) {x : Write} (hx : x ∈ w.writes) :
    x ∈ (runCalls dbId calls w).writes := by
  induction calls generalizing opened w with
  | nil => exact hx
  | cons c calls ih =>
      rw [serialCalls, Bool.and_eq_true] at hserial
      exact ih (hplain.of_triggers (c.triggers_of_serial hserial.1 hplain)) hserial.2
        (c.mem_writes_of_serial hserial.1 hplain hx)

/-! ### What a serial run keeps -/

/-- `Good` holds all the time, and `Open id` while the transaction `id` is open, if every write is as
`rule` asks. `R` is what a step of a statement may do where `J` holds. -/
structure KeptSerially (dbId : UInt32) (R : Option UInt32 → World → World → Prop)
    (J : World → Prop) (rule : Write → Prop) (Good : World → Prop)
    (Open : UInt32 → World → Prop) : Prop where
  moves : StatementsMove R dbId J
  steps : ∀ txId w w', R txId w w' → Change dbId txId w w'
  plain : ∀ w, J w → PlainTriggers w.kvs dbId
  triggers : ∀ w w', w'.kvs.triggers = w.kvs.triggers → J w → J w'
  txns : ∀ w txns, Good w → Good { w with kvs := { w.kvs with txns } }
  change : ∀ txId w w', R txId w w' → (∀ x ∈ w'.writes, rule x) → Good w → Good w'
  opened : ∀ w, Good w → Open w.kvs.txns.nextId (w.begin dbId)
  openChange : ∀ id w w', R (some id) w w' → (∀ x ∈ w'.writes, rule x) → Good w → Open id w →
    Open id w'
  rollback : ∀ id w, Good w → Open id w → Good (w.rollback id)
  createIndex : ∀ w table schema idx, w.kvs.getSchema dbId table = some schema →
    idx.name ∉ schema.indices.map IndexDef.name → Good w →
      Good { w with kvs := rebuildIndex (w.kvs.setSchema dbId table
        { schema with indices := schema.indices ++ [idx] }) dbId table idx }

namespace KeptSerially

variable {R : Option UInt32 → World → World → Prop} {J : World → Prop} {rule : Write → Prop}
  {Good : World → Prop} {Open : UInt32 → World → Prop}
  (h : KeptSerially dbId R J rule Good Open)
include h

theorem changes {txId : Option UInt32} {w' : World} (hch : Relation.ReflTransGen (R txId) w w')
    (hrule : ∀ x ∈ w'.writes, rule x) (hgood : Good w) : Good w' := by
  induction hch with
  | refl => exact hgood
  | tail _ hstep ih =>
      have hmem := fun x => Changes.mem_writes (.single (h.steps _ _ _ hstep)) (x := x)
      exact h.change _ _ _ hstep hrule (ih fun x hx => hrule x (hmem x hx))

theorem openChanges {id : UInt32} {w' : World} (hch : Relation.ReflTransGen (R (some id)) w w')
    (hrule : ∀ x ∈ w'.writes, rule x) (hgood : Good w) (hopen : Open id w) : Open id w' := by
  induction hch with
  | refl => exact hopen
  | tail hsteps hstep ih =>
      have hmem := fun x => Changes.mem_writes (.single (h.steps _ _ _ hstep)) (x := x)
      have hrule' := fun x hx => hrule x (hmem x hx)
      exact h.openChange _ _ _ hstep hrule (h.changes hsteps hrule' hgood) (ih hrule')

/-- A statement, BEGIN, COMMIT or ROLLBACK. -/
theorem data (hgood : Good w) (hopen : ∀ id, opened = some id → Open id w) (hJ : J w) {c : Call}
    (hc : c.serial opened = true) (hdata : c.isData = true)
    (hrule : ∀ x ∈ (c.run dbId w).writes, rule x) :
    Good (c.run dbId w) ∧
      ∀ id, c.opens opened w.kvs.txns.nextId = some id → Open id (c.run dbId w) := by
  have hreached : ∀ txId w, J w → c.stmt.isPlain = true →
      Relation.ReflTransGen (R txId) w (c.reached dbId txId w) := fun txId w hJ hstmt =>
    h.moves w hJ c.stmt hstmt c.fuel c.params txId
  have hbegun := fun hstmt => hreached (some w.kvs.txns.nextId) (w.begin dbId)
    (h.triggers w _ rfl hJ) hstmt
  have hgoodBegin : Good (w.begin dbId) := h.txns w _ hgood
  have hleads := c.run_leads dbId hdata w
  generalize c.run dbId w = w' at hleads hrule ⊢
  cases hleads with
  | statement hstmt =>
      have hch := hreached c.txId w hJ hstmt
      refine ⟨h.changes hch hrule hgood, fun id hid => ?_⟩
      rcases Call.opens_some hid with ⟨heq, -⟩ | ⟨rfl, -⟩
      · exact absurd heq (Call.ne_startTransaction_of_isPlain hstmt)
      · rw [c.serial_txId hc] at hch hrule ⊢
        exact h.openChanges hch hrule hgood (hopen id rfl)
  | committed hstmt hb =>
      obtain ⟨txns, hframe⟩ := commit_frame
        (c.reached dbId (some w.kvs.txns.nextId) (w.begin dbId)) w.kvs.txns.nextId
      rw [hframe]
      exact ⟨h.txns _ txns (h.changes (hbegun hstmt) hrule hgoodBegin),
        fun id hid => absurd hid (Call.opens_ne_some_of_begins hc hstmt hb _ id)⟩
  | undone hstmt hb =>
      have hopened := h.openChanges (hbegun hstmt) hrule hgoodBegin (h.opened w hgood)
      exact ⟨h.rollback _ _ (h.changes (hbegun hstmt) hrule hgoodBegin) hopened,
        fun id hid => absurd hid (Call.opens_ne_some_of_begins hc hstmt hb _ id)⟩
  | stopped hstmt hb =>
      exact ⟨h.changes (hbegun hstmt) hrule hgoodBegin,
        fun id hid => absurd hid (Call.opens_ne_some_of_begins hc hstmt hb _ id)⟩
  | begin hb =>
      refine ⟨hgoodBegin, fun id hid => ?_⟩
      rcases Call.opens_some hid with ⟨-, rfl⟩ | ⟨heq, -⟩
      · exact h.opened w hgood
      · cases (c.opened_of_begins hc hb).symm.trans heq
  | @commit id hid =>
      obtain ⟨txns, hframe⟩ := commit_frame w id
      rw [hframe]
      exact ⟨h.txns w txns hgood,
        fun _ hopens => absurd hopens (Call.opens_ne_some_of_ends hid _ _)⟩
  | @rollback id hstmt hid =>
      have htx : opened = some id := by rw [← c.serial_txId hc, ← hid, Call.ends, hstmt]
      exact ⟨h.rollback id w hgood (hopen id htx),
        fun _ hopens => absurd hopens (Call.opens_ne_some_of_ends hid _ _)⟩
  | nothing hb =>
      refine ⟨hgood, fun id hid => ?_⟩
      rcases Call.opens_some hid with ⟨heq, -⟩ | ⟨heq, -⟩
      · rw [Call.begins, heq] at hb
        cases hb
      · exact hopen id heq

theorem run (hgood : Good w) (hopen : ∀ id, opened = some id → Open id w) (hJ : J w) {c : Call}
    (hc : c.serial opened = true) (hrule : ∀ x ∈ (c.run dbId w).writes, rule x) :
    Good (c.run dbId w) ∧
      ∀ id, c.opens opened w.kvs.txns.nextId = some id → Open id (c.run dbId w) := by
  rcases c.serial_cases hc with hdata | ⟨hnone, name, t, columns, unique, ifNotExists, hstmt⟩
  · exact h.data hgood hopen hJ hc hdata hrule
  · have hopens : c.opens opened w.kvs.txns.nextId = opened := by rw [Call.opens, hstmt]
    rw [hopens]
    rcases c.run_createIndex_cases dbId hstmt w with heq | ⟨schema, idx, hschema, hfree, heq⟩
    · rw [heq]
      exact ⟨hgood, hopen⟩
    · rw [heq]
      exact ⟨h.createIndex w t schema idx hschema hfree hgood,
        fun _ hid => nomatch hnone.symm.trans hid⟩

theorem runCalls (hgood : Good w) (hopen : ∀ id, opened = some id → Open id w) (hJ : J w)
    (calls : List Call) (hserial : serialCalls dbId opened calls w = true)
    (hrule : ∀ x ∈ (runCalls dbId calls w).writes, rule x) :
    Good (Skvs.runCalls dbId calls w) := by
  induction calls generalizing opened w with
  | nil => exact hgood
  | cons c calls ih =>
      rw [serialCalls, Bool.and_eq_true] at hserial
      have hJ' := h.triggers w _ (c.triggers_of_serial hserial.1 (h.plain w hJ)) hJ
      obtain ⟨hgood', hopen'⟩ := h.run hgood hopen hJ hserial.1 fun x hx =>
        hrule x (mem_writes_of_serialCalls calls (h.plain _ hJ') hserial.2 hx)
      exact ih hgood' hopen' hJ' hserial.2 hrule

end KeptSerially

variable (dbId table) in
theorem keptSerially_sound : KeptSerially dbId (QuietChange dbId) (fun w => NoTriggers w.kvs dbId)
    (fun x => x.dbId = dbId → x.table = table → ∀ row, x.after = some row → row.realFree)
    (fun w => Sound w.kvs dbId table) (Revertible dbId table) where
  moves := noTriggers_move dbId
  steps _ _ _ := QuietChange.change
  plain _ := NoTriggers.plain
  triggers _ _ heq hno := hno.of_triggers heq
  txns w txns h := h.frame txns w.kvs.rowidGenerators
  change _ _ _ hch hreal h := h.change hch hreal
  opened _ := .begin
  openChange _ _ _ hch _ h hopen := hopen.change h hch
  rollback _ _ h hopen := hopen.rollback h
  createIndex _ _ _ _ hschema hfree h := h.createIndex hschema hfree

theorem SerialInv.runCalls (h : SerialInv dbId table opened w) (hno : NoTriggers w.kvs dbId)
    (calls : List Call) (hserial : serialCalls dbId opened calls w = true)
    (hreal : RealFreeIn dbId table (runCalls dbId calls w).writes) :
    Sound (Skvs.runCalls dbId calls w).kvs dbId table :=
  (keptSerially_sound dbId table).runCalls h.sound h.revertible hno calls hserial hreal

end Run

/-! ### From an empty table -/

/-- A table without rows, whose schema knows it by its name, and whose indexes are empty. -/
structure EmptyTable (s : KvsState) (dbId : UInt32) (table : String) : Prop where
  store : s.hasStore dbId table = true
  empty : ∀ rowid, s.row ⟨dbId, table, rowid⟩ = none
  named : ∀ schema, s.getSchema dbId table = some schema → schema.name = table
  names : ∀ schema, s.getSchema dbId table = some schema →
    (schema.indices.map IndexDef.name).Nodup
  unlisted : ∀ schema, s.getSchema dbId table = some schema →
    ∀ idx ∈ schema.indices, s.indexStore dbId table idx.name = ∅

theorem EmptyTable.sound {s : KvsState} {dbId : UInt32} {table : String}
    (h : EmptyTable s dbId table) : Sound s dbId table where
  names := h.names
  tidy schema hschema idx hidx := by
    rw [h.unlisted schema hschema idx hidx]
    exact .empty
  realFree rowid row hrow := nomatch (h.empty rowid).symm.trans hrow
  listed rowid idx v _ hfiled := by
    rw [h.empty rowid] at hfiled
    exact nomatch hfiled
  store := h.store
  named := h.named
  keys _ _ := .of_empty h.empty

variable [Externals]

theorem buildSchema_indices_name (name : String) (columns : List SqlColumnDef)
    (constraints : List TableConstraint) :
    (buildSchema name columns constraints).name = name ∧
      (buildSchema name columns constraints).indices = [] := by
  have hcolumns : ∀ schema : TableSchema, (columns.foldl addColumn schema).name = schema.name ∧
      (columns.foldl addColumn schema).indices = schema.indices := by
    induction columns with
    | nil => exact fun _ => ⟨rfl, rfl⟩
    | cons col columns ih => exact fun schema => ih (addColumn schema col)
  have hconstraints : ∀ schema : TableSchema,
      (constraints.foldl addConstraint schema).name = schema.name ∧
      (constraints.foldl addConstraint schema).indices = schema.indices := by
    induction constraints with
    | nil => exact fun _ => ⟨rfl, rfl⟩
    | cons c constraints ih =>
        intro schema
        rw [List.foldl_cons]
        cases c with
        | unique | foreignKey | check | other => exact ih _
  obtain ⟨hname, hindices⟩ := hcolumns (emptySchema name)
  obtain ⟨hname', hindices'⟩ := hconstraints (columns.foldl addColumn (emptySchema name))
  exact ⟨hname'.trans hname, hindices'.trans hindices⟩

omit [Externals] in
theorem getSchema_ensureSchemas (s : KvsState) (dbId : UInt32) (table : String) :
    ({ s with schemas := s.schemas.insertIfNew dbId ∅ } : KvsState).getSchema dbId table =
      s.getSchema dbId table := by
  simp only [KvsState.getSchema, IndexMap.get_insertIfNew, if_true, Option.bind_some, IndexMap.getD]
  cases s.schemas.get dbId <;> rfl

/-- What CREATE TABLE makes is an empty table. -/
theorem createTable_emptyTable {dbId : UInt32} {name : String} (columns : List SqlColumnDef)
    (constraints : List TableConstraint) (ifNotExists : Bool) {w : World}
    (hnew : w.kvs.getSchema dbId name = none) :
    EmptyTable (Prog.exec (createTable dbId name columns constraints ifNotExists) w).2.kvs dbId
      name := by
  obtain ⟨hname, hindices⟩ := buildSchema_indices_name name columns constraints
  have hexec : (Prog.exec (createTable dbId name columns constraints ifNotExists) w).2.kvs =
      (KvsState.setSchema { w.kvs with schemas := w.kvs.schemas.insertIfNew dbId ∅ } dbId name
        (buildSchema name columns constraints)).freshTable dbId name := by
    rw [createTable, ensureSchemas, Prog.exec_bind_ok (p := onState _) rfl,
      Prog.exec_bind_ok (Prog.exec_read ..)]
    simp only [getSchema_ensureSchemas, hnew, Option.isSome_none, Bool.false_eq_true, if_false]
    rfl
  rw [hexec]
  have hschema := getSchema_setSchema dbId
    { w.kvs with schemas := w.kvs.schemas.insertIfNew dbId ∅ } name
    (buildSchema name columns constraints) name
  rw [if_pos rfl] at hschema
  have hget : ∀ schema, (KvsState.setSchema
      { w.kvs with schemas := w.kvs.schemas.insertIfNew dbId ∅ } dbId name
        (buildSchema name columns constraints)).getSchema dbId name = some schema →
      schema.name = name ∧ schema.indices = [] := by
    intro schema hs
    obtain rfl := Option.some.inj (hschema.symm.trans hs)
    exact ⟨hname, hindices⟩
  refine ⟨?_, fun rowid => ?_, fun schema hs => (hget schema hs).1, fun schema hs => ?_,
    fun schema hs idx hidx => ?_⟩
  · simp [KvsState.hasStore, KvsState.getTableStore, KvsState.freshTable]
  · simp [KvsState.row, KvsState.rowAt, KvsState.getTableStore, KvsState.freshTable]
  · rw [(hget schema hs).2]
    exact List.nodup_nil
  · rw [(hget schema hs).2] at hidx
    exact absurd hidx List.not_mem_nil

/-- On a database without triggers, whatever a serial run does to a table that was empty, its rows
keep NOT NULL, UNIQUE and PRIMARY KEY, as long as no REAL is written to it. -/
theorem keys_hold_along_run {s : KvsState} {dbId : UInt32} {table : String}
    (hempty : EmptyTable s dbId table) (hno : NoTriggers s dbId) (calls : List Call)
    (hserial : serialCalls dbId none calls ⟨s, []⟩ = true)
    (hreal : RealFreeIn dbId table (runCalls dbId calls ⟨s, []⟩).writes) :
    KeysHold (runCalls dbId calls ⟨s, []⟩).kvs dbId table := by
  have hinv : SerialInv dbId table none ⟨s, []⟩ := ⟨hempty.sound, fun _ hid => nomatch hid⟩
  exact (hinv.runCalls hno calls hserial hreal).keys

/-! ### A sample run -/

namespace Sample

/-- `CREATE TABLE t (a INT UNIQUE)`. -/
def uniqueTable : KvsState :=
  letI := Externals.ofTexts [] []
  after [call (create [.unique false]) none]

/-- 1 is inserted in a transaction that is rolled back, an index is made, and 1 is inserted twice. -/
def insertsOfOne : List Call :=
  [call .startTransaction none, call (insert [.number "1"]) (some 1), call .rollback (some 1),
    call createIndex none, call (insert [.number "1"]) none, call (insert [.number "1"]) none]

omit [Externals] in
theorem uniqueTable_empty : EmptyTable uniqueTable 0 "t" := by
  let _ := Externals.ofTexts [] []
  exact createTable_emptyTable (w := ⟨.new [0], []⟩) [⟨name "a", .int, [.unique false]⟩] [] false
    (by decide)

end Sample

omit [Externals] in
theorem keys_hold_after_inserts :
    letI := Externals.ofTexts [] []
    KeysHold (runCalls 0 Sample.insertsOfOne ⟨Sample.uniqueTable, []⟩).kvs 0 "t" := by
  let _ := Externals.ofTexts [] []
  have hwrites : (runCalls 0 Sample.insertsOfOne ⟨Sample.uniqueTable, []⟩).writes.all
      (fun x => x.after.all Row.realFreeCheck) = true := by
    decide
  refine keys_hold_along_run Sample.uniqueTable_empty (NoTriggers.of_empty (by decide)) _
    (by decide) fun x hx _ _ row hrow => ?_
  have hcheck := List.all_eq_true.mp hwrites x hx
  rw [hrow] at hcheck
  exact realFree_of_check hcheck

end Skvs
