import Skvs.Engine
import Mathlib.Data.List.Basic
import Mathlib.Tactic.SplitIfs

/-!
# Statements with a table renamed

The new name in place of the old one, wherever a statement names a table. In a FROM list the table keeps
its old name as an alias, so that qualified columns read as they did.
-/

namespace Skvs

/-- ALTER TABLE ... RENAME TO, by the two names. -/
structure TableRenaming where
  old : String
  new : String
  ne : old ≠ new

namespace TableRenaming

variable (τ : TableRenaming)

def name (x : String) : String := if x = τ.old then τ.new else x

variable {τ}

theorem name_of_ne {x : String} (h : x ≠ τ.old) : τ.name x = x := if_neg h

theorem name_old : τ.name τ.old = τ.new := if_pos rfl

theorem name_inj {x y : String} (hx : x ≠ τ.new) (hy : y ≠ τ.new) :
    τ.name y = τ.name x ↔ y = x := by
  refine ⟨fun h => ?_, fun h => congrArg _ h⟩
  rw [name, name] at h
  split_ifs at h with h₁ h₂ h₂
  · rw [h₁, h₂]
  · exact absurd h.symm hx
  · exact absurd h hy
  · exact h

end TableRenaming

/-! ### Statements -/

section Rename

variable (τ : TableRenaming)

/-- The new name in place of the old one; columns are qualified by the name they were. -/
def TableFactor.renameTable (factor : TableFactor) : TableFactor :=
  if factor.name = τ.old then
    .table τ.new (some (tableRefName factor.name (parseTableFactor factor).2))
  else factor

def Join.renameTable (join : Join) : Join := { join with relation := join.relation.renameTable τ }

def TableWithJoins.renameTable (table : TableWithJoins) : TableWithJoins :=
  ⟨table.relation.renameTable τ, table.joins.map (Join.renameTable τ)⟩

def Select.renameTable (select : Select) : Select :=
  { select with from_ := select.from_.map (TableWithJoins.renameTable τ) }

def Query.renameTable (q : Query) : Query :=
  match q.body with
  | .select select => { q with body := .select (select.renameTable τ) }
  | _ => q

/-- The statement with the new name of the table in place of the old one. -/
def Statement.renameTable : Statement → Statement
  | .query q => .query (q.renameTable τ)
  | .insert table columns source => .insert (τ.name table) columns (source.map (Query.renameTable τ))
  | .update table assignments selection => .update (table.renameTable τ) assignments selection
  | .delete tables from_ selection =>
    .delete (tables.map τ.name) (from_.map (TableWithJoins.renameTable τ)) selection
  | stmt => stmt

end Rename

/-! ### The tables that a statement names -/

def TableWithJoins.tables (table : TableWithJoins) : List String :=
  table.relation.name :: table.joins.map fun join => join.relation.name

def Query.tables (q : Query) : List String :=
  match q.body with
  | .select select => select.from_.flatMap TableWithJoins.tables
  | _ => []

def Statement.tables : Statement → List String
  | .query q => q.tables
  | .insert table _ source => table :: source.elim [] Query.tables
  | .update table _ _ => table.tables
  | .delete tables from_ _ => tables ++ from_.flatMap TableWithJoins.tables
  | _ => []

section

variable {τ : TableRenaming}

theorem parseTableFactor_fst (factor : TableFactor) : (parseTableFactor factor).1 = factor.name := by
  cases factor <;> rfl

theorem TableFactor.name_renameTable (factor : TableFactor) :
    (factor.renameTable τ).name = τ.name factor.name := by
  rw [renameTable, TableRenaming.name]
  split_ifs <;> rfl

theorem TableFactor.renameTable_of_ne {factor : TableFactor} (h : factor.name ≠ τ.old) :
    factor.renameTable τ = factor := if_neg h

theorem TableWithJoins.renameTable_of_notMem {table : TableWithJoins} (h : τ.old ∉ table.tables) :
    table.renameTable τ = table := by
  obtain ⟨relation, joins⟩ := table
  rw [tables, List.mem_cons, not_or] at h
  rw [renameTable, TableFactor.renameTable_of_ne (Ne.symm h.1)]
  congr 1
  refine (List.map_congr_left fun join hjoin => ?_).trans (List.map_id joins)
  rw [Join.renameTable, TableFactor.renameTable_of_ne fun heq =>
    h.2 (List.mem_map.mpr ⟨join, hjoin, heq⟩)]
  rfl

theorem map_renameTable_of_notMem {from_ : List TableWithJoins}
    (h : τ.old ∉ from_.flatMap TableWithJoins.tables) :
    from_.map (TableWithJoins.renameTable τ) = from_ :=
  (List.map_congr_left fun table htable => TableWithJoins.renameTable_of_notMem fun hmem =>
    h (List.mem_flatMap.mpr ⟨table, htable, hmem⟩)).trans (List.map_id from_)

theorem Query.renameTable_of_notMem {q : Query} (h : τ.old ∉ q.tables) : q.renameTable τ = q := by
  obtain ⟨body, orderBy, limit, offset⟩ := q
  cases body with
  | select select =>
      rw [Query.renameTable]
      simp only [Select.renameTable, map_renameTable_of_notMem h]
  | values | other => rfl

/-- A statement that does not name the table stays as it is. -/
theorem Statement.renameTable_of_notMem {stmt : Statement} (h : τ.old ∉ stmt.tables) :
    stmt.renameTable τ = stmt := by
  cases stmt with
  | query q => rw [renameTable, Query.renameTable_of_notMem h]
  | insert table columns source =>
      rw [tables, List.mem_cons, not_or] at h
      rw [renameTable, TableRenaming.name_of_ne (Ne.symm h.1)]
      cases source with
      | none => rfl
      | some q => rw [Option.map_some, Query.renameTable_of_notMem h.2]
  | update table assignments selection =>
      rw [renameTable, TableWithJoins.renameTable_of_notMem h]
  | delete names from_ selection =>
      rw [tables, List.mem_append, not_or] at h
      rw [renameTable, map_renameTable_of_notMem h.2]
      congr 1
      exact (List.map_congr_left fun x hx => TableRenaming.name_of_ne fun heq =>
        h.1 (heq ▸ hx)).trans (List.map_id names)
  | _ => rfl

theorem deleteTarget_renameTable (tables : List String) (from_ : List TableWithJoins) :
    deleteTarget (tables.map τ.name) (from_.map (TableWithJoins.renameTable τ)) =
      (deleteTarget tables from_).map τ.name := by
  cases tables with
  | cons => rfl
  | nil =>
      cases from_ with
      | nil => rfl
      | cons first => exact congrArg some (TableFactor.name_renameTable first.relation)

theorem deleteTarget_mem {tables : List String} {from_ : List TableWithJoins} {x : String}
    (h : deleteTarget tables from_ = some x) :
    x ∈ tables ++ from_.flatMap TableWithJoins.tables := by
  cases tables with
  | cons t tables =>
      obtain rfl := Option.some.inj h
      exact List.mem_cons_self
  | nil =>
      cases from_ with
      | nil => cases h
      | cons first from_ =>
          obtain rfl := Option.some.inj h
          exact List.mem_cons_self

theorem Statement.isWrite_renameTable (stmt : Statement) :
    (stmt.renameTable τ).isWrite = stmt.isWrite := by
  cases stmt <;> rfl

end

end Skvs
