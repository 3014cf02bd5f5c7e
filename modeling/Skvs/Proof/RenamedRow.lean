import Skvs.Dml
import Skvs.Proof.Renaming

/-!
# A column under another name

A row of the renamed table holds under the new name what the row held under the old one. Inserts and
lookups go on agreeing, as long as they keep off the name that is now taken.
-/

namespace Skvs

/-- ALTER TABLE ... RENAME COLUMN, by its table and the two names. -/
structure ColumnRenaming where
  table : String
  old : Ident
  new : Ident
  ne : old.value ≠ new.value

namespace ColumnRenaming

variable (ρ : ColumnRenaming)

/-- The name that a column of the table `x` goes by afterwards. -/
def name (x c : String) : String := if x = ρ.table ∧ c = ρ.old.value then ρ.new.value else c

/-- The names that mean in the table `x` what they meant before: all but the new one. -/
def Known (x c : String) : Prop := x = ρ.table → c ≠ ρ.new.value

def ident (x : String) (id : Ident) : Ident :=
  if x = ρ.table ∧ id.value = ρ.old.value then ρ.new else id

/-- The new name in the last place of a qualified name. -/
def qualified (x : String) (parts : List Ident) : List Ident :=
  match parts.getLast? with
  | some p => parts.dropLast ++ [ρ.ident x p]
  | none => parts

/-- The new name in place of the old one. -/
def ref (x : String) : ColumnRef → ColumnRef
  | .bare id => .bare (ρ.ident x id)
  | .dotted parts => .dotted (ρ.qualified x parts)

variable {ρ} {x : String}

theorem value_ident (id : Ident) : (ρ.ident x id).value = ρ.name x id.value := by
  rw [ident, name]
  split_ifs <;> rfl

theorem name_of_ne {c : String} (h : x = ρ.table → c ≠ ρ.old.value) : ρ.name x c = c :=
  if_neg fun hand => h hand.1 hand.2

theorem name_inj {c c' : String} (hc : ρ.Known x c) (hc' : ρ.Known x c') :
    ρ.name x c' = ρ.name x c ↔ c' = c := by
  refine ⟨fun h => ?_, fun h => congrArg _ h⟩
  rw [name, name] at h
  split_ifs at h with h₁ h₂ h₂
  · rw [h₁.2, h₂.2]
  · exact absurd h.symm (hc h₁.1)
  · exact absurd h (hc' h₂.1)
  · exact h

theorem name_ne_old (hx : x = ρ.table) (c : String) : ρ.old.value ≠ ρ.name x c := by
  rw [name]
  split_ifs with h
  · exact ρ.ne
  · exact fun heq => h ⟨hx, heq.symm⟩

end ColumnRenaming

/-! ### Rows -/

/-- `row'` is `row` with the column renamed; further names that nothing knows may differ. -/
structure RowRenamed (ρ : ColumnRenaming) (x : String) (row row' : Row) : Prop where
  get : ∀ c, ρ.Known x c → row'.get (ρ.name x c) = row.get c
  old : x = ρ.table → row'.get ρ.old.value = none

namespace RowRenamed

variable {ρ : ColumnRenaming} {x : String} {row row' : Row}

theorem empty : RowRenamed ρ x ∅ ∅ := ⟨fun _ _ => rfl, fun _ => rfl⟩

/-- In another table nothing changes. -/
theorem of_ne (hx : x ≠ ρ.table) : RowRenamed ρ x row row :=
  ⟨fun c _ => by rw [ColumnRenaming.name_of_ne fun h => absurd h hx], fun h => absurd h hx⟩

variable (h : RowRenamed ρ x row row')
include h

theorem get_of_ne {c : String} (hold : x = ρ.table → c ≠ ρ.old.value) (hnew : ρ.Known x c) :
    row'.get c = row.get c := by
  have hget := h.get c hnew
  rwa [ColumnRenaming.name_of_ne hold] at hget

theorem insert {c : String} (hc : ρ.Known x c) (v : Value) :
    RowRenamed ρ x (row.insert c v) (row'.insert (ρ.name x c) v) where
  get c' hc' := by
    rw [IndexMap.get_insert, IndexMap.get_insert, h.get c' hc']
    simp only [ColumnRenaming.name_inj hc hc']
  old hx := by
    rw [IndexMap.get_insert, if_neg (ColumnRenaming.name_ne_old hx c), h.old hx]

theorem insertIfNew {c : String} (hc : ρ.Known x c) (v : Value) :
    RowRenamed ρ x (row.insertIfNew c v) (row'.insertIfNew (ρ.name x c) v) := by
  rw [IndexMap.insertIfNew, IndexMap.insertIfNew, IndexMap.contains, IndexMap.contains, h.get c hc]
  split_ifs
  · exact h
  · exact h.insert hc v

theorem holds_eq {c : String} (hc : ρ.Known x c) (v : Value) :
    Row.holds row' (ρ.name x c) v = Row.holds row c v := by
  rw [Row.holds, Row.holds, h.get c hc]

end RowRenamed

/-! ### Names in expressions -/

/-- What a qualified name spells. -/
def spelled (parts : List Ident) : String := ".".intercalate (parts.map Ident.value)

namespace ColumnRenaming

variable (ρ : ColumnRenaming)

/-- The names that a qualified name may be looked up by are others than the old and the new one. -/
def Avoids : ColumnRef → Prop
  | .bare id => id.value ≠ ρ.old.value ∧ id.value ≠ ρ.new.value
  | .dotted parts =>
    (∀ p ∈ parts.getLast?, p.value ≠ ρ.old.value ∧ p.value ≠ ρ.new.value) ∧
      spelled parts ≠ ρ.old.value ∧ spelled parts ≠ ρ.new.value

/-- A name that the new one can take the place of the old one in: it is not the new name already, and
a qualified name that ends in the old one spells no name that a row has, before and after. -/
def Clear (rows : Row → Prop) : ColumnRef → Prop
  | .bare id => id.value ≠ ρ.new.value
  | .dotted parts =>
    (∀ p ∈ parts.getLast?, p.value ≠ ρ.new.value) ∧
      (spelled parts ≠ ρ.old.value ∧ spelled parts ≠ ρ.new.value) ∧
      ∀ p ∈ parts.getLast?, p.value = ρ.old.value →
        (spelled (ρ.qualified ρ.table parts) ≠ ρ.old.value ∧
          spelled (ρ.qualified ρ.table parts) ≠ ρ.new.value) ∧
        ∀ row, rows row → row.get (spelled parts) = none ∧
          row.get (spelled (ρ.qualified ρ.table parts)) = none

end ColumnRenaming

namespace ColumnRenaming

variable {ρ : ColumnRenaming} {x : String} {parts : List Ident} {p : Ident}

theorem getLast_qualified (hp : parts.getLast? = some p) :
    (ρ.qualified x parts).getLast? = some (ρ.ident x p) := by
  rw [qualified, hp, List.getLast?_append]
  rfl

theorem qualified_of_ne (hp : ∀ p ∈ parts.getLast?, x = ρ.table → p.value ≠ ρ.old.value) :
    ρ.qualified x parts = parts := by
  rw [qualified]
  split
  · next p hlast =>
      rw [ident, if_neg fun hand => hp p hlast hand.1 hand.2]
      exact List.dropLast_append_getLast? p hlast
  · rfl

end ColumnRenaming

theorem lookupCompound_congr {row row' : Row} {parts parts' : List Ident}
    (hspelled : row'.get (spelled parts') = row.get (spelled parts))
    (hlast : (parts'.getLast?.map fun p => lookupColumn (.withRow row') p.value) =
      parts.getLast?.map fun p => lookupColumn (.withRow row) p.value) :
    lookupCompound (.withRow row') parts' = lookupCompound (.withRow row) parts := by
  have heq : ∀ (row : Row) parts, lookupCompound (.withRow row) parts =
      (row.get (spelled parts)).getD
        ((parts.getLast?.map fun p => lookupColumn (.withRow row) p.value).getD .null) := by
    intro row parts
    rw [lookupCompound]
    simp only [EvalCtx.withRow, Option.bind_some]
    rw [spelled]
    cases row.get (".".intercalate (parts.map Ident.value)) with
    | some v => rfl
    | none => cases parts.getLast? <;> rfl
  rw [heq, heq, hspelled, hlast]

/-- Without a row, names stand for NULL. -/
theorem ColumnRef.lookup_noRow (r : ColumnRef) : r.lookup .noRow = .null := by
  cases r with
  | bare id => rfl
  | dotted parts =>
      rw [lookup, lookupCompound]
      simp only [EvalCtx.noRow, Option.bind_none]
      cases parts.getLast? <;> rfl

namespace RowRenamed

variable {ρ : ColumnRenaming} {x : String} {row row' : Row} (h : RowRenamed ρ x row row')
include h

theorem lookupColumn_eq {c : String} (hc : ρ.Known x c) :
    lookupColumn (.withRow row') (ρ.name x c) = lookupColumn (.withRow row) c := by
  simp only [lookupColumn, EvalCtx.withRow, Option.bind_some, h.get c hc]

/-- A name that avoids both stands for what it stood for. -/
theorem lookup_of_avoids {r : ColumnRef} (hr : x = ρ.table → ρ.Avoids r) :
    r.lookup (.withRow row') = r.lookup (.withRow row) := by
  have hcolumn : ∀ c, (x = ρ.table → c ≠ ρ.old.value ∧ c ≠ ρ.new.value) →
      lookupColumn (.withRow row') c = lookupColumn (.withRow row) c := by
    intro c hc
    have heq := h.lookupColumn_eq fun hx => (hc hx).2
    rwa [ColumnRenaming.name_of_ne fun hx => (hc hx).1] at heq
  cases r with
  | bare id => exact hcolumn id.value hr
  | dotted parts =>
      refine lookupCompound_congr (h.get_of_ne (fun hx => (hr hx).2.1) fun hx => (hr hx).2.2) ?_
      cases hlast : parts.getLast? with
      | none => rfl
      | some p => exact congrArg some (hcolumn p.value fun hx => (hr hx).1 p hlast)

/-- The new name stands for what the old one stood for. -/
theorem lookup_ref {r : ColumnRef} {rows : Row → Prop} (hr : x = ρ.table → ρ.Clear rows r)
    (hrow : rows row) : (ρ.ref x r).lookup (.withRow row') = r.lookup (.withRow row) := by
  cases r with
  | bare id =>
      rw [ColumnRenaming.ref, ColumnRef.lookup, ColumnRef.lookup, ColumnRenaming.value_ident]
      exact h.lookupColumn_eq hr
  | dotted parts =>
      refine lookupCompound_congr ?_ ?_
      · by_cases hends : ∀ p ∈ parts.getLast?, x = ρ.table → p.value ≠ ρ.old.value
        · rw [ColumnRenaming.qualified_of_ne hends]
          exact h.get_of_ne (fun hx => (hr hx).2.1.1) fun hx => (hr hx).2.1.2
        · -- neither spelling finds anything, before or after
          push Not at hends
          obtain ⟨p, hp, rfl, hold⟩ := hends
          obtain ⟨hne, hnone⟩ := (hr rfl).2.2 p hp hold
          rw [h.get_of_ne (fun _ => hne.1) fun _ => hne.2, (hnone row hrow).1, (hnone row hrow).2]
      · cases hlast : parts.getLast? with
        | none =>
            rw [ColumnRenaming.qualified, hlast]
            simp [hlast]
        | some p =>
            rw [ColumnRenaming.getLast_qualified hlast, Option.map_some, Option.map_some,
              ColumnRenaming.value_ident]
            exact congrArg some (h.lookupColumn_eq fun hx => (hr hx).1 p hlast)

end RowRenamed

end Skvs
