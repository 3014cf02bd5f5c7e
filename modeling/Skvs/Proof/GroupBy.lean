import Skvs.Select
import Skvs.Lib.Buckets
import Std.Data.String.ToInt

/-!
# GROUP BY

Groups are keyed by the debug forms of the values of the group expressions, put together with the
control character U+0001 between them.
-/

namespace Skvs

/-! ### Texts without control characters -/

def visible (s : String) : Bool := s.toList.all fun c => 32 ≤ c.toNat

theorem visible_iff {s : String} : visible s = true ↔ ∀ c ∈ s.toList, 32 ≤ c.toNat := by
  simp [visible]

theorem visible_append {s t : String} (hs : visible s = true) (ht : visible t = true) :
    visible (s ++ t) = true := by
  rw [visible, String.toList_append, List.all_append, ← visible, ← visible, hs, ht]
  rfl

theorem visible_ofList {cs : List Char} (h : ∀ c ∈ cs, 32 ≤ c.toNat) :
    visible (String.ofList cs) = true := by
  rwa [visible_iff, String.toList_ofList]

theorem separator_not_mem {s : String} (h : visible s = true) : '\x01' ∉ s.toList := fun hmem =>
  absurd (visible_iff.mp h _ hmem) (by decide)

theorem separator_not_mem_delimited {l s r : String} (hl : visible l = true) (hs : visible s = true)
    (hr : visible r = true) : '\x01' ∉ (l ++ s ++ r).toList :=
  separator_not_mem (visible_append (visible_append hl hs) hr)

theorem isDigit_visible {c : Char} (h : c.isDigit = true) : 32 ≤ c.toNat := by
  simp only [Char.isDigit, Bool.and_eq_true, decide_eq_true_eq] at h
  exact le_trans (by decide) (UInt32.le_iff_toNat_le.mp h.1)

theorem visible_nat (n : Nat) : visible (toString n) = true := by
  rw [visible_iff, Nat.toString_eq_repr, Nat.toList_repr]
  exact fun c hc => isDigit_visible (Nat.isDigit_of_mem_toDigits (by decide) (by decide) hc)

theorem visible_int (i : Int) : visible (toString i) = true := by
  rw [Int.toString_eq_repr, Int.repr_eq_if]
  split_ifs
  · exact visible_nat _
  · exact visible_append (by decide) (visible_nat _)

theorem visible_zeros (n : Nat) : visible (F64.zeros n) = true :=
  visible_ofList fun _ hc => (List.eq_of_mem_replicate hc) ▸ by decide

theorem visible_plainDecimal (c : Nat) (e : Int) : visible (F64.plainDecimal c e) = true := by
  have hdigits := visible_nat c
  have htake : ∀ n, visible (String.ofList ((toString c).toList.take n)) = true := fun n =>
    visible_ofList fun d hd => visible_iff.mp hdigits d (List.mem_of_mem_take hd)
  have hdrop : ∀ n, visible (String.ofList ((toString c).toList.drop n)) = true := fun n =>
    visible_ofList fun d hd => visible_iff.mp hdigits d (List.mem_of_mem_drop hd)
  simp only [F64.plainDecimal]
  split_ifs
  · exact visible_append hdigits (visible_zeros _)
  · exact visible_append (visible_append (htake _) (by decide)) (hdrop _)
  · exact visible_append (visible_append (by decide) (visible_zeros _)) hdigits

theorem visible_sciDecimal (c : Nat) (e : Int) : visible (F64.sciDecimal c e) = true := by
  have hdigits := visible_iff.mp (visible_nat c)
  have hhead : visible (String.ofList ((toString c).toList.take 1)) = true :=
    visible_ofList fun d hd => hdigits d (List.mem_of_mem_take hd)
  have htail : visible (String.ofList ((toString c).toList.drop 1)) = true :=
    visible_ofList fun d hd => hdigits d (List.mem_of_mem_drop hd)
  simp only [F64.sciDecimal]
  split_ifs
  · exact visible_append (visible_append (visible_append hhead (by decide)) (by decide))
      (visible_int _)
  · exact visible_append (visible_append (visible_append hhead (visible_append (by decide) htail))
      (by decide)) (visible_int _)

theorem visible_debug (f : F64) : visible f.debug = true := by
  have hsign : ∀ q : Rat, visible (F64.signText q) = true := by
    intro q
    rw [F64.signText]
    split_ifs <;> decide
  cases f with
  | nan => decide
  | inf neg => cases neg <;> decide
  | negZero => decide
  | fin q =>
      simp only [F64.debug]
      split_ifs
      · decide
      · exact visible_append (hsign q) (visible_sciDecimal _ _)
      · exact visible_append (visible_append (hsign q) (visible_plainDecimal _ _)) (by decide)
      · exact visible_append (hsign q) (visible_plainDecimal _ _)

/-! ### Keys -/

theorem append_separator_inj {α : Type} {a : α} {x y s t : List α} (hx : a ∉ x) (hy : a ∉ y)
    (h : x ++ a :: s = y ++ a :: t) : x = y ∧ s = t := by
  induction x generalizing y with
  | nil =>
      cases y with
      | nil => exact ⟨rfl, (List.cons.inj h).2⟩
      | cons b y => exact absurd ((List.cons.inj h).1 ▸ List.mem_cons_self) hy
  | cons b x ih =>
      cases y with
      | nil => exact absurd ((List.cons.inj h).1 ▸ List.mem_cons_self) hx
      | cons c y =>
          obtain ⟨rfl, htail⟩ := List.cons.inj h
          obtain ⟨rfl, rfl⟩ := ih (fun hin => hx (List.mem_cons_of_mem b hin))
            (fun hin => hy (List.mem_cons_of_mem b hin)) htail
          exact ⟨rfl, rfl⟩

/-- Pieces that are not empty and have no separator in them can be read back. -/
theorem intercalate_inj {α : Type} {a : α} {sep : List α} {xs ys : List (List α)}
    (hxs : ∀ x ∈ xs, x ≠ [] ∧ a ∉ x) (hys : ∀ y ∈ ys, y ≠ [] ∧ a ∉ y)
    (h : (a :: sep).intercalate xs = (a :: sep).intercalate ys) : xs = ys := by
  induction xs generalizing ys with
  | nil =>
      match ys with
      | [] => rfl
      | [y] => exact absurd (h.symm.trans List.intercalate_nil) (by simpa using (hys y (by simp)).1)
      | y :: y' :: ys =>
        rw [List.intercalate_cons_cons] at h
        simp at h
  | cons x xs ih =>
      rw [List.forall_mem_cons] at hxs
      match xs, ys with
      | [], [] => simp at h; exact absurd h hxs.1.1
      | _ :: _, [] =>
        rw [List.intercalate_cons_cons] at h
        simp at h
      | [], [y] => simpa using h
      | [], y :: y' :: ys =>
        rw [List.intercalate_cons_cons, List.intercalate_singleton] at h
        refine absurd ?_ hxs.1.2
        rw [h]
        simp
      | x' :: xs, [y] =>
        rw [List.intercalate_cons_cons, List.intercalate_singleton] at h
        refine absurd ?_ (hys y (by simp)).2
        rw [← h]
        simp
      | x' :: xs, y :: y' :: ys =>
        rw [List.forall_mem_cons] at hys
        rw [List.intercalate_cons_cons, List.intercalate_cons_cons, List.append_assoc,
          List.append_assoc, List.cons_append, List.cons_append] at h
        obtain ⟨rfl, hrest⟩ := append_separator_inj hxs.1.2 hys.1.2 h
        rw [ih hxs.2 hys.2 (List.append_cancel_left hrest)]

theorem digits_of_byte (x : UInt8) :
    (toString x.toNat).toList ≠ [] ∧ ',' ∉ (toString x.toNat).toList := by
  rw [Nat.toString_eq_repr, Nat.toList_repr]
  exact ⟨Nat.toDigits_ne_nil, fun hmem =>
    absurd (Nat.isDigit_of_mem_toDigits (by decide) (by decide) hmem) (by decide)⟩

/-- A list of bytes is told by its debug form. -/
theorem bytesText_inj {b c : List UInt8}
    (h : ", ".intercalate (b.map fun x => toString x.toNat) =
      ", ".intercalate (c.map fun x => toString x.toNat)) : b = c := by
  have hlist := congrArg String.toList h
  rw [String.toList_intercalate, String.toList_intercalate, List.map_map, List.map_map] at hlist
  have hpieces : ∀ d : List UInt8, ∀ t ∈ d.map (String.toList ∘ fun x => toString x.toNat),
      t ≠ [] ∧ ',' ∉ t := by
    intro d t ht
    obtain ⟨x, -, rfl⟩ := List.mem_map.mp ht
    exact digits_of_byte x
  refine List.map_injective_iff.mpr (fun x y hxy => ?_)
    (intercalate_inj (hpieces b) (hpieces c) hlist)
  exact UInt8.toNat_inj.mp (Nat.repr_injective (String.toList_inj.mp hxy))

theorem visible_bytesText (b : List UInt8) :
    visible (", ".intercalate (b.map fun x => toString x.toNat)) = true := by
  induction b with
  | nil => decide
  | cons x b ih =>
      cases b with
      | nil =>
          rw [List.map_singleton, String.intercalate_singleton]
          exact visible_nat _
      | cons y b =>
          rw [List.map_cons, List.map_cons, String.intercalate_cons_cons]
          exact visible_append (visible_append (visible_nat _) (by decide)) ih

/-- Two values that print alike: the same one, or two REALs with the same digits. -/
def Value.printsLike : Value → Value → Prop
  | .real f, .real g => f.debug = g.debug
  | v, w => v = w

theorem Value.printsLike_of_not_real {v w : Value} (hv : v.isReal = false) :
    v.printsLike w ↔ v = w := by
  cases v with
  | real => exact nomatch hv
  | null | integer | text | blob => rfl

theorem append_delimited_inj {l r s t : String} (h : l ++ s ++ r = l ++ t ++ r) : s = t := by
  have hlist := congrArg String.toList h
  simp only [String.toList_append] at hlist
  exact String.toList_inj.mp (List.append_cancel_left (List.append_cancel_right hlist))

section

variable [Externals]

/-- The debug form of a value starts with its type. -/
theorem debugValue_head (v : Value) : (debugValue v).toList.head? = some (match v with
    | .null => 'N' | .integer _ => 'I' | .real _ => 'R' | .text _ => 'T' | .blob _ => 'B') := by
  have hinteger : ∀ i : Int64, debugValue (.integer i) = "Integer(" ++ toString i ++ ")" :=
    fun _ => rfl
  cases v with
  | integer i => simp [hinteger]
  | null | real | text | blob => simp [debugValue]

/-- The debug form tells values apart as far as they print apart. -/
theorem debugValue_eq_iff (hinj : ∀ s t, debugStr s = debugStr t → s = t) (v w : Value) :
    debugValue v = debugValue w ↔ v.printsLike w := by
  constructor
  · intro h
    have hhead := congrArg (fun s : String => s.toList.head?) h
    simp only [debugValue_head, Option.some.injEq] at hhead
    cases v <;> cases w <;> simp only [Char.reduceEq] at hhead
    case null.null => rfl
    case integer.integer i j =>
        exact congrArg _ (Int64.toInt_inj.mp (Int.repr_injective (append_delimited_inj h)))
    case real.real f g => exact append_delimited_inj h
    case text.text s t => exact congrArg _ (hinj s t (append_delimited_inj h))
    case blob.blob b c => exact congrArg _ (bytesText_inj (append_delimited_inj h))
  · intro h
    cases v <;> cases w
    case real.real f g => exact congrArg (fun s => "Real(" ++ s ++ ")") h
    all_goals exact congrArg debugValue h

theorem separator_not_mem_debugValue (hclean : ∀ s, '\x01' ∉ (debugStr s).toList) (v : Value) :
    '\x01' ∉ (debugValue v).toList := by
  cases v with
  | null =>
      change '\x01' ∉ "Null".toList
      decide
  | integer i =>
      exact separator_not_mem_delimited (l := "Integer(") (r := ")") (by decide)
        (visible_int i.toInt) (by decide)
  | real f =>
      exact separator_not_mem_delimited (l := "Real(") (r := ")") (by decide) (visible_debug f)
        (by decide)
  | text s =>
      simp only [debugValue, String.toList_append, List.mem_append, not_or]
      exact ⟨⟨by decide, hclean s⟩, by decide⟩
  | blob b =>
      exact separator_not_mem_delimited (l := "Blob([") (r := "])") (by decide)
        (visible_bytesText b) (by decide)

/-- What a group expression evaluates to on a row. -/
def groupValue (row : Row) (e : Expr) : Value := evalFrom (.withRow row) [] e 0

/-- Rows have the same key just when all group expressions evaluate to values that print alike. -/
theorem groupKey_eq_iff (hinj : ∀ s t, debugStr s = debugStr t → s = t)
    (hclean : ∀ s, '\x01' ∉ (debugStr s).toList) {exprs : List Expr} (hne : exprs ≠ [])
    (row row' : Row) :
    groupKey exprs row = groupKey exprs row' ↔
      ∀ e ∈ exprs, (groupValue row e).printsLike (groupValue row' e) := by
  have hread : ∀ row, (groupKey exprs row).toList.splitOn '\x01' =
      exprs.map fun e => (debugValue (groupValue row e)).toList := by
    intro row
    rw [groupKey, String.toList_intercalate, List.map_map]
    refine List.splitOn_intercalate '\x01' (fun t ht => ?_) (by simpa using hne)
    obtain ⟨e, -, rfl⟩ := List.mem_map.mp ht
    exact separator_not_mem_debugValue hclean _
  constructor
  · intro h e he
    have hmap := hread row
    rw [h, hread row'] at hmap
    exact (debugValue_eq_iff hinj _ _).mp
      (String.toList_inj.mp (List.map_inj_left.mp hmap e he)).symm
  · intro h
    refine congrArg ("\x01".intercalate ·) (List.map_congr_left fun e he => ?_)
    exact (debugValue_eq_iff hinj _ _).mpr (h e he)

/-- All group expressions evaluate to values that print alike on both rows. -/
def rowsAlike (exprs : List Expr) (row row' : Row) : Prop :=
  ∀ e ∈ exprs, (groupValue row e).printsLike (groupValue row' e)

/-- The rows of the groups, in the order in which the groups first appear. -/
def groupsOf (exprs : List Expr) (rows : List Row) : List (List Row) :=
  (IndexMap.buckets (fun row => some (groupKey exprs row)) rows).values

theorem applyGroupBy_eq {exprs : List Expr} (hne : exprs ≠ []) (rows : List Row)
    (projection : List SelectItem) :
    applyGroupBy rows (.expressions exprs) projection =
      (groupsOf exprs rows).map fun groupRows => projection.foldl (groupItem groupRows) ∅ := by
  cases exprs with
  | nil => exact absurd rfl hne
  | cons => rfl

/-- GROUP BY groups the positions of the rows by what the group expressions evaluate to, and makes one
row of each group. -/
theorem group_by_partitions (hinj : ∀ s t, debugStr s = debugStr t → s = t)
    (hclean : ∀ s, '\x01' ∉ (debugStr s).toList) {exprs : List Expr} (hne : exprs ≠ [])
    (rows : List Row) (projection : List SelectItem) :
    ∃ groups : List (List Nat),
      IsGrouping (fun i j => rowsAlike exprs (rows.getD i ∅) (rows.getD j ∅)) rows.length groups ∧
      applyGroupBy rows (.expressions exprs) projection = groups.map fun g =>
        projection.foldl (groupItem (g.filterMap fun i => rows[i]?)) ∅ := by
  refine ⟨(rows.map (groupKey exprs)).keyPositions, ?_, ?_⟩
  · have hgrouping := List.keyPositions_isGrouping (rows.map (groupKey exprs))
    rw [List.length_map] at hgrouping
    refine { hgrouping with together := fun i hi j hj => (hgrouping.together i hi j hj).trans ?_ }
    have hkey : ∀ k, k < rows.length →
        (rows.map (groupKey exprs))[k]? = some (groupKey exprs (rows.getD k ∅)) := by
      intro k hk
      simp [hk]
    rw [hkey i hi, hkey j hj, Option.some.injEq]
    exact groupKey_eq_iff hinj hclean hne _ _
  · rw [applyGroupBy_eq hne, groupsOf, IndexMap.values_buckets_eq_positions, List.map_map]
    rfl

end

namespace Sample

/-- The debug form of a character of a text, as far as quotes, backslashes and the separator go. -/
def escaped (c : Char) : List Char :=
  if c = '\x01' then "\\u\x7b1\x7d".toList
  else if c = '\\' ∨ c = '"' then ['\\', c]
  else [c]

/-- What follows an escaped character can be told apart from it. -/
theorem escaped_append_inj {c d : Char} {s t : List Char} (h : escaped c ++ s = escaped d ++ t) :
    c = d ∧ s = t := by
  have hseparator : "\\u\x7b1\x7d".toList = ['\\', 'u', '\x7b', '1', '\x7d'] := by decide
  simp only [escaped, hseparator] at h
  split_ifs at h with hc hd hd' hc' hd hd' hd hd'
  all_goals simp only [List.cons_append, List.nil_append, List.cons.injEq] at h
  all_goals grind

theorem escaped_flatMap_inj {s t : List Char} (h : s.flatMap escaped = t.flatMap escaped) :
    s = t := by
  have hne : ∀ c, escaped c ≠ [] := by
    intro c
    rw [escaped]
    split_ifs <;> simp
  induction s generalizing t with
  | nil =>
      cases t with
      | nil => rfl
      | cons d t => exact absurd (List.append_eq_nil_iff.mp h.symm).1 (hne d)
  | cons c s ih =>
      cases t with
      | nil => exact absurd (List.append_eq_nil_iff.mp h).1 (hne c)
      | cons d t =>
          obtain ⟨rfl, hrest⟩ := escaped_append_inj h
          rw [ih hrest]

def quoted (s : String) : String := "\"" ++ String.ofList (s.toList.flatMap escaped) ++ "\""

theorem quoted_inj (s t : String) (h : quoted s = quoted t) : s = t := by
  have hchars := congrArg String.toList (append_delimited_inj h)
  rw [String.toList_ofList, String.toList_ofList] at hchars
  exact String.toList_inj.mp (escaped_flatMap_inj hchars)

theorem separator_not_mem_quoted (s : String) : '\x01' ∉ (quoted s).toList := by
  have hescaped : ∀ c, '\x01' ∉ escaped c := by
    intro c
    rw [escaped]
    split_ifs with hc hquote
    · decide
    · simpa using Ne.symm hc
    · simpa using Ne.symm hc
  simp only [quoted, String.toList_append, String.toList_ofList, List.mem_append, List.mem_flatMap,
    not_or, not_exists, not_and]
  exact ⟨⟨by decide, fun c _ => hescaped c⟩, by decide⟩

/-- Surroundings in which the debug form of a text quotes it. -/
@[reducible]
def quoting : Externals := { Externals.ofTexts [] [] with debugStr := quoted }

def identifier (column : String) : Expr := .identifier ⟨column, column⟩

/-- A row of `a` and `b`. -/
def pairRow (a b : Int64) : Row := .ofList [("a", .integer a), ("b", .integer b)]

end Sample

theorem group_by_partitions_three_rows :
    letI := Sample.quoting
    let rows := [Sample.pairRow 1 5, Sample.pairRow 2 6, Sample.pairRow 1 7]
    let exprs := [Sample.identifier "a"]
    let projection := [SelectItem.unnamedExpr (Sample.identifier "b")]
    (∃ groups : List (List Nat),
      IsGrouping (fun i j => rowsAlike exprs (rows.getD i ∅) (rows.getD j ∅)) rows.length groups ∧
      applyGroupBy rows (.expressions exprs) projection = groups.map fun g =>
        projection.foldl (groupItem (g.filterMap fun i => rows[i]?)) ∅) ∧
    applyGroupBy rows (.expressions exprs) projection =
      [.ofList [("b", .integer 5)], .ofList [("b", .integer 6)]] := by
  let _ := Sample.quoting
  exact ⟨group_by_partitions Sample.quoted_inj Sample.separator_not_mem_quoted
    (List.cons_ne_nil _ _) _ _, by decide⟩

/-- The two quotients 0 / 1 and 0 / -1 are equal, and their rows are in groups of their own. -/
theorem equal_zeros_apart :
    letI := Sample.quoting
    let rows := [Sample.pairRow 0 1, Sample.pairRow 0 (-1)]
    let exprs := [Expr.binaryOp (Sample.identifier "a") .divide (Sample.identifier "b")]
    let projection := [SelectItem.unnamedExpr (Sample.identifier "b")]
    (∀ s t, debugStr s = debugStr t → s = t) ∧ (∀ s, '\x01' ∉ (debugStr s).toList) ∧
    (∀ row ∈ rows, ∀ v ∈ row.values, v.isReal = false) ∧
    ¬∃ groups : List (List Nat),
      IsGrouping (fun i j => ∀ e ∈ exprs,
        (groupValue (rows.getD i ∅) e).partialEq (groupValue (rows.getD j ∅) e) = true)
        rows.length groups ∧
      applyGroupBy rows (.expressions exprs) projection = groups.map fun g =>
        projection.foldl (groupItem (g.filterMap fun i => rows[i]?)) ∅ := by
  let _ := Sample.quoting
  refine ⟨Sample.quoted_inj, Sample.separator_not_mem_quoted, by decide, ?_⟩
  rintro ⟨groups, hgroups, hrows⟩
  have hone := hgroups.length_le_one (by decide +kernel)
  have htwo : (applyGroupBy _ _ _).length = _ := congrArg List.length hrows
  rw [List.length_map] at htwo
  exact absurd (htwo.trans_le hone) (by decide +kernel)

end Skvs
