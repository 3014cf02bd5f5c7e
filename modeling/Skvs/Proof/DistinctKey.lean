import Skvs.Proof.GroupBy

/-!
# The keys of DISTINCT

A row's key is the text of its names and values, run together. The debug form of a value shows where
it ends, so a key can be read back where the names are known beforehand, or where none of them has a
colon in it.
-/

namespace Skvs

section

variable [Externals]

/-- The debug form of a text shows where it ends. -/
def QuotesEnd : Prop :=
  ∀ s t (x y : List Char), (debugStr s).toList ++ x = (debugStr t).toList ++ y → s = t ∧ x = y

/-! ### Values -/

omit [Externals] in
theorem delimited_append_inj {l r s t : String} {c : Char} (hr : ∃ z, r.toList = c :: z) (hs : c ∉ s.toList)
    (ht : c ∉ t.toList) {x y : List Char}
    (h : (l ++ s ++ r).toList ++ x = (l ++ t ++ r).toList ++ y) : s = t ∧ x = y := by
  obtain ⟨z, hz⟩ := hr
  simp only [String.toList_append, List.append_assoc, hz, List.cons_append] at h
  obtain ⟨hst, hrest⟩ := append_separator_inj hs ht (List.append_cancel_left h)
  exact ⟨String.toList_inj.mp hst, List.append_cancel_left hrest⟩

omit [Externals] in
theorem not_mem_nat {c : Char} (hc : c.isDigit = false) (n : Nat) : c ∉ (toString n).toList := by
  rw [Nat.toString_eq_repr, Nat.toList_repr]
  intro hmem
  have hdigit := Nat.isDigit_of_mem_toDigits (by decide) (by decide) hmem
  exact absurd hdigit (by rw [hc]; exact Bool.false_ne_true)

omit [Externals] in
theorem not_mem_int {c : Char} (hc : c.isDigit = false) (hminus : c ≠ '-') (i : Int) :
    c ∉ (toString i).toList := by
  rw [Int.toString_eq_repr, Int.repr_eq_if]
  split_ifs
  · exact not_mem_nat hc _
  · rw [String.toList_append, List.mem_append, not_or]
    exact ⟨by simpa using hminus, not_mem_nat hc _⟩

omit [Externals] in
theorem not_mem_bytesText {c : Char} (hc : c.isDigit = false) (hcomma : c ∉ ", ".toList)
    (b : List UInt8) : c ∉ (", ".intercalate (b.map fun x => toString x.toNat)).toList := by
  induction b with
  | nil => exact List.not_mem_nil
  | cons x b ih =>
      cases b with
      | nil =>
          rw [List.map_singleton, String.intercalate_singleton]
          exact not_mem_nat hc _
      | cons y b =>
          rw [List.map_cons, List.map_cons, String.intercalate_cons_cons, String.toList_append,
            String.toList_append, List.mem_append, List.mem_append, not_or, not_or]
          exact ⟨⟨not_mem_nat hc _, hcomma⟩, ih⟩

/-- What follows the debug form of a value can be told apart from it. -/
theorem debugValue_append_inj (hquotes : QuotesEnd) {v w : Value} (hv : v.isReal = false)
    {x y : List Char} (h : (debugValue v).toList ++ x = (debugValue w).toList ++ y) :
    v = w ∧ x = y := by
  have hhead := congrArg List.head? h
  rw [List.head?_append, List.head?_append, debugValue_head, debugValue_head, Option.some_or,
    Option.some_or, Option.some.injEq] at hhead
  cases v <;> cases w <;> simp only [Char.reduceEq] at hhead
  case null.null => exact ⟨rfl, List.append_cancel_left h⟩
  case integer.integer i j =>
    have hdigits : ∀ i : Int64, ')' ∉ (toString i).toList := fun i =>
      not_mem_int (by decide) (by decide) i.toInt
    obtain ⟨hij, hrest⟩ := delimited_append_inj (l := "Integer(") (r := ")") ⟨[], rfl⟩
      (hdigits i) (hdigits j) h
    exact ⟨congrArg _ (Int64.toInt_inj.mp (Int.repr_injective hij)), hrest⟩
  case real.real => exact nomatch hv
  case text.text s t =>
    simp only [debugValue, String.toList_append, List.append_assoc] at h
    obtain ⟨hst, hrest⟩ := hquotes s t _ _ (List.append_cancel_left h)
    exact ⟨congrArg _ hst, List.append_cancel_left hrest⟩
  case blob.blob b c =>
    obtain ⟨hbc, hrest⟩ := delimited_append_inj (l := "Blob([") (r := "])") ⟨[')'], rfl⟩
      (not_mem_bytesText (by decide) (by decide) b) (not_mem_bytesText (by decide) (by decide) c) h
    exact ⟨congrArg _ (bytesText_inj hbc), hrest⟩

/-! ### Rows -/

/-- The text of an entry. -/
def entryText (e : String × Value) : List Char := e.1.toList ++ ':' :: (debugValue e.2).toList

theorem distinctKey_toList (row : Row) : (distinctKey row).toList = row.entries.flatMap entryText := by
  change ("".intercalate (row.entries.map fun e => e.1 ++ ":" ++ debugValue e.2)).toList = _
  generalize row.entries = es
  induction es with
  | nil => rfl
  | cons e es ih =>
      have hentry : (e.1 ++ ":" ++ debugValue e.2).toList = entryText e := by
        simp [entryText]
      cases es with
      | nil => rw [List.map_singleton, String.intercalate_singleton, hentry, List.flatMap_singleton]
      | cons e' es =>
          rw [List.map_cons] at ih
          rw [List.map_cons, List.map_cons, String.intercalate_cons_cons, String.append_empty,
            String.toList_append, hentry, ih]
          rfl

theorem entryTexts_inj (hquotes : QuotesEnd) {es es' : List (String × Value)}
    (hreal : ∀ e ∈ es, e.2.isReal = false)
    (hnames : es.map Prod.fst = es'.map Prod.fst ∨
      (∀ e ∈ es, ':' ∉ e.1.toList) ∧ ∀ e ∈ es', ':' ∉ e.1.toList)
    (h : es.flatMap entryText = es'.flatMap entryText) : es = es' := by
  induction es generalizing es' with
  | nil =>
      cases es' with
      | nil => rfl
      | cons e' es' => simp [entryText] at h
  | cons e es ih =>
      cases es' with
      | nil => simp [entryText] at h
      | cons e' es' =>
          rw [List.forall_mem_cons] at hreal
          simp only [List.flatMap_cons, entryText, List.append_assoc, List.cons_append] at h
          have hname : e.1 = e'.1 ∧ (debugValue e.2).toList ++ es.flatMap entryText =
              (debugValue e'.2).toList ++ es'.flatMap entryText := by
            rcases hnames with hsame | ⟨hcolon, hcolon'⟩
            · rw [List.map_cons, List.map_cons, List.cons.injEq] at hsame
              rw [hsame.1] at h
              exact ⟨hsame.1, (List.cons.inj (List.append_cancel_left h)).2⟩
            · obtain ⟨hname, hrest⟩ := append_separator_inj (hcolon e List.mem_cons_self)
                (hcolon' e' List.mem_cons_self) h
              exact ⟨String.toList_inj.mp hname, hrest⟩
          obtain ⟨hvalue, hrest⟩ := debugValue_append_inj hquotes hreal.1 hname.2
          have hnames : es.map Prod.fst = es'.map Prod.fst ∨
              (∀ e ∈ es, ':' ∉ e.1.toList) ∧ ∀ e ∈ es', ':' ∉ e.1.toList :=
            hnames.imp (fun hsame => (List.cons.inj hsame).2) fun hcolon =>
              ⟨(List.forall_mem_cons.mp hcolon.1).2, (List.forall_mem_cons.mp hcolon.2).2⟩
          rw [Prod.ext hname.1 hvalue, ih hreal.2 hnames hrest]

/-- The names of two rows can be read back from their keys: they are the same, or have no colon. -/
def NamesTold (row row' : Row) : Prop :=
  row.keys = row'.keys ∨ (∀ name ∈ row.keys, ':' ∉ name.toList) ∧ ∀ name ∈ row'.keys, ':' ∉ name.toList

theorem distinctKey_eq_iff (hquotes : QuotesEnd) {row row' : Row}
    (hreal : ∀ v ∈ row.values, v.isReal = false) (hnames : NamesTold row row') :
    distinctKey row = distinctKey row' ↔ row = row' := by
  refine ⟨fun h => IndexMap.ext_entries ?_, fun h => h ▸ rfl⟩
  refine entryTexts_inj hquotes (fun e he => hreal _ (List.mem_map_of_mem he)) ?_ ?_
  · exact hnames.imp_right fun hcolon => ⟨fun e he => hcolon.1 _ (List.mem_map_of_mem he),
      fun e he => hcolon.2 _ (List.mem_map_of_mem he)⟩
  · rw [← distinctKey_toList, ← distinctKey_toList, h]

end

namespace Sample

theorem quote_ne_escaped (c : Char) (x y : List Char) : '"' :: x ≠ escaped c ++ y := by
  have hseparator : "\\u\x7b1\x7d".toList = ['\\', 'u', '\x7b', '1', '\x7d'] := by decide
  intro h
  rw [escaped, hseparator] at h
  split_ifs at h with hc hquote
  · exact absurd (List.cons.inj h).1 (by decide)
  · exact absurd (List.cons.inj h).1 (by decide)
  · exact hquote (.inr (List.cons.inj h).1.symm)

theorem escaped_flatMap_append_inj {s t x y : List Char}
    (h : s.flatMap escaped ++ '"' :: x = t.flatMap escaped ++ '"' :: y) : s = t ∧ x = y := by
  induction s generalizing t with
  | nil =>
      cases t with
      | nil => exact ⟨rfl, (List.cons.inj h).2⟩
      | cons d t =>
          rw [List.flatMap_cons, List.append_assoc] at h
          exact absurd h (quote_ne_escaped d _ _)
  | cons c s ih =>
      rw [List.flatMap_cons, List.append_assoc] at h
      cases t with
      | nil => exact absurd h.symm (quote_ne_escaped c _ _)
      | cons d t =>
          rw [List.flatMap_cons, List.append_assoc] at h
          obtain ⟨rfl, hrest⟩ := escaped_append_inj h
          obtain ⟨rfl, rfl⟩ := ih hrest
          exact ⟨rfl, rfl⟩

theorem quotesEnd_quoting : @QuotesEnd quoting := by
  intro s t x y h
  change (quoted s).toList ++ x = (quoted t).toList ++ y at h
  simp only [quoted, String.toList_append, String.toList_ofList, List.append_assoc] at h
  obtain ⟨hst, hxy⟩ := escaped_flatMap_append_inj (List.append_cancel_left h)
  exact ⟨String.toList_inj.mp hst, hxy⟩

end Sample

end Skvs
