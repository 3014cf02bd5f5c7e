import Skvs.Proof.JsonPaths

/-!
# Writing and reading along one path, or along two

`json_set` and `json_extract` differ in what they take for the segments of a path: only the latter
drops a leading `$`, `$.` or `.`. Without these, what one writes the other finds.
-/

namespace Skvs

/-! ### Reading what was written -/

theorem eq_key_iff {part first : List Char} {seg : Segment} (hkey : isIndexPart first = false)
    (h : segment? part = some seg) : seg = .key (String.ofList first) ↔ part = first := by
  constructor
  · rintro rfl
    by_cases hindex : isIndexPart part = true
    · rw [segment?, if_pos hindex] at h
      obtain ⟨n, -, heq⟩ := Option.map_eq_some_iff.mp h
      cases heq
    · rw [segment?, if_neg hindex, Option.some.injEq, Segment.key.injEq] at h
      exact String.ofList_injective h
  · rintro rfl
    rw [segment?_of_key hkey] at h
    exact (Option.some.inj h).symm

theorem forall_eq_key_iff {first : List Char} {parts : List (List Char)} {segs : List Segment}
    (hkey : isIndexPart first = false) (h : parts.mapM segment? = some segs) :
    (∀ seg ∈ segs, seg = .key (String.ofList first)) ↔ ∀ part ∈ parts, part = first := by
  induction parts generalizing segs with
  | nil =>
      cases h
      simp
  | cons part parts ih =>
      obtain ⟨seg, rest, hseg, hrest, rfl⟩ := exists_of_mapM_cons h
      rw [List.forall_mem_cons, List.forall_mem_cons, ih hrest, eq_key_iff hkey hseg]

/-- A list that is a prefix of itself under one more head repeats this head. -/
theorem forall_eq_of_prefix_cons {α : Type} {a : α} {l : List α} (h : l <+: a :: l) :
    ∀ b ∈ l, b = a := by
  induction l with
  | nil => exact nofun
  | cons b l ih =>
      rw [List.cons_prefix_cons] at h
      obtain ⟨rfl, h⟩ := h
      exact List.forall_mem_cons.mpr ⟨rfl, ih h⟩

theorem cons_eq_append_of_forall_eq {α : Type} {a : α} {l : List α} (h : ∀ b ∈ l, b = a) :
    a :: l = l ++ [a] := by
  rw [List.eq_replicate_of_mem h]
  exact (List.replicate_succ' ..).symm ▸ rfl

/-- The path begins neither with `$` nor with a dot. -/
def Unprefixed (path : String) : Prop :=
  path.toList.head? ≠ some '$' ∧ path.toList.head? ≠ some '.'

def writeParts (path : String) : List (List Char) := Text.split '.' path.toList

def readParts (path : String) : List (List Char) := Text.split '.' (pathBody path)

theorem split_ne_nil (sep : Char) (cs : List Char) : Text.split sep cs ≠ [] := by
  cases cs with
  | nil => exact List.cons_ne_nil _ _
  | cons c cs =>
      rw [Text.split]
      split
      · exact List.cons_ne_nil _ _
      · split_ifs <;> exact List.cons_ne_nil _ _

theorem exists_split (sep : Char) (cs : List Char) : ∃ w ws, Text.split sep cs = w :: ws ∧
    ∀ c, Text.split sep (c :: cs) = if c = sep then [] :: w :: ws else (c :: w) :: ws := by
  obtain ⟨w, ws, h⟩ := List.exists_cons_of_ne_nil (split_ne_nil sep cs)
  exact ⟨w, ws, h, fun c => by rw [Text.split, h]⟩

theorem pathBody_of_unprefixed {path : String} (h : Unprefixed path) :
    pathBody path = path.toList := by
  obtain ⟨hdollar, hdot⟩ := h
  rw [pathBody]
  cases hcs : path.toList with
  | nil => rfl
  | cons c cs =>
      rw [hcs, List.head?_cons, ne_eq, Option.some.injEq] at hdollar hdot
      have hstrip : ∀ d, c ≠ d → Text.stripPrefix [d] (c :: cs) = none := by
        intro d hd
        simp [Text.stripPrefix, List.isPrefixOf, Ne.symm hd]
      rw [hstrip '$' hdollar, Option.getD_none, hstrip '.' hdot, Option.getD_none]

theorem readParts_of_unprefixed {path : String} (h : Unprefixed path) :
    readParts path = writeParts path := by
  rw [readParts, pathBody_of_unprefixed h, writeParts]

/-- The prefix that only `json_extract` drops is written as a key of its own, or as a part of one. -/
theorem writeParts_of_prefixed {path : String} (h : ¬Unprefixed path) :
    ∃ first rest, isIndexPart first = false ∧ writeParts path = first :: rest ∧
      (readParts path = rest ∨ ∃ part, part ≠ first ∧ readParts path = part :: rest) := by
  rw [writeParts, readParts, pathBody]
  cases hcs : path.toList with
  | nil => exact absurd ⟨by simp [hcs], by simp [hcs]⟩ h
  | cons c cs =>
      obtain ⟨w, ws, hsplit, hcons⟩ := exists_split '.' cs
      by_cases hdot : c = '.'
      · subst hdot
        refine ⟨[], w :: ws, rfl, by rw [hcons, if_pos rfl], .inl ?_⟩
        simp [Text.stripPrefix, List.isPrefixOf, hsplit]
      · have hdollar : c = '$' := by
          by_contra hne
          exact h ⟨by simp [hcs, hne], by simp [hcs, hdot]⟩
        subst hdollar
        refine ⟨'$' :: w, ws, rfl, by rw [hcons, if_neg hdot], ?_⟩
        have hbody : (Text.stripPrefix ['$'] ('$' :: cs)).getD ('$' :: cs) = cs := by
          simp [Text.stripPrefix, List.isPrefixOf]
        rw [hbody]
        cases cs with
        | nil => exact .inr ⟨w, by simp, hsplit⟩
        | cons d cs =>
            by_cases hd : d = '.'
            · subst hd
              obtain ⟨w', ws', hsplit', hcons'⟩ := exists_split '.' cs
              rw [hcons', if_pos rfl, List.cons.injEq] at hsplit
              refine .inl ?_
              simp [Text.stripPrefix, List.isPrefixOf, hsplit', hsplit.2]
            · refine .inr ⟨w, by simp, ?_⟩
              simp [Text.stripPrefix, List.isPrefixOf, Ne.symm hd, hsplit]

theorem exists_segments {parts : List (List Char)}
    (h : ∀ part ∈ parts, (segment? part).isSome = true) : ∃ segs, parts.mapM segment? = some segs := by
  induction parts with
  | nil => exact ⟨[], rfl⟩
  | cons part parts ih =>
      obtain ⟨hpart, hparts⟩ := List.forall_mem_cons.mp h
      obtain ⟨seg, hseg⟩ := Option.isSome_iff_exists.mp hpart
      obtain ⟨segs, hsegs⟩ := ih hparts
      exact ⟨seg :: segs, by simp [hseg, hsegs]⟩

section

variable [Externals] {doc text path : String} {v : Value}

/-- The path has at least one segment for `json_extract`, and each bracketed one holds an index. -/
structure ReadablePath (path : String) : Prop where
  nonempty : pathBody path ≠ []
  parts : ∀ part ∈ readParts path, (segment? part).isSome = true

/-- The document already has the value where `json_extract` looks for it. -/
def HoldsAlready (doc path : String) (v : Value) : Prop :=
  ∃ val segs, jsonFromStr doc = .ok val ∧ (readParts path).mapM segment? = some segs ∧
    jsonValueAt val segs = v

/-- NULL, an INTEGER or a TEXT. -/
def Value.isScalar (v : Value) : Bool := v matches .null | .integer _ | .text _

theorem jsonValueToSkvs_skvsValueToJson (hv : v.isScalar = true) :
    jsonValueToSkvs (skvsValueToJson v) = v := by
  cases v with
  | null => rfl
  | integer i =>
      rw [skvsValueToJson, JsonNumber.ofI64]
      split_ifs with hneg
      · rfl
      · have hsmall : i.toUInt64.toNat < 2 ^ 63 := by
          rw [Int64.not_lt] at hneg
          have hhigh := i.toInt_lt
          rw [Int64.toNat_toUInt64_of_le hneg, Int64.toNatClampNeg]
          omega
        simp only [jsonValueToSkvs, JsonNumber.asI64, if_pos hsmall]
        rfl
  | text s => rfl
  | real f => cases hv
  | blob b => cases hv

/-- What `json_set` writes, `json_extract` finds exactly if the path has no prefix that only the
latter drops, or the value is already where the latter looks, not on the way to where it is written. -/
theorem jsonExtract_jsonSet_iff (hpath : ReadablePath path) (hv : v.isScalar = true)
    (hset : jsonSet doc path v = .ok text) (hback : ReadsBack doc text) :
    jsonExtract text path = .ok v ↔
      Unprefixed path ∨
        HoldsAlready doc path v ∧ ∃ part ∈ readParts path, (writeParts path).head? ≠ some part := by
  obtain ⟨val, val', segs, hdoc, htext, hsegs, hwrite⟩ := write_of_jsonSet hset hback
  obtain ⟨others, hothers⟩ := exists_segments hpath.parts
  rw [jsonExtract_eq htext hpath.nonempty hothers, Except.ok.injEq]
  by_cases hpre : Unprefixed path
  · rw [readParts_of_unprefixed hpre, writeParts, hsegs, Option.some.injEq] at hothers
    subst hothers
    rw [jsonValueAt, read_write hwrite, Option.map_some, Option.getD_some,
      jsonValueToSkvs_skvsValueToJson hv]
    simp [hpre]
  have hheld : HoldsAlready doc path v ↔ jsonValueAt val others = v := by
    rw [HoldsAlready]
    constructor
    · rintro ⟨val₀, segs₀, hdoc₀, hsegs₀, hvalue⟩
      rw [hdoc, Except.ok.injEq] at hdoc₀
      rw [hothers, Option.some.injEq] at hsegs₀
      rwa [hdoc₀, hsegs₀]
    · exact fun hvalue => ⟨val, others, hdoc, hothers, hvalue⟩
  rw [or_iff_right hpre, hheld]
  obtain ⟨first, rest, hkey, hwritten, hread⟩ := writeParts_of_prefixed hpre
  rw [← writeParts, hwritten] at hsegs
  obtain ⟨_, later, hfirst, hlater, rfl⟩ := exists_of_mapM_cons hsegs
  obtain rfl := (eq_key_iff hkey hfirst).mpr rfl
  rw [hwritten, List.head?_cons]
  rcases hread with hread | ⟨part, hne, hread⟩
  · rw [hread] at hothers ⊢
    obtain rfl : later = others := Option.some.inj (hlater.symm.trans hothers)
    by_cases hall : ∀ part ∈ rest, part = first
    · have hsame := (forall_eq_key_iff hkey hlater).mpr hall
      rw [cons_eq_append_of_forall_eq hsame] at hwrite
      obtain ⟨fields, hfields⟩ := read_write_parent hwrite
      have hblob : jsonValueAt val' later ≠ v := by
        rw [jsonValueAt, hfields]
        rintro rfl
        exact nomatch hv
      refine iff_of_false hblob ?_
      rintro ⟨-, part, hmem, hdiffer⟩
      exact hdiffer (congrArg some (hall part hmem).symm)
    · have hapart : val'.read later = val.read later := by
        refine read_write_of_apart hwrite (fun hp => ?_) fun hp => ?_
        · exact absurd hp.length_le (by simp)
        · exact hall ((forall_eq_key_iff hkey hlater).mp (forall_eq_of_prefix_cons hp))
      rw [jsonValueAt, hapart, ← jsonValueAt]
      simp only [not_forall] at hall
      obtain ⟨part, hmem, hdiffer⟩ := hall
      exact (and_iff_left ⟨part, hmem, fun h => hdiffer (Option.some.inj h).symm⟩).symm
  · rw [hread] at hothers
    obtain ⟨seg, others, hseg, -, rfl⟩ := exists_of_mapM_cons hothers
    have hdiffer : seg ≠ .key (String.ofList first) := mt (eq_key_iff hkey hseg).mp hne
    have hapart : val'.read (seg :: others) = val.read (seg :: others) := by
      refine read_write_of_apart hwrite (fun hp => ?_) fun hp => ?_
      · exact hdiffer (List.cons_prefix_cons.mp hp).1.symm
      · exact hdiffer (List.cons_prefix_cons.mp hp).1
    rw [jsonValueAt, hapart, ← jsonValueAt, hread]
    refine (and_iff_left ⟨part, List.mem_cons_self, fun h => hne (Option.some.inj h).symm⟩).symm

end

namespace Sample

/-- The texts of the documents of these examples. -/
def jsonText : JsonValue → String
  | .object [] => "\x7b\x7d"
  | .object [(k, .number n)] => if k = "a" ∧ n = .posInt 1 then "\x7b\"a\":1\x7d" else ""
  | .object [(k, .object [(l, .number n)])] =>
    if k = "$" ∧ l = "a" ∧ n = .posInt 1 then "\x7b\"$\":\x7b\"a\":1\x7d\x7d" else ""
  | _ => ""

def one : JsonValue := .number (.posInt 1)

@[reducible]
def jsonDocuments : Externals :=
  { Externals.ofTexts [] [] with
    jsonFromStr := fun text =>
      if text = "\x7b\x7d" then .ok (.object [])
      else if text = "\x7b\"a\":1\x7d" then .ok (.object [("a", one)])
      else if text = "\x7b\"$\":\x7b\"a\":1\x7d\x7d" then .ok (.object [("$", .object [("a", one)])])
      else .error "expected value"
    jsonToString := jsonText }

end Sample

theorem readsBack_a_one :
    letI := Sample.jsonDocuments
    ReadsBack "\x7b\x7d" "\x7b\"a\":1\x7d" :=
  let _ := Sample.jsonDocuments
  { proper := by
      intro val hval
      obtain rfl : JsonValue.object [] = val := Except.ok.inj hval
      exact .object .nil nofun
    slice := nofun
    back := by
      intro val hproper htext
      change Sample.jsonText val = _ at htext
      unfold Sample.jsonText at htext
      split at htext
      · exact absurd htext (by decide)
      · split_ifs at htext with hsame
        · rw [hsame.1, hsame.2]
          rfl
        · exact absurd htext (by decide)
      · split_ifs at htext
        · exact absurd htext (by decide)
        · exact absurd htext (by decide)
      · exact absurd htext (by decide) }

/-- `json_set('{}', 'a', 1)`. -/
theorem jsonExtract_jsonSet_plain :
    letI := Sample.jsonDocuments
    jsonExtract "\x7b\"a\":1\x7d" "a" = .ok (.integer 1) :=
  let _ := Sample.jsonDocuments
  have hset : jsonSet "\x7b\x7d" "a" (.integer 1) = .ok "\x7b\"a\":1\x7d" := rfl
  (jsonExtract_jsonSet_iff ⟨by decide, by decide⟩ rfl hset readsBack_a_one).mpr (.inl ⟨by decide, by decide⟩)

/-- `json_set('{}', '$.a', 1)` writes the key `$`, and `json_extract` finds no `$.a` then. -/
theorem jsonExtract_jsonSet_prefixed :
    letI := Sample.jsonDocuments
    jsonSet "\x7b\x7d" "$.a" (.integer 1) = .ok "\x7b\"$\":\x7b\"a\":1\x7d\x7d" ∧
      jsonExtract "\x7b\"$\":\x7b\"a\":1\x7d\x7d" "$.a" = .ok .null :=
  ⟨rfl, rfl⟩

/-! ### Two paths -/

/-- A plain part that is not empty, or the decimal form of an index in brackets. -/
def CanonicalPart (part : List Char) : Prop :=
  part ≠ [] ∧ (isIndexPart part = true →
    ∃ n : UInt64, part = '[' :: (Nat.toDigits 10 n.toNat ++ [']']))

structure CanonicalPath (path : String) : Prop where
  parts : ∀ part ∈ writeParts path, CanonicalPart part
  start : path.toList.head? ≠ some '$'

theorem segment?_index (n : UInt64) :
    segment? ('[' :: (Nat.toDigits 10 n.toNat ++ [']'])) = some (.index n.toNat) := by
  have hindex : isIndexPart ('[' :: (Nat.toDigits 10 n.toNat ++ [']'])) = true := by
    simp [isIndexPart, List.getLast?_cons]
  rw [segment?, if_pos hindex, List.drop_one, List.tail_cons, List.dropLast_concat,
    Text.parseUsize_toDigits n.toNat_lt]
  rfl

theorem CanonicalPart.isSome {part : List Char} (h : CanonicalPart part) :
    (segment? part).isSome = true := by
  by_cases hindex : isIndexPart part = true
  · obtain ⟨n, rfl⟩ := h.2 hindex
    rw [segment?_index]
    rfl
  · rw [segment?_of_key (Bool.not_eq_true _ ▸ hindex)]
    rfl

theorem CanonicalPart.eq_of_segment? {part other : List Char} {seg : Segment}
    (h : CanonicalPart part) (hother : CanonicalPart other) (hseg : segment? part = some seg)
    (hseg' : segment? other = some seg) : part = other := by
  by_cases hindex : isIndexPart part = true
  · obtain ⟨n, rfl⟩ := h.2 hindex
    rw [segment?_index] at hseg
    cases hseg
    by_cases hindex' : isIndexPart other = true
    · obtain ⟨m, rfl⟩ := hother.2 hindex'
      rw [segment?_index, Option.some.injEq, Segment.index.injEq] at hseg'
      rw [hseg']
    · rw [Bool.not_eq_true] at hindex'
      rw [segment?_of_key hindex'] at hseg'
      exact nomatch hseg'
  · rw [Bool.not_eq_true] at hindex
    rw [segment?_of_key hindex] at hseg
    cases hseg
    exact ((eq_key_iff hindex hseg').mp rfl).symm

theorem prefix_of_segments {parts others : List (List Char)} {segs segs' : List Segment}
    (hparts : ∀ part ∈ parts, CanonicalPart part) (hothers : ∀ part ∈ others, CanonicalPart part)
    (h : parts.mapM segment? = some segs) (h' : others.mapM segment? = some segs')
    (hpre : segs <+: segs') : parts <+: others := by
  induction parts generalizing others segs segs' with
  | nil => exact List.nil_prefix
  | cons part parts ih =>
      obtain ⟨seg, rest, hseg, hrest, rfl⟩ := exists_of_mapM_cons h
      cases others with
      | nil =>
          cases h'
          exact absurd hpre (by simp)
      | cons other others =>
          obtain ⟨seg', rest', hseg', hrest', rfl⟩ := exists_of_mapM_cons h'
          obtain ⟨rfl, htail⟩ := List.cons_prefix_cons.mp hpre
          rw [List.forall_mem_cons] at hparts hothers
          rw [hparts.1.eq_of_segment? hothers.1 hseg hseg', List.cons_prefix_cons]
          exact ⟨rfl, ih hparts.2 hothers.2 hrest hrest' htail⟩

theorem CanonicalPath.unprefixed {path : String} (h : CanonicalPath path) : Unprefixed path := by
  refine ⟨h.start, fun hdot => ?_⟩
  obtain ⟨cs, hcs⟩ := List.head?_eq_some_iff.mp hdot
  obtain ⟨w, ws, -, hcons⟩ := exists_split '.' cs
  have hempty : CanonicalPart [] := h.parts [] (by rw [writeParts, hcs, hcons, if_pos rfl]; simp)
  exact hempty.1 rfl

theorem CanonicalPath.readable {path : String} (h : CanonicalPath path) : ReadablePath path where
  nonempty := by
    rw [pathBody_of_unprefixed h.unprefixed]
    intro hnil
    have hempty : CanonicalPart [] := h.parts [] (by rw [writeParts, hnil]; simp [Text.split])
    exact hempty.1 rfl
  parts := by
    rw [readParts_of_unprefixed h.unprefixed]
    exact fun part hpart => (h.parts part hpart).isSome

/-- `json_set` leaves what `json_extract` finds along any other path as it was. -/
theorem jsonExtract_jsonSet_of_apart [Externals] {doc text p q : String} {v : Value}
    (hp : CanonicalPath p) (hq : CanonicalPath q) (hpq : ¬writeParts p <+: writeParts q)
    (hqp : ¬writeParts q <+: writeParts p) (hset : jsonSet doc p v = .ok text)
    (hback : ReadsBack doc text) : jsonExtract text q = jsonExtract doc q := by
  obtain ⟨val, val', segs, hdoc, htext, hsegs, hwrite⟩ := write_of_jsonSet hset hback
  obtain ⟨others, hothers⟩ := exists_segments hq.readable.parts
  rw [jsonExtract_eq htext hq.readable.nonempty hothers,
    jsonExtract_eq hdoc hq.readable.nonempty hothers]
  rw [readParts_of_unprefixed hq.unprefixed] at hothers
  have hapart : val'.read others = val.read others :=
    read_write_of_apart hwrite (mt (prefix_of_segments hp.parts hq.parts hsegs hothers) hpq)
      (mt (prefix_of_segments hq.parts hp.parts hothers hsegs) hqp)
  rw [jsonValueAt, jsonValueAt, hapart]

/-- `json_set('{}', 'a', 1)` and the path `b`. -/
theorem jsonExtract_jsonSet_other :
    letI := Sample.jsonDocuments
    jsonExtract "\x7b\"a\":1\x7d" "b" = jsonExtract "\x7b\x7d" "b" :=
  let _ := Sample.jsonDocuments
  have hpath : ∀ k : Char, isIndexPart [k] = false → writeParts (String.ofList [k]) = [[k]] →
      (String.ofList [k]).toList.head? ≠ some '$' → CanonicalPath (String.ofList [k]) := by
    intro k hkey hparts hstart
    refine ⟨fun part hpart => ?_, hstart⟩
    rw [hparts, List.mem_singleton] at hpart
    subst hpart
    exact ⟨List.cons_ne_nil _ _, fun hindex => absurd (hkey.symm.trans hindex) (by decide)⟩
  jsonExtract_jsonSet_of_apart (p := "a") (q := "b") (v := .integer 1) (hpath 'a' rfl rfl (by decide))
    (hpath 'b' rfl rfl (by decide)) (by decide) (by decide) rfl readsBack_a_one

end Skvs
