import Skvs.Json

/-!
# Paths into JSON documents

`json_extract` and `json_set` walk a document along segments, which are keys of objects or indices of
arrays. Here the walks are told apart from the paths: what is written along segments is read along
them, and a place that they do not lead to or through is as before.
-/

namespace Skvs

/-- A step into a document. -/
inductive Segment where
  | key (k : String)
  | index (n : Nat)
  deriving DecidableEq

namespace JsonValue

def child : JsonValue → Segment → Option JsonValue
  | .object fields, .key k => fields.lookup k
  | .array items, .index n => items[n]?
  | _, _ => none

/-- The document with a value at one of its fields, which may be new, or at one of its items. -/
def withChild : JsonValue → Segment → JsonValue → Option JsonValue
  | .object fields, .key k, new => some (.object (insertField k new fields))
  | .array items, .index n, new => if n < items.length then some (.array (items.set n new)) else none
  | _, _, _ => none

def read : JsonValue → List Segment → Option JsonValue
  | val, [] => some val
  | val, seg :: segs => (val.child seg).bind fun c => c.read segs

/-- A parent that is missing is created as an object. -/
def write : JsonValue → List Segment → JsonValue → Option JsonValue
  | _, [], new => some new
  | val, seg :: segs, new =>
    (((val.child seg).getD (.object [])).write segs new).bind fun c => val.withChild seg c

end JsonValue

/-! ### One step -/

theorem lookup_insertField (k l : String) (v : JsonValue) (fields : List (String × JsonValue)) :
    (insertField k v fields).lookup l = if l = k then some v else fields.lookup l := by
  have hcons : ∀ (e : String × JsonValue) es, List.lookup l (e :: es) =
      if l = e.1 then some e.2 else List.lookup l es := by
    intro e es
    rw [List.lookup_cons]
    by_cases h : l = e.1
    · simp [h]
    · rw [if_neg h, beq_false_of_ne h]
  induction fields with
  | nil => exact hcons (k, v) []
  | cons e es ih =>
      rw [insertField]
      cases hcmp : compare k e.1 with
      | lt => exact hcons (k, v) (e :: es)
      | eq =>
          have hk : k = e.1 := Std.compare_eq_iff_eq.mp hcmp
          simp only [hcons, hk]
          split_ifs <;> rfl
      | gt =>
          have hk : k ≠ e.1 := by
            rintro rfl
            rw [Std.compare_self] at hcmp
            exact nomatch hcmp
          simp only [hcons, ih]
          by_cases hl : l = e.1
          · rw [if_pos hl, if_neg (fun h => hk (h.symm.trans hl)), if_pos hl]
          · rw [if_neg hl, if_neg hl]

section

variable {new val val' : JsonValue} {seg other : Segment}

theorem child_withChild (h : val.withChild seg new = some val') : val'.child seg = some new := by
  cases val <;> cases seg <;>
    simp only [JsonValue.withChild, Option.ite_none_right_eq_some, Option.some.injEq, reduceCtorEq] at h
  case array.index items n =>
      obtain ⟨hn, rfl⟩ := h
      rw [JsonValue.child, List.getElem?_set_self hn]
  case object.key fields k =>
      subst h
      rw [JsonValue.child, lookup_insertField, if_pos rfl]

theorem child_withChild_of_ne (h : val.withChild seg new = some val') (hne : other ≠ seg) :
    val'.child other = val.child other := by
  cases val <;> cases seg <;>
    simp only [JsonValue.withChild, Option.ite_none_right_eq_some, Option.some.injEq, reduceCtorEq] at h
  case array.index items n =>
      obtain ⟨-, rfl⟩ := h
      cases other with
      | key k => rfl
      | index m =>
          have hnm : n ≠ m := fun heq => hne (by rw [heq])
          rw [JsonValue.child, JsonValue.child, List.getElem?_set_ne hnm]
  case object.key fields k =>
      subst h
      cases other with
      | key l =>
          have hlk : l ≠ k := fun heq => hne (by rw [heq])
          rw [JsonValue.child, JsonValue.child, lookup_insertField, if_neg hlk]
      | index n => rfl

end

/-! ### Whole paths -/

section

variable {new val val' : JsonValue} {segs others : List Segment}

theorem read_write (h : val.write segs new = some val') : val'.read segs = some new := by
  induction segs generalizing val val' with
  | nil => exact h.symm
  | cons seg segs ih =>
      obtain ⟨c, hc, hput⟩ := Option.bind_eq_some_iff.mp h
      rw [JsonValue.read, child_withChild hput]
      exact ih hc

/-- A place that the written path does not lead to or through is as before. -/
theorem read_write_of_apart (h : val.write segs new = some val') (hpre : ¬segs <+: others)
    (hpost : ¬others <+: segs) : val'.read others = val.read others := by
  induction segs generalizing val val' others with
  | nil => exact absurd List.nil_prefix hpre
  | cons seg segs ih =>
      cases others with
      | nil => exact absurd List.nil_prefix hpost
      | cons other others =>
          obtain ⟨c, hc, hput⟩ := Option.bind_eq_some_iff.mp h
          rw [JsonValue.read, JsonValue.read]
          by_cases hsame : other = seg
          · subst hsame
            rw [List.cons_prefix_cons] at hpre hpost
            have hread := ih hc (fun hp => hpre ⟨rfl, hp⟩) fun hp => hpost ⟨rfl, hp⟩
            rw [child_withChild hput, Option.bind_some, hread]
            cases hchild : val.child other with
            | some child => rfl
            | none =>
                cases others with
                | nil => exact absurd ⟨rfl, List.nil_prefix⟩ hpost
                | cons next others => cases next <;> rfl
          · rw [child_withChild_of_ne hput hsame]

/-- The written path leads through an object to each of its keys. -/
theorem read_write_parent {k : String} {rest : List Segment}
    (h : val.write (segs ++ .key k :: rest) new = some val') :
    ∃ fields, val'.read segs = some (.object fields) := by
  induction segs generalizing val val' with
  | nil =>
      obtain ⟨c, -, hput⟩ := Option.bind_eq_some_iff.mp h
      cases val <;> simp only [JsonValue.withChild, Option.some.injEq, reduceCtorEq] at hput
      exact ⟨_, congrArg some hput.symm⟩
  | cons seg segs ih =>
      obtain ⟨c, hc, hput⟩ := Option.bind_eq_some_iff.mp h
      rw [JsonValue.read, child_withChild hput]
      exact ih hc

end

/-! ### The walks of the code -/

/-- The step that a part of a path stands for; a bracketed part must hold an index. -/
def segment? (part : List Char) : Option Segment :=
  if isIndexPart part then (Text.parseUsize (part.drop 1).dropLast).map .index
  else some (.key (String.ofList part))

theorem exists_of_mapM_cons {part : List Char} {parts : List (List Char)} {segs : List Segment}
    (h : (part :: parts).mapM segment? = some segs) :
    ∃ seg rest, segment? part = some seg ∧ parts.mapM segment? = some rest ∧ segs = seg :: rest := by
  simp only [List.mapM_cons, Option.bind_eq_bind, Option.bind_eq_some_iff] at h
  obtain ⟨seg, hseg, rest, hrest, heq⟩ := h
  exact ⟨seg, rest, hseg, hrest, (Option.some.inj heq).symm⟩

theorem segment?_of_index {part : List Char} (hindex : isIndexPart part = true) :
    segment? part = (parseIndexPart part).toOption.map .index := by
  rw [segment?, if_pos hindex, parseIndexPart]
  cases Text.parseUsize (part.drop 1).dropLast <;> rfl

theorem segment?_of_key {part : List Char} (hkey : isIndexPart part = false) :
    segment? part = some (.key (String.ofList part)) := by
  rw [segment?, hkey, if_neg Bool.false_ne_true]

section

variable {part : List Char} {parts : List (List Char)} {seg : Segment} {segs : List Segment}
  {new val val' : JsonValue}

theorem jsonFollow_cons (h : segment? part = some seg) :
    jsonFollow (part :: parts) val = (val.child seg).elim (.ok none) (jsonFollow parts) := by
  by_cases hindex : isIndexPart part = true
  · rw [segment?_of_index hindex] at h
    cases hparse : parseIndexPart part with
    | error e => rw [hparse] at h; exact nomatch h
    | ok n =>
        rw [hparse] at h
        cases h
        cases val <;> simp only [jsonFollow, hindex, hparse, if_true, JsonValue.child] <;> try rfl
        case array items => cases hitem : items[n]? <;> simp [bind, Except.bind, hitem]
  · rw [Bool.not_eq_true] at hindex
    rw [segment?_of_key hindex] at h
    cases h
    cases val <;> simp only [jsonFollow, hindex, Bool.false_eq_true, if_false, JsonValue.child] <;>
      try rfl
    case object fields => cases fields.lookup (String.ofList part) <;> rfl

theorem jsonFollow_eq_read (h : parts.mapM segment? = some segs) :
    jsonFollow parts val = .ok (val.read segs) := by
  induction parts generalizing segs val with
  | nil =>
      cases h
      rfl
  | cons part parts ih =>
      obtain ⟨seg, rest, hseg, hrest, rfl⟩ := exists_of_mapM_cons h
      rw [jsonFollow_cons hseg, JsonValue.read]
      cases val.child seg with
      | none => rfl
      | some c => exact ih hrest

theorem withChild_of_jsonSetAt (h : jsonSetAt new [part] val = .ok val') :
    ∃ seg, segment? part = some seg ∧ val.withChild seg new = some val' := by
  by_cases hindex : isIndexPart part = true
  · rw [segment?_of_index hindex]
    cases hparse : parseIndexPart part with
    | error e => simp [jsonSetAt, hindex, hparse, bind, Except.bind] at h
    | ok n =>
        refine ⟨_, rfl, ?_⟩
        cases val <;> simp [jsonSetAt, hindex, hparse, bind, Except.bind, throw, throwThe,
          MonadExceptOf.throw, pure, Except.pure, ite_eq_iff] at h
        case array items =>
            obtain ⟨hn, rfl⟩ := h
            exact if_pos hn
  · rw [Bool.not_eq_true] at hindex
    refine ⟨_, segment?_of_key hindex, ?_⟩
    cases val <;> simp [jsonSetAt, hindex] at h
    case object fields => exact congrArg some h

theorem jsonSetAt_cons (hne : parts ≠ []) (h : jsonSetAt new (part :: parts) val = .ok val') :
    ∃ seg c, segment? part = some seg ∧
      jsonSetAt new parts ((val.child seg).getD (.object [])) = .ok c ∧
      val.withChild seg c = some val' := by
  obtain ⟨next, parts, rfl⟩ := List.exists_cons_of_ne_nil hne
  by_cases hindex : isIndexPart part = true
  · rw [segment?_of_index hindex]
    cases hparse : parseIndexPart part with
    | error e => simp [jsonSetAt, hindex, hparse, bind, Except.bind] at h
    | ok n =>
        cases val <;> simp only [jsonSetAt, hindex, hparse, if_true, bind, Except.bind, throw,
          throwThe, MonadExceptOf.throw, reduceCtorEq] at h
        case array items =>
            cases hitem : items[n]? with
            | none => simp [hitem] at h
            | some item =>
                simp only [hitem] at h
                cases hc : jsonSetAt new (next :: parts) item with
                | error e => simp [hc] at h
                | ok c =>
                    simp only [hc, pure, Except.pure, Except.ok.injEq] at h
                    have hlt : n < items.length := (List.getElem?_eq_some_iff.mp hitem).1
                    refine ⟨_, c, rfl, ?_, (if_pos hlt).trans (congrArg some h)⟩
                    simpa only [JsonValue.child, hitem, Option.getD_some] using hc
  · rw [Bool.not_eq_true] at hindex
    cases val <;> simp only [jsonSetAt, hindex, Bool.false_eq_true, if_false, bind, Except.bind,
      reduceCtorEq] at h
    case object fields =>
        cases hc : jsonSetAt new (next :: parts)
            ((fields.lookup (String.ofList part)).getD (.object [])) with
        | error e => simp [hc] at h
        | ok c =>
            simp only [hc, pure, Except.pure, Except.ok.injEq] at h
            exact ⟨_, c, segment?_of_key hindex, hc, congrArg some h⟩

theorem write_of_jsonSetAt (h : jsonSetAt new parts val = .ok val') :
    ∃ segs, parts.mapM segment? = some segs ∧ val.write segs new = some val' := by
  induction parts generalizing val val' with
  | nil => exact nomatch h
  | cons part parts ih =>
      by_cases hnil : parts = []
      · subst hnil
        obtain ⟨seg, hseg, hput⟩ := withChild_of_jsonSetAt h
        exact ⟨[seg], by simp [hseg], hput⟩
      · obtain ⟨seg, c, hseg, hc, hput⟩ := jsonSetAt_cons hnil h
        obtain ⟨segs, hsegs, hwrite⟩ := ih hc
        refine ⟨seg :: segs, by simp [hseg, hsegs], ?_⟩
        rw [JsonValue.write, hwrite]
        exact hput

end

/-! ### Documents that can be written -/

def JsonNumber.Proper : JsonNumber → Prop
  | .posInt _ => True
  | .negInt i => i < 0
  | .float f => f.toRat?.isSome = true

/-- The fields of objects are in the order of their keys, and numbers are finite. -/
inductive JsonValue.Proper : JsonValue → Prop
  | null : Proper .null
  | bool (b : Bool) : Proper (.bool b)
  | number {n : JsonNumber} (h : n.Proper) : Proper (.number n)
  | string (s : String) : Proper (.string s)
  | array {items : List JsonValue} (h : ∀ item ∈ items, Proper item) : Proper (.array items)
  | object {fields : List (String × JsonValue)}
      (sorted : fields.Pairwise fun e e' => compare e.1 e'.1 = .lt)
      (h : ∀ e ∈ fields, Proper e.2) : Proper (.object fields)

theorem mem_insertField {k : String} {v : JsonValue} {fields : List (String × JsonValue)}
    {e : String × JsonValue} (h : e ∈ insertField k v fields) : e = (k, v) ∨ e ∈ fields := by
  induction fields with
  | nil => exact .inl (List.mem_singleton.mp h)
  | cons e' es ih =>
      rw [insertField] at h
      cases hcmp : compare k e'.1 <;> simp only [hcmp, List.mem_cons] at h ⊢ <;> tauto

theorem sorted_insertField {k : String} {v : JsonValue} {fields : List (String × JsonValue)}
    (h : fields.Pairwise fun e e' => compare e.1 e'.1 = .lt) :
    (insertField k v fields).Pairwise fun e e' => compare e.1 e'.1 = .lt := by
  induction fields with
  | nil => exact List.pairwise_singleton _ _
  | cons e es ih =>
      obtain ⟨hhead, htail⟩ := List.pairwise_cons.mp h
      rw [insertField]
      cases hcmp : compare k e.1 with
      | lt =>
          refine List.pairwise_cons.mpr ⟨List.forall_mem_cons.mpr ⟨hcmp, fun e' he' => ?_⟩, h⟩
          exact Std.TransCmp.lt_trans hcmp (hhead e' he')
      | eq =>
          have hk : k = e.1 := Std.compare_eq_iff_eq.mp hcmp
          exact List.pairwise_cons.mpr ⟨fun e' he' => hk ▸ hhead e' he', htail⟩
      | gt =>
          refine List.pairwise_cons.mpr ⟨fun e' he' => ?_, ih htail⟩
          rcases mem_insertField he' with rfl | hmem
          · exact Std.OrientedCmp.lt_of_gt hcmp
          · exact hhead e' hmem

section

variable {new val val' c : JsonValue} {seg : Segment} {segs : List Segment}

theorem JsonValue.Proper.child (h : val.Proper) (hchild : val.child seg = some c) : c.Proper := by
  cases h <;> cases seg <;> simp only [JsonValue.child, reduceCtorEq] at hchild
  case array.index items hitems n => exact hitems c (List.mem_of_getElem? hchild)
  case object.key fields hsorted hfields k =>
      obtain ⟨before, after, rfl, -⟩ := List.lookup_eq_some_iff.mp hchild
      exact hfields (k, c) (List.mem_append_right before List.mem_cons_self)

theorem JsonValue.Proper.withChild (h : val.Proper) (hnew : new.Proper)
    (hput : val.withChild seg new = some val') : val'.Proper := by
  cases h <;> cases seg <;> simp only [JsonValue.withChild, Option.ite_none_right_eq_some,
    Option.some.injEq, reduceCtorEq] at hput
  case array.index items hitems n =>
      obtain ⟨-, rfl⟩ := hput
      refine .array fun item hitem => ?_
      rcases List.mem_or_eq_of_mem_set hitem with hmem | rfl
      · exact hitems item hmem
      · exact hnew
  case object.key fields hsorted hfields k =>
      subst hput
      refine .object (sorted_insertField hsorted) fun e he => ?_
      rcases mem_insertField he with rfl | hmem
      · exact hnew
      · exact hfields e hmem

theorem JsonValue.Proper.write (h : val.Proper) (hnew : new.Proper)
    (hwrite : val.write segs new = some val') : val'.Proper := by
  induction segs generalizing val val' with
  | nil =>
      cases hwrite
      exact hnew
  | cons seg segs ih =>
      obtain ⟨c, hc, hput⟩ := Option.bind_eq_some_iff.mp hwrite
      have hparent : ((val.child seg).getD (.object [])).Proper := by
        cases hchild : val.child seg with
        | none => exact .object .nil nofun
        | some child => exact h.child hchild
      exact h.withChild (ih hparent hc) hput

end

/-! ### The texts of documents -/

section

variable [Externals] {doc text path : String} {v : Value}

/-- The reader accepts proper documents only, and what the writer makes of one is read back. -/
structure ReadsBack (doc text : String) : Prop where
  proper : ∀ val, jsonFromStr doc = .ok val → val.Proper
  slice : ∀ bytes val, jsonFromSlice bytes = some val → val.Proper
  back : ∀ val, val.Proper → jsonToString val = text → jsonFromStr text = .ok val

theorem skvsValueToJson_proper (hslice : ∀ bytes val, jsonFromSlice bytes = some val → val.Proper)
    (v : Value) : (skvsValueToJson v).Proper := by
  cases v with
  | null => exact .null
  | integer i =>
      refine .number ?_
      rw [JsonNumber.ofI64]
      split_ifs with hneg
      · exact hneg
      · trivial
  | real f =>
      rw [skvsValueToJson, JsonNumber.fromF64]
      cases hf : f.toRat? with
      | none => exact .null
      | some q => exact .number (Option.isSome_of_mem hf)
  | text s => exact .string s
  | blob b =>
      rw [skvsValueToJson]
      cases hb : jsonFromSlice b with
      | none => exact .string _
      | some json => exact hslice b json hb

/-- A successful `json_set` writes at the segments of the path, and the result is read back. -/
theorem write_of_jsonSet (hset : jsonSet doc path v = .ok text) (hback : ReadsBack doc text) :
    ∃ val val' segs, jsonFromStr doc = .ok val ∧ jsonFromStr text = .ok val' ∧
      (Text.split '.' path.toList).mapM segment? = some segs ∧
      val.write segs (skvsValueToJson v) = some val' := by
  rw [jsonSet, parseJson] at hset
  cases hread : jsonFromStr doc with
  | error e => simp [hread, bind, Except.bind] at hset
  | ok val =>
      cases hat : jsonSetAt (skvsValueToJson v) (Text.split '.' path.toList) val with
      | error e => simp [hread, hat, bind, Except.bind] at hset
      | ok val' =>
          simp only [hread, hat, bind, Except.bind, pure, Except.pure, Except.ok.injEq] at hset
          obtain ⟨segs, hsegs, hwrite⟩ := write_of_jsonSetAt hat
          have hproper := (hback.proper val hread).write (skvsValueToJson_proper hback.slice v) hwrite
          exact ⟨val, val', segs, rfl, hback.back val' hproper hset, hsegs, hwrite⟩

/-- What is left of a path once `json_extract` has dropped `$` and then `.` from its start. -/
def pathBody (path : String) : List Char :=
  let path := (Text.stripPrefix ['$'] path.toList).getD path.toList
  (Text.stripPrefix ['.'] path).getD path

/-- The value of a part of a document; NULL where there is none. -/
def jsonValueAt (val : JsonValue) (segs : List Segment) : Value :=
  ((val.read segs).map jsonValueToSkvs).getD .null

theorem jsonExtract_eq {val : JsonValue} {segs : List Segment} (hread : jsonFromStr doc = .ok val)
    (hbody : pathBody path ≠ [])
    (hsegs : (Text.split '.' (pathBody path)).mapM segment? = some segs) :
    jsonExtract doc path = .ok (jsonValueAt val segs) := by
  have hextract : jsonExtract doc path = (jsonFollow (Text.split '.' (pathBody path)) val).bind
      fun found => .ok ((found.map jsonValueToSkvs).getD .null) := by
    have hempty : (pathBody path).isEmpty = false := by simp [hbody]
    simp only [jsonExtract, parseJson, hread, bind, Except.bind, pure, Except.pure]
    rw [← pathBody, hempty, if_neg Bool.false_ne_true]
    cases jsonFollow (Text.split '.' (pathBody path)) val with
    | error e => rfl
    | ok found => cases found <;> rfl
  rw [hextract, jsonFollow_eq_read hsegs]
  rfl

end

end Skvs
