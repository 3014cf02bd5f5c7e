import Skvs.Proof.TriggerParts

/-!
# What a CREATE TRIGGER stores

The name, the timing, the event and the table are words of the text. With the condition and the body they
make up the trigger that the statement describes, under a condition on the names and the blanks.
-/

namespace Skvs

open Prog Text

namespace TriggerParts

section

variable {parts : TriggerParts} {blanks : TriggerBlanks}

/-! ### The header -/

/-- What follows CREATE TRIGGER. -/
def afterTrigger (parts : TriggerParts) (blanks : TriggerBlanks) : List Char :=
  blanks.trigger.chars ++ (join (parts.header blanks ++
    ([("FOR".toList, blanks.for_), ("EACH".toList, blanks.each), ("ROW".toList, blanks.row)] ++
      (parts.whenParts blanks ++ parts.bodyParts blanks))) ++ "END".toList)

theorem text_eq_create : parts.text blanks =
    "CREATE".toList ++ (blanks.create.chars ++ ("TRIGGER".toList ++ parts.afterTrigger blanks)) := by
  have hparts : parts.beforeWhen blanks ++ parts.whenParts blanks ++ parts.bodyParts blanks =
      ("CREATE".toList, blanks.create) :: ("TRIGGER".toList, blanks.trigger) :: (parts.header blanks ++
        ([("FOR".toList, blanks.for_), ("EACH".toList, blanks.each), ("ROW".toList, blanks.row)] ++
          (parts.whenParts blanks ++ parts.bodyParts blanks))) := by
    simp only [beforeWhen, List.cons_append, List.append_assoc]
  rw [text, hparts, afterTrigger, join, List.map_cons, List.map_cons, glue_cons, glue_cons, ← join]
  simp only [List.append_assoc]

variable (parts) in
theorem stripPrefix_text (hcreate : blanks.create.chars = [' ']) :
    stripPrefix "CREATE TRIGGER".toList (asciiUpper (parts.text blanks)) =
        some (asciiUpper (parts.afterTrigger blanks)) ∧
      (parts.text blanks).drop 14 = parts.afterTrigger blanks := by
  have hsplit : parts.text blanks = "CREATE TRIGGER".toList ++ parts.afterTrigger blanks := by
    rw [text_eq_create, hcreate]
    simp
  rw [hsplit, asciiUpper_append,
    show asciiUpper "CREATE TRIGGER".toList = "CREATE TRIGGER".toList by decide, stripPrefix,
    if_pos (List.isPrefixOf_iff_prefix.mpr (List.prefix_append _ _)), List.drop_left]
  exact ⟨rfl, List.drop_left' rfl⟩

/-- CREATE and TRIGGER with anything else than one blank between them are not read. -/
theorem stripPrefix_text_eq_none (hcreate : blanks.create.chars ≠ [' ']) :
    stripPrefix "CREATE TRIGGER".toList (asciiUpper (parts.text blanks)) = none := by
  refine if_neg fun hpre => hcreate ?_
  obtain ⟨t, ht⟩ := List.isPrefixOf_iff_prefix.mp hpre
  obtain ⟨c, cs, hcs⟩ := List.exists_cons_of_ne_nil blanks.create.nonempty
  rw [text_eq_create, asciiUpper_append, asciiUpper_blanks_append, hcs,
    show asciiUpper "CREATE".toList = "CREATE".toList by decide] at ht
  obtain ⟨rfl, hrest⟩ : ' ' = c ∧ "TRIGGER".toList ++ t =
      cs ++ asciiUpper ("TRIGGER".toList ++ parts.afterTrigger blanks) := by
    simpa using ht
  cases cs with
  | nil => exact hcs
  | cons d cs =>
      have hd : 'T' = d := (List.cons.inj hrest).1
      have hblank := blanks.create.blank d (by simp [hcs])
      rw [← hd] at hblank
      exact absurd hblank (by decide)

theorem flatMap_splitWhitespace {ps : List (List Char × Blanks)}
    (h : ∀ part ∈ ps, IsWord nonBlank part.1) :
    ps.flatMap (fun part => splitWhitespace part.1) = ps.map Prod.fst := by
  induction ps with
  | nil => rfl
  | cons part ps ih =>
      rw [List.forall_mem_cons] at h
      rw [List.flatMap_cons, ih h.2, splitWhitespace, h.1.runs_eq, List.map_cons, List.singleton_append]

variable (parts blanks) in
theorem splitWhitespace_afterTrigger : ∃ more, splitWhitespace (parts.afterTrigger blanks) =
    parts.name.chars :: ((timingParts blanks parts.timing).map Prod.fst ++
      (eventWord parts.event :: "ON".toList :: parts.table.chars :: more)) := by
  have hwords : ∀ part ∈ parts.header blanks, IsWord nonBlank part.1 := by
    intro part hpart
    refine isWord_of_mem_beforeWhen (?_ : part ∈ parts.beforeWhen blanks)
    simp [beforeWhen, hpart]
  have hgap : splitWhitespace (parts.afterTrigger blanks) = _ := blanks.trigger.isGap.runs_append [] _
  rw [hgap]
  change ∃ more, splitWhitespace (join _ ++ _) = _
  rw [splitWhitespace_join, List.flatMap_append, flatMap_splitWhitespace hwords, header]
  simp only [List.cons_append, List.map_cons, List.map_append, List.map_nil, List.append_assoc,
    List.nil_append]
  exact ⟨_, rfl⟩

/-- Upper-casing is the one of ASCII on ASCII texts. -/
def UppercasesAscii [Externals] : Prop :=
  ∀ cs, IsAscii cs → toUppercase (String.ofList cs) = String.ofList (asciiUpper cs)

theorem nextWord_cons (w : List Char) (ws : List (List Char)) :
    nextWord (w :: ws) = .ok (String.ofList w, ws) := rfl

theorem TriggerName.trimMatches_eq (name : TriggerName) :
    trimMatches (fun c => c = ',' || c = ';') name.chars = name.chars := by
  refine trimMatches_eq_self fun c hc => ?_
  obtain ⟨-, hcomma, hsemicolon⟩ := name.letters c hc
  simp [hcomma, hsemicolon]

theorem parseHeader_afterTrigger [Externals] (hupper : UppercasesAscii) :
    parseHeader (parts.afterTrigger blanks) = .ok (String.ofList parts.name.chars, parts.timing,
      parts.event, String.ofList parts.table.chars) := by
  obtain ⟨more, hmore⟩ := splitWhitespace_afterTrigger parts blanks
  have hword : ∀ w ∈ fixedWords, toUppercase (String.ofList w) = String.ofList w := by
    intro w hw
    obtain ⟨-, -, hascii, heq, -⟩ := fixedWords_plain w hw
    rw [hupper w hascii, heq]
  obtain ⟨w, ws, hwords, htiming⟩ : ∃ w ws, (timingParts blanks parts.timing).map Prod.fst = w :: ws ∧
      ∀ more, parseTiming (String.ofList w) (ws ++ more) = .ok (parts.timing, more) := by
    cases parts.timing
    · exact ⟨"BEFORE".toList, [], rfl, fun more => by rw [parseTiming, hword _ (by decide)]; rfl⟩
    · exact ⟨"AFTER".toList, [], rfl, fun more => by rw [parseTiming, hword _ (by decide)]; rfl⟩
    · exact ⟨"INSTEAD".toList, ["OF".toList], rfl,
        fun more => by rw [parseTiming, hword _ (by decide)]; rfl⟩
  have hevent : parseEvent (String.ofList (eventWord parts.event)) = .ok parts.event := by
    cases parts.event <;> rw [parseEvent, hword _ (by decide)] <;> rfl
  have hon : toUppercase (String.ofList "ON".toList) = "ON" := hword _ (by decide)
  rw [hwords] at hmore
  simp only [parseHeader, hmore, List.cons_append, nextWord_cons, ok_bind, htiming, hevent, hon, ne_eq,
    not_true_eq_false, if_false, String.toList_ofList, TriggerName.trimMatches_eq]
  rfl

theorem trim_text : trim (parts.text blanks) = parts.text blanks := by
  refine trim_eq_self (fun c hc => ?_) fun c hc => ?_
  · rw [text_eq_create] at hc
    obtain rfl : 'C' = c := Option.some.inj hc
    decide
  · rw [text, List.getLast?_append_of_ne_nil _ (by decide)] at hc
    obtain rfl : 'D' = c := Option.some.inj hc
    decide

/-! ### What is stored -/

/-- The trigger that the parts describe. Nothing depends on `forEachRow`. -/
def triggerDef (parts : TriggerParts) (forEachRow : Bool) : TriggerDef where
  name := String.ofList parts.name.chars
  timing := parts.timing
  event := parts.event
  table := String.ofList parts.table.chars
  forEachRow := forEachRow
  condition := parts.condition.map fun c => String.ofList (trim c.chars)
  body := String.ofList (trim parts.body.chars)

/-- There is one blank between CREATE and TRIGGER, BEGIN is no part of a name or of the condition, and if
there is a condition, there are blanks directly around WHEN and BEGIN. -/
structure Readable (parts : TriggerParts) (blanks : TriggerBlanks) : Prop where
  create : blanks.create.chars = [' ']
  name : ¬"BEGIN".toList <:+: asciiUpper parts.name.chars
  table : ¬"BEGIN".toList <:+: asciiUpper parts.table.chars
  condition : ∀ c ∈ parts.condition, ¬"BEGIN".toList <:+: asciiUpper c.chars
  flanked : parts.condition.isSome = true → WhenFlanked blanks

theorem infix_beforeBegin_iff : "BEGIN".toList <:+: asciiUpper (join (parts.beforeBegin blanks)) ↔
    "BEGIN".toList <:+: asciiUpper parts.name.chars ∨ "BEGIN".toList <:+: asciiUpper parts.table.chars ∨
      ∃ c ∈ parts.condition, "BEGIN".toList <:+: asciiUpper c.chars := by
  have hwhen : ¬"BEGIN".toList <:+: asciiUpper "WHEN".toList := find_eq_none.mp (by decide)
  rw [infix_asciiUpper_join isWord_begin, beforeBegin, whenParts]
  constructor
  · rintro ⟨part, hpart, hwithin⟩
    rcases List.mem_append.mp hpart with hpart | hpart
    · rcases mem_beforeWhen hpart with heq | heq | hmem
      · exact .inl (heq ▸ hwithin)
      · exact .inr (.inl (heq ▸ hwithin))
      · obtain ⟨-, -, -, hupper, -, hfind⟩ := fixedWords_plain _ hmem
        rw [hupper] at hwithin
        exact absurd hwithin (find_eq_none.mp hfind)
    · cases hcondition : parts.condition with
      | none =>
          rw [hcondition] at hpart
          cases hpart
      | some c =>
          rw [hcondition] at hpart
          rcases List.mem_pair.mp hpart with rfl | rfl
          · exact absurd hwithin hwhen
          · exact .inr (.inr ⟨c, rfl, hwithin⟩)
  · rintro (hwithin | hwithin | ⟨c, hcondition, hwithin⟩)
    · exact ⟨(parts.name.chars, blanks.name), by simp [beforeWhen, header], hwithin⟩
    · exact ⟨(parts.table.chars, blanks.table), by simp [beforeWhen, header], hwithin⟩
    · rw [Option.mem_def] at hcondition
      exact ⟨(c.chars, blanks.condition), by simp [hcondition], hwithin⟩

variable (parts blanks) in
/-- The parser always comes to a condition or to none. It is the right one if the keywords are found. -/
theorem exists_parseCondition : ∃ condition,
    parseCondition (parts.text blanks) (asciiUpper (parts.text blanks)) = .ok condition ∧
      (condition = parts.condition.map (fun c => String.ofList (trim c.chars)) ↔
        (parts.condition.isSome = true → WhenFlanked blanks)) := by
  cases hcondition : parts.condition with
  | none => exact ⟨none, parseCondition_of_none hcondition, iff_of_true rfl nofun⟩
  | some c =>
      by_cases hflanked : WhenFlanked blanks
      · exact ⟨_, parseCondition_of_flanked hcondition hflanked, iff_of_true rfl fun _ => hflanked⟩
      · exact ⟨none, parseCondition_of_not_flanked hcondition hflanked,
          iff_of_false nofun fun h => hflanked (h rfl)⟩

theorem parseBody_eq_ok_iff : parseBody (parts.text blanks) (asciiUpper (parts.text blanks)) =
    .ok (String.ofList (trim parts.body.chars)) ↔
      ¬"BEGIN".toList <:+: asciiUpper (join (parts.beforeBegin blanks)) :=
  ⟨fun hbody hwithin => parseBody_ne hwithin hbody, parseBody_of_free⟩

theorem readable_iff : parts.Readable blanks ↔ blanks.create.chars = [' '] ∧
    ¬"BEGIN".toList <:+: asciiUpper (join (parts.beforeBegin blanks)) ∧
      (parts.condition.isSome = true → WhenFlanked blanks) := by
  rw [infix_beforeBegin_iff]
  push Not
  exact ⟨fun h => ⟨h.create, ⟨h.name, h.table, h.condition⟩, h.flanked⟩,
    fun ⟨hcreate, ⟨hname, htable, hcondition⟩, hflanked⟩ =>
      ⟨hcreate, hname, htable, hcondition, hflanked⟩⟩

section

variable [Externals]

variable (parts) in
theorem parseTrigger_text (hupper : UppercasesAscii) (hcreate : blanks.create.chars = [' ']) :
    ∃ each, parseTrigger (String.ofList (parts.text blanks)) =
      parseCondition (parts.text blanks) (asciiUpper (parts.text blanks)) >>= fun condition =>
        parseBody (parts.text blanks) (asciiUpper (parts.text blanks)) >>= fun body =>
          .ok { parts.triggerDef each with condition, body } := by
  obtain ⟨hstrip, hdrop⟩ := stripPrefix_text parts hcreate
  obtain ⟨hle, hfrom⟩ := sliceFrom_of_sizes (isAscii_text parts blanks).sizes hstrip
  obtain ⟨afterOn, hafter⟩ :=
    Option.isSome_iff_exists.mp (isSome_afterOn (asciiUpper (parts.text blanks)))
  refine ⟨contains "FOR EACH ROW".toList afterOn, ?_⟩
  rw [parseTrigger_eq]
  simp only [String.toList_ofList, trim_text, hupper _ (isAscii_text parts blanks), hstrip, orMalformed,
    ok_bind, if_neg (not_lt.mpr hle), hfrom, orPanic, hdrop, parseHeader_afterTrigger hupper, hafter]
  rfl

theorem parseTrigger_text_of_create (hupper : UppercasesAscii) (hcreate : blanks.create.chars ≠ [' ']) :
    parseTrigger (String.ofList (parts.text blanks)) = .error malformedTrigger := by
  rw [parseTrigger_eq]
  simp only [String.toList_ofList, trim_text, hupper _ (isAscii_text parts blanks),
    stripPrefix_text_eq_none hcreate]
  rfl

theorem parseTrigger_eq_ok_iff (hupper : UppercasesAscii) :
    (∃ each, parseTrigger (String.ofList (parts.text blanks)) = .ok (parts.triggerDef each)) ↔
      parts.Readable blanks := by
  rw [readable_iff]
  by_cases hcreate : blanks.create.chars = [' ']
  · obtain ⟨each, hparse⟩ := parseTrigger_text parts hupper hcreate
    obtain ⟨condition, hcondition, hright⟩ := exists_parseCondition parts blanks
    rw [hparse, hcondition, ok_bind, ← hright, ← parseBody_eq_ok_iff, and_iff_right hcreate]
    constructor
    · rintro ⟨each', heq⟩
      cases hbody : parseBody (parts.text blanks) (asciiUpper (parts.text blanks)) with
      | error e =>
          rw [hbody] at heq
          exact nomatch heq
      | ok body =>
          rw [hbody, ok_bind, Except.ok.injEq, triggerDef, TriggerDef.mk.injEq] at heq
          obtain ⟨-, -, -, -, -, heq, heq'⟩ := heq
          exact ⟨congrArg Except.ok heq', heq⟩
    · rintro ⟨hbody, rfl⟩
      exact ⟨each, by rw [hbody]; rfl⟩
  · rw [parseTrigger_text_of_create hupper hcreate]
    exact iff_of_false (by rintro ⟨_, heq⟩; exact nomatch heq) fun h => hcreate h.1

end

end

end TriggerParts

/-! ### Storing the trigger -/

theorem KvsState.getTriggers_addTrigger (s : KvsState) (dbId : UInt32) (table : String)
    (trigger : TriggerDef) (table' : String) :
    (s.addTrigger dbId table trigger).getTriggers dbId table' =
      if table' = table then s.getTriggers dbId table ++ [trigger] else s.getTriggers dbId table' := by
  rw [getTriggers, addTrigger, IndexMap.get_insert_self, Option.bind_some, IndexMap.get_insert]
  rw [IndexMap.getD, IndexMap.getD, getTriggers, getTriggers]
  cases s.triggers.get dbId with
  | none => split_ifs <;> rfl
  | some map => split_ifs <;> rfl

/-- What a table's list of triggers ends with says which trigger was added. -/
theorem KvsState.addTrigger_inj {s : KvsState} {dbId : UInt32} {trigger trigger' : TriggerDef}
    (h : s.addTrigger dbId trigger.table trigger = s.addTrigger dbId trigger'.table trigger') :
    trigger = trigger' := by
  have hlists := congrArg (fun s => s.getTriggers dbId trigger.table) h
  simp only [getTriggers_addTrigger, if_true] at hlists
  split_ifs at hlists with htable
  · rw [htable] at hlists
    exact List.singleton_inj.mp (List.append_cancel_left hlists)
  · exact absurd hlists (by simp)

section

variable [Externals]

theorem exec_createTrigger (dbId : UInt32) (sql : String) (w : World) :
    exec (createTrigger dbId sql) w = match parseTrigger sql with
      | .ok trigger => (.ok .empty, { w with kvs := w.kvs.addTrigger dbId trigger.table trigger })
      | .error e => (.error e, w) := by
  rw [createTrigger, exec_bind, exec_ofExcept]
  cases parseTrigger sql <;> rfl

theorem exec_createTrigger_eq_iff {dbId : UInt32} {sql : String} {w : World} {trigger : TriggerDef} :
    exec (createTrigger dbId sql) w =
        (.ok .empty, { w with kvs := w.kvs.addTrigger dbId trigger.table trigger }) ↔
      parseTrigger sql = .ok trigger := by
  rw [exec_createTrigger]
  cases parseTrigger sql with
  | error e => exact iff_of_false nofun nofun
  | ok trigger' =>
      rw [Prod.mk.injEq, and_iff_right rfl, World.mk.injEq, and_iff_left rfl, Except.ok.injEq]
      exact ⟨KvsState.addTrigger_inj, by rintro rfl; rfl⟩

/-- A CREATE TRIGGER stores the trigger that its parts describe exactly if they are readable. -/
theorem createTrigger_stores_iff (hupper : TriggerParts.UppercasesAscii) (parts : TriggerParts)
    (blanks : TriggerBlanks) (dbId : UInt32) (w : World) :
    (∃ each, exec (createTrigger dbId (String.ofList (parts.text blanks))) w =
        (.ok .empty, { w with kvs := w.kvs.addTrigger dbId (String.ofList parts.table.chars)
                                (parts.triggerDef each) })) ↔
      parts.Readable blanks := by
  rw [← TriggerParts.parseTrigger_eq_ok_iff hupper]
  exact exists_congr fun each => @exec_createTrigger_eq_iff _ dbId _ w (parts.triggerDef each)

end

/-! ### A condition that is read and one that is lost -/

namespace Sample

def oneBlank : Blanks := ⟨[' '], by decide, by decide, forall_mem_of_all (by decide)⟩

def indent : Blanks := ⟨['\n', ' ', ' '], by decide, by decide, forall_mem_of_all (by decide)⟩

def ageParts : TriggerParts where
  name := ⟨"old".toList, by decide, by decide, forall_mem_of_all (by decide), by decide⟩
  timing := .after
  event := .update
  table := ⟨"users".toList, by decide, by decide, forall_mem_of_all (by decide), by decide⟩
  condition := some ⟨"NEW.age > 30".toList, by decide, by decide⟩
  body := ⟨"DELETE FROM log".toList, by decide, by decide⟩

/-- All on one line. -/
def onOneLine : TriggerBlanks :=
  ⟨oneBlank, oneBlank, oneBlank, oneBlank, oneBlank, oneBlank, oneBlank, oneBlank, oneBlank, oneBlank,
    oneBlank, oneBlank, oneBlank, oneBlank, oneBlank⟩

/-- With WHEN, BEGIN and the body on lines of their own. -/
def onLines : TriggerBlanks :=
  { onOneLine with row := indent, condition := indent, begin_ := indent }

end Sample

theorem uppercasesAscii_ofTexts :
    letI := Externals.ofTexts [] []
    TriggerParts.UppercasesAscii := by
  intro cs _
  change String.ofList ((String.ofList cs).toList.map Char.toUpper) = _
  rw [String.toList_ofList]
  rfl

/-- The trigger of one line is stored with its condition. -/
theorem createTrigger_stores_one_line :
    letI := Externals.ofTexts [] []
    ∃ each, exec (createTrigger 0 (String.ofList (Sample.ageParts.text Sample.onOneLine)))
        ⟨.new [0], []⟩ =
      (.ok .empty, ⟨(KvsState.new [0]).addTrigger 0 "users" (Sample.ageParts.triggerDef each), []⟩) := by
  let _ := Externals.ofTexts [] []
  have hfree {cs : List Char} (h : find "BEGIN".toList (asciiUpper cs) = none) :
      ¬"BEGIN".toList <:+: asciiUpper cs :=
    find_eq_none.mp h
  refine (createTrigger_stores_iff uppercasesAscii_ofTexts Sample.ageParts Sample.onOneLine 0
    ⟨.new [0], []⟩).mpr ?_
  exact { create := rfl
          name := hfree (by decide)
          table := hfree (by decide)
          condition := by
            rintro c hc
            obtain rfl := Option.some.inj hc
            exact hfree (by decide)
          flanked := fun _ => ⟨rfl, rfl, rfl, rfl⟩ }

/-- The same trigger on lines of its own is stored without it. -/
theorem createTrigger_loses_condition :
    letI := Externals.ofTexts [] []
    Sample.ageParts.text Sample.onLines =
        ("CREATE TRIGGER old AFTER UPDATE ON users FOR EACH ROW\n  WHEN NEW.age > 30\n  " ++
          "BEGIN\n  DELETE FROM log END").toList ∧
      ∃ trigger, exec (createTrigger 0 (String.ofList (Sample.ageParts.text Sample.onLines)))
          ⟨.new [0], []⟩ = (.ok .empty, ⟨(KvsState.new [0]).addTrigger 0 trigger.table trigger, []⟩) ∧
        trigger.condition = none ∧ ∀ each, trigger ≠ Sample.ageParts.triggerDef each := by
  let _ := Externals.ofTexts [] []
  refine ⟨by decide, ?_⟩
  have hnot : ¬TriggerParts.WhenFlanked Sample.onLines := fun h => absurd h.2.2.2 (by decide)
  have hfree : find "BEGIN".toList
      (asciiUpper (TriggerParts.join (Sample.ageParts.beforeBegin Sample.onLines))) = none := by
    decide
  obtain ⟨each, hparse⟩ := TriggerParts.parseTrigger_text Sample.ageParts uppercasesAscii_ofTexts
    (rfl : Sample.onLines.create.chars = [' '])
  rw [TriggerParts.parseCondition_of_not_flanked rfl hnot, ok_bind,
    TriggerParts.parseBody_of_free (find_eq_none.mp hfree), ok_bind] at hparse
  exact ⟨_, exec_createTrigger_eq_iff.mpr hparse, rfl, fun each' heq => nomatch congrArg TriggerDef.condition heq⟩

end Skvs
