import Skvs.Proof.TriggerText
import Skvs.Lib.Words

/-!
# The condition and the body of a CREATE TRIGGER

The condition is what is between a WHEN and a BEGIN with blanks around them, and the body what is between
the first BEGIN, which may be a part of a word, and the last END.
-/

namespace Skvs

open Prog Text

/-! ### ASCII letters -/

theorem toUpper_eq_or (c : Char) :
    c.toUpper = c ∨ 97 ≤ c.toNat ∧ c.toNat ≤ 122 ∧ c.toUpper.toNat = c.toNat - 32 := by
  unfold Char.toUpper
  split_ifs with h
  · have hlow : 97 ≤ c.toNat := h.1
    have hhigh : c.toNat ≤ 122 := h.2
    refine .inr ⟨hlow, hhigh, ?_⟩
    change (c.val + ('A'.val - 'a'.val)).toNat = c.toNat - 32
    rw [UInt32.toNat_add, show ('A'.val - 'a'.val).toNat = 2 ^ 32 - 32 from rfl]
    change (c.toNat + _) % _ = _
    omega
  · exact .inl rfl

theorem isWhitespace_toUpper (c : Char) : isWhitespace c.toUpper = isWhitespace c := by
  rcases toUpper_eq_or c with heq | ⟨hlow, hhigh, heq⟩
  · rw [heq]
  · have hno (d : Char) (hd : 33 ≤ d.toNat ∧ d.toNat ≤ 132) : isWhitespace d = false := by
      simp only [isWhitespace]
      simp
      omega
    rw [hno c (by omega), hno c.toUpper (by omega)]

def IsAscii (cs : List Char) : Prop := ∀ c ∈ cs, c.toNat < 128

instance (cs : List Char) : Decidable (IsAscii cs) :=
  List.decidableBAll (fun c : Char => c.toNat < 128) cs

def asciiUpper (cs : List Char) : List Char := cs.map Char.toUpper

theorem asciiUpper_append (cs ds : List Char) : asciiUpper (cs ++ ds) = asciiUpper cs ++ asciiUpper ds :=
  List.map_append

theorem IsAscii.sizes {cs : List Char} (h : IsAscii cs) :
    cs.map Char.utf8Size = (asciiUpper cs).map Char.utf8Size := by
  have hsize {c : Char} (hc : c.toNat < 128) : c.utf8Size = 1 :=
    Char.utf8Size_eq_one_iff.mpr (Nat.le_of_lt_succ hc)
  rw [asciiUpper, List.map_map]
  refine List.map_congr_left fun c hc => ?_
  have hlt := h c hc
  rw [hsize hlt, Function.comp_apply, hsize]
  rcases toUpper_eq_or c with heq | ⟨-, -, heq⟩
  · rwa [heq]
  · omega

theorem byteLength_asciiUpper {cs : List Char} (h : IsAscii cs) :
    byteLength (asciiUpper cs) = byteLength cs :=
  (byteLength_of_sizes h.sizes).symm

theorem IsAscii.left {cs ds : List Char} (h : IsAscii (cs ++ ds)) : IsAscii cs :=
  fun c hc => h c (List.mem_append_left ds hc)

theorem IsAscii.right {cs ds : List Char} (h : IsAscii (cs ++ ds)) : IsAscii ds :=
  fun c hc => h c (List.mem_append_right cs hc)

/-- The words of the upper-cased copy are those of the text, upper-cased. -/
theorem splitWhitespace_asciiUpper (cs : List Char) :
    splitWhitespace (asciiUpper cs) = (splitWhitespace cs).map asciiUpper :=
  runs_map (fun c => by rw [isWhitespace_toUpper]) cs

/-! ### The text of a statement -/

/-- What stands between two parts. -/
structure Blanks where
  chars : List Char
  nonempty : chars ≠ []
  ascii : IsAscii chars
  blank : ∀ c ∈ chars, isWhitespace c = true

/-- The words that separate the parts. -/
def triggerKeywords : List (List Char) := ["BEGIN".toList, "END".toList, "WHEN".toList, "ON".toList]

/-- None of the keywords, in whatever case, is a word of the text. -/
def Keywordless (cs : List Char) : Prop := ∀ w ∈ splitWhitespace cs, asciiUpper w ∉ triggerKeywords

instance (cs : List Char) : Decidable (Keywordless cs) :=
  inferInstanceAs (Decidable (∀ w ∈ splitWhitespace cs, asciiUpper w ∉ triggerKeywords))

/-- The name of a trigger or a table. -/
structure TriggerName where
  chars : List Char
  nonempty : chars ≠ []
  ascii : IsAscii chars
  letters : ∀ c ∈ chars, isWhitespace c = false ∧ c ≠ ',' ∧ c ≠ ';'
  keywordless : Keywordless chars

/-- A condition or a body. -/
structure TriggerPhrase where
  chars : List Char
  ascii : IsAscii chars
  keywordless : Keywordless chars

structure TriggerParts where
  name : TriggerName
  timing : TriggerTiming
  event : TriggerEvent
  table : TriggerName
  condition : Option TriggerPhrase
  body : TriggerPhrase

/-- The blanks after each word and each part. -/
structure TriggerBlanks where
  create : Blanks
  trigger : Blanks
  name : Blanks
  instead : Blanks
  timing : Blanks
  event : Blanks
  on : Blanks
  table : Blanks
  for_ : Blanks
  each : Blanks
  row : Blanks
  when_ : Blanks
  condition : Blanks
  begin_ : Blanks
  body : Blanks

namespace TriggerParts

def timingParts (blanks : TriggerBlanks) : TriggerTiming → List (List Char × Blanks)
  | .before => [("BEFORE".toList, blanks.timing)]
  | .after => [("AFTER".toList, blanks.timing)]
  | .insteadOf => [("INSTEAD".toList, blanks.instead), ("OF".toList, blanks.timing)]

def eventWord : TriggerEvent → List Char
  | .insert => "INSERT".toList
  | .update => "UPDATE".toList
  | .delete => "DELETE".toList

variable (parts : TriggerParts) (blanks : TriggerBlanks)

/-- The name, the timing, the event and the table. -/
def header : List (List Char × Blanks) :=
  (parts.name.chars, blanks.name) :: timingParts blanks parts.timing ++
    [(eventWord parts.event, blanks.event), ("ON".toList, blanks.on), (parts.table.chars, blanks.table)]

/-- All up to the WHEN, or up to the BEGIN if there is none. -/
def beforeWhen : List (List Char × Blanks) :=
  ("CREATE".toList, blanks.create) :: ("TRIGGER".toList, blanks.trigger) :: parts.header blanks ++
    [("FOR".toList, blanks.for_), ("EACH".toList, blanks.each), ("ROW".toList, blanks.row)]

def whenParts : List (List Char × Blanks) :=
  match parts.condition with
  | none => []
  | some c => [("WHEN".toList, blanks.when_), (c.chars, blanks.condition)]

def bodyParts : List (List Char × Blanks) :=
  [("BEGIN".toList, blanks.begin_), (parts.body.chars, blanks.body)]

def join (parts : List (List Char × Blanks)) : List Char :=
  glue (parts.map fun part => (part.1, part.2.chars))

/-- `CREATE TRIGGER n timing event ON t FOR EACH ROW [WHEN c] BEGIN b END`. -/
def text : List Char :=
  join (parts.beforeWhen blanks ++ parts.whenParts blanks ++ parts.bodyParts blanks) ++ "END".toList

end TriggerParts

/-! ### Words and gaps of the text -/

/-- Words are what `splitWhitespace` gives. -/
abbrev nonBlank (c : Char) : Bool := !isWhitespace c

theorem isWord_when : IsWord nonBlank "WHEN".toList :=
  ⟨by decide, forall_mem_of_all (by decide)⟩

theorem isWord_begin : IsWord nonBlank "BEGIN".toList :=
  ⟨by decide, forall_mem_of_all (by decide)⟩

theorem Blanks.isGap (blanks : Blanks) : IsGap nonBlank blanks.chars :=
  ⟨blanks.nonempty, fun c hc => by rw [nonBlank, blanks.blank c hc]; rfl⟩

theorem Blanks.asciiUpper_eq (blanks : Blanks) : asciiUpper blanks.chars = blanks.chars := by
  refine (List.map_congr_left fun c hc => ?_).trans (List.map_id _)
  rcases toUpper_eq_or c with heq | ⟨hlow, hhigh, -⟩
  · exact heq
  · have hblank := blanks.blank c hc
    simp [isWhitespace] at hblank
    omega

theorem TriggerName.isWord (name : TriggerName) : IsWord nonBlank name.chars :=
  ⟨name.nonempty, fun c hc => by rw [nonBlank, (name.letters c hc).1]; rfl⟩

theorem TriggerName.asciiUpper_ne (name : TriggerName) {w : List Char} (h : w ∈ triggerKeywords) :
    asciiUpper name.chars ≠ w := by
  rintro rfl
  refine name.keywordless name.chars ?_ h
  rw [splitWhitespace, name.isWord.runs_eq]
  exact List.mem_singleton_self _

namespace TriggerParts

variable {ps : List (List Char × Blanks)}

theorem isGap_of_mem : ∀ part ∈ ps.map fun part => (part.1, part.2.chars), IsGap nonBlank part.2 := by
  intro part hpart
  obtain ⟨q, -, rfl⟩ := List.mem_map.mp hpart
  exact q.2.isGap

theorem splitWhitespace_join (ps : List (List Char × Blanks)) (y : List Char) :
    splitWhitespace (join ps ++ y) =
      ps.flatMap (fun part => splitWhitespace part.1) ++ splitWhitespace y := by
  rw [splitWhitespace, join, runs_glue isGap_of_mem, List.flatMap_map]
  rfl

theorem asciiUpper_join (ps : List (List Char × Blanks)) :
    asciiUpper (join ps) = join (ps.map fun part => (asciiUpper part.1, part.2)) := by
  rw [asciiUpper, join, map_glue, join, List.map_map, List.map_map]
  refine congrArg glue (List.map_congr_left fun part _ => ?_)
  exact congrArg _ part.2.asciiUpper_eq

theorem infix_asciiUpper_join {pat : List Char} (hpat : IsWord nonBlank pat) :
    pat <:+: asciiUpper (join ps) ↔ ∃ part ∈ ps, pat <:+: asciiUpper part.1 := by
  rw [asciiUpper_join, join, infix_glue hpat isGap_of_mem]
  simp

theorem endsInGap_asciiUpper_join (hne : ps ≠ []) : EndsInGap nonBlank (asciiUpper (join ps)) := by
  rw [asciiUpper_join]
  exact endsInGap_glue isGap_of_mem (by simpa using hne)

theorem join_append (ps ps' : List (List Char × Blanks)) : join (ps ++ ps') = join ps ++ join ps' := by
  rw [join, List.map_append, glue_append, join, join]

theorem isAscii_join (h : ∀ part ∈ ps, IsAscii part.1) : IsAscii (join ps) := by
  intro c hc
  rw [join, glue, List.flatMap_map, List.mem_flatMap] at hc
  obtain ⟨part, hpart, hc⟩ := hc
  rcases List.mem_append.mp hc with hc | hc
  · exact h part hpart c hc
  · exact part.2.ascii c hc

/-- The words of the statement that are always the same, or one of a few. -/
def fixedWords : List (List Char) :=
  ["CREATE", "TRIGGER", "BEFORE", "AFTER", "INSTEAD", "OF", "INSERT", "UPDATE", "DELETE", "ON", "FOR",
    "EACH", "ROW"].map String.toList

theorem mem_beforeWhen {parts : TriggerParts} {blanks : TriggerBlanks} {part : List Char × Blanks}
    (h : part ∈ parts.beforeWhen blanks) :
    part.1 = parts.name.chars ∨ part.1 = parts.table.chars ∨ part.1 ∈ fixedWords := by
  have htiming : ∀ part ∈ timingParts blanks parts.timing, part.1 ∈ fixedWords := by
    have hbefore : "BEFORE".toList ∈ fixedWords := by decide
    have hafter : "AFTER".toList ∈ fixedWords := by decide
    have hinstead : "INSTEAD".toList ∈ fixedWords ∧ "OF".toList ∈ fixedWords := by decide
    intro part hpart
    cases htiming : parts.timing <;> rw [htiming] at hpart
    · exact (List.mem_singleton.mp hpart) ▸ hbefore
    · exact (List.mem_singleton.mp hpart) ▸ hafter
    · rcases List.mem_pair.mp hpart with rfl | rfl
      · exact hinstead.1
      · exact hinstead.2
  have hevent : eventWord parts.event ∈ fixedWords := by
    cases parts.event <;> decide
  have hlast : "FOR".toList ∈ fixedWords ∧ "EACH".toList ∈ fixedWords ∧ "ROW".toList ∈ fixedWords := by
    decide
  simp only [beforeWhen, header, List.cons_append, List.mem_cons, List.mem_append, List.append_assoc,
    List.not_mem_nil, or_false, false_or] at h
  rcases h with rfl | rfl | rfl | h | rfl | rfl | rfl | rfl | rfl | rfl
  · exact .inr (.inr List.mem_cons_self)
  · exact .inr (.inr (List.mem_cons_of_mem _ List.mem_cons_self))
  · exact .inl rfl
  · exact .inr (.inr (htiming part h))
  · exact .inr (.inr hevent)
  · exact .inr (.inr (by decide : "ON".toList ∈ fixedWords))
  · exact .inr (.inl rfl)
  · exact .inr (.inr hlast.1)
  · exact .inr (.inr hlast.2.1)
  · exact .inr (.inr hlast.2.2)

theorem fixedWords_plain : ∀ w ∈ fixedWords, w ≠ [] ∧ w.all nonBlank = true ∧ IsAscii w ∧
    asciiUpper w = w ∧ w ≠ "WHEN".toList ∧ find "BEGIN".toList w = none := by
  decide

section

variable {parts : TriggerParts} {blanks : TriggerBlanks} {part : List Char × Blanks}

theorem isWord_of_mem_beforeWhen (h : part ∈ parts.beforeWhen blanks) : IsWord nonBlank part.1 := by
  rcases mem_beforeWhen h with heq | heq | hmem
  · exact heq ▸ parts.name.isWord
  · exact heq ▸ parts.table.isWord
  · exact ⟨(fixedWords_plain _ hmem).1, List.all_eq_true.mp (fixedWords_plain _ hmem).2.1⟩

theorem isAscii_of_mem_beforeWhen (h : part ∈ parts.beforeWhen blanks) : IsAscii part.1 := by
  rcases mem_beforeWhen h with heq | heq | hmem
  · exact heq ▸ parts.name.ascii
  · exact heq ▸ parts.table.ascii
  · exact (fixedWords_plain _ hmem).2.2.1

theorem asciiUpper_ne_when (h : part ∈ parts.beforeWhen blanks) : asciiUpper part.1 ≠ "WHEN".toList := by
  rcases mem_beforeWhen h with heq | heq | hmem
  · exact heq ▸ parts.name.asciiUpper_ne (by decide)
  · exact heq ▸ parts.table.asciiUpper_ne (by decide)
  · obtain ⟨-, -, -, hupper, hne, -⟩ := fixedWords_plain _ hmem
    rwa [hupper]

theorem not_mem_asciiUpper_join {w y : List Char}
    (h : ∀ part ∈ ps, ∀ v ∈ splitWhitespace part.1, asciiUpper v ≠ w)
    (hy : w ∉ splitWhitespace (asciiUpper y)) :
    w ∉ splitWhitespace (asciiUpper (join ps ++ y)) := by
  rw [splitWhitespace_asciiUpper, splitWhitespace_join, List.map_append, List.mem_append, List.mem_map,
    ← splitWhitespace_asciiUpper]
  rintro (⟨v, hv, rfl⟩ | hmem)
  · obtain ⟨part, hpart, hv⟩ := List.mem_flatMap.mp hv
    exact h part hpart v hv rfl
  · exact hy hmem

variable (parts blanks) in
theorem when_not_mem_beforeWhen :
    ∀ part ∈ parts.beforeWhen blanks, ∀ v ∈ splitWhitespace part.1, asciiUpper v ≠ "WHEN".toList := by
  intro part hpart v hv
  rw [splitWhitespace, (isWord_of_mem_beforeWhen hpart).runs_eq, List.mem_singleton] at hv
  exact hv ▸ asciiUpper_ne_when hpart

theorem keyword_not_mem_bodyParts {w : List Char} (hw : w ∈ triggerKeywords) (hne : w ≠ "BEGIN".toList) :
    ∀ part ∈ parts.bodyParts blanks, ∀ v ∈ splitWhitespace part.1, asciiUpper v ≠ w := by
  intro part hpart v hv
  rcases List.mem_pair.mp hpart with rfl | rfl
  · rw [show v = "BEGIN".toList from List.mem_singleton.mp hv]
    exact hne.symm
  · rintro rfl
    exact parts.body.keywordless v hv hw

variable (parts blanks) in
theorem isAscii_text : IsAscii (parts.text blanks) := by
  have hwhen : IsAscii "WHEN".toList := by decide
  have hbegin : IsAscii "BEGIN".toList := by decide
  have hend : IsAscii "END".toList := by decide
  refine fun c hc => (List.mem_append.mp hc).elim (isAscii_join ?_ c) (hend c)
  intro part hpart
  simp only [List.mem_append] at hpart
  rcases hpart with (hpart | hpart) | hpart
  · exact isAscii_of_mem_beforeWhen hpart
  · unfold whenParts at hpart
    split at hpart
    · exact nomatch hpart
    · rename_i c _
      rcases List.mem_pair.mp hpart with rfl | rfl
      · exact hwhen
      · exact c.ascii
  · rcases List.mem_pair.mp hpart with rfl | rfl
    · exact hbegin
    · exact parts.body.ascii

/-! ### The condition -/

theorem text_of_none (hnone : parts.condition = none) :
    parts.text blanks = join (parts.beforeWhen blanks ++ parts.bodyParts blanks) ++ "END".toList := by
  rw [text, whenParts, hnone, List.append_nil]

theorem parseCondition_of_none (hnone : parts.condition = none) :
    parseCondition (parts.text blanks) (asciiUpper (parts.text blanks)) = .ok none := by
  have hwhen : "WHEN".toList ∉ splitWhitespace (asciiUpper (parts.text blanks)) := by
    rw [text_of_none hnone]
    refine not_mem_asciiUpper_join (fun part hpart => ?_) (by decide)
    rcases List.mem_append.mp hpart with hpart | hpart
    · exact when_not_mem_beforeWhen parts blanks part hpart
    · exact keyword_not_mem_bodyParts (by decide) (by decide) part hpart
  refine parseCondition_of_no_begin fun whenPos fromWhen hfind _ => ?_
  have hnot : find " WHEN ".toList (asciiUpper (parts.text blanks)) = none :=
    find_eq_none_of_not_mem_runs (p := nonBlank) (by decide) isWord_when hwhen
  rw [hnot] at hfind
  exact nomatch hfind

/-- What follows the WHEN, up to the BEGIN. -/
def afterWhen (blanks : TriggerBlanks) (c : TriggerPhrase) : List Char :=
  blanks.when_.chars ++ join [(c.chars, blanks.condition)]

/-- What follows the BEGIN, with the END. -/
def afterBegin (parts : TriggerParts) (blanks : TriggerBlanks) : List Char :=
  blanks.begin_.chars ++ (join [(parts.body.chars, blanks.body)] ++ "END".toList)

theorem text_of_some {c : TriggerPhrase} (hsome : parts.condition = some c) :
    parts.text blanks = join (parts.beforeWhen blanks) ++ ("WHEN".toList ++
      (afterWhen blanks c ++ ("BEGIN".toList ++ parts.afterBegin blanks))) := by
  simp only [text, whenParts, hsome, bodyParts, join_append, afterWhen, afterBegin, List.append_assoc]
  simp only [join, List.map_cons, List.map_nil, glue_cons, glue_nil, List.append_nil, List.append_assoc]

theorem splitWhitespace_asciiUpper_blanks (b : Blanks) (y : List Char) :
    splitWhitespace (asciiUpper (b.chars ++ y)) = splitWhitespace (asciiUpper y) := by
  rw [asciiUpper_append, b.asciiUpper_eq]
  exact b.isGap.runs_append [] (asciiUpper y)

variable (parts blanks) in
theorem when_not_mem_before :
    "WHEN".toList ∉ splitWhitespace (asciiUpper (join (parts.beforeWhen blanks))) := by
  have hnot := not_mem_asciiUpper_join (y := []) (when_not_mem_beforeWhen parts blanks) nofun
  rwa [List.append_nil] at hnot

variable (parts blanks) in
theorem when_not_mem_after (c : TriggerPhrase) : "WHEN".toList ∉
    splitWhitespace
      (asciiUpper (afterWhen blanks c ++ ("BEGIN".toList ++ parts.afterBegin blanks))) := by
  have hjoin : afterWhen blanks c ++ ("BEGIN".toList ++ parts.afterBegin blanks) =
      blanks.when_.chars ++
        (join ((c.chars, blanks.condition) :: parts.bodyParts blanks) ++ "END".toList) := by
    simp only [afterWhen, afterBegin, bodyParts, join, List.map_cons, List.map_nil, glue_cons, glue_nil,
      List.append_nil, List.append_assoc]
  rw [hjoin, splitWhitespace_asciiUpper_blanks]
  refine not_mem_asciiUpper_join (fun part hpart => ?_) (by decide)
  rcases List.mem_cons.mp hpart with rfl | hpart
  · rintro v hv heq
    exact c.keywordless v hv (heq ▸ by decide)
  · exact keyword_not_mem_bodyParts (by decide) (by decide) part hpart

variable (blanks) in
theorem begin_not_mem_before (c : TriggerPhrase) :
    "BEGIN".toList ∉ splitWhitespace (asciiUpper (" WHEN".toList ++ afterWhen blanks c)) := by
  have hjoin : " WHEN".toList ++ afterWhen blanks c =
      ' ' :: (join [("WHEN".toList, blanks.when_), (c.chars, blanks.condition)] ++ []) := by
    simp only [afterWhen, join, List.map_cons, List.map_nil, glue_cons, glue_nil, List.append_nil]
    rfl
  have hblank : splitWhitespace (asciiUpper (" WHEN".toList ++ afterWhen blanks c)) = splitWhitespace
      (asciiUpper (join [("WHEN".toList, blanks.when_), (c.chars, blanks.condition)] ++ [])) := by
    rw [hjoin]
    exact runs_cons_of_gap (by decide) _
  rw [hblank]
  refine not_mem_asciiUpper_join (fun part hpart v hv heq => ?_) nofun
  rcases List.mem_pair.mp hpart with rfl | rfl
  · rw [show v = "WHEN".toList from List.mem_singleton.mp hv] at heq
    exact absurd heq (by decide)
  · exact c.keywordless v hv (heq ▸ by decide)

variable (parts blanks) in
theorem begin_not_mem_after :
    "BEGIN".toList ∉ splitWhitespace (asciiUpper (parts.afterBegin blanks)) := by
  rw [afterBegin, splitWhitespace_asciiUpper_blanks]
  refine not_mem_asciiUpper_join (fun part hpart v hv heq => ?_) (by decide)
  obtain rfl := List.mem_singleton.mp hpart
  exact parts.body.keywordless v hv (heq ▸ by decide)

theorem splitWhitespace_asciiUpper_cons (cs : List Char) :
    splitWhitespace (asciiUpper (' ' :: cs)) = splitWhitespace (asciiUpper cs) :=
  runs_cons_of_gap (by decide) (asciiUpper cs)

theorem splitWhitespace_asciiUpper_concat (cs : List Char) :
    splitWhitespace (asciiUpper (cs ++ [' '])) = splitWhitespace (asciiUpper cs) := by
  rw [asciiUpper_append]
  exact (runs_append_cons (by decide) _ []).trans (List.append_nil _)

/-- There are blanks, and not other white space, directly around WHEN and BEGIN. -/
def WhenFlanked (blanks : TriggerBlanks) : Prop :=
  blanks.row.chars.getLast? = some ' ' ∧ blanks.when_.chars.head? = some ' ' ∧
    blanks.condition.chars.getLast? = some ' ' ∧ blanks.begin_.chars.head? = some ' '

theorem join_singleton (cs : List Char) (b : Blanks) : join [(cs, b)] = cs ++ b.chars := by
  rw [join, List.map_singleton, glue_cons, glue_nil, List.append_nil]

variable (parts blanks) in
theorem join_beforeWhen_eq : ∃ x, join (parts.beforeWhen blanks) = x ++ blanks.row.chars := by
  have hlast : parts.beforeWhen blanks =
      ("CREATE".toList, blanks.create) :: ("TRIGGER".toList, blanks.trigger) :: parts.header blanks ++
        [("FOR".toList, blanks.for_), ("EACH".toList, blanks.each)] ++ [("ROW".toList, blanks.row)] := by
    simp [beforeWhen]
  exact ⟨_, by rw [hlast, join_append, join_singleton, ← List.append_assoc]⟩

theorem asciiUpper_append_blanks (x : List Char) (b : Blanks) :
    asciiUpper (x ++ b.chars) = asciiUpper x ++ b.chars := by
  rw [asciiUpper_append, b.asciiUpper_eq]

theorem asciiUpper_blanks_append (b : Blanks) (y : List Char) :
    asciiUpper (b.chars ++ y) = b.chars ++ asciiUpper y := by
  rw [asciiUpper_append, b.asciiUpper_eq]

theorem getLast?_of_asciiUpper {x a : List Char} {b : Blanks}
    (h : asciiUpper (x ++ b.chars) = a ++ [' ']) : b.chars.getLast? = some ' ' := by
  rw [asciiUpper_append_blanks] at h
  have hlast := congrArg List.getLast? h
  rwa [List.getLast?_append_of_ne_nil _ b.nonempty, List.getLast?_concat] at hlast

theorem head?_of_asciiUpper {y z : List Char} {b : Blanks} (h : asciiUpper (b.chars ++ y) = ' ' :: z) :
    b.chars.head? = some ' ' := by
  rw [asciiUpper_blanks_append] at h
  have hhead := congrArg List.head? h
  rwa [List.head?_append_of_ne_nil _ b.nonempty] at hhead

theorem endsInGap_append_blanks (x : List Char) (b : Blanks) :
    EndsInGap nonBlank (asciiUpper (x ++ b.chars)) := by
  rw [asciiUpper_append_blanks]
  obtain ⟨c, hc⟩ := Option.isSome_iff_exists.mp (List.getLast?_isSome.mpr b.nonempty)
  refine ⟨c, ?_, b.isGap.all c (List.mem_of_getLast? hc)⟩
  rw [List.getLast?_append_of_ne_nil _ b.nonempty, hc]
  rfl

theorem afterWhen_eq (c : TriggerPhrase) :
    " WHEN".toList ++ afterWhen blanks c =
      (" WHEN".toList ++ blanks.when_.chars ++ c.chars) ++ blanks.condition.chars := by
  rw [afterWhen, join_singleton]
  simp

/-- A WHEN that is read as one, with a BEGIN that is, has blanks around both. -/
theorem parseCondition_of_not_flanked {c : TriggerPhrase} (hsome : parts.condition = some c)
    (hnot : ¬WhenFlanked blanks) :
    parseCondition (parts.text blanks) (asciiUpper (parts.text blanks)) = .ok none := by
  refine parseCondition_of_no_begin fun whenPos fromWhen hwhen hfrom => ?_
  by_contra hbegin
  obtain ⟨p, hbegin⟩ := Option.ne_none_iff_exists'.mp hbegin
  apply hnot
  have hspace : nonBlank ' ' = false := by decide
  obtain ⟨x, hx⟩ := join_beforeWhen_eq parts blanks
  have hcopy : asciiUpper (parts.text blanks) = asciiUpper (join (parts.beforeWhen blanks)) ++
      ("WHEN".toList ++
        asciiUpper (afterWhen blanks c ++ ("BEGIN".toList ++ parts.afterBegin blanks))) := by
    rw [text_of_some hsome, asciiUpper_append, asciiUpper_append]
    rfl
  obtain ⟨a, b, heq, rfl, -⟩ := find_eq_some hwhen
  have hsame : asciiUpper (join (parts.beforeWhen blanks)) ++ ("WHEN".toList ++
      asciiUpper (afterWhen blanks c ++ ("BEGIN".toList ++ parts.afterBegin blanks))) =
        a ++ [' '] ++ ("WHEN".toList ++ ' ' :: b) := hcopy.symm.trans (heq.trans (by simp))
  obtain ⟨hbefore, hafter⟩ := flanked_unique hspace isWord_when
    (endsInGap_asciiUpper_join (by simp [beforeWhen])) (when_not_mem_before parts blanks)
    (when_not_mem_after parts blanks c) hsame
  have hfrom' : fromWhen = asciiUpper (" WHEN".toList ++ afterWhen blanks c) ++ ("BEGIN".toList ++
      asciiUpper (parts.afterBegin blanks)) := by
    rw [heq, List.append_assoc] at hfrom
    have hb : " WHEN ".toList ++ b = " WHEN".toList ++ ' ' :: b := by simp
    rw [sliceFrom_of_append hfrom rfl, hb, ← hafter, asciiUpper_append, asciiUpper_append,
      asciiUpper_append, List.append_assoc]
    rfl
  obtain ⟨a', b', heq', rfl, -⟩ := find_eq_some hbegin
  have hsame' : asciiUpper (" WHEN".toList ++ afterWhen blanks c) ++ ("BEGIN".toList ++
      asciiUpper (parts.afterBegin blanks)) = a' ++ [' '] ++ ("BEGIN".toList ++ ' ' :: b') :=
    hfrom'.symm.trans (heq'.trans (by simp))
  obtain ⟨hbefore', hafter'⟩ := flanked_unique hspace isWord_begin
    (afterWhen_eq c ▸ endsInGap_append_blanks _ _) (begin_not_mem_before blanks c)
    (begin_not_mem_after parts blanks) hsame'
  rw [afterWhen, List.append_assoc] at hafter
  rw [afterWhen_eq] at hbefore'
  exact ⟨getLast?_of_asciiUpper (hx ▸ hbefore), head?_of_asciiUpper hafter,
    getLast?_of_asciiUpper hbefore', head?_of_asciiUpper hafter'⟩

/-- With blanks around WHEN and BEGIN, what is between them is read. -/
theorem parseCondition_of_flanked {c : TriggerPhrase} (hsome : parts.condition = some c)
    (hflanked : WhenFlanked blanks) :
    parseCondition (parts.text blanks) (asciiUpper (parts.text blanks)) =
      .ok (some (String.ofList (trim c.chars))) := by
  obtain ⟨hrow, hwhen, hcondition, hbegin⟩ := hflanked
  have hspace : nonBlank ' ' = false := by decide
  obtain ⟨x, hx⟩ := join_beforeWhen_eq parts blanks
  obtain ⟨r, hr⟩ := List.getLast?_eq_some_iff.mp hrow
  obtain ⟨u, hu⟩ := List.head?_eq_some_iff.mp hwhen
  obtain ⟨v, hv⟩ := List.getLast?_eq_some_iff.mp hcondition
  obtain ⟨e, he⟩ := List.head?_eq_some_iff.mp hbegin
  -- the text around the blanks: `a WHEN m BEGIN b`
  obtain ⟨a, ha⟩ : ∃ a, join (parts.beforeWhen blanks) = a ++ [' '] :=
    ⟨x ++ r, by rw [hx, hr, List.append_assoc]⟩
  obtain ⟨m, hm, htrim⟩ : ∃ m, afterWhen blanks c = ' ' :: (m ++ [' ']) ∧ trim m = trim c.chars := by
    refine ⟨u ++ c.chars ++ v, by rw [afterWhen, join_singleton, hu, hv]; simp, trim_append ?_ ?_ _⟩
    · exact fun d hd => blanks.when_.blank d (hu ▸ List.mem_cons_of_mem _ hd)
    · exact fun d hd => blanks.condition.blank d (hv ▸ List.mem_append_left _ hd)
  obtain ⟨b, hb⟩ : ∃ b, parts.afterBegin blanks = ' ' :: b :=
    ⟨_, by rw [afterBegin, he, List.cons_append]⟩
  have htext : parts.text blanks = a ++ " WHEN ".toList ++ m ++ (" BEGIN ".toList ++ b) := by
    rw [text_of_some hsome, ha, hm, hb]
    simp
  have hascii := htext ▸ isAscii_text parts blanks
  have hafter : asciiUpper (parts.text blanks) =
      asciiUpper a ++
        (asciiUpper (" WHEN ".toList ++ m) ++ [' '] ++ ("BEGIN".toList ++ ' ' :: asciiUpper b)) := by
    rw [htext, asciiUpper_append, asciiUpper_append, asciiUpper_append, asciiUpper_append,
      asciiUpper_append, show asciiUpper " BEGIN ".toList = " BEGIN ".toList by decide]
    simp
  have hcopy : asciiUpper (parts.text blanks) = asciiUpper a ++ [' '] ++
      ("WHEN".toList ++ ' ' :: (asciiUpper m ++ [' '] ++ ("BEGIN".toList ++ ' ' :: asciiUpper b))) := by
    rw [hafter, asciiUpper_append, show asciiUpper " WHEN ".toList = " WHEN ".toList by decide]
    simp
  have hfindWhen :
      find " WHEN ".toList (asciiUpper (parts.text blanks)) = some (byteLength (asciiUpper a)) := by
    rw [hcopy]
    refine find_flanked hspace isWord_when ?_ ?_
    · have hnot := when_not_mem_before parts blanks
      rwa [ha, splitWhitespace_asciiUpper_concat] at hnot
    · have hnot := when_not_mem_after parts blanks c
      rw [hm, hb, List.cons_append, splitWhitespace_asciiUpper_cons, asciiUpper_append,
        asciiUpper_append] at hnot
      exact hnot
  have hfindBegin : find " BEGIN ".toList (asciiUpper (" WHEN ".toList ++ m) ++ [' '] ++
      ("BEGIN".toList ++ ' ' :: asciiUpper b)) =
        some (byteLength (asciiUpper (" WHEN ".toList ++ m))) := by
    refine find_flanked hspace isWord_begin ?_ ?_
    · have hnot := begin_not_mem_before blanks c
      have hsame : " WHEN".toList ++ afterWhen blanks c = " WHEN ".toList ++ m ++ [' '] := by
        rw [hm]
        simp
      rwa [hsame, splitWhitespace_asciiUpper_concat] at hnot
    · have hnot := begin_not_mem_after parts blanks
      rwa [hb, splitWhitespace_asciiUpper_cons] at hnot
  rw [parseCondition_of_begin hfindWhen (by rw [hafter, sliceFrom_append]) hfindBegin]
  have hslice : slice (parts.text blanks) (byteLength (asciiUpper a) + 6)
      (byteLength (asciiUpper a) + byteLength (asciiUpper (" WHEN ".toList ++ m))) = some m := by
    have hcut := slice_append (a ++ " WHEN ".toList) m (" BEGIN ".toList ++ b)
    rw [List.append_assoc a, byteLength_append, byteLength_append,
      show byteLength " WHEN ".toList = 6 from rfl] at hcut
    rw [htext, byteLength_asciiUpper hascii.left.left.left, byteLength_asciiUpper, List.append_assoc a]
    · exact hcut
    · rw [List.append_assoc a] at hascii
      exact hascii.left.right
  rw [hslice, ← htrim]
  rfl

/-! ### The body -/

/-- All up to the BEGIN. -/
def beforeBegin (parts : TriggerParts) (blanks : TriggerBlanks) : List (List Char × Blanks) :=
  parts.beforeWhen blanks ++ parts.whenParts blanks

theorem text_eq : parts.text blanks =
    join (parts.beforeBegin blanks) ++ "BEGIN".toList ++ parts.afterBegin blanks := by
  simp only [text, bodyParts, beforeBegin, afterBegin, join_append, List.append_assoc]
  simp only [join, List.map_cons, List.map_nil, glue_cons, glue_nil, List.append_nil, List.append_assoc]

/-- What is between BEGIN and END. -/
def bodyText (parts : TriggerParts) (blanks : TriggerBlanks) : List Char :=
  blanks.begin_.chars ++ parts.body.chars ++ blanks.body.chars

theorem afterBegin_eq : parts.afterBegin blanks = parts.bodyText blanks ++ "END".toList := by
  rw [afterBegin, join_singleton, bodyText]
  simp only [List.append_assoc]

variable (parts blanks) in
theorem rfind_end : rfind "END".toList (asciiUpper (parts.text blanks)) =
    some (byteLength (join (parts.beforeBegin blanks) ++ "BEGIN".toList ++ parts.bodyText blanks)) := by
  have hsplit : parts.text blanks =
      join (parts.beforeBegin blanks) ++ "BEGIN".toList ++ parts.bodyText blanks ++ "END".toList := by
    rw [text_eq, afterBegin_eq, List.append_assoc _ _ "END".toList]
  have hascii := isAscii_text parts blanks
  rw [hsplit] at hascii ⊢
  rw [asciiUpper_append, show asciiUpper "END".toList = "END".toList by decide, rfind_append (by decide),
    byteLength_asciiUpper hascii.left]

theorem parseBody_eq {n : Nat} (hfind : find "BEGIN".toList (asciiUpper (parts.text blanks)) = some n)
    (hlt : n < byteLength (join (parts.beforeBegin blanks) ++ "BEGIN".toList ++ parts.bodyText blanks)) :
    parseBody (parts.text blanks) (asciiUpper (parts.text blanks)) =
      orPanic (slice (parts.text blanks) (n + 5)
        (byteLength (join (parts.beforeBegin blanks) ++ "BEGIN".toList ++ parts.bodyText blanks))) >>=
          fun body => .ok (String.ofList (trim body)) := by
  have hbegin := orMalformed_eq_ok.mpr hfind
  have hend := orMalformed_eq_ok.mpr (rfind_end parts blanks)
  rw [parseBody, hbegin, ok_bind, hend, ok_bind, if_neg (not_le.mpr hlt)]
  rfl

/-- If no BEGIN stands before the keyword, the body is read. -/
theorem parseBody_of_free (hfree : ¬"BEGIN".toList <:+: asciiUpper (join (parts.beforeBegin blanks))) :
    parseBody (parts.text blanks) (asciiUpper (parts.text blanks)) =
      .ok (String.ofList (trim parts.body.chars)) := by
  have hascii := isAscii_text parts blanks
  rw [text_eq] at hascii
  have hfind : find "BEGIN".toList (asciiUpper (parts.text blanks)) =
      some (byteLength (join (parts.beforeBegin blanks))) := by
    rw [text_eq, asciiUpper_append, asciiUpper_append, ← byteLength_asciiUpper hascii.left.left]
    exact find_append_of_gap isWord_begin
      (endsInGap_asciiUpper_join (by simp [beforeBegin, beforeWhen])) hfree
  have hslice : slice (parts.text blanks) (byteLength (join (parts.beforeBegin blanks)) + 5)
      (byteLength (join (parts.beforeBegin blanks) ++ "BEGIN".toList ++ parts.bodyText blanks)) =
        some (parts.bodyText blanks) := by
    have hcut := slice_append (join (parts.beforeBegin blanks) ++ "BEGIN".toList)
      (parts.bodyText blanks) "END".toList
    rw [byteLength_append, show byteLength "BEGIN".toList = 5 from rfl] at hcut
    rw [text_eq, afterBegin_eq, ← List.append_assoc]
    exact hcut
  have htrim : trim (parts.bodyText blanks) = trim parts.body.chars :=
    trim_append blanks.begin_.blank blanks.body.blank _
  rw [parseBody_eq hfind, hslice, ← htrim]
  · rfl
  · rw [byteLength_append, byteLength_append, show byteLength "BEGIN".toList = 5 from rfl]
    omega

/-- What a BEGIN in the text is in the copy. -/
theorem exists_of_infix_asciiUpper {cs pat : List Char} (h : pat <:+: asciiUpper cs) (y : List Char) :
    ∃ a w r, cs = a ++ w ++ r ∧ asciiUpper w = pat ∧
      find pat (asciiUpper (cs ++ y)) = some (byteLength (asciiUpper a)) := by
  obtain ⟨a, r, heq, hfind⟩ := find_append_of_infix h (asciiUpper y)
  obtain ⟨l, r', rfl, hl, -⟩ := List.map_eq_append_iff.mp heq
  obtain ⟨a', w', rfl, rfl, hw⟩ := List.map_eq_append_iff.mp hl
  exact ⟨a', w', r', rfl, hw, by rw [asciiUpper_append]; exact hfind⟩

/-- A BEGIN before the keyword, in a name or in the condition, makes the body begin there. -/
theorem parseBody_ne (hwithin : "BEGIN".toList <:+: asciiUpper (join (parts.beforeBegin blanks))) :
    parseBody (parts.text blanks) (asciiUpper (parts.text blanks)) ≠
      .ok (String.ofList (trim parts.body.chars)) := by
  have hascii := isAscii_text parts blanks
  obtain ⟨a, w, r, hjoin, hw, hfind⟩ :=
    exists_of_infix_asciiUpper hwithin ("BEGIN".toList ++ parts.afterBegin blanks)
  rw [← List.append_assoc, ← text_eq] at hfind
  rw [text_eq, hjoin] at hascii
  rw [byteLength_asciiUpper hascii.left.left.left.left] at hfind
  have hlen : byteLength w = 5 := by
    rw [← byteLength_asciiUpper hascii.left.left.left.right, hw]
    rfl
  -- the body then holds the keyword itself as a word
  have hslice : slice (parts.text blanks) (byteLength a + 5)
      (byteLength (join (parts.beforeBegin blanks) ++ "BEGIN".toList ++ parts.bodyText blanks)) =
        some (r ++ "BEGIN".toList ++ parts.bodyText blanks) := by
    have hcut := slice_append (a ++ w) (r ++ "BEGIN".toList ++ parts.bodyText blanks) "END".toList
    rw [byteLength_append, hlen] at hcut
    rw [text_eq, afterBegin_eq, hjoin]
    simpa only [List.append_assoc] using hcut
  have hword : "BEGIN".toList ∈ splitWhitespace (r ++ "BEGIN".toList ++ parts.bodyText blanks) := by
    have hends : EndsInGap nonBlank (asciiUpper (a ++ w) ++ asciiUpper r) := by
      rw [← asciiUpper_append, ← hjoin]
      exact endsInGap_asciiUpper_join (by simp [beforeBegin, beforeWhen])
    rcases List.eq_nil_or_concat r with rfl | ⟨r', d, rfl⟩
    · rw [asciiUpper_append, hw, show asciiUpper [] = [] from rfl, List.append_nil] at hends
      exact absurd (hends.of_append (by decide)) isWord_begin.not_endsInGap_self
    · obtain ⟨d', hd', hgap⟩ := hends
      simp only [List.concat_eq_append, asciiUpper, List.map_append, List.map_singleton,
        ← List.append_assoc, List.getLast?_concat, Option.mem_some_iff] at hd'
      subst hd'
      rw [nonBlank, isWhitespace_toUpper] at hgap
      obtain ⟨s, ss, hs⟩ := List.exists_cons_of_ne_nil blanks.begin_.nonempty
      have hgap' : nonBlank s = false := blanks.begin_.isGap.all s (hs ▸ List.mem_cons_self)
      rw [bodyText, hs]
      change _ ∈ runs nonBlank _
      simpa using mem_runs_of_flanked hgap hgap' isWord_begin r'
        (ss ++ parts.body.chars ++ blanks.body.chars)
  have hne : trim (r ++ "BEGIN".toList ++ parts.bodyText blanks) ≠ trim parts.body.chars := by
    intro heq
    rw [← splitWhitespace_trim, heq, splitWhitespace_trim] at hword
    exact parts.body.keywordless _ hword (by decide)
  rw [parseBody_eq hfind, hslice]
  · intro heq
    exact hne (String.ofList_injective (Except.ok.inj heq))
  · rw [hjoin, byteLength_append, byteLength_append, byteLength_append, byteLength_append, hlen]
    omega

end

end TriggerParts

end Skvs
