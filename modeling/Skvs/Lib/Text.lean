import Mathlib.Data.List.Basic
import Mathlib.Algebra.Ring.Nat

/-!
# Text functions on lists of characters

Offsets count UTF-8 bytes, so a slice can fail: out of range, or inside a character.
-/

namespace Text

/-- The Unicode property White_Space. -/
def isWhitespace (c : Char) : Bool :=
  let n := c.toNat
  (9 ≤ n && n ≤ 13) || n = 0x20 || n = 0x85 || n = 0xA0 || n = 0x1680 ||
    (0x2000 ≤ n && n ≤ 0x200A) || n = 0x2028 || n = 0x2029 || n = 0x202F || n = 0x205F || n = 0x3000

def trimStart (cs : List Char) : List Char := cs.dropWhile isWhitespace

def trimEndMatches (p : Char → Bool) (cs : List Char) : List Char := (cs.reverse.dropWhile p).reverse

def trimEnd (cs : List Char) : List Char := trimEndMatches isWhitespace cs

def trim (cs : List Char) : List Char := trimEnd (trimStart cs)

def trimMatches (p : Char → Bool) (cs : List Char) : List Char :=
  trimEndMatches p (cs.dropWhile p)

/-- The maximal runs of characters satisfying `p`, in order. -/
def runs (p : Char → Bool) : List Char → List (List Char)
  | [] => []
  | c :: cs =>
    if p c then
      match cs, runs p cs with
      | c' :: _, w :: ws => if p c' then (c :: w) :: ws else [c] :: w :: ws
      | _, ws => [c] :: ws
    else runs p cs

def splitWhitespace (cs : List Char) : List (List Char) := runs (fun c => !isWhitespace c) cs

/-- The pieces between the occurrences of `sep`; there is always at least one. -/
def split (sep : Char) : List Char → List (List Char)
  | [] => [[]]
  | c :: cs =>
    match split sep cs with
    | [] => [[c]]
    | w :: ws => if c = sep then [] :: w :: ws else (c :: w) :: ws

def stripPrefix (pat cs : List Char) : Option (List Char) :=
  if pat.isPrefixOf cs then some (cs.drop pat.length) else none

/-- Replace the occurrences of `pat` from the left; `skip` characters are still part of the last
match. An empty pattern matches around every character. -/
def replaceFrom (pat rep : List Char) : Nat → List Char → List Char
  | _, [] => if pat.isEmpty then rep else []
  | skip + 1, _ :: cs => replaceFrom pat rep skip cs
  | 0, c :: cs =>
    if pat.isEmpty then rep ++ c :: replaceFrom pat rep 0 cs
    else if pat.isPrefixOf (c :: cs) then rep ++ replaceFrom pat rep (pat.length - 1) cs
    else c :: replaceFrom pat rep 0 cs

def replace (s pat rep : String) : String :=
  String.ofList (replaceFrom pat.toList rep.toList 0 s.toList)

/-! ### Byte offsets -/

def byteLength (cs : List Char) : Nat := (cs.map fun c => c.utf8Size).sum

/-- Cut at a byte offset, which must fall between two characters. -/
def splitAtByte : Nat → List Char → Option (List Char × List Char)
  | 0, cs => some ([], cs)
  | _ + 1, [] => none
  | n + 1, c :: cs =>
    if c.utf8Size ≤ n + 1 then (splitAtByte (n + 1 - c.utf8Size) cs).map fun (a, b) => (c :: a, b)
    else none

def sliceFrom (cs : List Char) (from_ : Nat) : Option (List Char) :=
  (splitAtByte from_ cs).map Prod.snd

def slice (cs : List Char) (from_ upto : Nat) : Option (List Char) :=
  if from_ ≤ upto then
    (sliceFrom cs from_).bind fun rest => (splitAtByte (upto - from_) rest).map Prod.fst
  else none

/-- The byte offset of the first occurrence of `pat`. -/
def find (pat : List Char) : List Char → Option Nat
  | [] => if pat.isEmpty then some 0 else none
  | c :: cs =>
    if pat.isPrefixOf (c :: cs) then some 0 else (find pat cs).map fun n => c.utf8Size + n

/-- The byte offset of the last occurrence of `pat`. -/
def rfind (pat : List Char) : List Char → Option Nat
  | [] => if pat.isEmpty then some 0 else none
  | c :: cs =>
    match rfind pat cs with
    | some n => some (c.utf8Size + n)
    | none => if pat.isPrefixOf (c :: cs) then some 0 else none

def contains (pat cs : List Char) : Bool := (find pat cs).isSome

/-! ### Numbers -/

def digitsValue (ds : List Char) : Nat :=
  ds.foldl (fun n c => 10 * n + (c.toNat - '0'.toNat)) 0

def parseDigits (ds : List Char) : Option Nat :=
  if ds.isEmpty || !ds.all Char.isDigit then none else some (digitsValue ds)

theorem exists_toDigits (n : Nat) : ∃ c cs, Nat.toDigits 10 n = c :: cs ∧ c.isDigit = true := by
  obtain ⟨c, cs, hcs⟩ := List.exists_cons_of_ne_nil (Nat.toDigits_ne_nil (n := n) (b := 10))
  have hmem : c ∈ Nat.toDigits 10 n := by
    rw [hcs]
    exact List.mem_cons_self
  exact ⟨c, cs, hcs, Nat.isDigit_of_mem_toDigits (by decide) (by decide) hmem⟩

/-- The decimal form of a number is read as it. -/
theorem parseDigits_toDigits (n : Nat) : parseDigits (Nat.toDigits 10 n) = some n := by
  have hdigit : (Nat.toDigits 10 n).all Char.isDigit = true :=
    List.all_eq_true.mpr fun c hc => Nat.isDigit_of_mem_toDigits (by decide) (by decide) hc
  have hvalue : digitsValue (Nat.toDigits 10 n) = n := Nat.ofDigitChars_toDigits (by decide) (by decide)
  rw [parseDigits, hdigit, hvalue]
  simp

/-- A signed decimal integer, with an optional sign. -/
def parseInt : List Char → Option Int
  | '-' :: ds => (parseDigits ds).map fun n => -(n : Int)
  | '+' :: ds => (parseDigits ds).map fun n => (n : Int)
  | ds => (parseDigits ds).map fun n => (n : Int)

theorem parseInt_toDigits (n : Nat) : parseInt (Nat.toDigits 10 n) = some (n : Int) := by
  obtain ⟨c, cs, hcs, hdigit⟩ := exists_toDigits n
  have hparse := parseDigits_toDigits n
  rw [hcs] at hparse ⊢
  rw [parseInt, hparse]
  · rfl
  · rintro ds heq
    obtain rfl := (List.cons.inj heq).1
    exact absurd hdigit (by decide)
  · rintro ds heq
    obtain rfl := (List.cons.inj heq).1
    exact absurd hdigit (by decide)

def parseI64 (s : String) : Option Int64 :=
  (parseInt s.toList).bind fun i =>
    if Int64.minValue.toInt ≤ i ∧ i ≤ Int64.maxValue.toInt then some (Int64.ofInt i) else none

def parseUsize (cs : List Char) : Option Nat :=
  let n := match cs with
    | '+' :: ds => parseDigits ds
    | ds => parseDigits ds
  n.filter (· < 2 ^ 64)

theorem parseUsize_toDigits {n : Nat} (h : n < 2 ^ 64) : parseUsize (Nat.toDigits 10 n) = some n := by
  obtain ⟨c, cs, hcs, hdigit⟩ := exists_toDigits n
  have hparse := parseDigits_toDigits n
  rw [hcs] at hparse ⊢
  rw [parseUsize]
  · rw [hparse]
    exact Option.filter_some_pos (by simpa using h)
  · rintro ds heq
    obtain rfl := (List.cons.inj heq).1
    exact absurd hdigit (by decide)

def hexDigit (n : Nat) : Char := Nat.digitChar n

def hexEncode (bytes : List UInt8) : String :=
  String.ofList (bytes.flatMap fun b => [hexDigit (b.toNat / 16), hexDigit (b.toNat % 16)])

end Text
