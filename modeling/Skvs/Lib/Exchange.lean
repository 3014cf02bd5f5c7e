import Mathlib.Data.List.Basic
import Mathlib.Logic.Function.Basic

/-!
# Two parties that tell each other what they do

Each party applies what it issues at once, and what the other issues in the order in which it was
issued. A log holds everything that a party has applied. Of the operations that match a predicate,
two logs end with the same one, or each ends with one of the other party.
-/

namespace Exchange

inductive Side where
  | left
  | right
  deriving DecidableEq

def Side.peer : Side → Side
  | .left => .right
  | .right => .left

@[simp]
theorem Side.peer_peer (side : Side) : side.peer.peer = side := by
  cases side <;> rfl

theorem Side.peer_ne (side : Side) : side.peer ≠ side := by
  cases side <;> exact fun h => nomatch h

theorem Side.eq_peer_of_ne {side side' : Side} (h : side' ≠ side) : side' = side.peer := by
  cases side <;> cases side' <;> first | rfl | exact absurd rfl h

/-- An operation as it was applied, and whether it is the party's own. -/
structure Entry (α : Type) where
  own : Bool
  op : α

variable {α : Type}

structure State (α : Type) where
  log : Side → List (Entry α)
  /-- What is on its way to a party. -/
  undelivered : Side → List α

def State.issue (s : State α) (side : Side) (x : α) : State α where
  log := Function.update s.log side (s.log side ++ [⟨true, x⟩])
  undelivered := Function.update s.undelivered side.peer (s.undelivered side.peer ++ [x])

def State.deliver (s : State α) (side : Side) (x : α) (rest : List α) : State α where
  log := Function.update s.log side (s.log side ++ [⟨false, x⟩])
  undelivered := Function.update s.undelivered side rest

inductive Step (s : State α) : State α → Prop where
  | stay : Step s s
  | issue (side : Side) (x : α) : Step s (s.issue side x)
  | deliver (side : Side) (x : α) (rest : List α) (h : s.undelivered side = x :: rest) :
    Step s (s.deliver side x rest)

def matching (p : α → Bool) (l : List (Entry α)) : List (Entry α) := l.filter fun e => p e.op

/-- The last matching entry of a log. -/
def last (p : α → Bool) (l : List (Entry α)) : Option (Entry α) := (matching p l).getLast?

/-- The matching operations of a log that are the party's own, or those that are not. -/
def opsOf (own : Bool) (p : α → Bool) (l : List (Entry α)) : List α :=
  ((matching p l).filter fun e => e.own == own).map Entry.op

theorem opsOf_snoc (own : Bool) (p : α → Bool) (l : List (Entry α)) (e : Entry α) :
    opsOf own p (l ++ [e]) = opsOf own p l ++ if p e.op ∧ e.own = own then [e.op] else [] := by
  unfold opsOf matching
  rw [List.filter_append, List.filter_append, List.map_append, List.filter_filter]
  congr 1
  by_cases hp : p e.op <;> by_cases ho : e.own = own <;> simp [hp, ho]

theorem last_snoc (p : α → Bool) (l : List (Entry α)) (e : Entry α) :
    last p (l ++ [e]) = if p e.op then some e else last p l := by
  unfold last matching
  rw [List.filter_append]
  by_cases hp : p e.op <;> simp [hp]

/-- The last of the matching operations is the last of those with its origin. -/
theorem getLast?_opsOf {p : α → Bool} {l : List (Entry α)} {e : Entry α} (h : last p l = some e) :
    (opsOf e.own p l).getLast? = some e.op := by
  obtain ⟨l', hl'⟩ := List.getLast?_eq_some_iff.mp h
  unfold opsOf
  rw [hl', List.filter_append, List.map_append]
  simp

theorem opsOf_eq_nil_of_last {p : α → Bool} {l : List (Entry α)} (h : last p l = none)
    (own : Bool) : opsOf own p l = [] := by
  unfold opsOf
  rw [List.getLast?_eq_none_iff.mp h]
  rfl

theorem last_eq_none_of_opsOf {p : α → Bool} {l : List (Entry α)}
    (h : ∀ own, opsOf own p l = []) : last p l = none := by
  cases hlast : last p l with
  | none => rfl
  | some e =>
      have hget := getLast?_opsOf hlast
      rw [h] at hget
      exact nomatch hget

structure Consistent (p : α → Bool) (s : State α) : Prop where
  /-- A party has applied what the other issued, up to what is on its way. -/
  fifo : ∀ side, opsOf true p (s.log side.peer) =
    opsOf false p (s.log side) ++ (s.undelivered side).filter p
  /-- While both logs end with an own operation, one of the two is on its way. -/
  crossing : (∀ side, ∃ x, last p (s.log side) = some ⟨true, x⟩) →
    ∃ side, (s.undelivered side).filter p ≠ []

variable {p : α → Bool} {s s' : State α}

theorem Consistent.issue (h : Consistent p s) (side : Side) (x : α) :
    Consistent p (s.issue side x) := by
  constructor
  · intro dest
    by_cases hto : dest = side
    · subst hto
      have hfifo := h.fifo dest
      simp only [State.issue, Function.update_self, Function.update_of_ne dest.peer_ne,
        Function.update_of_ne dest.peer_ne.symm]
      rw [hfifo, opsOf_snoc]
      simp
    · obtain rfl := Side.eq_peer_of_ne hto
      have hfifo := h.fifo side.peer
      rw [Side.peer_peer] at hfifo
      simp only [State.issue, Function.update_self, Function.update_of_ne side.peer_ne,
        Side.peer_peer]
      rw [opsOf_snoc, hfifo, List.filter_append]
      cases hp : p x <;> simp [hp]
  · intro hown
    by_cases hp : p x = true
    · refine ⟨side.peer, ?_⟩
      simp only [State.issue, Function.update_self]
      rw [List.filter_append]
      simp [hp]
    · obtain ⟨dest, hto⟩ := h.crossing fun side' => by
        obtain ⟨y, hy⟩ := hown side'
        refine ⟨y, ?_⟩
        by_cases hside : side' = side
        · subst hside
          simp only [State.issue, Function.update_self] at hy
          rwa [last_snoc, if_neg hp] at hy
        · simp only [State.issue, Function.update_of_ne hside] at hy
          exact hy
      refine ⟨dest, ?_⟩
      by_cases hside : dest = side.peer
      · subst hside
        simp only [State.issue, Function.update_self]
        rw [List.filter_append]
        simp [hto]
      · simp only [State.issue, Function.update_of_ne hside]
        exact hto

theorem Consistent.deliver (h : Consistent p s) {side : Side} {x : α} {rest : List α}
    (hnext : s.undelivered side = x :: rest) : Consistent p (s.deliver side x rest) := by
  constructor
  · intro dest
    by_cases hto : dest = side
    · subst hto
      have hfifo := h.fifo dest
      simp only [State.deliver, Function.update_self, Function.update_of_ne dest.peer_ne]
      rw [hfifo, hnext, opsOf_snoc]
      cases hp : p x <;> simp [hp]
    · obtain rfl := Side.eq_peer_of_ne hto
      have hfifo := h.fifo side.peer
      rw [Side.peer_peer] at hfifo
      simp only [State.deliver, Function.update_self, Function.update_of_ne side.peer_ne,
        Side.peer_peer]
      rw [opsOf_snoc, hfifo]
      simp
  · intro hown
    obtain ⟨y, hy⟩ := hown side
    simp only [State.deliver, Function.update_self] at hy
    rw [last_snoc] at hy
    have hp : p x = false := by
      cases hp : p x with
      | false => rfl
      | true => simp [hp] at hy
    obtain ⟨dest, hto⟩ := h.crossing fun side' => by
      obtain ⟨y, hy⟩ := hown side'
      refine ⟨y, ?_⟩
      by_cases hside : side' = side
      · subst hside
        simp only [State.deliver, Function.update_self] at hy
        rwa [last_snoc, if_neg (by simp [hp])] at hy
      · simp only [State.deliver, Function.update_of_ne hside] at hy
        exact hy
    refine ⟨dest, ?_⟩
    by_cases hside : dest = side
    · subst hside
      simp only [State.deliver, Function.update_self]
      rwa [hnext, List.filter_cons_of_neg (by simp [hp])] at hto
    · simp only [State.deliver, Function.update_of_ne hside]
      exact hto

theorem Consistent.step (h : Consistent p s) (hstep : Step s s') : Consistent p s' := by
  cases hstep with
  | stay => exact h
  | issue side x => exact h.issue side x
  | deliver side x rest hnext => exact h.deliver hnext

/-- Once everything is delivered, an own operation at the end of one log is at the end of both. -/
theorem Consistent.last_of_own (h : Consistent p s) (hdone : ∀ side, s.undelivered side = [])
    {side : Side} {x : α} (hlast : last p (s.log side) = some ⟨true, x⟩) :
    last p (s.log side.peer) = some ⟨false, x⟩ := by
  have hfifo := h.fifo side.peer
  rw [Side.peer_peer, hdone, List.filter_nil, List.append_nil] at hfifo
  have hx := getLast?_opsOf hlast
  cases hpeer : last p (s.log side.peer) with
  | none =>
      rw [hfifo, opsOf_eq_nil_of_last hpeer] at hx
      exact nomatch hx
  | some e =>
      have he := getLast?_opsOf hpeer
      obtain ⟨own, y⟩ := e
      cases own with
      | true =>
          obtain ⟨dest, hto⟩ := h.crossing fun dest => by
            by_cases hside : dest = side
            · exact ⟨x, by rw [hside, hlast]⟩
            · exact ⟨y, by rw [Side.eq_peer_of_ne hside, hpeer]⟩
          rw [hdone] at hto
          exact absurd rfl hto
      | false =>
          rw [← hfifo, hx] at he
          obtain rfl : x = y := Option.some.inj he
          rfl

/-- Once everything is delivered, a log without a matching operation leaves none to the other. -/
theorem Consistent.last_of_none (h : Consistent p s) (hdone : ∀ side, s.undelivered side = [])
    {side : Side} (hlast : last p (s.log side) = none) : last p (s.log side.peer) = none := by
  apply last_eq_none_of_opsOf
  intro own
  cases own with
  | true =>
      rw [h.fifo side, opsOf_eq_nil_of_last hlast, hdone]
      rfl
  | false =>
      have hfifo := h.fifo side.peer
      rw [Side.peer_peer, hdone, List.filter_nil, List.append_nil] at hfifo
      rw [← hfifo, opsOf_eq_nil_of_last hlast]

/-- Once everything is delivered, both logs end with the same operation, or each with one of the
other party. -/
theorem Consistent.last_eq (h : Consistent p s) (hdone : ∀ side, s.undelivered side = []) :
    (last p (s.log .left)).map Entry.op = (last p (s.log .right)).map Entry.op ∨
      ∃ x y, last p (s.log .left) = some ⟨false, x⟩ ∧ last p (s.log .right) = some ⟨false, y⟩ := by
  cases hleft : last p (s.log .left) with
  | none =>
      have hright := h.last_of_none hdone hleft
      rw [Side.peer] at hright
      exact .inl (by rw [hright])
  | some e =>
      obtain ⟨own, x⟩ := e
      cases own with
      | true =>
          have hright := h.last_of_own hdone hleft
          rw [Side.peer] at hright
          exact .inl (by rw [hright]; rfl)
      | false =>
          cases hright : last p (s.log .right) with
          | none =>
              have hnone := h.last_of_none hdone hright
              rw [Side.peer, hleft] at hnone
              exact nomatch hnone
          | some e =>
              obtain ⟨own, y⟩ := e
              cases own with
              | true =>
                  have hsame := h.last_of_own hdone hright
                  rw [Side.peer, hleft] at hsame
                  cases hsame
                  exact .inl rfl
              | false => exact .inr ⟨x, y, rfl, rfl⟩

end Exchange
