import Skvs.Replication
import Skvs.Proof.RawMap
import Mathlib.Data.List.Induction

/-!
# What two replicas agree on

With everything delivered, a key is read alike at both servers unless each of them applied last an
operation of the other one, and these two have different effects. Two servers that write a key at
the same time end with each other's value.
-/

namespace Skvs

open Exchange (Side)

def OpType.key : OpType → Bytes
  | .put key _ => key
  | .delete key => key

namespace Operation

/-- What is read from the key afterwards. -/
def effect (o : Operation) : Option Bytes :=
  match o.op with
  | .put _ value => some value
  | .delete _ => none

def call (o : Operation) (env : Surroundings) : RawCall where
  dbId := o.dbId
  table := o.table
  op := match o.op with
    | .put key value => .put key value env
    | .delete key => .remove key

def isOn (dbId : UInt32) (table : String) (key : Bytes) (o : Operation) : Bool :=
  decide (dbId = o.dbId ∧ table = o.table ∧ key = o.op.key)

theorem run_call (o : Operation) (env : Surroundings) (s : RawState) :
    (o.call env).run s = o.applyTo env s := by
  obtain ⟨dbId, table, op⟩ := o
  cases op <;> rfl

end Operation

/-- An operation as a server has applied it. -/
structure Applied where
  own : Bool
  o : Operation
  env : Surroundings

namespace Applied

def entry (a : Applied) : Exchange.Entry Operation := ⟨a.own, a.o⟩

def call (a : Applied) : RawCall := a.o.call a.env

end Applied

/-- What one event has a server apply. -/
def ReplicaEvent.applied (e : ReplicaEvent) (w : Replicas) (side : Side) : List Applied :=
  match e with
  | .call side' o env => if side = side' then [⟨true, o, env⟩] else []
  | .apply side' env =>
    if side = side' then ((w side).applying.take 1).map fun o => ⟨false, o, env⟩ else []
  | _ => []

/-- Everything that a server applies in a run. -/
def history (side : Side) : List ReplicaEvent → Replicas → List Applied
  | [], _ => []
  | e :: events, w => e.applied w side ++ history side events (e.step w)

/-- What is on its way to a server. -/
def undelivered (w : Replicas) (side : Side) : List Operation :=
  (w side).applying ++ (w side).arriving.flatten ++ (w side.peer).batch ++ (w side.peer).channel

/-- The exchange that the servers carry out, with what they have applied. -/
def exchange (w : Replicas) (h : Side → List Applied) : Exchange.State Operation where
  log side := (h side).map Applied.entry
  undelivered := undelivered w

/-! ### Steps -/

theorem raw_sendBatch (side side' : Side) (w : Replicas) :
    (sendBatch side w side').raw = (w side').raw := by
  cases side <;> cases side' <;> rfl

theorem undelivered_sendBatch (side : Side) (w : Replicas) :
    undelivered (sendBatch side w) = undelivered w := by
  funext side'
  cases side <;> cases side' <;> simp [undelivered, sendBatch, Side.peer]

theorem undelivered_receiveAt (side : Side) (w : Replicas) :
    undelivered (receiveAt side w) = undelivered w := by
  unfold receiveAt
  cases hchannel : (w side).channel with
  | nil => rfl
  | cons o channel =>
      have htaken : undelivered (Function.update w side
          { w side with channel := channel, batch := (w side).batch ++ [o] }) = undelivered w := by
        funext side'
        cases side <;> cases side' <;> simp [undelivered, Side.peer, hchannel]
      simp only
      split_ifs
      · rw [undelivered_sendBatch, htaken]
      · exact htaken

theorem undelivered_flushAt (side : Side) (w : Replicas) :
    undelivered (flushAt side w) = undelivered w := by
  unfold flushAt
  split_ifs
  · rfl
  · exact undelivered_sendBatch side w

theorem undelivered_deliverAt (side : Side) (w : Replicas) :
    undelivered (deliverAt side w) = undelivered w := by
  unfold deliverAt
  split
  · rename_i happlying harriving
    funext side'
    cases side <;> cases side' <;> simp [undelivered, Side.peer, happlying, harriving]
  · rfl

theorem raw_update (side side' : Side) (w : Replicas) {r : Replica} (h : r.raw = (w side').raw) :
    (Function.update w side' r side).raw = (w side).raw := by
  by_cases hside : side = side'
  · rw [hside, Function.update_self, h]
  · rw [Function.update_of_ne hside]

theorem raw_receiveAt (side side' : Side) (w : Replicas) :
    (receiveAt side' w side).raw = (w side).raw := by
  unfold receiveAt
  cases (w side').channel with
  | nil => rfl
  | cons o channel =>
      simp only
      split_ifs
      · exact (raw_sendBatch side' side _).trans (raw_update side side' w rfl)
      · exact raw_update side side' w rfl

theorem raw_flushAt (side side' : Side) (w : Replicas) :
    (flushAt side' w side).raw = (w side).raw := by
  unfold flushAt
  split_ifs
  · rfl
  · exact raw_sendBatch side' side w

theorem raw_deliverAt (side side' : Side) (w : Replicas) :
    (deliverAt side' w side).raw = (w side).raw := by
  unfold deliverAt
  cases (w side').applying with
  | nil =>
      cases (w side').arriving with
      | nil => rfl
      | cons ops arriving => exact raw_update side side' w rfl
  | cons o ops => rfl

/-- A store changes in a step by what the step has its server apply. -/
theorem raw_step (e : ReplicaEvent) (w : Replicas) (side : Side) :
    (e.step w side).raw = runRaw ((e.applied w side).map Applied.call) (w side).raw := by
  cases e with
  | call side' o env =>
      by_cases hside : side = side'
      · subst hside
        simp [ReplicaEvent.step, callAt, ReplicaEvent.applied, Applied.call, runRaw, o.run_call]
      · simp [ReplicaEvent.step, callAt, ReplicaEvent.applied, runRaw, hside]
  | receive side' => exact raw_receiveAt side side' w
  | flush side' => exact raw_flushAt side side' w
  | deliver side' => exact raw_deliverAt side side' w
  | apply side' env =>
      by_cases hside : side = side'
      · subst hside
        cases happlying : (w side).applying with
        | nil => simp [ReplicaEvent.step, applyAt, ReplicaEvent.applied, happlying, runRaw]
        | cons o ops =>
            simp [ReplicaEvent.step, applyAt, ReplicaEvent.applied, happlying, runRaw, Applied.call,
              o.run_call]
      · cases happlying : (w side').applying <;>
          simp [ReplicaEvent.step, applyAt, ReplicaEvent.applied, happlying, runRaw, hside]

theorem exchange_of_undelivered {w w' : Replicas} (h : Side → List Applied)
    (heq : undelivered w' = undelivered w) :
    exchange w' (fun side => h side ++ []) = exchange w h := by
  simp only [exchange, heq, List.append_nil]

theorem exchange_callAt (side : Side) (o : Operation) (env : Surroundings) (w : Replicas)
    (h : Side → List Applied) :
    exchange (callAt side o env w)
        (fun side' => h side' ++ ReplicaEvent.applied (.call side o env) w side') =
      (exchange w h).issue side o := by
  unfold exchange Exchange.State.issue
  congr 1
  · funext side'
    cases side <;> cases side' <;> simp [ReplicaEvent.applied, Applied.entry]
  · funext side'
    cases side <;> cases side' <;> simp [callAt, undelivered, Side.peer]

theorem exchange_applyAt (side : Side) (env : Surroundings) (w : Replicas)
    (h : Side → List Applied) {o : Operation} {ops : List Operation}
    (happlying : (w side).applying = o :: ops) :
    exchange (applyAt side env w)
        (fun side' => h side' ++ ReplicaEvent.applied (.apply side env) w side') =
      (exchange w h).deliver side o
        (ops ++ (w side).arriving.flatten ++ (w side.peer).batch ++ (w side.peer).channel) := by
  unfold exchange Exchange.State.deliver
  congr 1
  · funext side'
    cases side <;> cases side' <;> simp [ReplicaEvent.applied, Applied.entry, happlying]
  · funext side'
    cases side <;> cases side' <;> simp [applyAt, undelivered, Side.peer, happlying]

theorem exchange_step (e : ReplicaEvent) (w : Replicas) (h : Side → List Applied) :
    Exchange.Step (exchange w h) (exchange (e.step w) fun side => h side ++ e.applied w side) := by
  have hstay : ∀ {w' : Replicas}, undelivered w' = undelivered w →
      Exchange.Step (exchange w h) (exchange w' fun side => h side ++ []) := by
    intro w' heq
    rw [exchange_of_undelivered h heq]
    exact .stay
  cases e with
  | call side o env =>
      change Exchange.Step _ (exchange (callAt side o env w) _)
      rw [exchange_callAt]
      exact .issue side o
  | receive side => exact hstay (undelivered_receiveAt side w)
  | flush side => exact hstay (undelivered_flushAt side w)
  | deliver side => exact hstay (undelivered_deliverAt side w)
  | apply side env =>
      change Exchange.Step _ (exchange (applyAt side env w) _)
      cases happlying : (w side).applying with
      | nil =>
          have hnone : ∀ side', ReplicaEvent.applied (.apply side env) w side' = [] := by
            intro side'
            by_cases hside : side' = side
            · simp [ReplicaEvent.applied, hside, happlying]
            · simp [ReplicaEvent.applied, hside]
          have hsame : applyAt side env w = w := by
            unfold applyAt
            rw [happlying]
          simp only [hnone]
          rw [hsame]
          exact hstay rfl
      | cons o ops =>
          rw [exchange_applyAt side env w h happlying]
          apply Exchange.Step.deliver
          simp [exchange, undelivered, happlying]

/-! ### Runs -/

/-- The store of a server is what everything that it has applied leads to. -/
theorem raw_run (events : List ReplicaEvent) (w : Replicas) (side : Side) :
    (runReplicas events w side).raw =
      runRaw ((history side events w).map Applied.call) (w side).raw := by
  induction events generalizing w with
  | nil => rfl
  | cons e events ih =>
      have hrest := ih (e.step w)
      rw [raw_step] at hrest
      change (runReplicas events (e.step w) side).raw = _
      rw [hrest, history, List.map_append, runRaw, runRaw, runRaw, List.foldl_append]

theorem consistent_run (p : Operation → Bool) (events : List ReplicaEvent) (w : Replicas)
    (h : Side → List Applied) (hcons : Exchange.Consistent p (exchange w h)) :
    Exchange.Consistent p
      (exchange (runReplicas events w) fun side => h side ++ history side events w) := by
  induction events generalizing w h with
  | nil => simpa [history, runReplicas] using hcons
  | cons e events ih =>
      have hrest := ih (e.step w) _ (hcons.step (exchange_step e w h))
      simpa [history, runReplicas] using hrest

/-- The last operation on a key that a server has applied. -/
def lastOn (dbId : UInt32) (table : String) (key : Bytes) (l : List Applied) :
    Option (Exchange.Entry Operation) :=
  Exchange.last (Operation.isOn dbId table key) (l.map Applied.entry)

theorem apply_call (o : Operation) (env : Surroundings) (m : Bytes → Option Bytes) (key : Bytes) :
    (o.call env).op.apply m key = if key = o.op.key then o.effect else m key := by
  obtain ⟨dbId, table, op⟩ := o
  cases op <;> exact Function.update_apply ..

/-- What a plain map has for a key is decided by the last operation on the key. -/
theorem plainMap_calls (dbId : UInt32) (table : String) (key : Bytes) (l : List Applied)
    (m : Bytes → Option Bytes) :
    plainMap dbId table (l.map Applied.call) m key =
      ((lastOn dbId table key l).map fun e => e.op.effect).getD (m key) := by
  induction l using List.reverseRecOn with
  | nil => rfl
  | append_singleton l a ih =>
      have hlast : lastOn dbId table key (l ++ [a]) =
          if a.o.isOn dbId table key then some a.entry else lastOn dbId table key l := by
        unfold lastOn
        rw [List.map_append, List.map_singleton, Exchange.last_snoc]
        rfl
      have hstep : plainMap dbId table ((l ++ [a]).map Applied.call) m key =
          (if dbId = a.o.dbId ∧ table = a.o.table then
            a.call.op.apply (plainMap dbId table (l.map Applied.call) m)
          else plainMap dbId table (l.map Applied.call) m) key := by
        rw [List.map_append, plainMap, List.foldl_append]
        rfl
      rw [hstep, hlast]
      unfold Operation.isOn
      by_cases htable : dbId = a.o.dbId ∧ table = a.o.table
      · rw [if_pos htable, Applied.call, apply_call, ih]
        by_cases hkey : key = a.o.op.key
        · rw [if_pos hkey, if_pos (decide_eq_true ⟨htable.1, htable.2, hkey⟩)]
          rfl
        · rw [if_neg hkey, if_neg (by simp [hkey])]
      · rw [if_neg htable, if_neg (by simpa using fun h h' => absurd ⟨h, h'⟩ htable), ih]

/-- Each server's last operation on the key is one of the other server, and the two differ in what
they leave there. -/
def Crossed (dbId : UInt32) (table : String) (key : Bytes) (h : Side → List Applied) : Prop :=
  ∃ x y, lastOn dbId table key (h .left) = some ⟨false, x⟩ ∧
    lastOn dbId table key (h .right) = some ⟨false, y⟩ ∧ x.effect ≠ y.effect

/-- Two servers that start alike, in any run that ends with nothing pending or in flight: a key of
a table with files of its own is read alike at both exactly if their last operations on it have not
crossed. -/
theorem replicas_agree_iff (w : Replicas) (hstart : Quiescent w) (dbId : UInt32) (table : String)
    (hequal : ∀ key, (w .left).raw.getRaw dbId table key = (w .right).raw.getRaw dbId table key)
    (events : List ReplicaEvent) (hend : Quiescent (runReplicas events w))
    (hown : ∀ side, OwnFiles (w side).raw dbId table ((history side events w).map Applied.call))
    (key : Bytes) :
    (runReplicas events w .left).raw.getRaw dbId table key =
        (runReplicas events w .right).raw.getRaw dbId table key ↔
      ¬Crossed dbId table key fun side => history side events w := by
  have hget : ∀ side, (runReplicas events w side).raw.getRaw dbId table key =
      ((lastOn dbId table key (history side events w)).map fun e => e.op.effect).getD
        ((w .left).raw.getRaw dbId table key) := by
    intro side
    have hleft : (w side).raw.getRaw dbId table = (w .left).raw.getRaw dbId table := by
      funext key'
      cases side with
      | left => rfl
      | right => exact (hequal key').symm
    rw [raw_run, runRaw_refines _ (fun _ => rfl) (hown side), plainMap_calls, hleft]
  have hdone : ∀ {w' : Replicas}, Quiescent w' → ∀ side, undelivered w' side = [] := by
    intro w' hw side
    obtain ⟨-, -, harriving, happlying⟩ := hw side
    obtain ⟨hchannel, hbatch, -, -⟩ := hw side.peer
    unfold undelivered
    rw [happlying, harriving, hbatch, hchannel]
    rfl
  have hcons : Exchange.Consistent (Operation.isOn dbId table key)
      (exchange (runReplicas events w) fun side => [] ++ history side events w) := by
    apply consistent_run
    constructor
    · intro side
      change [] = [] ++ (undelivered w side).filter _
      rw [hdone hstart]
      rfl
    · intro hown'
      obtain ⟨x, hx⟩ := hown' .left
      exact nomatch hx
  simp only [List.nil_append] at hcons
  rw [hget, hget]
  constructor
  · rintro hsame ⟨x, y, hx, hy, hne⟩
    rw [hx, hy] at hsame
    exact hne hsame
  · intro hcross
    rcases hcons.last_eq (hdone hend) with hsame | ⟨x, y, hx, hy⟩
    · have hsame' : ∀ o : Option (Exchange.Entry Operation),
          o.map (fun e => e.op.effect) = (o.map Exchange.Entry.op).map Operation.effect := by
        intro o
        cases o <;> rfl
      rw [hsame', hsame']
      exact congrArg (fun o => Option.getD (Option.map Operation.effect o) _) hsame
    · have heffect : x.effect = y.effect := by
        by_contra hne
        exact hcross ⟨x, y, hx, hy, hne⟩
      change lastOn dbId table key (history .left events w) = _ at hx
      change lastOn dbId table key (history .right events w) = _ at hy
      rw [hx, hy]
      exact heffect

namespace Sample

def idle (raw : RawState) : Replica where
  raw := raw
  channel := []
  batch := []
  batchSize := 100
  arriving := []
  applying := []

def write (value : Bytes) : Operation := ⟨0, "t", .put [1] value⟩

/-- An operation is taken up, sent, received and applied. -/
def tellPeer (side : Side) : List ReplicaEvent :=
  [.receive side, .flush side, .deliver side.peer, .apply side.peer calm]

end Sample

/-- Both servers write a key before either hears of the other's write. -/
theorem replicas_swap_values :
    let w : Replicas := fun _ => Sample.idle Sample.raw
    let events := [.call .left (Sample.write [10]) Sample.calm,
      .call .right (Sample.write [20]) Sample.calm] ++ Sample.tellPeer .left ++
        Sample.tellPeer .right
    Quiescent w ∧ Quiescent (runReplicas events w) ∧
      (runReplicas events w .left).raw.getRaw 0 "t" [1] ≠
        (runReplicas events w .right).raw.getRaw 0 "t" [1] := by
  refine ⟨fun side => ⟨rfl, rfl, rfl, rfl⟩, fun side => ?_, by decide⟩
  cases side <;> decide

/-- A write that the peer hears of before anything else happens is read at both servers. -/
theorem replicas_agree_after_write :
    let w : Replicas := fun _ => Sample.idle Sample.raw
    let events := .call .left (Sample.write [10]) Sample.calm :: Sample.tellPeer .left
    (runReplicas events w .left).raw.getRaw 0 "t" [1] =
      (runReplicas events w .right).raw.getRaw 0 "t" [1] := by
  intro w events
  apply (replicas_agree_iff w (fun side => ⟨rfl, rfl, rfl, rfl⟩) 0 "t" (fun _ => rfl) events
    (fun side => by cases side <;> decide) (fun side c hc hne => ?_) [1]).mpr
  · rintro ⟨x, y, hx, -, -⟩
    exact nomatch hx
  · have htable : ∀ c ∈ (history side events w).map Applied.call, c.dbId = 0 ∧ c.table = "t" := by
      cases side <;> decide
    obtain ⟨hdb, ht⟩ := htable c hc
    exact absurd ⟨hdb.symm, ht.symm⟩ hne

end Skvs
