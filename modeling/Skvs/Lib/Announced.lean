import Mathlib.Data.List.Basic
import Mathlib.Tactic.SplitIfs

/-!
# Operations announced to the monad

A program that announces its partial operations to the monad it runs in can be run in two ways: to
fail at the first bad operation, or to write the operations down. The one run fails exactly if the
other has written a bad operation down, and both otherwise follow the program that announces nothing.
-/

namespace Announced

variable {ω ε σ α β : Type} {bad : ω → Bool} {failure : ε} {allowed : ω → Prop}

/-- Fail if one of the operations is bad. -/
def attempt (bad : ω → Bool) (failure : ε) (ops : List ω) : Except ε Unit :=
  if ops.any bad then .error failure else .ok ()

/-- Write the operations down. -/
def record (ops : List ω) : StateM (List ω) Unit := fun log => ((), log ++ ops)

/-- The failing run and the recording run of a program with this result and these operations. -/
structure Agrees (bad : ω → Bool) (failure : ε) (allowed : ω → Prop) (x : Except ε α)
    (g : StateM (List ω) α) (a : α) (ops : List ω) : Prop where
  outcome : x = if ops.any bad then .error failure else .ok a
  recorded : ∀ log, g log = (a, log ++ ops)
  allowed : ∀ op ∈ ops, allowed op

theorem Agrees.of_pure (a : α) : Agrees bad failure allowed (pure a) (pure a) a [] where
  outcome := rfl
  recorded log := by rw [List.append_nil]; rfl
  allowed := List.forall_mem_nil _

theorem Agrees.announce {ops : List ω} (h : ∀ op ∈ ops, allowed op) :
    Agrees bad failure allowed (attempt bad failure ops) (record ops) () ops where
  outcome := rfl
  recorded _ := rfl
  allowed := h

theorem Agrees.bind {x : Except ε α} {g : StateM (List ω) α} {a : α} {ops ops' : List ω}
    {f : α → Except ε β} {h : α → StateM (List ω) β} {b : β}
    (hx : Agrees bad failure allowed x g a ops)
    (hf : Agrees bad failure allowed (f a) (h a) b ops') :
    Agrees bad failure allowed (x >>= f) (g >>= h) b (ops ++ ops') where
  outcome := by
    rw [hx.outcome, List.any_append]
    cases ops.any bad with
    | true => rfl
    | false => exact hf.outcome
  recorded log := by
    change h (g log).1 (g log).2 = _
    rw [hx.recorded, hf.recorded, List.append_assoc]
  allowed := List.forall_mem_append.mpr ⟨hx.allowed, hf.allowed⟩

/-- From every state, both runs follow a program that announces nothing. -/
def Follows (bad : ω → Bool) (failure : ε) (allowed : ω → Prop) (x : StateT σ (Except ε) α)
    (g : StateT σ (StateM (List ω)) α) (p : StateM σ α) : Prop :=
  ∀ s, ∃ ops, Agrees bad failure allowed (x s) (g s) (p s) ops

theorem Follows.of_state (p : StateM σ α) :
    Follows bad failure allowed (fun s => .ok (p s)) (fun s => pure (p s)) p :=
  fun s => ⟨[], Agrees.of_pure (p s)⟩

theorem Follows.of_pure (a : α) : Follows (σ := σ) bad failure allowed (pure a) (pure a) (pure a) :=
  fun s => ⟨[], Agrees.of_pure (a, s)⟩

theorem Follows.bind {x : StateT σ (Except ε) α} {g : StateT σ (StateM (List ω)) α} {p : StateM σ α}
    {f : α → StateT σ (Except ε) β} {h : α → StateT σ (StateM (List ω)) β} {q : α → StateM σ β}
    (hx : Follows bad failure allowed x g p)
    (hf : ∀ a, Follows bad failure allowed (f a) (h a) (q a)) :
    Follows bad failure allowed (x >>= f) (g >>= h) (p >>= q) := by
  intro s
  obtain ⟨ops, hops⟩ := hx s
  obtain ⟨ops', hops'⟩ := hf (p s).1 (p s).2
  refine ⟨ops ++ ops', ?_⟩
  change Agrees bad failure allowed (x s >>= fun r => f r.1 r.2) (g s >>= fun r => h r.1 r.2)
    (q (p s).1 (p s).2) _
  exact hops.bind hops'

theorem Follows.ite {c : Prop} [Decidable c] {x x' : StateT σ (Except ε) α}
    {g g' : StateT σ (StateM (List ω)) α} {p p' : StateM σ α}
    (hx : Follows bad failure allowed x g p) (hx' : Follows bad failure allowed x' g' p') :
    Follows bad failure allowed (if c then x else x') (if c then g else g') (if c then p else p') := by
  split_ifs
  · exact hx
  · exact hx'

theorem Follows.announce {ops : List ω} (h : ∀ op ∈ ops, allowed op) :
    Follows (σ := σ) bad failure allowed (StateT.lift (attempt bad failure ops))
      (StateT.lift (record ops)) (pure ()) := by
  intro s
  refine ⟨ops ++ [], (Agrees.announce h).bind ?_⟩
  exact Agrees.of_pure ((), s)

end Announced
