import Mathlib.Order.Defs.Unbundled
import Mathlib.Tactic.SplitIfs

/-!
# Programs over a state that may stop with a failure

A program returns a result or stops with a failure, and the state it has reached is kept either way.
The rules follow a relation `R` between the state a program starts in and the state it ends in,
whatever its outcome: for a reflexive and transitive `R` it is enough that every primitive step
moves along `R`.
-/

universe u

/-- Programs with failures `ε` over the state `σ`. -/
abbrev Prog (ε σ α : Type) := ExceptT ε (StateM σ) α

namespace Prog

variable {ε σ α β : Type}

/-- Run a program: its outcome and the state it ends in. -/
def exec (p : Prog ε σ α) (s : σ) : Except ε α × σ := p.run.run s

/-- Read something off the state. -/
def read (f : σ → α) : Prog ε σ α := ExceptT.mk fun s => (.ok (f s), s)

def modify (f : σ → σ) : Prog ε σ Unit := ExceptT.mk fun s => (.ok (), f s)

def fail (e : ε) : Prog ε σ α := ExceptT.mk fun s => (.error e, s)

def ofExcept (r : Except ε α) : Prog ε σ α := ExceptT.mk fun s => (r, s)

/-- The outcome of `p` as a value: a failure does not stop the caller. -/
def attempt (p : Prog ε σ α) : Prog ε σ (Except ε α) :=
  ExceptT.mk fun s => (.ok (p.exec s).1, (p.exec s).2)

@[simp]
theorem exec_pure (a : α) (s : σ) : exec (pure a : Prog ε σ α) s = (.ok a, s) := rfl

@[simp]
theorem exec_read (f : σ → α) (s : σ) : exec (read f : Prog ε σ α) s = (.ok (f s), s) := rfl

@[simp]
theorem exec_modify (f : σ → σ) (s : σ) : exec (modify f : Prog ε σ Unit) s = (.ok (), f s) := rfl

@[simp]
theorem exec_fail (e : ε) (s : σ) : exec (fail e : Prog ε σ α) s = (.error e, s) := rfl

@[simp]
theorem exec_ofExcept (r : Except ε α) (s : σ) : exec (ofExcept r : Prog ε σ α) s = (r, s) := rfl

@[simp]
theorem exec_attempt (p : Prog ε σ α) (s : σ) :
    exec p.attempt s = (.ok (p.exec s).1, (p.exec s).2) := rfl

theorem exec_bind (p : Prog ε σ α) (f : α → Prog ε σ β) (s : σ) :
    exec (p >>= f) s = match exec p s with
      | (.ok a, s') => exec (f a) s'
      | (.error e, s') => (.error e, s') := by
  change (match exec p s with
    | (a, s') => (ExceptT.bindCont (m := StateM σ) f a).run s') = _
  rcases exec p s with ⟨_ | a, s'⟩ <;> rfl

theorem exec_bind_ok {p : Prog ε σ α} {f : α → Prog ε σ β} {s s' : σ} {a : α}
    (h : exec p s = (.ok a, s')) : exec (p >>= f) s = exec (f a) s' := by
  rw [exec_bind, h]

theorem exec_bind_error {p : Prog ε σ α} {f : α → Prog ε σ β} {s s' : σ} {e : ε}
    (h : exec p s = (.error e, s')) : exec (p >>= f) s = (.error e, s') := by
  rw [exec_bind, h]

/-- A sequence succeeds if its two parts do. -/
theorem exec_bind_eq_ok_iff {p : Prog ε σ α} {f : α → Prog ε σ β} {s s' : σ} {b : β} :
    exec (p >>= f) s = (.ok b, s') ↔
      ∃ a s₁, exec p s = (.ok a, s₁) ∧ exec (f a) s₁ = (.ok b, s') := by
  rw [exec_bind]
  rcases exec p s with ⟨e | a, s₁⟩
  · exact ⟨fun h => (nomatch (Prod.mk.inj h).1), fun ⟨_, _, h, _⟩ => nomatch (Prod.mk.inj h).1⟩
  · refine ⟨fun h => ⟨a, s₁, rfl, h⟩, fun ⟨a', s₁', h, h'⟩ => ?_⟩
    obtain ⟨ha, rfl⟩ := Prod.mk.inj h
    exact Except.ok.inj ha ▸ h'

/-- Returning something else leaves the state where it is. -/
theorem exec_bind_pure_snd (p : Prog ε σ α) (f : α → β) (s : σ) :
    (exec (p >>= fun a => pure (f a)) s).2 = (exec p s).2 := by
  rw [exec_bind]
  rcases exec p s with ⟨_ | _, s'⟩ <;> rfl

/-! ### Loops that stop -/

/-- A loop that stops with a failure has gone through some elements, and fails at the next one. -/
theorem exists_of_foldlM_error {f : β → α → Prog ε σ β} {l : List α} {b : β} {s s' : σ} {e : ε}
    (h : exec (l.foldlM f b) s = (.error e, s')) : ∃ done x rest b' s₁, l = done ++ x :: rest ∧
      exec (done.foldlM f b) s = (.ok b', s₁) ∧ exec (f b' x) s₁ = (.error e, s') := by
  induction l generalizing b s with
  | nil => exact nomatch (Prod.mk.inj h).1
  | cons x l ih =>
      rw [List.foldlM_cons] at h
      rcases hx : exec (f b x) s with ⟨e' | b₁, s₁⟩
      · rw [exec_bind_error hx] at h
        exact ⟨[], x, l, b, s, rfl, rfl, hx.trans h⟩
      · rw [exec_bind_ok hx] at h
        obtain ⟨done, y, rest, b', s₂, rfl, hdone, hy⟩ := ih h
        exact ⟨x :: done, y, rest, b', s₂, rfl, by rw [List.foldlM_cons, exec_bind_ok hx, hdone], hy⟩

/-- A loop without an accumulator. -/
theorem forM_eq_foldlM (f : α → Prog ε σ PUnit) (l : List α) :
    forM l f = l.foldlM (fun _ x => f x) ⟨⟩ := by
  induction l with
  | nil => rfl
  | cons x l ih => rw [List.forM_cons, List.foldlM_cons, ih]

/-! ### Moving along a relation -/

section Moves

/-- From the state `s`, the program `p` ends in a state related to `s`. -/
def Moves (R : σ → σ → Prop) (p : Prog ε σ α) (s : σ) : Prop := R s (exec p s).2

variable {R : σ → σ → Prop}

theorem Moves.mono {R' : σ → σ → Prop} {p : Prog ε σ α} {s : σ} (h : Moves R p s)
    (hle : ∀ s s', R s s' → R' s s') : Moves R' p s := hle _ _ h

theorem moves_modify {f : σ → σ} {s : σ} (h : R s (f s)) :
    Moves R (modify f : Prog ε σ Unit) s := h

variable [IsPreorder σ R]

theorem moves_of_unchanged {p : Prog ε σ α} {s : σ} (h : (exec p s).2 = s) : Moves R p s := by
  rw [Moves, h]
  exact refl_of R s

theorem moves_pure (a : α) (s : σ) : Moves R (pure a : Prog ε σ α) s := moves_of_unchanged rfl

theorem moves_read (f : σ → α) (s : σ) : Moves R (read f : Prog ε σ α) s := moves_of_unchanged rfl

theorem moves_fail (e : ε) (s : σ) : Moves R (fail e : Prog ε σ α) s := moves_of_unchanged rfl

theorem moves_ofExcept (r : Except ε α) (s : σ) : Moves R (ofExcept r : Prog ε σ α) s :=
  moves_of_unchanged rfl

theorem moves_bind {p : Prog ε σ α} {f : α → Prog ε σ β} {s : σ} (hp : Moves R p s)
    (hf : ∀ a s', exec p s = (.ok a, s') → R s s' → Moves R (f a) s') : Moves R (p >>= f) s := by
  rw [Moves, exec_bind]
  rw [Moves] at hp
  rcases h : exec p s with ⟨e | a, s'⟩
  · rw [h] at hp
    exact hp
  · rw [h] at hp
    exact trans_of R hp (hf a s' h hp)

/-- A fold over a list moves along `R` as soon as each of its steps does, from every state that the
steps before it can reach. -/
theorem moves_foldlM (f : β → α → Prog ε σ β) (l : List α) (b : β) (s : σ)
    (hf : ∀ b, ∀ x ∈ l, ∀ s', R s s' → Moves R (f b x) s') : Moves R (l.foldlM f b) s := by
  induction l generalizing b s with
  | nil => exact refl_of R s
  | cons x l ih =>
      rw [List.foldlM_cons]
      refine moves_bind (hf b x List.mem_cons_self s (refl_of R s)) fun b' s' _ hs' => ?_
      exact ih b' s' fun b'' y hy s'' hs'' =>
        hf b'' y (List.mem_cons_of_mem x hy) s'' (trans_of R hs' hs'')

theorem moves_forM (f : α → Prog ε σ PUnit) (l : List α) (s : σ)
    (hf : ∀ x ∈ l, ∀ s', R s s' → Moves R (f x) s') : Moves R (forM l f) s := by
  rw [forM_eq_foldlM]
  exact moves_foldlM _ l _ s fun _ => hf

/-- As `moves_foldlM`, with a fact `I` about the elements still to come that every step maintains. -/
theorem moves_foldlM_of_pending (I : List α → σ → Prop) (f : β → α → Prog ε σ β)
    (hf : ∀ b x l s, I (x :: l) s → Moves R (f b x) s ∧ I l (exec (f b x) s).2)
    (l : List α) (b : β) (s : σ) (hI : I l s) : Moves R (l.foldlM f b) s := by
  induction l generalizing b s with
  | nil => exact refl_of R s
  | cons x l ih =>
      obtain ⟨hx, hl⟩ := hf b x l s hI
      rw [List.foldlM_cons]
      refine moves_bind hx fun b' s' h _ => ih b' s' ?_
      rw [h] at hl
      exact hl

/-- Every element that a fold gets to satisfies `G`, with the state in which it is reached. -/
def AlongFold (f : β → α → Prog ε σ β) (G : β → α → σ → Prop) : β → List α → σ → Prop
  | _, [], _ => True
  | b, x :: l, s => G b x s ∧ ∀ b' s', exec (f b x) s = (.ok b', s') → AlongFold f G b' l s'

def AlongEach (f : α → Prog ε σ PUnit) (G : α → σ → Prop) : List α → σ → Prop
  | [], _ => True
  | x :: l, s => G x s ∧ ∀ u s', exec (f x) s = (.ok u, s') → AlongEach f G l s'

theorem AlongEach.fold {f : α → Prog ε σ PUnit} {G : α → σ → Prop} {l : List α} {s : σ}
    (h : AlongEach f G l s) : AlongFold (fun _ x => f x) (fun _ => G) ⟨⟩ l s := by
  induction l generalizing s with
  | nil => trivial
  | cons x l ih => exact ⟨h.1, fun u s' hok => ih (h.2 u s' hok)⟩

/-- Two loops with the same step on all that the first one gets to run alike. -/
theorem exec_foldlM_congr {f g : β → α → Prog ε σ β} {G : β → α → σ → Prop} {b : β} {l : List α}
    {s : σ} (h : AlongFold f G b l s) (hfg : ∀ b x s, G b x s → exec (f b x) s = exec (g b x) s) :
    exec (l.foldlM f b) s = exec (l.foldlM g b) s := by
  induction l generalizing b s with
  | nil => rfl
  | cons x l ih =>
      obtain ⟨hx, hl⟩ := h
      have hstep := hfg b x s hx
      rw [List.foldlM_cons, List.foldlM_cons]
      rcases hf : exec (f b x) s with ⟨e | b', s'⟩
      · rw [exec_bind_error hf, exec_bind_error (hstep.symm.trans hf)]
      · rw [exec_bind_ok hf, exec_bind_ok (hstep.symm.trans hf)]
        exact ih (hl b' s' hf)

theorem moves_foldlM_of_along {f : β → α → Prog ε σ β} {G : β → α → σ → Prop} {b : β} {l : List α}
    {s : σ} (h : AlongFold f G b l s)
    (hf : ∀ b, ∀ x ∈ l, ∀ s', R s s' → G b x s' → Moves R (f b x) s') : Moves R (l.foldlM f b) s := by
  induction l generalizing b s with
  | nil => exact refl_of R s
  | cons x l ih =>
      rw [List.foldlM_cons]
      refine moves_bind (hf b x List.mem_cons_self s (refl_of R s) h.1) fun b' s' hok hs' => ?_
      exact ih (h.2 b' s' hok) fun b'' y hy s'' hs'' =>
        hf b'' y (List.mem_cons_of_mem x hy) s'' (trans_of R hs' hs'')

theorem moves_forM_of_along {f : α → Prog ε σ PUnit} {G : α → σ → Prop} {l : List α} {s : σ}
    (h : AlongEach f G l s) (hf : ∀ x ∈ l, ∀ s', R s s' → G x s' → Moves R (f x) s') :
    Moves R (forM l f) s := by
  rw [forM_eq_foldlM]
  exact moves_foldlM_of_along h.fold fun _ => hf

end Moves

/-! ### Keeping an invariant -/

section Keeps

/-- From every state with `I`, the program `p` ends in one, whatever its outcome. -/
def Keeps (I : σ → Prop) (p : Prog ε σ α) : Prop := ∀ s, I s → I (exec p s).2

/-- Along what keeps `I`. -/
def Keeping (I : σ → Prop) (s s' : σ) : Prop := I s → I s'

instance (I : σ → Prop) : IsPreorder σ (Keeping I) where
  refl _ := id
  trans _ _ _ h h' := h' ∘ h

variable {I : σ → Prop}

theorem keeps_pure (a : α) : Keeps I (pure a : Prog ε σ α) := fun _ hs => hs

theorem keeps_read (f : σ → α) : Keeps I (read f : Prog ε σ α) := fun _ hs => hs

theorem keeps_fail (e : ε) : Keeps I (fail e : Prog ε σ α) := fun _ hs => hs

theorem keeps_ofExcept (r : Except ε α) : Keeps I (ofExcept r : Prog ε σ α) := fun _ hs => hs

theorem keeps_modify {f : σ → σ} (h : ∀ s, I s → I (f s)) :
    Keeps I (modify f : Prog ε σ Unit) := h

theorem keeps_ite {c : Prop} [Decidable c] {p q : Prog ε σ α} (hp : Keeps I p) (hq : Keeps I q) :
    Keeps I (if c then p else q) := by
  split_ifs
  · exact hp
  · exact hq

theorem Keeps.bind {p : Prog ε σ α} {f : α → Prog ε σ β} (hp : Keeps I p)
    (hf : ∀ a, Keeps I (f a)) : Keeps I (p >>= f) := by
  intro s hs
  have hI := hp s hs
  rw [exec_bind]
  rcases h : exec p s with ⟨e | a, s'⟩
  · rw [h] at hI
    exact hI
  · rw [h] at hI
    exact hf a s' hI

theorem keeps_foldlM {f : β → α → Prog ε σ β} (hf : ∀ b a, Keeps I (f b a)) (l : List α) (b : β) :
    Keeps I (l.foldlM f b) := by
  induction l generalizing b with
  | nil => exact keeps_pure b
  | cons a l ih =>
      rw [List.foldlM_cons]
      exact (hf b a).bind ih

theorem keeps_forM {f : α → Prog ε σ PUnit} (hf : ∀ a, Keeps I (f a)) (l : List α) :
    Keeps I (forM l f) := by
  rw [forM_eq_foldlM]
  exact keeps_foldlM (fun _ => hf) l ⟨⟩

end Keeps

end Prog

/-! ### Sequences of checks -/

namespace Except

variable {ε α β : Type}

theorem bind_eq_ok_iff {x : Except ε Unit} {y : Except ε α} {a : α} :
    (x >>= fun _ => y) = .ok a ↔ x = .ok () ∧ y = .ok a := by
  cases x with
  | error e => exact ⟨fun h => (nomatch h), fun h => (nomatch h.1)⟩
  | ok u => exact ⟨fun h => ⟨rfl, h⟩, fun h => h.2⟩

theorem map_eq_ok_iff {f : α → β} {x : Except ε α} {b : β} :
    x.map f = .ok b ↔ ∃ a, x = .ok a ∧ f a = b := by
  cases x with
  | error e => exact ⟨fun h => (nomatch h), fun ⟨_, h, _⟩ => nomatch h⟩
  | ok a => exact ⟨fun h => ⟨a, rfl, Except.ok.inj h⟩, fun ⟨_, h, hb⟩ => Except.ok.inj h ▸ congrArg _ hb⟩

theorem forM_eq_ok_iff {f : β → Except ε Unit} {l : List β} :
    l.forM f = .ok () ↔ ∀ x ∈ l, f x = .ok () := by
  induction l with
  | nil => exact ⟨fun _ _ h => absurd h List.not_mem_nil, fun _ => rfl⟩
  | cons x l ih =>
      have hcons : (x :: l).forM f = (f x >>= fun _ => l.forM f) := rfl
      rw [hcons, bind_eq_ok_iff, ih, List.forall_mem_cons]

theorem ok_or_error (x : Except ε Unit) : x = .ok () ∨ ∃ e, x = .error e := by
  cases x with
  | error e => exact Or.inr ⟨e, rfl⟩
  | ok u => exact Or.inl rfl

end Except
