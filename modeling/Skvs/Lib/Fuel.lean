import Skvs.Lib.Program
import Mathlib.Order.Filter.AtTopBot.Basic

/-!
# Programs with fuel

A recursion without a measure is given fuel and stops with a failure of its own when that has run
out. It terminates from a state if with enough fuel it ends in another way, always the same. The
rules also carry an invariant of the states, so that they compose without any bound on the fuel.
-/

namespace Prog

open Filter

variable {ε σ α β : Type}

/-- From some fuel on the results are the same, and are not the failure for want of fuel. -/
def Converges (out : ε) (x : Nat → Except ε α) : Prop :=
  ∃ r, r ≠ .error out ∧ ∃ enough, ∀ fuel ≥ enough, x fuel = r

/-- From the state `s` the runs end in the same way with enough fuel, and in a state with `I`. -/
def SettlesFrom (out : ε) (I : σ → Prop) (p : Nat → Prog ε σ α) (s : σ) : Prop :=
  ∃ r s', r ≠ .error out ∧ I s' ∧ ∀ᶠ fuel in atTop, exec (p fuel) s = (r, s')

/-- The runs settle from every state with `I`. -/
def Settles (out : ε) (I : σ → Prop) (p : Nat → Prog ε σ α) : Prop :=
  ∀ s, I s → SettlesFrom out I p s

section Converges

variable {out : ε}

theorem converges_of_const {x : Except ε α} (h : x ≠ .error out) : Converges out fun _ => x :=
  ⟨x, h, 0, fun _ _ => rfl⟩

theorem Converges.map {x : Nat → Except ε α} (h : Converges out x) (f : α → β) :
    Converges out fun fuel => (x fuel).map f := by
  obtain ⟨r, hr, enough, henough⟩ := h
  refine ⟨r.map f, ?_, enough, fun fuel hle => congrArg (Except.map f) (henough fuel hle)⟩
  cases r with
  | ok a => exact nofun
  | error e => exact fun h => hr (congrArg Except.error (Except.error.inj h))

theorem Converges.congr {x y : Nat → Except ε α} (h : Converges out x)
    (heq : ∀ fuel, y fuel = x fuel) : Converges out y := by
  obtain ⟨r, hr, enough, henough⟩ := h
  exact ⟨r, hr, enough, fun fuel hle => (heq fuel).trans (henough fuel hle)⟩

theorem Converges.of_succ {x : Nat → Except ε α} (h : Converges out fun fuel => x (fuel + 1)) :
    Converges out x := by
  obtain ⟨r, hr, enough, henough⟩ := h
  refine ⟨r, hr, enough + 1, fun fuel hle => ?_⟩
  obtain ⟨fuel, rfl⟩ := Nat.exists_eq_add_of_le' (Nat.le_of_add_left_le hle)
  exact henough fuel (Nat.le_of_succ_le_succ hle)

end Converges

section Settles

variable {out : ε} {I : σ → Prop}

theorem settlesFrom_of_exec {p : Prog ε σ α} {s s' : σ} {r : Except ε α} (h : exec p s = (r, s'))
    (hr : r ≠ .error out) (hs' : I s') : SettlesFrom out I (fun _ => p) s :=
  ⟨r, s', hr, hs', .of_forall fun _ => h⟩

theorem settles_pure (a : α) : Settles out I fun _ => (pure a : Prog ε σ α) :=
  fun _ hs => settlesFrom_of_exec rfl nofun hs

theorem settles_fail {e : ε} (h : e ≠ out) : Settles out I fun _ => (fail e : Prog ε σ α) :=
  fun _ hs => settlesFrom_of_exec rfl (fun he => h (Except.error.inj he)) hs

theorem settles_ofExcept {x : Nat → Except ε α} (h : Converges out x) :
    Settles out I fun fuel => (ofExcept (x fuel) : Prog ε σ α) := by
  obtain ⟨r, hr, enough, henough⟩ := h
  exact fun s hs => ⟨r, s, hr, hs, eventually_atTop.mpr
    ⟨enough, fun fuel hle => congrArg (·, s) (henough fuel hle)⟩⟩

theorem settles_modify {f : σ → σ} (h : ∀ s, I s → I (f s)) :
    Settles out I fun _ => (modify f : Prog ε σ Unit) :=
  fun s hs => settlesFrom_of_exec rfl nofun (h s hs)

/-- What the second part has to settle from is the state that the first has settled in. -/
theorem SettlesFrom.bind {p : Nat → Prog ε σ α} {q : Nat → α → Prog ε σ β} {s : σ}
    (hp : SettlesFrom out I p s)
    (hq : ∀ a s', I s' → (∀ᶠ fuel in atTop, exec (p fuel) s = (.ok a, s')) →
      SettlesFrom out I (fun fuel => q fuel a) s') :
    SettlesFrom out I (fun fuel => p fuel >>= q fuel) s := by
  obtain ⟨r, s₁, hr, hs₁, h₁⟩ := hp
  cases r with
  | error e =>
      exact ⟨.error e, s₁, fun h => hr (congrArg Except.error (Except.error.inj h)), hs₁,
        h₁.mono fun fuel h => exec_bind_error h⟩
  | ok a =>
      obtain ⟨r, s₂, hr, hs₂, h₂⟩ := hq a s₁ hs₁ h₁
      exact ⟨r, s₂, hr, hs₂, (h₁.and h₂).mono fun fuel h => (exec_bind_ok h.1).trans h.2⟩

/-- The first part needs no fuel. -/
theorem settlesFrom_bind_of_exec {p : Prog ε σ α} {q : Nat → α → Prog ε σ β} {s s' : σ} {a : α}
    (hp : exec p s = (.ok a, s')) (hq : SettlesFrom out I (fun fuel => q fuel a) s') :
    SettlesFrom out I (fun fuel => p >>= q fuel) s := by
  obtain ⟨r, s₂, hr, hs₂, h⟩ := hq
  exact ⟨r, s₂, hr, hs₂, h.mono fun _ h => (exec_bind_ok hp).trans h⟩

theorem Settles.bind {p : Nat → Prog ε σ α} {q : Nat → α → Prog ε σ β} (hp : Settles out I p)
    (hq : ∀ a, Settles out I fun fuel => q fuel a) : Settles out I fun fuel => p fuel >>= q fuel :=
  fun s hs => (hp s hs).bind fun a s' hs' _ => hq a s' hs'

/-- What is read is read off a state with `I`. -/
theorem settles_read_bind {f : σ → α} {q : Nat → α → Prog ε σ β}
    (hq : ∀ s, I s → Settles out I fun fuel => q fuel (f s)) :
    Settles out I fun fuel => (read f : Prog ε σ α) >>= q fuel :=
  fun s hs => hq s hs s hs

theorem settles_ite {c : Prop} [Decidable c] {p q : Nat → Prog ε σ α} (hp : Settles out I p)
    (hq : Settles out I q) : Settles out I fun fuel => if c then p fuel else q fuel := by
  split_ifs
  · exact hp
  · exact hq

/-- A loop settles if its step settles from every state in which it is reached. -/
theorem settlesFrom_foldlM {f : Nat → β → α → Prog ε σ β} {G : Nat → β → α → σ → Prop} {l : List α}
    (hf : ∀ b, ∀ a ∈ l, ∀ s, I s → (∀ᶠ fuel in atTop, G fuel b a s) →
      SettlesFrom out I (fun fuel => f fuel b a) s) {b : β} {s : σ} (hs : I s)
    (halong : ∀ᶠ fuel in atTop, AlongFold (f fuel) (G fuel) b l s) :
    SettlesFrom out I (fun fuel => l.foldlM (f fuel) b) s := by
  induction l generalizing b s with
  | nil => exact settles_pure b s hs
  | cons a l ih =>
      simp only [List.foldlM_cons]
      have hfirst := hf b a List.mem_cons_self s hs (halong.mono fun _ h => h.1)
      refine hfirst.bind fun b' s' hs' hrun => ?_
      exact ih (fun b'' a' ha' => hf b'' a' (List.mem_cons_of_mem a ha')) hs'
        ((halong.and hrun).mono fun _ h => h.1.2 b' s' h.2)

theorem settlesFrom_forM {f : Nat → α → Prog ε σ PUnit} {G : Nat → α → σ → Prop} {l : List α}
    (hf : ∀ a ∈ l, ∀ s, I s → (∀ᶠ fuel in atTop, G fuel a s) →
      SettlesFrom out I (fun fuel => f fuel a) s) {s : σ} (hs : I s)
    (halong : ∀ᶠ fuel in atTop, AlongEach (f fuel) (G fuel) l s) :
    SettlesFrom out I (fun fuel => forM l (f fuel)) s := by
  simp only [forM_eq_foldlM]
  exact settlesFrom_foldlM (fun _ => hf) hs (halong.mono fun _ h => h.fold)

theorem settles_foldlM {f : Nat → β → α → Prog ε σ β} {l : List α}
    (hf : ∀ b, ∀ a ∈ l, Settles out I fun fuel => f fuel b a) (b : β) :
    Settles out I fun fuel => l.foldlM (f fuel) b := by
  induction l generalizing b with
  | nil => exact settles_pure b
  | cons a l ih =>
      simp only [List.foldlM_cons]
      exact (hf b a List.mem_cons_self).bind fun b' =>
        ih (fun b'' a' ha' => hf b'' a' (List.mem_cons_of_mem a ha')) b'

theorem settles_forM {f : Nat → α → Prog ε σ PUnit} {l : List α}
    (hf : ∀ a ∈ l, Settles out I fun fuel => f fuel a) :
    Settles out I fun fuel => forM l (f fuel) := by
  simp only [forM_eq_foldlM]
  exact settles_foldlM (fun _ => hf) ⟨⟩

/-- Each level of the recursion uses up one unit. -/
theorem SettlesFrom.of_succ {p : Nat → Prog ε σ α} {s : σ}
    (h : SettlesFrom out I (fun fuel => p (fuel + 1)) s) : SettlesFrom out I p s := by
  obtain ⟨r, s', hr, hs', hrun⟩ := h
  refine ⟨r, s', hr, hs', ?_⟩
  rw [← map_add_atTop_eq_nat 1, eventually_map]
  exact hrun

end Settles

end Prog
