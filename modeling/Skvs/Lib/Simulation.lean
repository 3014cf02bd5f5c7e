import Skvs.Lib.Program
import Mathlib.Data.List.Forall2

/-!
# Two programs side by side

Two programs simulate each other from a pair of states if they both return related results or both
fail in related ways, and end in related states. One rule for each combinator.
-/

namespace Except

variable {ε ε' α α' β β' : Type}

/-- Both succeed with related results, or both fail in related ways. -/
inductive Rel (E : ε → ε' → Prop) (A : α → α' → Prop) : Except ε α → Except ε' α' → Prop
  | ok {a : α} {a' : α'} (h : A a a') : Rel E A (.ok a) (.ok a')
  | error {e : ε} {e' : ε'} (h : E e e') : Rel E A (.error e) (.error e')

variable {E : ε → ε' → Prop} {A : α → α' → Prop} {B : β → β' → Prop}

theorem Rel.isOk_eq {x : Except ε α} {x' : Except ε' α'} (h : Rel E A x x') : x'.isOk = x.isOk := by
  cases h <;> rfl

theorem Rel.refl (x : Except ε α) : Rel Eq Eq x x := by
  cases x with
  | ok a => exact .ok rfl
  | error e => exact .error rfl

theorem rel_eq_iff {x y : Except ε α} : Rel Eq Eq x y ↔ x = y := by
  constructor
  · rintro (rfl | rfl) <;> rfl
  · rintro rfl
    exact .refl x

theorem Rel.bind {x : Except ε α} {x' : Except ε' α'} (hx : Rel E A x x') {f : α → Except ε β}
    {f' : α' → Except ε' β'} (hf : ∀ a a', A a a' → Rel E B (f a) (f' a')) :
    Rel E B (x >>= f) (x' >>= f') := by
  cases hx with
  | ok hA => exact hf _ _ hA
  | error hE => exact .error hE

/-- Two loops over one list. -/
theorem Rel.foldlM {f : α → β → Except ε α} {f' : α' → β → Except ε' α'}
    (hf : ∀ a a' b, A a a' → Rel E A (f a b) (f' a' b)) (l : List β) {a : α} {a' : α'}
    (hA : A a a') : Rel E A (l.foldlM f a) (l.foldlM f' a') := by
  induction l generalizing a a' with
  | nil => exact .ok hA
  | cons b l ih =>
      rw [List.foldlM_cons, List.foldlM_cons]
      exact (hf a a' b hA).bind fun _ _ hA' => ih hA'

end Except

namespace Prog

variable {ε σ α α' β β' : Type} {E : ε → ε → Prop} {R : σ → σ → Prop} {A : α → α' → Prop}
  {B : β → β' → Prop}

/-- From the states `s` and `s'`, the two programs have related outcomes and end in related states. -/
def Simulates (E : ε → ε → Prop) (R : σ → σ → Prop) (A : α → α' → Prop) (p : Prog ε σ α)
    (p' : Prog ε σ α') (s s' : σ) : Prop :=
  Except.Rel E A (exec p s).1 (exec p' s').1 ∧ R (exec p s).2 (exec p' s').2

variable {s s' : σ}

theorem simulates_pure {a : α} {a' : α'} (hA : A a a') (hR : R s s') :
    Simulates E R A (pure a : Prog ε σ α) (pure a') s s' := ⟨.ok hA, hR⟩

theorem simulates_read {f : σ → α} {f' : σ → α'} (hA : A (f s) (f' s')) (hR : R s s') :
    Simulates E R A (read f : Prog ε σ α) (read f') s s' := ⟨.ok hA, hR⟩

theorem simulates_fail {e e' : ε} (hE : E e e') (hR : R s s') :
    Simulates E R A (fail e : Prog ε σ α) (fail e') s s' := ⟨.error hE, hR⟩

theorem simulates_ofExcept {x : Except ε α} {x' : Except ε α'} (h : Except.Rel E A x x')
    (hR : R s s') : Simulates E R A (ofExcept x : Prog ε σ α) (ofExcept x') s s' := ⟨h, hR⟩

/-- The same outcome in both states. -/
theorem simulates_same (x : Except ε α) (hR : R s s') :
    Simulates Eq R Eq (ofExcept x : Prog ε σ α) (ofExcept x) s s' := simulates_ofExcept (.refl x) hR

/-- The second parts start from the states that the first parts end in. -/
theorem simulates_bind_of_exec {p : Prog ε σ α} {p' : Prog ε σ α'} {f : α → Prog ε σ β}
    {f' : α' → Prog ε σ β'} (hp : Simulates E R A p p' s s')
    (hf : ∀ a a' t t', exec p s = (.ok a, t) → A a a' → R t t' → Simulates E R B (f a) (f' a') t t') :
    Simulates E R B (p >>= f) (p' >>= f') s s' := by
  rw [Simulates] at hp
  rw [Simulates, exec_bind, exec_bind]
  generalize hx : exec p s = x at hp ⊢
  generalize exec p' s' = x' at hp ⊢
  obtain ⟨out, t⟩ := x
  obtain ⟨out', t'⟩ := x'
  obtain ⟨hout, hR⟩ := hp
  cases hout with
  | ok hA => exact hf _ _ t t' hx hA hR
  | error hE => exact ⟨.error hE, hR⟩

theorem simulates_bind {p : Prog ε σ α} {p' : Prog ε σ α'} {f : α → Prog ε σ β}
    {f' : α' → Prog ε σ β'} (hp : Simulates E R A p p' s s')
    (hf : ∀ a a' t t', A a a' → R t t' → Simulates E R B (f a) (f' a') t t') :
    Simulates E R B (p >>= f) (p' >>= f') s s' :=
  simulates_bind_of_exec hp fun a a' t t' _ => hf a a' t t'

/-- Two loops run side by side over related lists. -/
theorem simulates_foldlM {P : β → β' → Prop} {f : α → β → Prog ε σ α} {f' : α' → β' → Prog ε σ α'}
    (hf : ∀ a a' b b' t t', A a a' → P b b' → R t t' → Simulates E R A (f a b) (f' a' b') t t')
    {l : List β} {l' : List β'} (hl : List.Forall₂ P l l') {a : α} {a' : α'} (hA : A a a')
    (hR : R s s') : Simulates E R A (l.foldlM f a) (l'.foldlM f' a') s s' := by
  induction hl generalizing a a' s s' with
  | nil => exact simulates_pure hA hR
  | cons hb _ ih =>
      rw [List.foldlM_cons, List.foldlM_cons]
      exact simulates_bind (hf _ _ _ _ _ _ hA hb hR) fun _ _ _ _ hA' hR' => ih hA' hR'

/-- Two loops over one list, as far as the first of them gets. -/
theorem simulates_foldlM_of_along {f f' : β → α → Prog ε σ β} {G : β → α → σ → Prop} {b : β}
    {l : List α} (h : AlongFold f G b l s)
    (hf : ∀ b, ∀ x ∈ l, ∀ t t', G b x t → R t t' → Simulates E R Eq (f b x) (f' b x) t t')
    (hR : R s s') : Simulates E R Eq (l.foldlM f b) (l.foldlM f' b) s s' := by
  induction l generalizing b s s' with
  | nil => exact simulates_pure rfl hR
  | cons x l ih =>
      rw [List.foldlM_cons, List.foldlM_cons]
      refine simulates_bind_of_exec (hf b x List.mem_cons_self s s' h.1 hR) fun b' _ t t' hok hb hR' => ?_
      obtain rfl := hb
      exact ih (h.2 b' t hok) (fun b'' y hy => hf b'' y (List.mem_cons_of_mem x hy)) hR'

theorem simulates_forM_of_along {f f' : α → Prog ε σ PUnit} {G : α → σ → Prop} {l : List α}
    (h : AlongEach f G l s)
    (hf : ∀ x ∈ l, ∀ t t', G x t → R t t' → Simulates E R Eq (f x) (f' x) t t') (hR : R s s') :
    Simulates E R Eq (forM l f) (forM l f') s s' := by
  rw [forM_eq_foldlM, forM_eq_foldlM]
  exact simulates_foldlM_of_along h.fold (fun _ => hf) hR

/-! ### From any related states -/

/-- From related states the two programs have the same outcome and end in related states. -/
def Together (R : σ → σ → Prop) (p p' : Prog ε σ α) : Prop :=
  ∀ s s', R s s' → Simulates Eq R Eq p p' s s'

/-- One program in two states. -/
abbrev Uniform (R : σ → σ → Prop) (p : Prog ε σ α) : Prop := Together R p p

section Together

variable {R : σ → σ → Prop}

theorem together_pure (a : α) : Uniform R (pure a : Prog ε σ α) :=
  fun _ _ hR => simulates_pure rfl hR

theorem together_fail (e : ε) : Uniform R (fail e : Prog ε σ α) :=
  fun _ _ hR => simulates_fail rfl hR

theorem together_ofExcept (x : Except ε α) : Uniform R (ofExcept x : Prog ε σ α) :=
  fun _ _ hR => simulates_same x hR

theorem together_modify {f f' : σ → σ} (h : ∀ s s', R s s' → R (f s) (f' s')) :
    Together R (modify f : Prog ε σ Unit) (modify f') := fun s s' hR => ⟨.ok rfl, h s s' hR⟩

theorem together_ite {c : Prop} [Decidable c] {p p' q q' : Prog ε σ α} (hp : Together R p p')
    (hq : Together R q q') : Together R (if c then p else q) (if c then p' else q') := by
  split_ifs
  · exact hp
  · exact hq

theorem Together.bind {p p' : Prog ε σ α} {f f' : α → Prog ε σ β} (hp : Together R p p')
    (hf : ∀ a, Together R (f a) (f' a)) : Together R (p >>= f) (p' >>= f') := by
  intro s s' hR
  refine simulates_bind (hp s s' hR) fun a a' t t' ha hR' => ?_
  rw [← ha]
  exact hf a t t' hR'

/-- What is read may differ, as long as what follows does not depend on the difference. -/
theorem together_read_bind {g : σ → α} {f f' : α → Prog ε σ β}
    (hg : ∀ s s', R s s' → f' (g s') = f' (g s)) (hf : ∀ a, Together R (f a) (f' a)) :
    Together R (read g >>= f) (read g >>= f') := by
  intro s s' hR
  have hbind : Simulates Eq R Eq (f (g s)) (f' (g s')) s s' := by
    rw [hg s s' hR]
    exact hf (g s) s s' hR
  rw [Simulates] at hbind ⊢
  rw [exec_bind_ok (exec_read g s), exec_bind_ok (exec_read g s')]
  exact hbind

theorem together_read {g : σ → α} (hg : ∀ s s', R s s' → g s' = g s) :
    Uniform R (read g : Prog ε σ α) :=
  fun s s' hR => simulates_read (hg s s' hR).symm hR

theorem together_foldlM {f f' : β → α → Prog ε σ β} (hf : ∀ b a, Together R (f b a) (f' b a))
    (l : List α) (b : β) : Together R (l.foldlM f b) (l.foldlM f' b) := by
  induction l generalizing b with
  | nil => exact together_pure b
  | cons a l ih =>
      rw [List.foldlM_cons, List.foldlM_cons]
      exact (hf b a).bind ih

theorem together_forM {f f' : α → Prog ε σ PUnit} (hf : ∀ a, Together R (f a) (f' a))
    (l : List α) : Together R (forM l f) (forM l f') := by
  rw [forM_eq_foldlM, forM_eq_foldlM]
  exact together_foldlM (fun _ => hf) l ⟨⟩

end Together

end Prog
