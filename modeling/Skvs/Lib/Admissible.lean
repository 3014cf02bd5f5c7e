/-!
# Tables whose rows are fit and pairwise apart

A table is a partial map from keys to rows. The rules on it are of two kinds: every row by itself is
fit, and any two rows are apart. Such rules survive the removal of rows, and the setting of a row
that is fit and apart from the other ones.
-/

universe u v

variable {κ : Type u} {ρ : Type v}

structure Admissible (fit : ρ → Prop) (apart : ρ → ρ → Prop) (t : κ → Option ρ) : Prop where
  fit : ∀ k r, t k = some r → fit r
  apart : ∀ k k' r r', k ≠ k' → t k = some r → t k' = some r' → apart r r'

namespace Admissible

variable {fit : ρ → Prop} {apart : ρ → ρ → Prop} {t t' : κ → Option ρ}

theorem of_empty (h : ∀ k, t k = none) : Admissible fit apart t where
  fit k r hr := by
    rw [h k] at hr
    exact nomatch hr
  apart k _ r _ _ hr _ := by
    rw [h k] at hr
    exact nomatch hr

/-- Taking rows out leaves a table admissible. -/
theorem sub (h : Admissible fit apart t) (hsub : ∀ k, t' k = none ∨ t' k = t k) :
    Admissible fit apart t' := by
  have hsome : ∀ k r, t' k = some r → t k = some r := by
    intro k r hr
    rcases hsub k with hnone | hsame
    · rw [hnone] at hr
      exact nomatch hr
    · exact hsame ▸ hr
  exact ⟨fun k r hr => h.fit k r (hsome k r hr),
    fun k k' r r' hne hr hr' => h.apart k k' r r' hne (hsome k r hr) (hsome k' r' hr')⟩

theorem set [DecidableEq κ] (h : Admissible fit apart t) (hsymm : ∀ r r', apart r r' → apart r' r)
    {k : κ} {n : Option ρ} (hset : ∀ k', t' k' = if k' = k then n else t k')
    (hfit : ∀ r, n = some r → fit r)
    (hnew : ∀ r, n = some r → ∀ k' r', k' ≠ k → t k' = some r' → apart r r') :
    Admissible fit apart t' where
  fit k' r hr := by
    rw [hset] at hr
    split at hr
    · exact hfit r hr
    · exact h.fit k' r hr
  apart k₁ k₂ r₁ r₂ hne hr₁ hr₂ := by
    rw [hset] at hr₁ hr₂
    split at hr₁
    next heq₁ =>
      rw [if_neg fun heq₂ => hne (heq₁.trans heq₂.symm)] at hr₂
      exact hnew r₁ hr₁ k₂ r₂ (fun heq₂ => hne (heq₁.trans heq₂.symm)) hr₂
    next hne₁ =>
      split at hr₂
      · exact hsymm r₂ r₁ (hnew r₂ hr₂ k₁ r₁ hne₁ hr₁)
      · exact h.apart k₁ k₂ r₁ r₂ hne hr₁ hr₂

end Admissible
