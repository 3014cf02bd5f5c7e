import Mathlib.Data.List.Perm.Basic

/-!
# Outer joins of lists

A join of two lists under a relation: the pairs that meet it, and the elements on either side that
meet it with none of the other. The loops that build an outer join from one of the two sides produce
just these, up to order.
-/

universe u v w

namespace OuterJoin

variable {α : Type u} {β : Type v} {γ : Type w} (p : α → β → Bool) (l : List α) (r : List β)

/-- The pairs that meet the relation. -/
def pairs : List (α × β) := l.flatMap fun a => (r.filter (p a)).map fun b => (a, b)

/-- The left elements without a partner. -/
def leftOnly : List α := l.filter fun a => (r.filter (p a)).isEmpty

/-- The right elements without a partner. -/
def rightOnly : List β := r.filter fun b => (l.filter fun a => p a b).isEmpty

variable {p l r}

theorem mem_pairs {x : α × β} : x ∈ pairs p l r ↔ x.1 ∈ l ∧ x.2 ∈ r ∧ p x.1 x.2 = true := by
  obtain ⟨a, b⟩ := x
  simp only [pairs, List.mem_flatMap, List.mem_map, List.mem_filter, Prod.mk.injEq]
  constructor
  · rintro ⟨a', ha, b', ⟨hb, hp⟩, rfl, rfl⟩
    exact ⟨ha, hb, hp⟩
  · rintro ⟨ha, hb, hp⟩
    exact ⟨a, ha, b, ⟨hb, hp⟩, rfl, rfl⟩

variable (p l r)

theorem map_filter_eq_flatMap (q : β → Bool) (f : β → γ) :
    (r.filter q).map f = r.flatMap fun b => if q b then [f b] else [] := by
  induction r with
  | nil => rfl
  | cons b r ih => by_cases hq : q b <;> simp [hq, ih]

/-- The pairs, found from the right side. -/
theorem pairs_perm_swap :
    (pairs p l r).Perm (r.flatMap fun b => (l.filter fun a => p a b).map fun a => (a, b)) := by
  induction l with
  | nil => exact List.Perm.of_eq (List.flatMap_eq_nil_iff.mpr fun _ _ => rfl).symm
  | cons a l ih =>
      have hsingle : (r.filter (p a)).map (fun b => (a, b)) =
          r.flatMap fun b => if p a b then [(a, b)] else [] := map_filter_eq_flatMap ..
      have hsplit : (r.flatMap fun b => ((a :: l).filter fun a => p a b).map fun a => (a, b)) =
          r.flatMap fun b => (if p a b then [(a, b)] else []) ++
            (l.filter fun a => p a b).map fun a => (a, b) := by
        refine List.flatMap_congr fun b _ => ?_
        by_cases hp : p a b <;> simp [hp]
      rw [pairs, List.flatMap_cons, hsingle, hsplit]
      exact (ih.append_left _).trans (List.flatMap_append_perm ..)

/-- A loop over one side: an element puts out its own row where it has no partner. -/
theorem loop_perm (partners : α → List γ) (alone : α → γ) :
    (l.flatMap fun a => if (partners a).isEmpty then [alone a] else partners a).Perm
      (l.flatMap partners ++ (l.filter fun a => (partners a).isEmpty).map alone) := by
  induction l with
  | nil => exact .refl _
  | cons a l ih =>
      rw [List.flatMap_cons, List.flatMap_cons, List.filter_cons]
      cases hp : (partners a).isEmpty with
      | true =>
          rw [if_pos rfl, if_pos rfl, List.isEmpty_iff.mp hp, List.nil_append, List.map_cons]
          exact (List.Perm.cons _ ih).trans List.perm_middle.symm
      | false =>
          rw [if_neg Bool.false_ne_true, if_neg Bool.false_ne_true, List.append_assoc]
          exact ih.append_left _

section Rows

variable (f : α → β → γ) (g : α → γ) (h : β → γ)

/-- The rows of an outer join: one for each pair, and one for each element without a partner on the
sides that are kept. -/
def rows (keepLeft keepRight : Bool) : List γ :=
  (pairs p l r).map (fun x => f x.1 x.2) ++
    ((if keepLeft then (leftOnly p l r).map g else []) ++
      if keepRight then (rightOnly p l r).map h else [])

theorem flatMap_partners :
    (l.flatMap fun a => (r.filter (p a)).map (f a)) = (pairs p l r).map fun x => f x.1 x.2 := by
  simp only [pairs, List.map_flatMap, List.map_map, Function.comp_def]

/-- The loop over the left side with the unmatched right elements at its end. -/
theorem left_loop_perm (keepRight : Bool) :
    ((l.flatMap fun a => if ((r.filter (p a)).map (f a)).isEmpty then [g a]
        else (r.filter (p a)).map (f a)) ++
      if keepRight then (rightOnly p l r).map h else []).Perm (rows p l r f g h true keepRight) := by
  have hloop := loop_perm l (fun a => (r.filter (p a)).map (f a)) g
  rw [flatMap_partners] at hloop
  have honly : (l.filter fun a => ((r.filter (p a)).map (f a)).isEmpty) = leftOnly p l r :=
    List.filter_congr fun a _ => List.isEmpty_map
  rw [honly] at hloop
  rw [rows, ← List.append_assoc]
  exact hloop.append_right _

theorem right_loop_perm :
    (r.flatMap fun b => if ((l.filter fun a => p a b).map fun a => f a b).isEmpty then [h b]
        else (l.filter fun a => p a b).map fun a => f a b).Perm (rows p l r f g h false true) := by
  have hloop := loop_perm r (fun b => (l.filter fun a => p a b).map fun a => f a b) h
  have honly : (r.filter fun b => ((l.filter fun a => p a b).map fun a => f a b).isEmpty) =
      rightOnly p l r := List.filter_congr fun b _ => List.isEmpty_map
  have hpairs : (r.flatMap fun b => (l.filter fun a => p a b).map fun a => f a b).Perm
      ((pairs p l r).map fun x => f x.1 x.2) := by
    refine .trans (.of_eq ?_) ((pairs_perm_swap p l r).map fun x => f x.1 x.2).symm
    simp only [List.map_flatMap, List.map_map, Function.comp_def]
  rw [honly] at hloop
  exact hloop.trans (hpairs.append_right _)

theorem rows_congr {q : α → β → Bool} (hpq : ∀ a ∈ l, ∀ b ∈ r, p a b = q a b)
    (keepLeft keepRight : Bool) :
    rows p l r f g h keepLeft keepRight = rows q l r f g h keepLeft keepRight := by
  have hpairs : pairs p l r = pairs q l r := List.flatMap_congr fun a ha => by
    rw [List.filter_congr (hpq a ha)]
  have hleft : leftOnly p l r = leftOnly q l r := List.filter_congr fun a ha => by
    rw [List.filter_congr (hpq a ha)]
  have hright : rightOnly p l r = rightOnly q l r := List.filter_congr fun b hb => by
    rw [List.filter_congr fun a ha => hpq a ha b hb]
  rw [rows, rows, hpairs, hleft, hright]

theorem mem_left_rows {x : γ} (hx : x ∈ rows p l r f g h true false) :
    (∃ a ∈ l, ∃ b ∈ r, p a b = true ∧ x = f a b) ∨ ∃ a ∈ l, x = g a := by
  rw [rows, if_pos rfl, if_neg Bool.false_ne_true, List.append_nil] at hx
  rcases List.mem_append.mp hx with hpair | honly
  · obtain ⟨⟨a, b⟩, hab, rfl⟩ := List.mem_map.mp hpair
    obtain ⟨ha, hb, hp⟩ := mem_pairs.mp hab
    exact Or.inl ⟨a, ha, b, hb, hp, rfl⟩
  · obtain ⟨a, ha, rfl⟩ := List.mem_map.mp honly
    exact Or.inr ⟨a, (List.mem_filter.mp ha).1, rfl⟩

variable {p l r f g h}

/-- The rows of a left join tell its pairs, if a pair of either relation is told by its row. -/
theorem holds_of_left_rows {q : α → β → Bool}
    (hsub : ∀ x ∈ rows p l r f g h true false, x ∈ rows q l r f g h true false)
    (hf : ∀ a ∈ l, ∀ b ∈ r, ∀ a' ∈ l, ∀ b' ∈ r, f a b = f a' b' → q a b = q a' b')
    (hg : ∀ a ∈ l, ∀ b ∈ r, ∀ a' ∈ l, f a b = g a' → p a b = q a b) {a : α} (ha : a ∈ l) {b : β}
    (hb : b ∈ r) (hp : p a b = true) : q a b = true := by
  have hin : f a b ∈ rows p l r f g h true false :=
    List.mem_append_left _ (List.mem_map.mpr ⟨(a, b), mem_pairs.mpr ⟨ha, hb, hp⟩, rfl⟩)
  rcases mem_left_rows q l r f g h (hsub _ hin) with ⟨a', ha', b', hb', hq, heq⟩ | ⟨a', ha', heq⟩
  · rw [hf a ha b hb a' ha' b' hb' heq, hq]
  · rw [← hg a ha b hb a' ha' heq, hp]

theorem left_rows_perm_iff {q : α → β → Bool}
    (hfp : ∀ a ∈ l, ∀ b ∈ r, ∀ a' ∈ l, ∀ b' ∈ r, f a b = f a' b' → p a b = p a' b')
    (hfq : ∀ a ∈ l, ∀ b ∈ r, ∀ a' ∈ l, ∀ b' ∈ r, f a b = f a' b' → q a b = q a' b')
    (hg : ∀ a ∈ l, ∀ b ∈ r, ∀ a' ∈ l, f a b = g a' → p a b = q a b) :
    (rows p l r f g h true false).Perm (rows q l r f g h true false) ↔
      ∀ a ∈ l, ∀ b ∈ r, p a b = q a b := by
  constructor
  · intro hperm a ha b hb
    have hg' : ∀ a ∈ l, ∀ b ∈ r, ∀ a' ∈ l, f a b = g a' → q a b = p a b :=
      fun a ha b hb a' ha' heq => (hg a ha b hb a' ha' heq).symm
    exact Bool.eq_iff_iff.mpr
      ⟨holds_of_left_rows (fun x => hperm.mem_iff.mp) hfq hg ha hb,
        holds_of_left_rows (fun x => hperm.mem_iff.mpr) hfp hg' ha hb⟩
  · exact fun hpq => .of_eq (rows_congr p l r f g h hpq true false)

variable {h' : β → γ}

/-- Where the left side has an element, the right loop puts out the rows of the outer join. -/
theorem rows_congr_right (keepLeft : Bool) (hsame : ∀ b ∈ r, h' b = h b) :
    rows p l r f g h' keepLeft true = rows p l r f g h keepLeft true := by
  rw [rows, rows]
  refine congrArg _ (congrArg _ ?_)
  rw [if_pos rfl, if_pos rfl]
  exact List.map_congr_left fun b hb => hsame b (List.mem_filter.mp hb).1

/-- Where the left side is empty, every right element stands alone. -/
theorem rows_nil (keepLeft : Bool) : rows p [] r f g h keepLeft true = r.map h := by
  have hnone : rightOnly p [] r = r := List.filter_eq_self.mpr fun _ _ => rfl
  rw [rows, hnone]
  cases keepLeft <;> rfl

end Rows

end OuterJoin
