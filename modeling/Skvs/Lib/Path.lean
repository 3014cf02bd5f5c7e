import Mathlib.Data.List.Basic

/-!
# Paths

A path is a text whose components stand between slashes. Resolving it walks the components from the
root, or from the working directory for a relative path: `.` stays, `..` goes up, and up from the
root stays at the root.
-/

namespace Path

/-- A directory or a file, by the names that lead there from the root. -/
abbrev Resolved := List (List Char)

def isAbsolute (p : List Char) : Bool := p.head? == some '/'

/-- An absolute path replaces the one it is joined to. -/
def join (base p : List Char) : List Char :=
  if isAbsolute p then p
  else if base.isEmpty || base.getLast? == some '/' then base ++ p
  else base ++ '/' :: p

def components (p : List Char) : List (List Char) :=
  (p.splitOnP fun c => c == '/').filter fun c => !c.isEmpty

def walk (dir : Resolved) (component : List Char) : Resolved :=
  if component = ['.'] then dir
  else if component = ['.', '.'] then dir.dropLast
  else dir ++ [component]

def resolve (cwd : Resolved) (p : List Char) : Resolved :=
  (components p).foldl walk (if isAbsolute p then [] else cwd)

/-! ### Resolving a joined path -/

theorem components_append_sep (p q : List Char) :
    components (p ++ '/' :: q) = components p ++ components q := by
  unfold components
  rw [List.splitOnP_append_cons p q (by decide), List.filter_append]

theorem components_nil : components [] = [] := rfl

theorem components_join {base p : List Char} (h : isAbsolute p = false) :
    components (join base p) = components base ++ components p := by
  unfold join
  rw [if_neg (by simp [h])]
  split_ifs with hend
  · rw [Bool.or_eq_true, List.isEmpty_iff, beq_iff_eq] at hend
    rcases hend with rfl | hlast
    · rfl
    · obtain ⟨base', rfl⟩ : ∃ base', base = base' ++ ['/'] :=
        ⟨base.dropLast, (List.dropLast_append_getLast? _ hlast).symm⟩
      have hslash := components_append_sep base' []
      rw [components_nil, List.append_nil] at hslash
      rw [hslash, List.append_assoc, List.singleton_append, components_append_sep]
  · exact components_append_sep base p

theorem isAbsolute_join {base p : List Char} (h : isAbsolute p = false) :
    isAbsolute (join base p) = isAbsolute base := by
  unfold join
  rw [if_neg (by simp [h])]
  cases base with
  | nil => exact h
  | cons c base => split_ifs <;> rfl

/-- A relative path is walked from where the base leads. -/
theorem resolve_join {cwd : Resolved} {base p : List Char} (h : isAbsolute p = false) :
    resolve cwd (join base p) = (components p).foldl walk (resolve cwd base) := by
  unfold resolve
  rw [components_join h, isAbsolute_join h, List.foldl_append]

/-- A name that is one plain component. -/
structure IsName (p : List Char) : Prop where
  nonempty : p ≠ []
  no_slash : '/' ∉ p
  not_dot : p ≠ ['.']
  not_dots : p ≠ ['.', '.']

theorem IsName.not_absolute {p : List Char} (h : IsName p) : isAbsolute p = false := by
  cases p with
  | nil => exact absurd rfl h.nonempty
  | cons c p =>
      have hc : c ≠ '/' := fun hc => h.no_slash (hc ▸ List.mem_cons_self)
      simpa [isAbsolute] using hc

theorem IsName.components_eq {p : List Char} (h : IsName p) : components p = [p] := by
  unfold components
  rw [List.splitOnP_eq_singleton fun c hc => ?_]
  · cases p with
    | nil => exact absurd rfl h.nonempty
    | cons c p => rfl
  · rw [beq_eq_false_iff_ne]
    intro heq
    exact h.no_slash (heq ▸ hc)

/-- A plain name leads one directory down. -/
theorem IsName.resolve_join {cwd : Resolved} {base p : List Char} (h : IsName p) :
    resolve cwd (join base p) = resolve cwd base ++ [p] := by
  rw [Path.resolve_join h.not_absolute, h.components_eq, List.foldl_cons, List.foldl_nil, walk,
    if_neg h.not_dot, if_neg h.not_dots]

theorem resolve_join_nil {cwd : Resolved} {base : List Char} :
    resolve cwd (join base []) = resolve cwd base := by
  rw [Path.resolve_join rfl, components_nil, List.foldl_nil]

end Path
