import Mathlib.Data.List.Basic

/-!
# A store in memory and its copy on disk

Changes are made in memory, a save makes durable what has been done so far, and a crash takes back
what is not. Of some saves it is not known whether they come to their end. What was durable once is
never taken back.
-/

namespace Durable

variable {α : Type}

/-- The changes that are durable, and those that have been made since. -/
structure History (α : Type) where
  saved : List α
  pending : List α

namespace History

def empty : History α := ⟨[], []⟩

def all (h : History α) : List α := h.saved ++ h.pending

@[simp]
theorem all_saved (l : List α) : all ⟨l, []⟩ = l := List.append_nil l

end History

inductive Event (α : Type) where
  | change (a : α)
  | save
  /-- A save that is begun, and done or not. -/
  | maySave
  | crash

inductive Step : Event α → History α → History α → Prop where
  | change (a : α) (h : History α) : Step (.change a) h ⟨h.saved, h.pending ++ [a]⟩
  | save (h : History α) : Step .save h ⟨h.all, []⟩
  | saved (h : History α) : Step .maySave h ⟨h.all, []⟩
  | unsaved (h : History α) : Step .maySave h h
  | crash (h : History α) : Step .crash h ⟨h.saved, []⟩

inductive Run : List (Event α) → History α → History α → Prop where
  | nil (h : History α) : Run [] h h
  | cons {e : Event α} {events : List (Event α)} {h h₁ h₂ : History α} (step : Step e h h₁)
      (rest : Run events h₁ h₂) : Run (e :: events) h h₂

def Event.changed : Event α → Option α
  | .change a => some a
  | _ => none

/-- The changes of a run, those that are taken back included. -/
def changesIn (events : List (Event α)) : List α := events.filterMap Event.changed

section

variable {e : Event α} {events events' : List (Event α)} {h h₁ h₂ : History α}

theorem Run.single (step : Step e h h₁) : Run [e] h h₁ := .cons step (.nil h₁)

theorem Run.append (run : Run events h h₁) (run' : Run events' h₁ h₂) :
    Run (events ++ events') h h₂ := by
  induction run with
  | nil => exact run'
  | cons step _ ih => exact .cons step (ih run')

/-- What is durable stays, and the rest is of the changes made since. -/
theorem Step.kept (step : Step e h h₁) : ∃ more, h₁.saved = h.saved ++ more ∧
    (more ++ h₁.pending).Sublist (h.pending ++ e.changed.toList) := by
  cases step with
  | change a => exact ⟨[], (List.append_nil _).symm, .refl _⟩
  | save => exact ⟨h.pending, rfl, .refl _⟩
  | saved => exact ⟨h.pending, rfl, .refl _⟩
  | unsaved => exact ⟨[], (List.append_nil _).symm, List.sublist_append_left _ _⟩
  | crash => exact ⟨[], (List.append_nil _).symm, List.nil_sublist _⟩

theorem Run.kept (run : Run events h h₁) : ∃ kept, h₁.all = h.saved ++ kept ∧
    kept.Sublist (h.pending ++ changesIn events) := by
  induction run with
  | nil h => exact ⟨h.pending, rfl, List.sublist_append_left _ _⟩
  | @cons e events h h₁ h₂ step _ ih =>
      obtain ⟨more, hsaved, hmore⟩ := step.kept
      obtain ⟨kept, hall, hkept⟩ := ih
      refine ⟨more ++ kept, by rw [hall, hsaved, List.append_assoc], ?_⟩
      have hchanges : changesIn (e :: events) = e.changed.toList ++ changesIn events := by
        unfold changesIn
        rw [List.filterMap_cons]
        cases e.changed <;> rfl
      rw [hchanges, ← List.append_assoc]
      refine (hkept.append_left more).trans ?_
      rw [← List.append_assoc]
      exact hmore.append_right _

end

/-! ### Systems that keep such a store -/

section

variable {ε σ : Type} (step : ε → σ → σ) (shown : σ → ε → List (Event α))

/-- What a run shows, each event in the state that it comes in. -/
def shownIn : List ε → σ → List (Event α)
  | [], _ => []
  | e :: events, s => shown s e ++ shownIn events (step e s)

theorem exists_of_mem_shownIn {events : List ε} {s : σ} {x : Event α}
    (h : x ∈ shownIn step shown events s) : ∃ e ∈ events, ∃ s, x ∈ shown s e := by
  induction events generalizing s with
  | nil => cases h
  | cons e events ih =>
      rcases List.mem_append.mp h with hfirst | hrest
      · exact ⟨e, List.mem_cons_self, s, hfirst⟩
      · obtain ⟨e', he', hx⟩ := ih hrest
        exact ⟨e', List.mem_cons_of_mem e he', hx⟩

/-- If every step of a system does to what it keeps what some history allows, so does every run. -/
theorem refines (Holds : History α → σ → Prop)
    (hstep : ∀ e h s, Holds h s → ∃ h', Run (shown s e) h h' ∧ Holds h' (step e s))
    (events : List ε) {h : History α} {s : σ} (hholds : Holds h s) :
    ∃ h', Run (shownIn step shown events s) h h' ∧
      Holds h' (events.foldl (fun s e => step e s) s) := by
  induction events generalizing h s with
  | nil => exact ⟨h, .nil h, hholds⟩
  | cons e events ih =>
      obtain ⟨h₁, hrun, hholds₁⟩ := hstep e h s hholds
      obtain ⟨h₂, hrest, hholds₂⟩ := ih hholds₁
      exact ⟨h₂, hrun.append hrest, hholds₂⟩

end

end Durable
