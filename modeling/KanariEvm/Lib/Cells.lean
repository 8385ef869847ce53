import Mathlib.Logic.Function.Basic

namespace Cells

/-! Every actor works on one cell, which others may work on too: an event is one turn of an actor,
and it reads and writes the actor and its cell. -/

/-- What the cells hold, and the state of each actor. -/
structure State (κ ι S A : Type) where
  cell : κ → S
  actor : ι → A

variable {κ ι S A E : Type}

/-- The two states show the same at a cell: what it holds, and every actor on it. -/
structure SameAt (place : ι → κ) (k : κ) (s t : State κ ι S A) : Prop where
  cell : s.cell k = t.cell k
  actor : ∀ i, place i = k → s.actor i = t.actor i

section SameAt

variable {place : ι → κ} {k : κ} {s t u : State κ ι S A}

theorem SameAt.trans (h : SameAt place k s t) (h' : SameAt place k t u) : SameAt place k s u :=
  ⟨h.cell.trans h'.cell, fun i hi => (h.actor i hi).trans (h'.actor i hi)⟩

theorem SameAt.symm (h : SameAt place k s t) : SameAt place k t s :=
  ⟨h.cell.symm, fun i hi => (h.actor i hi).symm⟩

end SameAt

variable [DecidableEq κ] [DecidableEq ι]

section Runs

variable (place : ι → κ) (who : E → ι) (act : E → S × A → S × A)

def step (s : State κ ι S A) (e : E) : State κ ι S A :=
  let out := act e (s.cell (place (who e)), s.actor (who e))
  ⟨Function.update s.cell (place (who e)) out.1, Function.update s.actor (who e) out.2⟩

def run (s : State κ ι S A) (events : List E) : State κ ι S A := events.foldl (step place who act) s

end Runs

variable {place : ι → κ} {who : E → ι} {act : E → S × A → S × A} {k : κ} {s t : State κ ι S A}

theorem step_elsewhere {e : E} (h : place (who e) ≠ k) :
    SameAt place k (step place who act s e) s := by
  refine ⟨Function.update_of_ne h.symm _ _, fun i hi => Function.update_of_ne ?_ _ _⟩
  rintro rfl
  exact h hi

theorem step_sameAt {e : E} (h : SameAt place k s t) :
    SameAt place k (step place who act s e) (step place who act t e) := by
  by_cases hplace : place (who e) = k
  · subst hplace
    have hout : act e (s.cell (place (who e)), s.actor (who e)) =
        act e (t.cell (place (who e)), t.actor (who e)) := by
      rw [h.cell, h.actor (who e) rfl]
    refine ⟨?_, fun i hi => ?_⟩
    · simp only [step, hout, Function.update_self]
    · simp only [step, hout]
      by_cases hwho : i = who e
      · rw [hwho, Function.update_self, Function.update_self]
      · rw [Function.update_of_ne hwho, Function.update_of_ne hwho, h.actor i hi]
  · exact (step_elsewhere hplace).trans (h.trans (step_elsewhere hplace).symm)

/-- Whatever is done on other cells can be left out of a run. -/
theorem run_filter (keep : E → Bool) (h : SameAt place k s t) {events : List E}
    (hdrop : ∀ e ∈ events, keep e = false → place (who e) ≠ k) :
    SameAt place k (run place who act s events) (run place who act t (events.filter keep)) := by
  induction events generalizing s t with
  | nil => exact h
  | cons e rest ih =>
    have hrest := fun e' he' => hdrop e' (List.mem_cons_of_mem e he')
    cases hkeep : keep e with
    | false =>
      rw [List.filter_cons, hkeep, if_neg Bool.false_ne_true]
      exact ih ((step_elsewhere (hdrop e List.mem_cons_self hkeep)).trans h) hrest
    | true =>
      rw [List.filter_cons, hkeep, if_pos rfl]
      exact ih (step_sameAt h) hrest

theorem run_alone {i : ι} {events : List E} (h : ∀ e ∈ events, who e = i) :
    ((run place who act s events).cell (place i), (run place who act s events).actor i) =
      events.foldl (fun v e => act e v) (s.cell (place i), s.actor i) := by
  induction events generalizing s with
  | nil => rfl
  | cons e rest ih =>
    obtain rfl := h e List.mem_cons_self
    rw [List.foldl_cons]
    have hrest := ih (s := step place who act s e) fun e' he' => h e' (List.mem_cons_of_mem e he')
    simp only [step, Function.update_self] at hrest
    exact hrest

end Cells
