import KanariEvm.Lib.SweepLog

namespace Deferred

variable {σ α : Type*} {attempt : Attempt σ α}

def Done (attempt : Attempt σ α) (s : σ) (queue : List α) : Prop :=
  (pass attempt s queue).2.1 = false ∨ (pass attempt s queue).2.2 = []

/-- The loop without a counter: `passes` passes lead from a state and a queue to where it breaks. -/
inductive Loops (attempt : Attempt σ α) : ℕ → σ → List α → σ → List α → Prop
  | stop {s : σ} {queue : List α} (h : Done attempt s queue) :
      Loops attempt 1 s queue (pass attempt s queue).1 (pass attempt s queue).2.2
  | again {passes : ℕ} {s s' : σ} {queue rest : List α} (h : ¬Done attempt s queue)
      (hnext : Loops attempt passes (pass attempt s queue).1 (pass attempt s queue).2.2 s' rest) :
      Loops attempt (passes + 1) s queue s' rest

theorem pass_length_lt_of_not_done {s : σ} {queue : List α} (h : ¬Done attempt s queue) :
    (pass attempt s queue).2.2.length < queue.length := by
  rw [Done, not_or, Bool.not_eq_false] at h
  exact pass_length_lt attempt h.1

theorem loops_sweep (attempt : Attempt σ α) (s : σ) (queue : List α) :
    ∃ passes ≤ queue.length + 1,
      Loops attempt passes s queue (sweep attempt s queue).1 (sweep attempt s queue).2 := by
  induction hn : queue.length using Nat.strongRecOn generalizing s queue with
  | _ n ih =>
    by_cases hdone : Done attempt s queue
    · have hsweep : sweep attempt s queue =
          ((pass attempt s queue).1, (pass attempt s queue).2.2) := by
        rw [sweep_eq]
        exact if_pos hdone
      rw [hsweep]
      exact ⟨1, Nat.le_add_left 1 n, .stop hdone⟩
    · have hlt := pass_length_lt_of_not_done hdone
      obtain ⟨passes, hpasses, hloops⟩ := ih _ (hn ▸ hlt) (pass attempt s queue).1 _ rfl
      have hsweep : sweep attempt s queue =
          sweep attempt (pass attempt s queue).1 (pass attempt s queue).2.2 := by
        rw [sweep_eq attempt s]
        exact if_neg hdone
      rw [hsweep]
      exact ⟨passes + 1, by omega, .again hdone hloops⟩

theorem Loops.eq_sweep {passes : ℕ} {s s' : σ} {queue rest : List α}
    (h : Loops attempt passes s queue s' rest) : (s', rest) = sweep attempt s queue := by
  induction h with
  | @stop s queue h =>
    rw [sweep_eq]
    exact (if_pos h).symm
  | @again passes s s' queue rest h hnext ih =>
    rw [ih, sweep_eq attempt s]
    exact (if_neg h).symm

/-- Related states give the same answers, and a refusal leaves a related state. -/
structure Quiet (attempt : Attempt σ α) (r : σ → σ → Prop) : Prop where
  equiv : Equivalence r
  answer : ∀ s t a, r s t → (attempt s a).2 = (attempt t a).2
  still : ∀ s a, (attempt s a).2 = false → r (attempt s a).1 s

namespace Quiet

variable {r : σ → σ → Prop} (h : Quiet attempt r)

include h

theorem pass_of_refused {s t : σ} (hst : r s t) {queue : List α}
    (hrefused : ∀ a ∈ queue, (attempt t a).2 = false) :
    r (pass attempt s queue).1 t ∧ (pass attempt s queue).2.1 = false ∧
      (pass attempt s queue).2.2 = queue := by
  induction queue generalizing s with
  | nil => exact ⟨hst, rfl, rfl⟩
  | cons a as ih =>
    have hans : (attempt s a).2 = false :=
      (h.answer s t a hst).trans (hrefused a List.mem_cons_self)
    have hnext : r (attempt s a).1 t := h.equiv.trans (h.still s a hans) hst
    obtain ⟨hlast, hprogress, hrest⟩ :=
      ih hnext fun b hb => hrefused b (List.mem_cons_of_mem a hb)
    simp only [pass, hans, Bool.false_eq_true, if_false]
    exact ⟨hlast, hprogress, by rw [hrest]⟩

theorem refused_of_done {s : σ} {queue : List α} (hdone : Done attempt s queue) :
    ∀ a ∈ (pass attempt s queue).2.2, (attempt (pass attempt s queue).1 a).2 = false := by
  rcases hdone with hnone | hempty
  · have hrefused : ∀ a ∈ queue, (attempt s a).2 = false :=
      refused_of_no_progress h.answer
        (fun s t a hst hans => h.equiv.trans (h.still s a hans) hst) (h.equiv.refl s) hnone
    obtain ⟨hlast, -, hrest⟩ := h.pass_of_refused (h.equiv.refl s) hrefused
    intro a ha
    rw [hrest] at ha
    exact (h.answer _ s a hlast).trans (hrefused a ha)
  · rw [hempty]
    exact fun a ha => absurd ha List.not_mem_nil

/-- Where the loop breaks, everything left over is refused. -/
theorem refused_of_loops {passes : ℕ} {s s' : σ} {queue rest : List α}
    (hloops : Loops attempt passes s queue s' rest) : ∀ a ∈ rest, (attempt s' a).2 = false := by
  induction hloops with
  | stop hdone => exact h.refused_of_done hdone
  | again _ _ ih => exact ih

theorem sweep_again {passes : ℕ} {s s' : σ} {queue rest : List α}
    (hloops : Loops attempt passes s queue s' rest) :
    Loops attempt 1 s' rest (sweep attempt s' rest).1 rest ∧ r (sweep attempt s' rest).1 s' := by
  obtain ⟨hlast, hprogress, hrest⟩ :=
    h.pass_of_refused (h.equiv.refl s') (h.refused_of_loops hloops)
  have hsweep : sweep attempt s' rest = ((pass attempt s' rest).1, rest) := by
    rw [sweep_eq, if_pos (.inl hprogress), hrest]
  have hstop : Loops attempt 1 s' rest (pass attempt s' rest).1 (pass attempt s' rest).2.2 :=
    .stop (.inl hprogress)
  rw [hrest] at hstop
  rw [hsweep]
  exact ⟨hstop, hlast⟩

end Quiet

end Deferred
