import KanariEvm.Lib.SweepLog

namespace Deferred

/-! A sweep may meet conditions that cannot be read off its input, since they are about the states
in between. A watched sweep notes whether they held each time. -/

variable {σ τ α : Type*} {attempt : Attempt σ α} {attempt' : Attempt τ α} {ok : σ → α → Bool}

/-- Attempts with a flag that stays up as long as `ok` holds where they are made. -/
def watched (ok : σ → α → Bool) (attempt : Attempt σ α) : Attempt (σ × Bool) α := fun s a =>
  (((attempt s.1 a).1, s.2 && ok s.1 a), (attempt s.1 a).2)

theorem watched_projects (ok : σ → α → Bool) (attempt : Attempt σ α) :
    Projects (watched ok attempt) attempt Prod.fst id := fun _ _ => rfl

theorem pass_watched (ok : σ → α → Bool) (attempt : Attempt σ α) (s : σ × Bool) (queue : List α) :
    (pass (watched ok attempt) s queue).1.1 = (pass attempt s.1 queue).1 ∧
      (pass (watched ok attempt) s queue).2 = (pass attempt s.1 queue).2 := by
  have h := (watched_projects ok attempt).pass s queue
  rw [List.map_id] at h
  rw [h, List.map_id]
  exact ⟨rfl, rfl⟩

theorem flag_of_pass {s : σ × Bool} {queue : List α}
    (h : (pass (watched ok attempt) s queue).1.2 = true) : s.2 = true := by
  by_contra hs
  have hdown : (pass (watched ok attempt) s queue).1.2 = false :=
    pass_induction (p := fun t : σ × Bool => t.2 = false)
      (fun t a ht => by simp only [watched, ht, Bool.false_and]) (Bool.eq_false_iff.mpr hs) queue
  rw [h] at hdown
  cases hdown

theorem flag_of_sweep {s : σ × Bool} {queue : List α}
    (h : (sweep (watched ok attempt) s queue).1.2 = true) : s.2 = true := by
  by_contra hs
  have hdown : (sweep (watched ok attempt) s queue).1.2 = false :=
    sweep_induction (p := fun t : σ × Bool => t.2 = false)
      (fun t a ht => by simp only [watched, ht, Bool.false_and]) (Bool.eq_false_iff.mpr hs) queue
  rw [h] at hdown
  cases hdown

section Simulation

variable {r : σ → τ → Prop}
  (step : ∀ {s t} a, ok s a = true → r s t →
    r (attempt s a).1 (attempt' t a).1 ∧ (attempt s a).2 = (attempt' t a).2)

include step

/-- A pass that stays within `ok` is followed step by step. -/
theorem pass_sim {s : σ} {t : τ} (hst : r s t) {queue : List α}
    (h : (pass (watched ok attempt) (s, true) queue).1.2 = true) :
    r (pass attempt s queue).1 (pass attempt' t queue).1 ∧
      (pass attempt s queue).2 = (pass attempt' t queue).2 := by
  induction queue generalizing s t with
  | nil => exact ⟨hst, rfl⟩
  | cons a as ih =>
    have hrest : (pass (watched ok attempt) ((attempt s a).1, ok s a) as).1.2 = true := by
      simp only [pass, watched, Bool.true_and] at h
      split_ifs at h <;> exact h
    have hok : ok s a = true := flag_of_pass hrest
    rw [hok] at hrest
    obtain ⟨hstate, hanswer⟩ := step a hok hst
    obtain ⟨hpass, hout⟩ := ih hstate hrest
    simp only [pass, hanswer, hout]
    split_ifs
    · exact ⟨hpass, rfl⟩
    · exact ⟨hpass, rfl⟩

theorem sweep_sim {s : σ} {t : τ} (hst : r s t) {queue : List α}
    (h : (sweep (watched ok attempt) (s, true) queue).1.2 = true) :
    r (sweep attempt s queue).1 (sweep attempt' t queue).1 ∧
      (sweep attempt s queue).2 = (sweep attempt' t queue).2 := by
  induction hn : queue.length using Nat.strongRecOn generalizing s t queue with
  | _ n ih =>
    obtain ⟨hstate, hout⟩ := pass_watched ok attempt (s, true) queue
    -- the flag is up after the first pass, whether or not another follows
    have hflag : (pass (watched ok attempt) (s, true) queue).1.2 = true := by
      rw [sweep_eq] at h
      split_ifs at h
      · exact h
      · exact flag_of_sweep h
    obtain ⟨hpass, hsame⟩ := pass_sim step hst hflag
    rw [sweep_eq attempt, sweep_eq attempt', ← hsame]
    split_ifs with hstop
    · exact ⟨hpass, rfl⟩
    · rw [not_or, Bool.not_eq_false] at hstop
      rw [sweep_eq, hout, if_neg (by rw [not_or, Bool.not_eq_false]; exact hstop),
        show (pass (watched ok attempt) (s, true) queue).1 = ((pass attempt s queue).1, true) from
          Prod.ext hstate hflag] at h
      exact ih _ (hn ▸ pass_length_lt attempt hstop.1) hpass h rfl

end Simulation

end Deferred
