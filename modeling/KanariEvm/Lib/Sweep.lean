import Mathlib.Data.List.Basic

namespace Deferred

/-- Trying an input: the state afterwards, and whether the input was taken. -/
abbrev Attempt (σ α : Type*) := σ → α → σ × Bool

variable {σ α : Type*} (attempt : Attempt σ α)

/-- One pass over a queue: the state after it, whether anything was taken, and what was not. -/
def pass : σ → List α → σ × Bool × List α
  | s, [] => (s, false, [])
  | s, a :: as =>
    let next := pass (attempt s a).1 as
    if (attempt s a).2 then (next.1, true, next.2.2) else (next.1, next.2.1, a :: next.2.2)

def sweepFuel : ℕ → σ → List α → σ × List α
  | 0, s, queue => (s, queue)
  | fuel + 1, s, queue =>
    let next := pass attempt s queue
    if next.2.1 = false ∨ next.2.2 = [] then (next.1, next.2.2)
    else sweepFuel fuel next.1 next.2.2

/-- The sweep of a queue to fixation. Every pass but the last shortens the queue, so the fuel does
not run out. -/
def sweep (s : σ) (queue : List α) : σ × List α := sweepFuel attempt (queue.length + 1) s queue

theorem pass_length_le (s : σ) (queue : List α) :
    (pass attempt s queue).2.2.length ≤ queue.length := by
  induction queue generalizing s with
  | nil => exact Nat.le_refl _
  | cons a as ih =>
    simp only [pass]
    have hle := ih (attempt s a).1
    split_ifs
    · exact Nat.le_succ_of_le hle
    · exact Nat.succ_le_succ hle

theorem pass_length_lt {s : σ} {queue : List α} (h : (pass attempt s queue).2.1 = true) :
    (pass attempt s queue).2.2.length < queue.length := by
  induction queue generalizing s with
  | nil => cases h
  | cons a as ih =>
    simp only [pass] at h ⊢
    split_ifs at h ⊢ with ha
    · exact Nat.lt_succ_of_le (pass_length_le attempt _ as)
    · exact Nat.succ_lt_succ (ih h)

theorem sweepFuel_of_length_lt {fuel : ℕ} {s : σ} {queue : List α} (h : queue.length < fuel) :
    sweepFuel attempt fuel s queue = sweep attempt s queue := by
  rw [sweep]
  generalize hn : queue.length + 1 = more
  have hmore : queue.length < more := by omega
  clear hn
  induction fuel generalizing s queue more with
  | zero => omega
  | succ fuel ih =>
    cases more with
    | zero => omega
    | succ more =>
      simp only [sweepFuel]
      split_ifs with hstop
      · rfl
      · rw [not_or, Bool.not_eq_false] at hstop
        have hlt := pass_length_lt attempt hstop.1
        exact ih (by omega) more (by omega)

/-- The loop of the sweep, without fuel. -/
theorem sweep_eq (s : σ) (queue : List α) :
    sweep attempt s queue =
      if (pass attempt s queue).2.1 = false ∨ (pass attempt s queue).2.2 = [] then
        ((pass attempt s queue).1, (pass attempt s queue).2.2)
      else sweep attempt (pass attempt s queue).1 (pass attempt s queue).2.2 := by
  conv_lhs => rw [sweep]
  simp only [sweepFuel]
  split_ifs with hstop
  · rfl
  · rw [not_or, Bool.not_eq_false] at hstop
    exact sweepFuel_of_length_lt attempt (pass_length_lt attempt hstop.1)

section Invariant

variable {attempt} {p : σ → Prop} (step : ∀ s a, p s → p (attempt s a).1)

include step

theorem pass_induction {s : σ} (h : p s) (queue : List α) : p (pass attempt s queue).1 := by
  induction queue generalizing s with
  | nil => exact h
  | cons a as ih =>
    simp only [pass]
    split_ifs <;> exact ih (step s a h)

theorem sweep_induction {s : σ} (h : p s) (queue : List α) : p (sweep attempt s queue).1 := by
  rw [sweep]
  generalize queue.length + 1 = fuel
  induction fuel generalizing s queue with
  | zero => exact h
  | succ fuel ih =>
    simp only [sweepFuel]
    have hpass := pass_induction step h queue
    split_ifs
    · exact hpass
    · exact ih hpass _

end Invariant

/-- Related states answer alike, and an input that is dead in a state is refused there, leaves a
related state, and stays dead. -/
structure Inert (attempt : Attempt σ α) (r : σ → σ → Prop) (dead : σ → α → Prop) : Prop where
  next : ∀ {s t} a, r s t → r (attempt s a).1 (attempt t a).1
  answer : ∀ {s t} a, r s t → (attempt s a).2 = (attempt t a).2
  refused : ∀ {s a}, dead s a → (attempt s a).2 = false
  still : ∀ {s t a}, dead s a → r s t → r (attempt s a).1 t
  kept : ∀ {s a} b, dead s a → dead (attempt s b).1 a

namespace Inert

variable {attempt} {r : σ → σ → Prop} {dead : σ → α → Prop} (h : Inert attempt r dead)

include h

theorem pass {s t : σ} (hst : r s t) {ds : List α} (hds : ∀ d ∈ ds, dead s d) (xs : List α) :
    r (Deferred.pass attempt s (ds ++ xs)).1 (Deferred.pass attempt t xs).1 ∧
      (Deferred.pass attempt s (ds ++ xs)).2.1 = (Deferred.pass attempt t xs).2.1 ∧
      (Deferred.pass attempt s (ds ++ xs)).2.2 = ds ++ (Deferred.pass attempt t xs).2.2 := by
  induction ds generalizing s with
  | nil =>
    simp only [List.nil_append]
    clear hds
    induction xs generalizing s t with
    | nil => exact ⟨hst, rfl, rfl⟩
    | cons x xs ih =>
      obtain ⟨hr, hprogress, hstill⟩ := ih (h.next x hst)
      simp only [Deferred.pass, h.answer x hst]
      split_ifs
      · exact ⟨hr, rfl, hstill⟩
      · exact ⟨hr, hprogress, by rw [hstill]⟩
  | cons d ds ih =>
    have hd := hds d List.mem_cons_self
    have hrest : ∀ e ∈ ds, dead (attempt s d).1 e := fun e he =>
      h.kept d (hds e (List.mem_cons_of_mem d he))
    obtain ⟨hr, hprogress, hstill⟩ := ih (h.still hd hst) hrest
    simp only [List.cons_append, Deferred.pass, h.refused hd, Bool.false_eq_true, if_false]
    exact ⟨hr, hprogress, by rw [hstill]⟩

theorem kept_pass {s : σ} {d : α} (hd : dead s d) (queue : List α) :
    dead (Deferred.pass attempt s queue).1 d :=
  pass_induction (p := fun s => dead s d) (fun _ a hs => h.kept a hs) hd queue

theorem kept_sweep {s : σ} {d : α} (hd : dead s d) (queue : List α) :
    dead (Deferred.sweep attempt s queue).1 d :=
  sweep_induction (p := fun s => dead s d) (fun _ a hs => h.kept a hs) hd queue

/-- Dead inputs at the head of the queue stay there and change nothing else of a sweep. -/
theorem sweep {s t : σ} (hst : r s t) {ds : List α} (hds : ∀ d ∈ ds, dead s d) (xs : List α) :
    r (Deferred.sweep attempt s (ds ++ xs)).1 (Deferred.sweep attempt t xs).1 ∧
      (Deferred.sweep attempt s (ds ++ xs)).2 = ds ++ (Deferred.sweep attempt t xs).2 := by
  induction hn : xs.length using Nat.strongRecOn generalizing s t xs with
  | _ n ih =>
    obtain ⟨hr, hprogress, hstill⟩ := h.pass hst hds xs
    have hdead : ∀ d ∈ ds, dead (Deferred.pass attempt s (ds ++ xs)).1 d := fun d hd =>
      h.kept_pass (hds d hd) _
    rw [sweep_eq attempt s, sweep_eq attempt t, hprogress, hstill]
    by_cases hstop : (Deferred.pass attempt t xs).2.1 = false
    · rw [if_pos (.inl hstop), if_pos (.inl hstop)]
      exact ⟨hr, rfl⟩
    · have hlt := pass_length_lt attempt (Bool.not_eq_false _ ▸ hstop)
      obtain ⟨hr', hstill'⟩ := ih _ (hn ▸ hlt) hr hdead _ rfl
      by_cases hempty : (Deferred.pass attempt t xs).2.2 = []
      · have hdone : (Deferred.pass attempt t xs).2.1 = false ∨
            (Deferred.pass attempt t xs).2.2 = [] := .inr hempty
        rw [if_pos hdone]
        rw [hempty] at hr' hstill' ⊢
        -- the queue of `t` is done, that of `s` takes one more pass if it holds dead inputs
        split_ifs
        · exact ⟨hr, rfl⟩
        · exact ⟨hr', hstill'⟩
      · have happend : ds ++ (Deferred.pass attempt t xs).2.2 ≠ [] := by simp [hempty]
        rw [if_neg (not_or.mpr ⟨hstop, happend⟩), if_neg (not_or.mpr ⟨hstop, hempty⟩)]
        exact ⟨hr', hstill'⟩

end Inert

end Deferred
