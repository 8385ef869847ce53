import KanariEvm.Lib.SweepLog
import Mathlib.Tactic.Ring
import Mathlib.Tactic.Tauto

namespace Deferred

/-! A loop that sweeps a shared state takes hold of it for one attempt at a time. Between two
attempts others may use it. -/

variable {σ α ε τ : Type*}

/-- Where a sweep is: the rest of this pass, what the pass has refused, whether it took anything. -/
structure Cursor (α : Type*) where
  todo : List α
  kept : List α
  progress : Bool
deriving DecidableEq

inductive Phase (α : Type*)
  | sweeping (cursor : Cursor α)
  | done (rest : List α)
deriving DecidableEq

def Phase.inputs : Phase α → List α
  | .sweeping cursor => cursor.todo ++ cursor.kept
  | .done rest => rest

/-- A request of others, the next attempt, or the end of a pass. -/
inductive SweepEvent (ε τ : Type*)
  | serve (request : ε)
  | attempt (turn : τ)
  | endPass
deriving DecidableEq

def requestsOf (events : List (SweepEvent ε τ)) : List ε :=
  events.filterMap fun
    | .serve request => some request
    | _ => none

section Steps

variable (serve : σ → ε → σ) (attempt : τ → Attempt σ α)

def Cursor.next (cursor : Cursor α) (a : α) (todo : List α) (taken : Bool) : Cursor α :=
  if taken then ⟨todo, cursor.kept, true⟩ else ⟨todo, cursor.kept ++ [a], cursor.progress⟩

/-- One event, if it can happen. -/
def sweepStep (s : σ × Phase α) : SweepEvent ε τ → Option (σ × Phase α)
  | .serve request => some (serve s.1 request, s.2)
  | .attempt turn =>
    match s.2 with
    | .sweeping cursor =>
      match cursor.todo with
      | a :: todo =>
        let out := attempt turn s.1 a
        some (out.1, .sweeping (cursor.next a todo out.2))
      | [] => none
    | .done _ => none
  | .endPass =>
    match s.2 with
    | .sweeping ⟨[], kept, progress⟩ =>
      some (s.1, if progress = false ∨ kept = [] then .done kept else .sweeping ⟨kept, [], false⟩)
    | _ => none

def sweepRun (s : σ × Phase α) (events : List (SweepEvent ε τ)) : Option (σ × Phase α) :=
  events.foldlM (sweepStep serve attempt) s

/-- The attempts of a sweep that meets a list of turns, each after the requests of the turn. -/
def amid (alone : τ) : Attempt (σ × List (List ε × τ)) α := fun s a =>
  let turn := s.2.headD ([], alone)
  let out := attempt turn.2 (turn.1.foldl serve s.1) a
  ((out.1, s.2.tail), out.2)

end Steps

theorem Cursor.inputs_next {cursor : Cursor α} {a : α} {todo : List α} (h : cursor.todo = a :: todo)
    (taken : Bool) : (Phase.sweeping (cursor.next a todo taken)).inputs ⊆
      (Phase.sweeping cursor).inputs := by
  intro b hb
  simp only [Phase.inputs, Cursor.next, h] at hb ⊢
  split_ifs at hb
  · simp only [List.mem_append, List.mem_cons] at hb ⊢
    tauto
  · simp only [List.mem_append, List.mem_cons, List.not_mem_nil, or_false] at hb ⊢
    tauto

def resume (attempt : Attempt σ α) (s : σ) (cursor : Cursor α) : σ × List α :=
  let rest := pass attempt s cursor.todo
  if (cursor.progress || rest.2.1) = false ∨ cursor.kept ++ rest.2.2 = [] then
    (rest.1, cursor.kept ++ rest.2.2)
  else sweep attempt rest.1 (cursor.kept ++ rest.2.2)

def Cursor.Ends (cursor : Cursor α) : Prop :=
  cursor.todo = [] ∧ (cursor.progress = false ∨ cursor.kept = [])

theorem resume_start (attempt : Attempt σ α) (s : σ) (queue : List α) :
    resume attempt s ⟨queue, [], false⟩ = sweep attempt s queue := by
  rw [sweep_eq]
  simp only [resume, Bool.false_or, List.nil_append]

theorem resume_attempt (attempt : Attempt σ α) (s : σ) {cursor : Cursor α} {a : α} {todo : List α}
    (h : cursor.todo = a :: todo) :
    resume attempt s cursor =
      resume attempt (attempt s a).1 (cursor.next a todo (attempt s a).2) := by
  simp only [resume, h, pass, Cursor.next]
  cases (attempt s a).2 with
  | true => simp
  | false => simp

theorem resume_of_ends (attempt : Attempt σ α) (s : σ) {cursor : Cursor α} (h : cursor.Ends) :
    resume attempt s cursor = (s, cursor.kept) := by
  simp only [resume, h.1, pass, Bool.or_false, List.append_nil, if_pos h.2]

theorem resume_over (attempt : Attempt σ α) (s : σ) {kept : List α} (h : kept ≠ []) :
    resume attempt s ⟨[], kept, true⟩ = resume attempt s ⟨kept, [], false⟩ := by
  rw [resume_start]
  simp [resume, pass, h]

section Amid

variable {serve : σ → ε → σ} {attempt : τ → Attempt σ α} {alone : τ}

/-- A request that is served now is the first of the turn of the next attempt. -/
theorem resume_serve (s : σ) {cursor : Cursor α} (h : ¬cursor.Ends) (request : ε)
    (turn : List ε × τ) (turns : List (List ε × τ)) :
    resume (amid serve attempt alone) (s, (request :: turn.1, turn.2) :: turns) cursor =
      resume (amid serve attempt alone) (serve s request, turn :: turns) cursor := by
  have hhead : ∀ {cursor : Cursor α}, cursor.todo ≠ [] →
      resume (amid serve attempt alone) (s, (request :: turn.1, turn.2) :: turns) cursor =
        resume (amid serve attempt alone) (serve s request, turn :: turns) cursor := by
    intro cursor htodo
    obtain ⟨a, todo, hcons⟩ := List.exists_cons_of_ne_nil htodo
    rw [resume_attempt _ _ hcons, resume_attempt _ _ hcons]
    rfl
  by_cases htodo : cursor.todo = []
  · have hgoes : ¬(cursor.progress = false ∨ cursor.kept = []) := fun hends => h ⟨htodo, hends⟩
    rw [not_or, Bool.not_eq_false] at hgoes
    have hcursor : cursor = ⟨[], cursor.kept, true⟩ := by
      rw [← htodo, ← hgoes.1]
    rw [hcursor, resume_over _ _ hgoes.2, resume_over _ _ hgoes.2]
    exact hhead hgoes.2
  · exact hhead htodo

theorem sweepRun_done {s s' : σ} {rest rest' : List α} {events : List (SweepEvent ε τ)}
    (h : sweepRun serve attempt (s, .done rest) events = some (s', .done rest')) :
    s' = (requestsOf events).foldl serve s ∧ rest' = rest := by
  induction events generalizing s with
  | nil =>
    cases h
    exact ⟨rfl, rfl⟩
  | cons event events ih =>
    cases event with
    | serve request => exact ih h
    | attempt turn => cases h
    | endPass => cases h

variable (alone) in
/-- Whatever comes between the attempts of a sweep that is run to its end, the sweep is one that met
the requests in its turns; requests that came after the last attempt follow it. -/
theorem exists_turns {s s' : σ} {cursor : Cursor α} {rest : List α}
    {events : List (SweepEvent ε τ)}
    (h : sweepRun serve attempt (s, .sweeping cursor) events = some (s', .done rest)) :
    ∃ turns later u, (¬cursor.Ends → turns ≠ []) ∧
      resume (amid serve attempt alone) (s, turns) cursor = ((u, []), rest) ∧
      s' = later.foldl serve u ∧ requestsOf events = turns.flatMap (·.1) ++ later := by
  induction events generalizing s cursor with
  | nil => cases h
  | cons event events ih =>
    cases event with
    | serve request =>
      obtain ⟨turns, later, u, hne, hresume, rfl, hrequests⟩ := ih h
      -- a request belongs to the turn of the next attempt, or comes after the last one
      by_cases hends : cursor.Ends
      · rw [resume_of_ends _ _ hends] at hresume
        cases hresume
        refine ⟨[], request :: later, s, fun hgoes => absurd hends hgoes, ?_, rfl, ?_⟩
        · rw [resume_of_ends _ _ hends]
        · rw [List.flatMap_nil, List.nil_append] at hrequests ⊢
          exact congrArg (request :: ·) hrequests
      · obtain ⟨turn, turns, rfl⟩ := List.exists_cons_of_ne_nil (hne hends)
        refine ⟨(request :: turn.1, turn.2) :: turns, later, u, fun _ => List.cons_ne_nil _ _, ?_,
          rfl, congrArg (request :: ·) hrequests⟩
        rw [resume_serve s hends, hresume]
    | attempt turn =>
      obtain ⟨todo, kept, progress⟩ := cursor
      cases todo with
      | nil => cases h
      | cons a todo =>
        obtain ⟨turns, later, u, -, hresume, hlater, hrequests⟩ := ih h
        refine ⟨([], turn) :: turns, later, u, fun _ => List.cons_ne_nil _ _, ?_, hlater,
          hrequests⟩
        rw [resume_attempt _ _ rfl]
        exact hresume
    | endPass =>
      obtain ⟨todo, kept, progress⟩ := cursor
      cases todo with
      | cons a todo => cases h
      | nil =>
        by_cases hends : progress = false ∨ kept = []
        · have hdone : sweepRun serve attempt (s, .done kept) events = some (s', .done rest) := by
            rw [← h]
            simp [sweepRun, sweepStep, hends]
          obtain ⟨rfl, rfl⟩ := sweepRun_done hdone
          refine ⟨[], requestsOf events, s, fun hgoes => absurd ⟨rfl, hends⟩ hgoes, ?_, rfl, rfl⟩
          exact resume_of_ends _ _ ⟨rfl, hends⟩
        · have hnext : sweepRun serve attempt (s, .sweeping ⟨kept, [], false⟩) events =
              some (s', .done rest) := by
            rw [← h]
            simp [sweepRun, sweepStep, hends]
          rw [not_or, Bool.not_eq_false] at hends
          obtain ⟨rfl, hkept⟩ := hends
          obtain ⟨turns, later, u, hne, hresume, hlater, hrequests⟩ := ih hnext
          refine ⟨turns, later, u, fun _ => hne fun hnone => hkept hnone.1, ?_, hlater, hrequests⟩
          rw [resume_over _ _ hkept, hresume]

end Amid

def triangle (n : ℕ) : ℕ := n * (n + 1) / 2

theorem triangle_succ (n : ℕ) : triangle (n + 1) = (n + 1) + triangle n := by
  have hsum : (n + 1) * (n + 1 + 1) = n * (n + 1) + (n + 1) * 2 := by ring
  rw [triangle, triangle, hsum, Nat.add_mul_div_right _ _ (by omega), Nat.add_comm]

theorem triangle_mono {m n : ℕ} (h : m ≤ n) : triangle m ≤ triangle n :=
  Nat.div_le_div_right (Nat.mul_le_mul h (by omega))

/-- The steps of the sweep that may still come, from a phase on: attempts, and ends of passes. -/
def Phase.bound : Phase α → ℕ
  | .sweeping cursor =>
    let next := cursor.kept.length + cursor.todo.length + cursor.progress.toNat - 1
    cursor.todo.length + triangle next + next + 1
  | .done _ => 0

theorem bound_start (queue : List α) :
    (Phase.sweeping ⟨queue, [], false⟩).bound = triangle queue.length + max queue.length 1 := by
  cases queue with
  | nil => simp [Phase.bound]
  | cons a queue =>
    rw [List.length_cons, triangle_succ]
    simp [Phase.bound]
    omega

def SweepEvent.isStep : SweepEvent ε τ → Bool
  | .serve _ => false
  | .attempt _ => true
  | .endPass => true

section Bound

variable {serve : σ → ε → σ} {attempt : τ → Attempt σ α}

theorem bound_step {s s' : σ × Phase α} {event : SweepEvent ε τ}
    (h : sweepStep serve attempt s event = some s') :
    event.isStep.toNat + s'.2.bound ≤ s.2.bound := by
  obtain ⟨state, phase⟩ := s
  cases event with
  | serve request =>
    cases h
    simp [SweepEvent.isStep]
  | attempt turn =>
    cases phase with
    | done rest => cases h
    | sweeping cursor =>
      obtain ⟨todo, kept, progress⟩ := cursor
      cases todo with
      | nil => cases h
      | cons a todo =>
        cases h
        simp only [SweepEvent.isStep, Bool.toNat_true, Cursor.next]
        split_ifs
        -- taken: the later passes have one input fewer to go through
        · have hle : triangle (kept.length + todo.length + 1 - 1) ≤
              triangle (kept.length + (todo.length + 1) + progress.toNat - 1) :=
            triangle_mono (by omega)
          simp only [Phase.bound, List.length_cons, Bool.toNat_true]
          omega
        -- refused: it is kept, and the number of inputs is what it was
        · have hsame : kept.length + 1 + todo.length = kept.length + (todo.length + 1) := by omega
          simp only [Phase.bound, List.length_cons, List.length_append, List.length_nil,
            Nat.zero_add, hsame]
          omega
  | endPass =>
    cases phase with
    | done rest => cases h
    | sweeping cursor =>
      obtain ⟨todo, kept, progress⟩ := cursor
      cases todo with
      | cons a todo => cases h
      | nil =>
        cases h
        simp only [SweepEvent.isStep, Bool.toNat_true]
        split_ifs with hends
        · simp only [Phase.bound]
          omega
        -- another pass, paid for by the input that was taken in this one
        · rw [not_or, Bool.not_eq_false] at hends
          obtain ⟨rfl, hkept⟩ := hends
          have hpos := List.length_pos_iff.mpr hkept
          rw [bound_start]
          simp only [Phase.bound, List.length_nil, Bool.toNat_true, Nat.add_zero,
            Nat.add_sub_cancel]
          omega

variable (serve attempt) in
/-- A sweep that is not done can go on. -/
theorem exists_sweepStep (s : σ) (cursor : Cursor α) (turn : τ) :
    ∃ event ∈ [SweepEvent.attempt turn, .endPass],
      (sweepStep serve attempt (s, .sweeping cursor) event).isSome := by
  obtain ⟨todo, kept, progress⟩ := cursor
  cases todo with
  | nil => exact ⟨.endPass, by simp, rfl⟩
  | cons a todo => exact ⟨.attempt turn, by simp, rfl⟩

end Bound

end Deferred
