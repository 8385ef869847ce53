import KanariEvm.Lib.Sweep

namespace Deferred

/-- The inputs taken so far and every refusal so far, in order. -/
structure Log (α : Type*) where
  taken : List α
  refused : List α

variable {σ τ α β : Type*} (attempt : Attempt σ α)

def logged : Attempt (σ × Log α) α := fun s a =>
  let out := attempt s.1 a
  if out.2 then ((out.1, ⟨s.2.taken ++ [a], s.2.refused⟩), true)
  else ((out.1, ⟨s.2.taken, s.2.refused ++ [a]⟩), false)

variable {attempt}

theorem logged_of_taken {s : σ × Log α} {a : α} (h : (attempt s.1 a).2 = true) :
    logged attempt s a = (((attempt s.1 a).1, ⟨s.2.taken ++ [a], s.2.refused⟩), true) :=
  if_pos h

theorem logged_of_refused {s : σ × Log α} {a : α} (h : (attempt s.1 a).2 = false) :
    logged attempt s a = (((attempt s.1 a).1, ⟨s.2.taken, s.2.refused ++ [a]⟩), false) :=
  if_neg (by rw [h]; exact Bool.false_ne_true)

theorem pass_sublist (s : σ) (queue : List α) :
    (pass attempt s queue).2.2.Sublist queue := by
  induction queue generalizing s with
  | nil => exact .refl _
  | cons a as ih =>
    simp only [pass]
    split_ifs
    · exact (ih _).cons a
    · exact (ih _).cons_cons a

theorem sweep_sublist_pass (s : σ) (queue : List α) :
    (sweep attempt s queue).2.Sublist (pass attempt s queue).2.2 := by
  induction hn : queue.length using Nat.strongRecOn generalizing s queue with
  | _ n ih =>
    rw [sweep_eq]
    split_ifs with hstop
    · exact .refl _
    · rw [not_or, Bool.not_eq_false] at hstop
      have hlt := pass_length_lt attempt hstop.1
      exact (ih _ (hn ▸ hlt) _ _ rfl).trans (pass_sublist _ _)

theorem sweep_sublist (s : σ) (queue : List α) : (sweep attempt s queue).2.Sublist queue :=
  (sweep_sublist_pass s queue).trans (pass_sublist s queue)

/-- What a log says about a queue that became `rest`: every input was taken, none twice, or is
left over and has been refused. -/
structure Accounted (log log' : Log α) (queue rest : List α) : Prop where
  taken : ∃ now, log'.taken = log.taken ++ now ∧ (now ++ rest).Perm queue
  refused : ∃ now, log'.refused = log.refused ++ now ∧ now ⊆ queue ∧ rest ⊆ now

theorem Accounted.trans {log₁ log₂ log₃ : Log α} {queue mid rest : List α}
    (h : Accounted log₁ log₂ queue mid) (h' : Accounted log₂ log₃ mid rest)
    (hsub : mid ⊆ queue) : Accounted log₁ log₃ queue rest := by
  obtain ⟨⟨taken, htaken, hperm⟩, refused, hrefused, hmem, -⟩ := h
  obtain ⟨⟨taken', htaken', hperm'⟩, refused', hrefused', hmem', hrest⟩ := h'
  refine ⟨⟨taken ++ taken', ?_, ?_⟩, refused ++ refused', ?_, ?_, ?_⟩
  · rw [htaken', htaken, List.append_assoc]
  · rw [List.append_assoc]
    exact (hperm'.append_left taken).trans hperm
  · rw [hrefused', hrefused, List.append_assoc]
  · exact List.append_subset.mpr ⟨hmem, fun a ha => hsub (hmem' ha)⟩
  · exact fun a ha => List.mem_append_right refused (hrest ha)

variable (attempt) in
theorem accounted_pass (s : σ) (log : Log α) (queue : List α) :
    Accounted log (pass (logged attempt) (s, log) queue).1.2 queue
      (pass (logged attempt) (s, log) queue).2.2 := by
  induction queue generalizing s log with
  | nil =>
    exact ⟨⟨[], (List.append_nil _).symm, .refl _⟩, [], (List.append_nil _).symm,
      List.Subset.refl _, List.Subset.refl _⟩
  | cons a as ih =>
    cases hans : (attempt s a).2 with
    | true =>
      have hstep := logged_of_taken (s := (s, log)) hans
      obtain ⟨⟨taken, htaken, hperm⟩, refused, hrefused, hmem, hrest⟩ :=
        ih (attempt s a).1 ⟨log.taken ++ [a], log.refused⟩
      simp only [pass, hstep, if_true]
      refine ⟨⟨a :: taken, ?_, hperm.cons a⟩, refused, hrefused, ?_, hrest⟩
      · rw [htaken, List.append_assoc]
        rfl
      · exact fun b hb => List.mem_cons_of_mem a (hmem hb)
    | false =>
      have hstep := logged_of_refused (s := (s, log)) hans
      obtain ⟨⟨taken, htaken, hperm⟩, refused, hrefused, hmem, hrest⟩ :=
        ih (attempt s a).1 ⟨log.taken, log.refused ++ [a]⟩
      simp only [pass, hstep, Bool.false_eq_true, if_false]
      refine ⟨⟨taken, htaken, List.perm_middle.trans (hperm.cons a)⟩, a :: refused, ?_, ?_, ?_⟩
      · rw [hrefused, List.append_assoc]
        rfl
      · exact List.cons_subset_cons a hmem
      · exact List.cons_subset_cons a hrest

variable (attempt) in
/-- A sweep loses no input, takes none twice and has tried what it leaves. -/
theorem accounted_sweep (s : σ) (log : Log α) (queue : List α) :
    Accounted log (sweep (logged attempt) (s, log) queue).1.2 queue
      (sweep (logged attempt) (s, log) queue).2 := by
  induction hn : queue.length using Nat.strongRecOn generalizing s log queue with
  | _ n ih =>
    have hpass := accounted_pass attempt s log queue
    rw [sweep_eq]
    split_ifs with hstop
    · exact hpass
    · rw [not_or, Bool.not_eq_false] at hstop
      have hlt := pass_length_lt (logged attempt) hstop.1
      exact hpass.trans (ih _ (hn ▸ hlt) _ _ _ rfl) (pass_sublist _ _).subset

/-- `attempt` does on the states and inputs seen through `f` and `g` what `attempt'` does. -/
def Projects (attempt : Attempt σ α) (attempt' : Attempt τ β) (f : σ → τ) (g : α → β) : Prop :=
  ∀ s a, (f (attempt s a).1, (attempt s a).2) = attempt' (f s) (g a)

theorem logged_projects (attempt : Attempt σ α) (attempt' : Attempt τ β) {f : σ → τ} {g : α → β}
    (h : Projects attempt attempt' f g) :
    Projects (logged attempt) attempt' (fun s => f s.1) g := by
  intro s a
  rw [← h]
  cases hans : (attempt s.1 a).2 with
  | true => rw [logged_of_taken hans]
  | false => rw [logged_of_refused hans]

namespace Projects

variable {attempt' : Attempt τ β} {f : σ → τ} {g : α → β} (h : Projects attempt attempt' f g)

include h

theorem pass (s : σ) (queue : List α) :
    Deferred.pass attempt' (f s) (queue.map g) = (f (Deferred.pass attempt s queue).1,
      (Deferred.pass attempt s queue).2.1, (Deferred.pass attempt s queue).2.2.map g) := by
  induction queue generalizing s with
  | nil => rfl
  | cons a as ih =>
    simp only [List.map_cons, Deferred.pass, ← h s a, ih]
    split_ifs <;> rfl

theorem sweep (s : σ) (queue : List α) :
    Deferred.sweep attempt' (f s) (queue.map g) =
      (f (Deferred.sweep attempt s queue).1, (Deferred.sweep attempt s queue).2.map g) := by
  induction hn : queue.length using Nat.strongRecOn generalizing s queue with
  | _ n ih =>
    rw [sweep_eq attempt, sweep_eq attempt', h.pass]
    simp only [List.map_eq_nil_iff]
    split_ifs with hstop
    · rfl
    · rw [not_or, Bool.not_eq_false] at hstop
      exact ih _ (hn ▸ pass_length_lt attempt hstop.1) _ _ rfl

end Projects

section Members

variable {p : σ → Prop} {queue : List α} (step : ∀ s, ∀ a ∈ queue, p s → p (attempt s a).1)

include step

theorem pass_induction_mem {s : σ} (h : p s) : p (pass attempt s queue).1 := by
  induction queue generalizing s with
  | nil => exact h
  | cons a as ih =>
    have hrest := ih (fun t b hb => step t b (List.mem_cons_of_mem a hb))
      (step s a List.mem_cons_self h)
    simp only [pass]
    split_ifs <;> exact hrest

theorem sweep_induction_mem {s : σ} (h : p s) : p (sweep attempt s queue).1 := by
  induction hn : queue.length using Nat.strongRecOn generalizing s queue with
  | _ n ih =>
    have hpass := pass_induction_mem step h
    rw [sweep_eq]
    split_ifs with hstop
    · exact hpass
    · rw [not_or, Bool.not_eq_false] at hstop
      refine ih _ (hn ▸ pass_length_lt attempt hstop.1) ?_ hpass rfl
      exact fun t a ha => step t a ((pass_sublist s queue).subset ha)

end Members

/-- A pass that takes nothing refuses every input of the queue as the first state would, if
refusals leave a state that answers alike. -/
theorem refused_of_no_progress {r : σ → σ → Prop}
    (answer : ∀ s t a, r s t → (attempt s a).2 = (attempt t a).2)
    (still : ∀ s t a, r s t → (attempt s a).2 = false → r (attempt s a).1 t) {s t : σ}
    (hst : r s t) {queue : List α} (h : (pass attempt s queue).2.1 = false) :
    ∀ a ∈ queue, (attempt t a).2 = false := by
  induction queue generalizing s with
  | nil => exact fun a ha => absurd ha List.not_mem_nil
  | cons a as ih =>
    simp only [pass] at h
    split_ifs at h with hans
    rw [Bool.not_eq_true] at hans
    intro b hb
    rcases List.mem_cons.mp hb with rfl | hrest
    · rw [← answer s t b hst]
      exact hans
    · exact ih (still s t a hst hans) h b hrest

section Growth

variable {f : σ → ℕ} (grows : ∀ s a, f s + (attempt s a).2.toNat ≤ f (attempt s a).1)

include grows

theorem pass_grows (s : σ) (queue : List α) :
    f s + (pass attempt s queue).2.1.toNat ≤ f (pass attempt s queue).1 := by
  induction queue generalizing s with
  | nil => exact Nat.le_refl _
  | cons a as ih =>
    have hone := grows s a
    have hrest := ih (attempt s a).1
    simp only [pass]
    split_ifs with hans
    · rw [hans] at hone
      simp only [Bool.toNat_true] at hone ⊢
      omega
    · simp only
      omega

theorem sweep_grows (s : σ) (queue : List α) :
    f s + (pass attempt s queue).2.1.toNat ≤ f (sweep attempt s queue).1 := by
  have hpass := pass_grows grows s queue
  have hkeep : ∀ t rest, f t ≤ f (sweep attempt t rest).1 := fun t rest =>
    sweep_induction (p := fun u => f t ≤ f u)
      (fun u a hu => Nat.le_trans hu (Nat.le_of_add_right_le (grows u a))) (Nat.le_refl _) rest
  rw [sweep_eq]
  split_ifs
  · exact hpass
  · exact Nat.le_trans hpass (hkeep _ _)

end Growth

def AllTaken (attempt : Attempt σ α) : σ → List α → Prop
  | _, [] => True
  | s, a :: as => (attempt s a).2 = true ∧ AllTaken attempt (attempt s a).1 as

theorem AllTaken.pass {s : σ} {queue : List α} (h : AllTaken attempt s queue) :
    (pass attempt s queue).2.2 = [] := by
  induction queue generalizing s with
  | nil => rfl
  | cons a as ih =>
    simp only [Deferred.pass, h.1, if_true]
    exact ih h.2

theorem AllTaken.of_projects {attempt' : Attempt τ β} {f : σ → τ} {g : α → β}
    (hp : Projects attempt attempt' f g) {s : σ} {queue : List α}
    (h : AllTaken attempt' (f s) (queue.map g)) : AllTaken attempt s queue := by
  induction queue generalizing s with
  | nil => trivial
  | cons a as ih =>
    simp only [List.map_cons, AllTaken, ← hp s a] at h
    exact ⟨h.1, ih h.2⟩

theorem pass_append (s : σ) (xs ys : List α) :
    (pass attempt s (xs ++ ys)).2.2 =
      (pass attempt s xs).2.2 ++ (pass attempt (pass attempt s xs).1 ys).2.2 := by
  induction xs generalizing s with
  | nil => rfl
  | cons x xs ih =>
    simp only [List.cons_append, pass]
    split_ifs
    · exact ih _
    · exact congrArg (x :: ·) (ih _)

/-- Inputs that the first pass takes one after the other do not outlast the sweep. -/
theorem sweep_append_sublist {s : σ} {xs ys : List α}
    (h : AllTaken attempt (pass attempt s xs).1 ys) :
    (sweep attempt s (xs ++ ys)).2.Sublist xs := by
  have hrest : (pass attempt s (xs ++ ys)).2.2 = (pass attempt s xs).2.2 := by
    rw [pass_append, h.pass, List.append_nil]
  have hfirst : (sweep attempt s (xs ++ ys)).2.Sublist (pass attempt s (xs ++ ys)).2.2 :=
    sweep_sublist_pass s (xs ++ ys)
  rw [hrest] at hfirst
  exact hfirst.trans (pass_sublist s xs)

end Deferred
