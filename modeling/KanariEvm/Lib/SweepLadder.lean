import KanariEvm.Lib.Sweep
import Mathlib.Data.List.Perm.Basic

namespace Deferred

variable {σ α : Type*} {attempt : Attempt σ α}

/-- Inputs that are taken one after the other: on rung `j` the input number `j` is taken and leads
to the next rung, and every later one is refused and leaves the rung as it is. -/
structure Ladder (attempt : Attempt σ α) (rung : ℕ → σ → Prop) (inputs : List α) : Prop where
  taken : ∀ {j s} (h : j < inputs.length), rung j s →
    (attempt s inputs[j]).2 = true ∧ rung (j + 1) (attempt s inputs[j]).1
  refused : ∀ {j s a}, rung j s → a ∈ inputs.drop (j + 1) →
    (attempt s a).2 = false ∧ rung j (attempt s a).1

namespace Ladder

variable {rung : ℕ → σ → Prop} {inputs : List α} (h : Ladder attempt rung inputs)

include h

theorem pass {j : ℕ} {s : σ} (hrung : rung j s) {left queue : List α}
    (hperm : (left ++ queue).Perm (inputs.drop j)) (hj : j ≤ inputs.length) :
    ∃ j' ≤ inputs.length, rung j' (Deferred.pass attempt s queue).1 ∧
      (left ++ (Deferred.pass attempt s queue).2.2).Perm (inputs.drop j') := by
  induction queue generalizing j s left with
  | nil => exact ⟨j, hj, hrung, hperm⟩
  | cons a as ih =>
    have hmem : a ∈ inputs.drop j := hperm.subset (List.mem_append_right left List.mem_cons_self)
    have hlt : j < inputs.length := by
      have hpos := List.length_pos_of_mem hmem
      rw [List.length_drop] at hpos
      exact Nat.lt_of_sub_pos hpos
    have hdrop : inputs.drop j = inputs[j] :: inputs.drop (j + 1) := List.drop_eq_getElem_cons hlt
    have hmiddle : (a :: (left ++ as)).Perm (inputs[j] :: inputs.drop (j + 1)) :=
      hdrop ▸ List.perm_middle.symm.trans hperm
    by_cases hnext : a = inputs[j]
    · subst hnext
      obtain ⟨htaken, hup⟩ := h.taken hlt hrung
      simp only [Deferred.pass, htaken, if_true]
      exact ih hup hmiddle.cons_inv hlt
    · have hlater : a ∈ inputs.drop (j + 1) := by
        rw [hdrop] at hmem
        exact (List.mem_cons.mp hmem).resolve_left hnext
      obtain ⟨hrefused, hstay⟩ := h.refused hrung hlater
      simp only [Deferred.pass, hrefused, Bool.false_eq_true, if_false]
      have hleft : (left ++ [a] ++ as).Perm (inputs.drop j) := by
        rw [List.append_assoc]
        exact hperm
      obtain ⟨j', hj', hrung', hperm'⟩ := ih hstay hleft hj
      rw [List.append_assoc] at hperm'
      exact ⟨j', hj', hrung', hperm'⟩

theorem progress {j : ℕ} {s : σ} (hrung : rung j s) {queue : List α} (hj : j < inputs.length)
    (hqueue : queue ⊆ inputs.drop j) (hmem : inputs[j] ∈ queue) :
    (Deferred.pass attempt s queue).2.1 = true := by
  induction queue generalizing s with
  | nil => exact absurd hmem List.not_mem_nil
  | cons a as ih =>
    by_cases hnext : a = inputs[j]
    · subst hnext
      simp only [Deferred.pass, (h.taken hj hrung).1, if_true]
    · have hlater : a ∈ inputs.drop (j + 1) := by
        have ha := hqueue List.mem_cons_self
        rw [List.drop_eq_getElem_cons hj] at ha
        exact (List.mem_cons.mp ha).resolve_left hnext
      obtain ⟨hrefused, hstay⟩ := h.refused hrung hlater
      simp only [Deferred.pass, hrefused, Bool.false_eq_true, if_false]
      exact ih hstay (List.subset_of_cons_subset hqueue)
        ((List.mem_cons.mp hmem).resolve_left (Ne.symm hnext))

/-- In whatever order the inputs arrive, a sweep takes them all. -/
theorem sweep {j : ℕ} {s : σ} (hrung : rung j s) {queue : List α}
    (hperm : queue.Perm (inputs.drop j)) (hj : j ≤ inputs.length) :
    rung inputs.length (Deferred.sweep attempt s queue).1 ∧
      (Deferred.sweep attempt s queue).2 = [] := by
  induction hn : queue.length using Nat.strongRecOn generalizing j s queue with
  | _ n ih =>
    have hnil : ([] ++ queue).Perm (inputs.drop j) := hperm
    obtain ⟨j', hj', hrung', hrest⟩ := h.pass hrung hnil hj
    rw [List.nil_append] at hrest
    rw [sweep_eq]
    by_cases hempty : (Deferred.pass attempt s queue).2.2 = []
    · rw [if_pos (.inr hempty)]
      rw [hempty] at hrest
      have htop : j' = inputs.length :=
        Nat.le_antisymm hj' (List.drop_eq_nil_iff.mp hrest.nil_eq.symm)
      exact ⟨htop ▸ hrung', hempty⟩
    · have hqueue : queue ≠ [] := by
        rintro rfl
        exact hempty rfl
      have hlt : j < inputs.length := by
        have hpos := List.length_pos_of_ne_nil hqueue
        rw [hperm.length_eq, List.length_drop] at hpos
        exact Nat.lt_of_sub_pos hpos
      have hmem : inputs[j] ∈ queue := by
        rw [hperm.mem_iff, List.drop_eq_getElem_cons hlt]
        exact List.mem_cons_self
      have hprogress := h.progress hrung hlt hperm.subset hmem
      rw [if_neg (not_or.mpr ⟨Bool.not_eq_false _ ▸ hprogress, hempty⟩)]
      exact ih _ (hn ▸ pass_length_lt attempt hprogress) hrung' hrest hj' rfl

end Ladder

end Deferred
