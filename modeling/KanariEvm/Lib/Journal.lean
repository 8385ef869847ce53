import Mathlib.Logic.Relation
import Mathlib.Data.List.Basic

namespace Journaled

/-- A machine that tries inputs: each try moves the state, and an accepted one leaves an entry
for the journal. -/
structure Machine (σ α ε : Type*) where
  attempt : σ → α → σ × Option ε

variable {σ α ε : Type*}

namespace Machine

variable (M : Machine σ α ε)

/-- The state after a run, and the journal entries of the run in order. -/
def run : σ → List α → σ × List ε
  | s, [] => (s, [])
  | s, a :: as =>
    let next := run (M.attempt s a).1 as
    (next.1, (M.attempt s a).2.toList ++ next.2)

def final (s : σ) (as : List α) : σ := (M.run s as).1

def journal (s : σ) (as : List α) : List ε := (M.run s as).2

@[simp] theorem final_nil (s : σ) : M.final s [] = s := rfl

@[simp] theorem journal_nil (s : σ) : M.journal s [] = [] := rfl

theorem final_cons (s : σ) (a : α) (as : List α) :
    M.final s (a :: as) = M.final (M.attempt s a).1 as := rfl

theorem journal_cons (s : σ) (a : α) (as : List α) :
    M.journal s (a :: as) = (M.attempt s a).2.toList ++ M.journal (M.attempt s a).1 as := rfl

theorem final_append (s : σ) (as bs : List α) :
    M.final s (as ++ bs) = M.final (M.final s as) bs := by
  induction as generalizing s with
  | nil => rfl
  | cons a as ih => exact ih _

/-- An invariant of every single try of a run is an invariant of the run. -/
theorem final_induction_mem {p : σ → Prop} {as : List α}
    (step : ∀ s, ∀ a ∈ as, p s → p (M.attempt s a).1) {s : σ} (h : p s) : p (M.final s as) := by
  induction as generalizing s with
  | nil => exact h
  | cons a as ih =>
    exact ih (fun t b hb => step t b (List.mem_cons_of_mem a hb)) (step s a List.mem_cons_self h)

theorem final_induction {p : σ → Prop} (step : ∀ s a, p s → p (M.attempt s a).1) {s : σ}
    (h : p s) (as : List α) : p (M.final s as) :=
  M.final_induction_mem (fun t a _ => step t a) h

theorem log_final (log : σ → List ε)
    (step : ∀ s a, log (M.attempt s a).1 = log s ++ (M.attempt s a).2.toList) (s : σ)
    (as : List α) : log (M.final s as) = log s ++ M.journal s as := by
  induction as generalizing s with
  | nil => simp
  | cons a as ih => rw [final_cons, journal_cons, ih, step, List.append_assoc]

theorem exists_journal_eq_take (s : σ) (as : List α) (j : ℕ) :
    ∃ bs, M.journal s bs = (M.journal s as).take j := by
  induction as generalizing s j with
  | nil => exact ⟨[], by simp⟩
  | cons a as ih =>
    cases he : (M.attempt s a).2 with
    | none =>
      obtain ⟨bs, hbs⟩ := ih (M.attempt s a).1 j
      exact ⟨a :: bs, by simp [journal_cons, he, hbs]⟩
    | some e =>
      cases j with
      | zero => exact ⟨[], by simp⟩
      | succ j =>
        obtain ⟨bs, hbs⟩ := ih (M.attempt s a).1 j
        exact ⟨a :: bs, by simp [journal_cons, he, hbs]⟩

/-- Related states stay related under every input and accept it alike. -/
structure Bisim (r : σ → σ → Prop) : Prop where
  next : ∀ {s t} a, r s t → r (M.attempt s a).1 (M.attempt t a).1
  entry : ∀ {s t} a, r s t → (M.attempt s a).2 = (M.attempt t a).2

variable {M} {r : σ → σ → Prop}

theorem Bisim.final (h : M.Bisim r) {s t : σ} (hst : r s t) (as : List α) :
    r (M.final s as) (M.final t as) := by
  induction as generalizing s t with
  | nil => exact hst
  | cons a as ih => exact ih (h.next a hst)

theorem Bisim.journal (h : M.Bisim r) {s t : σ} (hst : r s t) (as : List α) :
    M.journal s as = M.journal t as := by
  induction as generalizing s t with
  | nil => rfl
  | cons a as ih => rw [journal_cons, journal_cons, h.entry a hst, ih (h.next a hst)]

variable (M) (r)

/-- Every input outside `keep` is refused where the run meets it, and leaves a related state. -/
def Noise (keep : α → Bool) : σ → List α → Prop
  | _, [] => True
  | s, a :: as =>
    (keep a = false → r (M.attempt s a).1 s ∧ (M.attempt s a).2 = none) ∧
      Noise keep (M.attempt s a).1 as

variable {M} {r}

/-- Noise can be erased from a run: the two ends are related and the journals equal. -/
theorem Bisim.erase_noise (h : M.Bisim r) (hr : Equivalence r) {keep : α → Bool} {s t : σ}
    (hst : r s t) {as : List α} (hn : M.Noise r keep s as) :
    r (M.final s as) (M.final t (as.filter keep)) ∧
      M.journal s as = M.journal t (as.filter keep) := by
  induction as generalizing s t with
  | nil => exact ⟨hst, rfl⟩
  | cons a as ih =>
    obtain ⟨ha, hrest⟩ := hn
    by_cases hk : keep a = true
    · rw [List.filter_cons_of_pos hk, journal_cons, journal_cons, h.entry a hst]
      obtain ⟨hf, hj⟩ := ih (h.next a hst) hrest
      exact ⟨hf, by rw [hj]⟩
    · have hk' : keep a = false := by simpa using hk
      obtain ⟨hnoise, hnone⟩ := ha hk'
      rw [List.filter_cons_of_neg hk, journal_cons, hnone]
      exact ih (hr.trans hnoise hst) hrest

/-- `apply` re-executes a journal entry: it redoes what an accepted try did, up to `r`, and a
refused try is invisible up to `r`. -/
structure Replays (M : Machine σ α ε) (apply : σ → ε → Option σ) (r : σ → σ → Prop) : Prop where
  accept : ∀ {s a s' e}, M.attempt s a = (s', some e) → ∃ t, apply s e = some t ∧ r s' t
  refuse : ∀ {s a s'}, M.attempt s a = (s', none) → r s' s
  congr : ∀ {s t e s'}, r s t → apply s e = some s' → ∃ t', apply t e = some t' ∧ r s' t'

/-- The journal of a run replays, from any related start, to a state related to the end. -/
theorem Replays.journal {apply : σ → ε → Option σ} (h : Replays M apply r) (hr : Equivalence r)
    {s t : σ} (hst : r s t) (as : List α) :
    ∃ t', (M.journal s as).foldlM apply t = some t' ∧ r (M.final s as) t' := by
  induction as generalizing s t with
  | nil => exact ⟨t, rfl, hst⟩
  | cons a as ih =>
    obtain ⟨s', e, hs⟩ : ∃ s' e, M.attempt s a = (s', e) := ⟨_, _, rfl⟩
    cases e with
    | none =>
      have hst' : r s' t := hr.trans (h.refuse hs) hst
      obtain ⟨t', ht', hr'⟩ := ih hst'
      refine ⟨t', ?_, ?_⟩
      · simpa [journal_cons, hs] using ht'
      · simpa [final_cons, hs] using hr'
    | some e =>
      obtain ⟨u, hu, hsu⟩ := h.accept hs
      obtain ⟨v, hv, huv⟩ := h.congr hst hu
      obtain ⟨t', ht', hr'⟩ := ih (hr.trans hsu huv)
      refine ⟨t', ?_, ?_⟩
      · simpa [journal_cons, hs, hv] using ht'
      · simpa [final_cons, hs] using hr'

end Machine

end Journaled
