import Mathlib.Algebra.GroupWithZero.Nat
import Mathlib.Data.Nat.Notation
import Mathlib.Logic.Basic
import Mathlib.Tactic.SplitIfs

/-- What a call comes to: it returns a value, or it panics. -/
inductive Outcome (α : Type)
  | returned (a : α)
  | panicked
deriving DecidableEq

namespace Outcome

variable {α β : Type}

instance : Monad Outcome where
  pure := .returned
  bind x f := match x with
    | .returned a => f a
    | .panicked => .panicked

@[simp] theorem pure_def (a : α) : (pure a : Outcome α) = .returned a := rfl

@[simp] theorem returned_bind (a : α) (f : α → Outcome β) : (returned a >>= f) = f a := rfl

@[simp] theorem panicked_bind (f : α → Outcome β) : ((panicked : Outcome α) >>= f) = .panicked :=
  rfl

theorem bind_eq_returned_iff {x : Outcome α} {f : α → Outcome β} {b : β} :
    (x >>= f) = .returned b ↔ ∃ a, x = .returned a ∧ f a = .returned b := by
  cases x with
  | returned a => simp
  | panicked => simp

theorem exists_returned {x : Outcome α} (h : x ≠ .panicked) : ∃ a, x = .returned a := by
  cases x with
  | returned a => exact ⟨a, rfl⟩
  | panicked => exact absurd rfl h

instance : LawfulMonad Outcome :=
  LawfulMonad.mk' Outcome (fun x => by cases x <;> rfl) (fun _ _ => rfl)
    (fun x _ _ => by cases x <;> rfl)

section Errors

variable {ε : Type}

theorem ofExcept_bind (x : Except ε α) (f : α → Except ε β) :
    (ofExcept (x >>= f) : ExceptT ε Outcome β) = ofExcept x >>= fun a => ofExcept (f a) := by
  cases x <;> rfl

@[simp] theorem run_ofExcept_ok_bind (a : α) (f : α → ExceptT ε Outcome β) :
    ((ofExcept (.ok a : Except ε α) : ExceptT ε Outcome α) >>= f).run = (f a).run := rfl

@[simp] theorem run_ofExcept_error_bind (e : ε) (f : α → ExceptT ε Outcome β) :
    ((ofExcept (.error e : Except ε α) : ExceptT ε Outcome α) >>= f).run = .returned (.error e) :=
  rfl

@[simp] theorem run_lift_returned_bind (a : α) (f : α → ExceptT ε Outcome β) :
    ((ExceptT.lift (returned a) : ExceptT ε Outcome α) >>= f).run = (f a).run := rfl

@[simp] theorem run_lift_panicked_bind (f : α → ExceptT ε Outcome β) :
    ((ExceptT.lift (panicked : Outcome α) : ExceptT ε Outcome α) >>= f).run = .panicked := rfl

end Errors

/-- `&s[n..]`: panics when the slice starts past the end. -/
def sliceFrom (s : List α) (n : ℕ) : Outcome (List α) :=
  if n ≤ s.length then .returned (s.drop n) else .panicked

/-- `&s[..n]` of a text, at a byte offset: panics past the end and inside a character. -/
def textTo : ℕ → List Char → Outcome (List Char)
  | 0, _ => .returned []
  | _ + 1, [] => .panicked
  | n + 1, c :: rest =>
    if c.utf8Size ≤ n + 1 then do
      return c :: (← textTo (n + 1 - c.utf8Size) rest)
    else .panicked

theorem textTo_eq_panicked_iff (n : ℕ) (s : List Char) : textTo n s = .panicked ↔
    ¬∃ head tail, s = head ++ tail ∧ (head.map Char.utf8Size).sum = n := by
  induction s generalizing n with
  | nil =>
    cases n with
    | zero => simp [textTo]
    | succ n =>
      simp only [textTo, true_iff]
      rintro ⟨head, tail, hs, hn⟩
      obtain ⟨rfl, -⟩ := List.append_eq_nil_iff.mp hs.symm
      simp at hn
  | cons c rest ih =>
    cases n with
    | zero =>
      simp only [textTo, reduceCtorEq, false_iff, not_not]
      exact ⟨[], c :: rest, rfl, rfl⟩
    | succ n =>
      simp only [textTo]
      split_ifs with hc
      · have hrest : (do return c :: (← textTo (n + 1 - c.utf8Size) rest)) = panicked ↔
            textTo (n + 1 - c.utf8Size) rest = .panicked := by
          cases textTo (n + 1 - c.utf8Size) rest <;> simp
        rw [hrest, ih, not_iff_not]
        constructor
        · rintro ⟨head, tail, rfl, hn⟩
          exact ⟨c :: head, tail, rfl, by rw [List.map_cons, List.sum_cons]; omega⟩
        · rintro ⟨head, tail, hs, hn⟩
          cases head with
          | nil => simp at hn
          | cons c' head =>
            obtain ⟨rfl, rfl⟩ := List.cons.inj hs
            exact ⟨head, tail, rfl, by rw [List.map_cons, List.sum_cons] at hn; omega⟩
      · simp only [true_iff]
        rintro ⟨head, tail, hs, hn⟩
        cases head with
        | nil => simp at hn
        | cons c' head =>
          obtain ⟨rfl, -⟩ := List.cons.inj hs
          rw [List.map_cons, List.sum_cons] at hn
          omega

end Outcome

def List.getFrom {α : Type} (s : List α) (n : ℕ) : Option (List α) :=
  if n ≤ s.length then some (s.drop n) else none

def List.getTo {α : Type} (s : List α) (n : ℕ) : Option (List α) :=
  if n ≤ s.length then some (s.take n) else none
