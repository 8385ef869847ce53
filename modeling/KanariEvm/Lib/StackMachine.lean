import Mathlib.Algebra.Order.Ring.Nat
import Mathlib.Data.List.Induction
import Mathlib.Tactic.Positivity
import Mathlib.Tactic.Ring

namespace StackMachine

/-! The machine runs code given as bytes. Only some of the instructions have a meaning here; code
that reaches another one ends `outside`, so that nothing is said about it. -/

abbrev Byte := BitVec 8
abbrev Word := BitVec 256

def beNat (bytes : List Byte) : ℕ := bytes.foldl (fun n b => 256 * n + b.toNat) 0

def wordBytes (w : Word) : List Byte :=
  (List.range 32).map fun i => BitVec.ofNat 8 (w.toNat / 256 ^ (31 - i))

def slice (data : List Byte) (offset size : ℕ) : List Byte :=
  (List.range size).map fun i => data.getD (offset + i) 0

def wordAt (data : List Byte) (offset : ℕ) : Word := BitVec.ofNat 256 (beNat (slice data offset 32))

inductive Instr
  | stop
  | eq
  | shr
  | calldataload
  | codecopy
  | mstore
  | sload
  | sstore
  | jumpi
  | jumpdest
  | push (width : ℕ)
  | dup1
  | ret
  | revert
  | other
deriving DecidableEq

def Instr.ofByte (b : Byte) : Instr :=
  match b.toNat with
  | 0x00 => .stop
  | 0x14 => .eq
  | 0x1c => .shr
  | 0x35 => .calldataload
  | 0x39 => .codecopy
  | 0x52 => .mstore
  | 0x54 => .sload
  | 0x55 => .sstore
  | 0x57 => .jumpi
  | 0x5b => .jumpdest
  | 0x80 => .dup1
  | 0xf3 => .ret
  | 0xfd => .revert
  | n => if 0x5f ≤ n ∧ n ≤ 0x7f then .push (n - 0x5f) else .other

def instrAt (code : List Byte) (pc : ℕ) : Instr := .ofByte (code.getD pc 0)

def Instr.width : Instr → ℕ
  | .push n => n + 1
  | _ => 1

/-- The positions at which instructions start, from one of them on. -/
def boundaries (code : List Byte) : ℕ → ℕ → List ℕ
  | 0, _ => []
  | fuel + 1, pc =>
    if pc < code.length then pc :: boundaries code fuel (pc + (instrAt code pc).width) else []

/-- A jump goes to a `jumpdest` that is not among the bytes some `push` pushes. -/
def validJump (code : List Byte) (dest : ℕ) : Bool :=
  decide (dest ∈ boundaries code code.length 0) && decide (instrAt code dest = .jumpdest)

structure Env where
  code : List Byte
  calldata : List Byte
  isStatic : Bool

structure Frame where
  pc : ℕ
  stack : List Word
  memory : ℕ → Byte
  storage : Word → Word

def Frame.start (storage : Word → Word) : Frame := ⟨0, [], fun _ => 0, storage⟩

inductive Result
  | success (output : List Byte) (storage : Word → Word)
  | revert (output : List Byte)
  | exception
  | outside

/-- The storage a call leaves behind: only a success changes it. -/
def Result.storageAfter (storage : Word → Word) : Result → Word → Word
  | .success _ after => after
  | _ => storage

def write (memory : ℕ → Byte) (offset : ℕ) (bytes : List Byte) (i : ℕ) : Byte :=
  if offset ≤ i ∧ i < offset + bytes.length then bytes.getD (i - offset) 0 else memory i

def load (memory : ℕ → Byte) (offset size : ℕ) : List Byte :=
  (List.range size).map fun i => memory (offset + i)

def Frame.next (f : Frame) (width : ℕ) (stack : List Word) : Frame ⊕ Result :=
  if stack.length ≤ 1024 then .inl { f with pc := f.pc + width, stack := stack }
  else .inr .exception

def exec (env : Env) (f : Frame) : Frame ⊕ Result :=
  match instrAt env.code f.pc, f.stack with
  | .stop, _ => .inr (.success [] f.storage)
  | .eq, a :: b :: rest => f.next 1 ((if a = b then 1 else 0) :: rest)
  | .shr, shift :: value :: rest => f.next 1 (value >>> shift.toNat :: rest)
  | .calldataload, offset :: rest => f.next 1 (wordAt env.calldata offset.toNat :: rest)
  | .codecopy, dest :: offset :: size :: rest =>
    { f with memory := write f.memory dest.toNat (slice env.code offset.toNat size.toNat) }.next 1
      rest
  | .mstore, offset :: value :: rest =>
    { f with memory := write f.memory offset.toNat (wordBytes value) }.next 1 rest
  | .sload, key :: rest => f.next 1 (f.storage key :: rest)
  | .sstore, key :: value :: rest =>
    if env.isStatic then .inr .exception
    else { f with storage := fun k => if k = key then value else f.storage k }.next 1 rest
  | .jumpi, dest :: cond :: rest =>
    if cond = 0 then f.next 1 rest
    else if validJump env.code dest.toNat then { f with pc := dest.toNat }.next 0 rest
    else .inr .exception
  | .jumpdest, stack => f.next 1 stack
  | .push n, stack =>
    f.next (n + 1) (BitVec.ofNat 256 (beNat (slice env.code (f.pc + 1) n)) :: stack)
  | .dup1, a :: rest => f.next 1 (a :: a :: rest)
  | .ret, offset :: size :: _ =>
    .inr (.success (load f.memory offset.toNat size.toNat) f.storage)
  | .revert, offset :: size :: _ => .inr (.revert (load f.memory offset.toNat size.toNat))
  | .other, _ => .inr .outside
  -- too few words on the stack
  | _, _ => .inr .exception

/-- The instructions that end a call when they go well. -/
def Instr.halts : Instr → Bool
  | .stop | .ret | .revert | .other => true
  | _ => false

/-- A run that nothing is charged for. -/
def eval (env : Env) : ℕ → Frame → Option Result
  | 0, _ => none
  | fuel + 1, f =>
    match exec env f with
    | .inl f' => eval env fuel f'
    | .inr r => some r

/-- A price list. What is left to spend is part of a meter, which can remember more than that (the
slots read before, a refund). Every instruction that a run goes on after costs something. -/
structure Schedule (γ : Type) where
  left : γ → ℕ
  charge : Env → Frame → γ → Option γ
  charge_lt : ∀ env f g g', charge env f g = some g' → (instrAt env.code f.pc).halts = false →
    left g' < left g

section Metered

variable {γ : Type} (sched : Schedule γ) (env : Env)

/-- A run that stops with an exception at the first instruction it cannot pay for. -/
def run : ℕ → Frame → γ → Option Result
  | 0, _, _ => none
  | fuel + 1, f, g =>
    match sched.charge env f g with
    | none => some .exception
    | some g' =>
      match exec env f with
      | .inl f' => run fuel f' g'
      | .inr r => some r

/-- A call: the run from the first instruction. It pays at each step, so that what it has to spend
bounds the number of steps. -/
def execute (g : γ) (storage : Word → Word) : Result :=
  (run sched env (sched.left g + 1) (.start storage) g).getD .outside

end Metered

theorem beNat_snoc (xs : List Byte) (x : Byte) : beNat (xs ++ [x]) = 256 * beNat xs + x.toNat := by
  simp [beNat]

theorem beNat_append (xs ys : List Byte) :
    beNat (xs ++ ys) = beNat xs * 256 ^ ys.length + beNat ys := by
  induction ys using List.reverseRecOn with
  | nil => simp [beNat]
  | append_singleton ys y ih =>
    rw [← List.append_assoc, beNat_snoc, beNat_snoc, ih, List.length_append,
      List.length_singleton, pow_succ]
    ring

theorem beNat_lt (xs : List Byte) : beNat xs < 256 ^ xs.length := by
  induction xs using List.reverseRecOn with
  | nil => simp [beNat]
  | append_singleton xs x ih =>
    have hx := x.isLt
    rw [beNat_snoc, List.length_append, List.length_singleton, pow_succ]
    omega

theorem beNat_injective {xs ys : List Byte} (hlen : xs.length = ys.length)
    (h : beNat xs = beNat ys) : xs = ys := by
  induction xs using List.reverseRecOn generalizing ys with
  | nil => exact (List.eq_nil_of_length_eq_zero hlen.symm).symm
  | append_singleton xs x ih =>
    cases ys using List.reverseRecOn with
    | nil => simp at hlen
    | append_singleton ys y =>
      rw [beNat_snoc, beNat_snoc] at h
      have hx := x.isLt
      have hy := y.isLt
      have hlast : x = y := BitVec.eq_of_toNat_eq (by omega)
      have hrest : xs = ys := ih (by simpa using hlen) (by omega)
      rw [hlast, hrest]

@[simp] theorem slice_length (data : List Byte) (offset size : ℕ) :
    (slice data offset size).length = size := by simp [slice]

@[simp] theorem wordBytes_length (w : Word) : (wordBytes w).length = 32 := by simp [wordBytes]

theorem slice_add (data : List Byte) (offset m n : ℕ) :
    slice data offset (m + n) = slice data offset m ++ slice data (offset + m) n := by
  simp only [slice, List.range_add, List.map_append, List.map_map]
  congr 1
  apply List.map_congr_left
  intro i _
  simp [Nat.add_assoc]

theorem slice_append (head data rest : List Byte) :
    slice (head ++ (data ++ rest)) head.length data.length = data := by
  apply List.ext_getElem
  · simp
  · intro i _ hi
    simp [slice, List.getD_eq_getElem?_getD, List.getElem?_append, hi]

theorem load_write (memory : ℕ → Byte) (offset : ℕ) (bytes : List Byte) :
    load (write memory offset bytes) offset bytes.length = bytes := by
  apply List.ext_getElem
  · simp [load]
  · intro i _ hi
    simp [load, write, hi]

theorem beNat_wordBytes (w : Word) : beNat (wordBytes w) = w.toNat := by
  have hk : ∀ k ≤ 32,
      beNat ((List.range k).map fun i => BitVec.ofNat 8 (w.toNat / 256 ^ (31 - i))) =
        w.toNat / 256 ^ (32 - k) := by
    intro k hk
    induction k with
    | zero =>
      have hw := w.isLt
      rw [List.range_zero, List.map_nil]
      exact (Nat.div_eq_of_lt (by simpa using hw)).symm
    | succ k ih =>
      rw [List.range_succ, List.map_append, List.map_singleton, beNat_snoc, ih (by omega),
        BitVec.toNat_ofNat]
      have hsub : 32 - k = (31 - k) + 1 := by omega
      rw [hsub, pow_succ, ← Nat.div_div_eq_div_mul, show 32 - (k + 1) = 31 - k by omega]
      omega
  rw [wordBytes, hk 32 (le_refl _), Nat.sub_self, pow_zero, Nat.div_one]

theorem wordAt_append (head rest : List Byte) (w : Word) :
    wordAt (head ++ (wordBytes w ++ rest)) head.length = w := by
  have hs := slice_append head (wordBytes w) rest
  rw [wordBytes_length] at hs
  rw [wordAt, hs, beNat_wordBytes, BitVec.ofNat_toNat, BitVec.setWidth_eq]

theorem wordAt_shiftRight (data : List Byte) (offset m : ℕ) (h : m ≤ 32) :
    wordAt data offset >>> (8 * (32 - m)) = BitVec.ofNat 256 (beNat (slice data offset m)) := by
  have hmn : 32 = m + (32 - m) := by omega
  have hsplit : beNat (slice data offset 32) =
      beNat (slice data offset m) * 256 ^ (32 - m) + beNat (slice data (offset + m) (32 - m)) := by
    conv_lhs => rw [hmn, slice_add, beNat_append, slice_length]
  have hlow := beNat_lt (slice data (offset + m) (32 - m))
  have hall := beNat_lt (slice data offset 32)
  have hhigh := beNat_lt (slice data offset m)
  rw [slice_length] at hlow hall hhigh
  have hpow : 256 ^ m ≤ 256 ^ 32 := Nat.pow_le_pow_right (by omega) h
  apply BitVec.eq_of_toNat_eq
  rw [BitVec.toNat_ushiftRight, wordAt, BitVec.toNat_ofNat, BitVec.toNat_ofNat,
    Nat.mod_eq_of_lt (by omega), Nat.mod_eq_of_lt (by omega), Nat.shiftRight_eq_div_pow, hsplit,
    pow_mul]
  rw [show (2 : ℕ) ^ 8 = 256 by rfl, Nat.mul_comm, Nat.mul_add_div (by positivity),
    Nat.div_eq_of_lt hlow, Nat.add_zero]

section Rules

variable {env : Env} {code data : List Byte} {st : Bool} {pc n : ℕ}
  {stack rest : List Word} {memory : ℕ → Byte} {storage : Word → Word}

theorem Frame.next_of_le {f : Frame} {width : ℕ} (h : stack.length ≤ 1024) :
    f.next width stack = .inl { f with pc := f.pc + width, stack := stack } := if_pos h

theorem eval_of_next {f f' : Frame} (h : exec env f = .inl f') :
    eval env (n + 1) f = eval env n f' := by
  rw [eval, h]

theorem eval_of_done {f : Frame} {r : Result} (h : exec env f = .inr r) :
    eval env (n + 1) f = some r := by
  rw [eval, h]

theorem eval_push (width : ℕ) (value : Word) (h : instrAt code pc = .push width)
    (hv : BitVec.ofNat 256 (beNat (slice code (pc + 1) width)) = value)
    (hs : stack.length < 1024) :
    eval ⟨code, data, st⟩ (n + 1) ⟨pc, stack, memory, storage⟩ =
      eval ⟨code, data, st⟩ n ⟨pc + (width + 1), value :: stack, memory, storage⟩ := by
  apply eval_of_next
  simp only [exec, h, hv]
  exact Frame.next_of_le hs

theorem eval_dup1 {a : Word} (h : instrAt code pc = .dup1) (hs : rest.length < 1023) :
    eval ⟨code, data, st⟩ (n + 1) ⟨pc, a :: rest, memory, storage⟩ =
      eval ⟨code, data, st⟩ n ⟨pc + 1, a :: a :: rest, memory, storage⟩ := by
  apply eval_of_next
  simp only [exec, h]
  exact Frame.next_of_le (by simp only [List.length_cons]; omega)

theorem eval_calldataload {offset : Word} (h : instrAt code pc = .calldataload)
    (hs : rest.length < 1024) :
    eval ⟨code, data, st⟩ (n + 1) ⟨pc, offset :: rest, memory, storage⟩ =
      eval ⟨code, data, st⟩ n ⟨pc + 1, wordAt data offset.toNat :: rest, memory, storage⟩ := by
  apply eval_of_next
  simp only [exec, h]
  exact Frame.next_of_le hs

theorem eval_shr {shift value : Word} (h : instrAt code pc = .shr) (hs : rest.length < 1024) :
    eval ⟨code, data, st⟩ (n + 1) ⟨pc, shift :: value :: rest, memory, storage⟩ =
      eval ⟨code, data, st⟩ n ⟨pc + 1, value >>> shift.toNat :: rest, memory, storage⟩ := by
  apply eval_of_next
  simp only [exec, h]
  exact Frame.next_of_le hs

theorem eval_eq {a b : Word} (h : instrAt code pc = .eq) (hs : rest.length < 1024) :
    eval ⟨code, data, st⟩ (n + 1) ⟨pc, a :: b :: rest, memory, storage⟩ =
      eval ⟨code, data, st⟩ n ⟨pc + 1, (if a = b then 1 else 0) :: rest, memory, storage⟩ := by
  apply eval_of_next
  simp only [exec, h]
  exact Frame.next_of_le hs

theorem eval_codecopy {dest offset size : Word} (h : instrAt code pc = .codecopy)
    (hs : rest.length ≤ 1024) :
    eval ⟨code, data, st⟩ (n + 1) ⟨pc, dest :: offset :: size :: rest, memory, storage⟩ =
      eval ⟨code, data, st⟩ n ⟨pc + 1, rest,
        write memory dest.toNat (slice code offset.toNat size.toNat), storage⟩ := by
  apply eval_of_next
  simp only [exec, h]
  exact Frame.next_of_le hs

theorem eval_mstore {offset value : Word} (h : instrAt code pc = .mstore)
    (hs : rest.length ≤ 1024) :
    eval ⟨code, data, st⟩ (n + 1) ⟨pc, offset :: value :: rest, memory, storage⟩ =
      eval ⟨code, data, st⟩ n
        ⟨pc + 1, rest, write memory offset.toNat (wordBytes value), storage⟩ := by
  apply eval_of_next
  simp only [exec, h]
  exact Frame.next_of_le hs

theorem eval_sload {key : Word} (h : instrAt code pc = .sload) (hs : rest.length < 1024) :
    eval ⟨code, data, st⟩ (n + 1) ⟨pc, key :: rest, memory, storage⟩ =
      eval ⟨code, data, st⟩ n ⟨pc + 1, storage key :: rest, memory, storage⟩ := by
  apply eval_of_next
  simp only [exec, h]
  exact Frame.next_of_le hs

theorem eval_sstore {key value : Word} (h : instrAt code pc = .sstore)
    (hs : rest.length ≤ 1024) (hw : st = false) :
    eval ⟨code, data, st⟩ (n + 1) ⟨pc, key :: value :: rest, memory, storage⟩ =
      eval ⟨code, data, st⟩ n
        ⟨pc + 1, rest, memory, fun k => if k = key then value else storage k⟩ := by
  apply eval_of_next
  simp only [exec, h, hw]
  exact Frame.next_of_le hs

theorem eval_sstore_static {key value : Word} (h : instrAt code pc = .sstore)
    (hw : st = true) :
    eval ⟨code, data, st⟩ (n + 1) ⟨pc, key :: value :: rest, memory, storage⟩ =
      some .exception := by
  apply eval_of_done
  simp [exec, h, hw]

theorem eval_jumpdest (h : instrAt code pc = .jumpdest) (hs : stack.length ≤ 1024) :
    eval ⟨code, data, st⟩ (n + 1) ⟨pc, stack, memory, storage⟩ =
      eval ⟨code, data, st⟩ n ⟨pc + 1, stack, memory, storage⟩ := by
  apply eval_of_next
  simp only [exec, h]
  exact Frame.next_of_le hs

theorem eval_jumpi_taken {dest cond : Word} (h : instrAt code pc = .jumpi)
    (hs : rest.length ≤ 1024) (hc : cond ≠ 0) (hd : validJump code dest.toNat = true) :
    eval ⟨code, data, st⟩ (n + 1) ⟨pc, dest :: cond :: rest, memory, storage⟩ =
      eval ⟨code, data, st⟩ n ⟨dest.toNat, rest, memory, storage⟩ := by
  apply eval_of_next
  simp only [exec, h, hc, hd, if_false, if_true]
  exact Frame.next_of_le hs

theorem eval_jumpi_passed {dest : Word} (h : instrAt code pc = .jumpi)
    (hs : rest.length ≤ 1024) :
    eval ⟨code, data, st⟩ (n + 1) ⟨pc, dest :: 0 :: rest, memory, storage⟩ =
      eval ⟨code, data, st⟩ n ⟨pc + 1, rest, memory, storage⟩ := by
  apply eval_of_next
  simp only [exec, h, if_true]
  exact Frame.next_of_le hs

theorem eval_stop (h : instrAt code pc = .stop) :
    eval ⟨code, data, st⟩ (n + 1) ⟨pc, stack, memory, storage⟩ = some (.success [] storage) := by
  apply eval_of_done
  simp only [exec, h]

theorem eval_ret {offset size : Word} (h : instrAt code pc = .ret) :
    eval ⟨code, data, st⟩ (n + 1) ⟨pc, offset :: size :: rest, memory, storage⟩ =
      some (.success (load memory offset.toNat size.toNat) storage) := by
  apply eval_of_done
  simp only [exec, h]

theorem eval_revert {offset size : Word} (h : instrAt code pc = .revert) :
    eval ⟨code, data, st⟩ (n + 1) ⟨pc, offset :: size :: rest, memory, storage⟩ =
      some (.revert (load memory offset.toNat size.toNat)) := by
  apply eval_of_done
  simp only [exec, h]

end Rules

theorem exec_next_halts {env : Env} {f f' : Frame} (h : exec env f = .inl f') :
    (instrAt env.code f.pc).halts = false := by
  unfold exec at h
  split at h <;> first | cases h | simp_all [Instr.halts]

section Metered

variable {γ : Type} {sched : Schedule γ} {env : Env}

/-- What is left to spend bounds the number of steps. -/
theorem run_isSome {fuel : ℕ} {f : Frame} {g : γ} (h : sched.left g < fuel) :
    (run sched env fuel f g).isSome := by
  induction fuel generalizing f g with
  | zero => omega
  | succ fuel ih =>
    rw [run]
    cases hc : sched.charge env f g with
    | none => rfl
    | some g' =>
      cases he : exec env f with
      | inr r => rfl
      | inl f' =>
        have hlt := sched.charge_lt env f g g' hc (exec_next_halts he)
        exact ih (by omega)

/-- A run that is paid for step by step ends as the run for free does, or with an exception. -/
theorem run_eq_eval_or {fuel n : ℕ} {f : Frame} {g : γ} {r r' : Result}
    (he : eval env n f = some r) (hr : run sched env fuel f g = some r') :
    r' = .exception ∨ r' = r := by
  induction fuel generalizing n f g with
  | zero => cases hr
  | succ fuel ih =>
    cases n with
    | zero => cases he
    | succ n =>
      rw [run] at hr
      rw [eval] at he
      -- the two runs execute the same instruction; only the metered one may fail to pay for it
      cases hc : sched.charge env f g with
      | none =>
        rw [hc] at hr
        exact .inl (Option.some.inj hr).symm
      | some g' =>
        rw [hc] at hr
        cases hx : exec env f with
        | inr s =>
          rw [hx] at he hr
          exact .inr ((Option.some.inj hr).symm.trans (Option.some.inj he))
        | inl f' =>
          rw [hx] at he hr
          exact ih he hr

theorem execute_eq_or {n : ℕ} {g : γ} {storage : Word → Word} {r : Result}
    (he : eval env n (.start storage) = some r) :
    execute sched env g storage = .exception ∨ execute sched env g storage = r := by
  have hsome : (run sched env (sched.left g + 1) (.start storage) g).isSome :=
    run_isSome (Nat.lt_succ_self _)
  obtain ⟨r', hr⟩ := Option.isSome_iff_exists.mp hsome
  have hx : execute sched env g storage = r' := by rw [execute, hr]; rfl
  rw [hx]
  exact run_eq_eval_or he hr

def Affordable (sched : Schedule γ) (env : Env) (c : ℕ) : ℕ → Frame → Prop
  | 0, _ => True
  | n + 1, f => (∀ g, c ≤ sched.left g → ∃ g', sched.charge env f g = some g' ∧
      sched.left g ≤ sched.left g' + c) ∧ ∀ f', exec env f = .inl f' → Affordable sched env c n f'

/-- With enough to spend, paying changes nothing. -/
theorem run_eq_eval {c n fuel : ℕ} {f : Frame} {g : γ} {r : Result}
    (ha : Affordable sched env c n f) (he : eval env n f = some r) (hg : n * c ≤ sched.left g)
    (hf : n ≤ fuel) : run sched env fuel f g = some r := by
  induction n generalizing fuel f g with
  | zero => cases he
  | succ n ih =>
    obtain ⟨fuel, rfl⟩ : ∃ k, fuel = k + 1 := ⟨fuel - 1, by omega⟩
    rw [Nat.succ_mul] at hg
    obtain ⟨g', hc, hle⟩ := ha.1 g (by omega)
    rw [eval] at he
    rw [run, hc]
    cases hx : exec env f with
    | inr s =>
      rw [hx] at he
      exact he
    | inl f' =>
      rw [hx] at he
      exact ih (ha.2 f' hx) he (by omega) (by omega)

theorem execute_eq {c n : ℕ} {g : γ} {storage : Word → Word} {r : Result} (hc : 0 < c)
    (ha : Affordable sched env c n (.start storage)) (he : eval env n (.start storage) = some r)
    (hg : n * c ≤ sched.left g) : execute sched env g storage = r := by
  have hn : n ≤ n * c := Nat.le_mul_of_pos_right n hc
  rw [execute, run_eq_eval ha he hg (by omega)]
  rfl

end Metered

/-- Code that reaches no instruction without a meaning, whatever it is called with and pays. -/
def Covered (code : List Byte) : Prop :=
  ∀ (γ : Type) (sched : Schedule γ) (g : γ) (calldata : List Byte) (storage : Word → Word),
    execute sched ⟨code, calldata, false⟩ g storage ≠ .outside

theorem covered_of_eval {code : List Byte} (h : ∀ calldata storage, ∃ n r,
    eval ⟨code, calldata, false⟩ n (.start storage) = some r ∧ r ≠ .outside) : Covered code := by
  intro γ sched g calldata storage
  obtain ⟨n, r, he, hr⟩ := h calldata storage
  have hcases : execute sched ⟨code, calldata, false⟩ g storage = .exception ∨
      execute sched ⟨code, calldata, false⟩ g storage = r := execute_eq_or he
  rcases hcases with hx | hx
  · rw [hx]
    exact Result.noConfusion
  · rw [hx]
    exact hr

theorem covered_nil : Covered [] :=
  covered_of_eval fun _ _ => ⟨1, _, eval_stop rfl, Result.noConfusion⟩

/-- The price list on which every instruction costs one. -/
def Schedule.flat : Schedule ℕ where
  left := id
  charge _ _ g := if 0 < g then some (g - 1) else none
  charge_lt := by
    intro env f g g' h _
    split_ifs at h with hg
    rw [← Option.some.inj h]
    exact Nat.sub_lt hg Nat.one_pos

theorem affordable_flat (env : Env) (n : ℕ) (f : Frame) : Affordable .flat env 1 n f := by
  induction n generalizing f with
  | zero => trivial
  | succ n ih =>
    refine ⟨fun g hg => ⟨g - 1, if_pos hg, ?_⟩, fun f' _ => ih f'⟩
    show g ≤ g - 1 + 1
    omega

structure Call (γ : Type) where
  calldata : List Byte
  isStatic : Bool
  meter : γ

section Calls

variable {γ : Type} (sched : Schedule γ) (code : List Byte)

def Call.result (c : Call γ) (storage : Word → Word) : Result :=
  execute sched ⟨code, c.calldata, c.isStatic⟩ c.meter storage

def calls : (Word → Word) → List (Call γ) → List Result × (Word → Word)
  | storage, [] => ([], storage)
  | storage, c :: cs =>
    let r := c.result sched code storage
    let rest := calls (r.storageAfter storage) cs
    (r :: rest.1, rest.2)

theorem calls_append (storage : Word → Word) (cs ds : List (Call γ)) :
    (calls sched code storage (cs ++ ds)).2 =
      (calls sched code (calls sched code storage cs).2 ds).2 := by
  induction cs generalizing storage with
  | nil => rfl
  | cons c cs ih => exact ih _

end Calls

end StackMachine
