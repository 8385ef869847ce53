import KanariEvm.Lib.Outcome
import KanariEvm.Lib.StackMachine
import KanariEvm.Primitives

namespace KanariEvm.Contracts
open StackMachine

def simpleStorageSetSelector : Bytes := [0x60, 0xfe, 0x47, 0xb1]

def simpleStorageGetSelector : Bytes := [0x6d, 0x4c, 0xe6, 0x3c]

/-- Runtime bytecode of `SimpleStorage`: a dispatcher on the selector, and a word at slot 0. -/
def simpleStorageRuntime : Bytes := [
  0x60, 0x00,                   -- 0x00: PUSH1 0x00
  0x35,                         -- 0x02: CALLDATALOAD
  0x60, 0xe0,                   -- 0x03: PUSH1 0xe0
  0x1c,                         -- 0x05: SHR (selector)
  0x80,                         -- 0x06: DUP1
  0x63, 0x60, 0xfe, 0x47, 0xb1, -- 0x07: PUSH4 set selector
  0x14,                         -- 0x0c: EQ
  0x60, 0x2a,                   -- 0x0d: PUSH1 set_dest
  0x57,                         -- 0x0f: JUMPI
  0x63, 0x6d, 0x4c, 0xe6, 0x3c, -- 0x10: PUSH4 get selector
  0x14,                         -- 0x15: EQ
  0x60, 0x33,                   -- 0x16: PUSH1 get_dest
  0x57,                         -- 0x18: JUMPI
  0x60, 0x00,                   -- 0x19: PUSH1 0x00
  0x80,                         -- 0x1b: DUP1
  0xfd,                         -- 0x1c: REVERT (unknown selector)
  0x00, 0x00, 0x00, 0x00, 0x00, 0x00, 0x00, 0x00, 0x00, 0x00, 0x00, 0x00,
  0x00,                         -- 0x1d-0x29: padding
  0x5b,                         -- 0x2a: JUMPDEST (set)
  0x60, 0x04,                   -- 0x2b: PUSH1 0x04
  0x35,                         -- 0x2d: CALLDATALOAD (uint arg)
  0x60, 0x00,                   -- 0x2e: PUSH1 0x00
  0x55,                         -- 0x30: SSTORE
  0x00,                         -- 0x31: STOP
  0x00,                         -- 0x32: padding
  0x5b,                         -- 0x33: JUMPDEST (get)
  0x60, 0x00,                   -- 0x34: PUSH1 0x00
  0x54,                         -- 0x36: SLOAD
  0x60, 0x00,                   -- 0x37: PUSH1 0x00
  0x52,                         -- 0x39: MSTORE
  0x60, 0x20,                   -- 0x3a: PUSH1 0x20
  0x60, 0x00,                   -- 0x3c: PUSH1 0x00
  0xf3]                         -- 0x3e: RETURN

/-- Build standard init code deploying `runtime` via CODECOPY. Prefix is 13 bytes, so `runtime`
must fit in `13 + len <= 255`. -/
def deployInit (runtime : Bytes) : Outcome Bytes :=
  if runtime = [] ∨ 242 < runtime.length then .panicked
  else
    let len : U8 := BitVec.ofNat 8 runtime.length
    let off : U8 := 13
    .returned ([
      0x60, len,  -- PUSH1 len
      0x80,       -- DUP1
      0x60, off,  -- PUSH1 13 (code offset of embedded runtime)
      0x60, 0x00, -- PUSH1 0x00 (memory dest)
      0x39,       -- CODECOPY
      0x60, len,  -- PUSH1 len
      0x60, 0x00, -- PUSH1 0x00 (offset)
      0xf3        -- RETURN
      ] ++ runtime)

def encodeSet (value : U64) : Bytes :=
  simpleStorageSetSelector ++ (List.replicate 24 0 ++ toBeBytes 8 value.toNat)

def encodeGet : Bytes := simpleStorageGetSelector

/-- A contract that keeps one word, in slot 0: `set` replaces it by its argument, `get` returns it,
and any other selector reverts. Calldata reads as zeros past its end. -/
def simpleStorage (isStatic : Bool) (calldata : Bytes) (storage : Word → Word) : Result :=
  if slice calldata 0 4 = simpleStorageSetSelector then
    if isStatic then .exception
    else .success [] fun k => if k = 0 then wordAt calldata 4 else storage k
  else if slice calldata 0 4 = simpleStorageGetSelector then
    .success (wordBytes (storage 0)) storage
  else .revert []

section Runtime

variable (isStatic : Bool) (calldata : Bytes) (storage : Word → Word)

/-- The dispatcher compares selectors as words; as bytes they are equal just then. -/
theorem selector_eq_iff (selector : Bytes) (h : selector.length = 4) :
    BitVec.ofNat 256 (beNat selector) = wordAt calldata 0 >>> 224 ↔
      slice calldata 0 4 = selector := by
  have hword := wordAt_shiftRight calldata 0 4 (by omega)
  rw [show 8 * (32 - 4) = 224 by rfl] at hword
  rw [hword]
  constructor
  · intro heq
    have hs := beNat_lt selector
    have hc := beNat_lt (slice calldata 0 4)
    rw [h] at hs
    rw [slice_length] at hc
    have hnat := congrArg BitVec.toNat heq
    rw [BitVec.toNat_ofNat, BitVec.toNat_ofNat, Nat.mod_eq_of_lt (by omega),
      Nat.mod_eq_of_lt (by omega)] at hnat
    exact beNat_injective (by rw [slice_length, h]) hnat.symm
  · rintro rfl
    rfl

theorem eval_compare {pc n : ℕ} (dest : Word) (selector : Bytes) {rest : List Word}
    (hlen : selector.length = 4) (hrest : rest.length ≤ 2)
    (hpush : instrAt simpleStorageRuntime pc = .push 4)
    (hsel : slice simpleStorageRuntime (pc + 1) 4 = selector)
    (heq : instrAt simpleStorageRuntime (pc + 5) = .eq)
    (hpush' : instrAt simpleStorageRuntime (pc + 6) = .push 1)
    (hdest : BitVec.ofNat 256 (beNat (slice simpleStorageRuntime (pc + 7) 1)) = dest)
    (hjumpi : instrAt simpleStorageRuntime (pc + 8) = .jumpi)
    (hvalid : validJump simpleStorageRuntime dest.toNat = true) :
    eval ⟨simpleStorageRuntime, calldata, isStatic⟩ (n + 4)
        ⟨pc, wordAt calldata 0 >>> 224 :: rest, fun _ => 0, storage⟩ =
      if slice calldata 0 4 = selector then
        eval ⟨simpleStorageRuntime, calldata, isStatic⟩ n ⟨dest.toNat, rest, fun _ => 0, storage⟩
      else
        eval ⟨simpleStorageRuntime, calldata, isStatic⟩ n ⟨pc + 9, rest, fun _ => 0, storage⟩ := by
  have hroom : rest.length + 1 < 1024 := by omega
  refine Eq.trans (eval_push 4 (BitVec.ofNat 256 (beNat selector)) hpush (by rw [hsel]) hroom) ?_
  refine Eq.trans (eval_eq heq (by omega)) ?_
  refine Eq.trans (eval_push 1 dest hpush' hdest hroom) ?_
  by_cases hs : slice calldata 0 4 = selector
  · rw [if_pos hs, if_pos ((selector_eq_iff calldata selector hlen).mpr hs)]
    exact eval_jumpi_taken hjumpi (by omega) (by decide) hvalid
  · rw [if_neg hs, if_neg (mt (selector_eq_iff calldata selector hlen).mp hs)]
    exact eval_jumpi_passed hjumpi (by omega)

theorem eval_set {n : ℕ} {rest : List Word} (hrest : rest.length ≤ 2) :
    eval ⟨simpleStorageRuntime, calldata, isStatic⟩ (n + 6)
        ⟨0x2a, rest, fun _ => 0, storage⟩ =
      some (if isStatic then .exception
        else .success [] fun k => if k = 0 then wordAt calldata 4 else storage k) := by
  have hroom : rest.length + 1 < 1024 := by omega
  refine Eq.trans (eval_jumpdest (by decide) (by omega)) ?_
  refine Eq.trans (eval_push 1 4 (by decide) (by decide) (by omega)) ?_
  refine Eq.trans (eval_calldataload (by decide) (by omega)) ?_
  refine Eq.trans (eval_push 1 0 (by decide) (by decide) hroom) ?_
  cases isStatic with
  | true => exact eval_sstore_static (by decide) rfl
  | false =>
    refine Eq.trans (eval_sstore (by decide) (by omega) rfl) ?_
    exact eval_stop (by decide)

theorem eval_get {n : ℕ} {rest : List Word} (hrest : rest.length ≤ 2) :
    eval ⟨simpleStorageRuntime, calldata, isStatic⟩ (n + 8)
        ⟨0x33, rest, fun _ => 0, storage⟩ = some (.success (wordBytes (storage 0)) storage) := by
  have hroom : rest.length + 1 < 1024 := by omega
  refine Eq.trans (eval_jumpdest (by decide) (by omega)) ?_
  refine Eq.trans (eval_push 1 0 (by decide) (by decide) (by omega)) ?_
  refine Eq.trans (eval_sload (by decide) (by omega)) ?_
  refine Eq.trans (eval_push 1 0 (by decide) (by decide) hroom) ?_
  refine Eq.trans (eval_mstore (by decide) (by omega)) ?_
  refine Eq.trans (eval_push 1 0x20 (by decide) (by decide) (by omega)) ?_
  refine Eq.trans (eval_push 1 0 (by decide) (by decide) hroom) ?_
  refine Eq.trans (eval_ret (by decide)) ?_
  have hload := load_write (fun _ => 0) 0 (wordBytes (storage 0))
  rw [wordBytes_length] at hload
  exact congrArg (fun out => some (Result.success out storage)) hload

theorem eval_unknown {n : ℕ} {rest : List Word} (hrest : rest.length ≤ 2) :
    eval ⟨simpleStorageRuntime, calldata, isStatic⟩ (n + 3)
        ⟨0x19, rest, fun _ => 0, storage⟩ = some (.revert []) := by
  refine Eq.trans (eval_push 1 0 (by decide) (by decide) (by omega)) ?_
  refine Eq.trans (eval_dup1 (by decide) (by omega)) ?_
  exact eval_revert (by decide)

/-- The bytecode does what the contract is for, in at most twenty-one instructions. -/
theorem eval_simpleStorage :
    eval ⟨simpleStorageRuntime, calldata, isStatic⟩ 21 (.start storage) =
      some (simpleStorage isStatic calldata storage) := by
  refine Eq.trans (eval_push 1 0 (by decide) (by decide) (by decide)) ?_
  refine Eq.trans (eval_calldataload (by decide) (by decide)) ?_
  refine Eq.trans (eval_push 1 0xe0 (by decide) (by decide) (by simp)) ?_
  refine Eq.trans (eval_shr (by decide) (by decide)) ?_
  refine Eq.trans (eval_dup1 (by decide) (by decide)) ?_
  -- dispatch: the selector of `set` is tried first
  refine Eq.trans (eval_compare isStatic calldata storage 0x2a simpleStorageSetSelector rfl
    (by simp) (by decide) (by decide) (by decide) (by decide) (by decide) (by decide)
    (by decide)) ?_
  unfold simpleStorage
  by_cases hset : slice calldata 0 4 = simpleStorageSetSelector
  · rw [if_pos hset, if_pos hset]
    exact eval_set isStatic calldata storage (by simp)
  · rw [if_neg hset, if_neg hset]
    refine Eq.trans (eval_compare isStatic calldata storage 0x33 simpleStorageGetSelector rfl
      (by simp) (by decide) (by decide) (by decide) (by decide) (by decide) (by decide)
    (by decide)) ?_
    by_cases hget : slice calldata 0 4 = simpleStorageGetSelector
    · rw [if_pos hget, if_pos hget]
      exact eval_get isStatic calldata storage (by simp)
    · rw [if_neg hget, if_neg hget]
      exact eval_unknown isStatic calldata storage (by simp)

end Runtime

theorem simpleStorageRuntime_covered : Covered simpleStorageRuntime := by
  refine covered_of_eval fun calldata storage =>
    ⟨21, _, eval_simpleStorage false calldata storage, ?_⟩
  unfold simpleStorage
  split_ifs <;> exact Result.noConfusion

/-- Whatever the instructions cost, a call of the runtime fails for want of gas or does what the
contract is for; it does the latter once it can spend as much on each of 21 instructions as the
dearest of them costs. -/
theorem runtime_implements_simpleStorage {γ : Type} (sched : Schedule γ) (g : γ) (isStatic : Bool)
    (calldata : Bytes) (storage : Word → Word) :
    (execute sched ⟨simpleStorageRuntime, calldata, isStatic⟩ g storage = .exception ∨
      execute sched ⟨simpleStorageRuntime, calldata, isStatic⟩ g storage =
        simpleStorage isStatic calldata storage) ∧
    ∀ c, 0 < c →
      Affordable sched ⟨simpleStorageRuntime, calldata, isStatic⟩ c 21 (.start storage) →
      21 * c ≤ sched.left g →
      execute sched ⟨simpleStorageRuntime, calldata, isStatic⟩ g storage =
        simpleStorage isStatic calldata storage :=
  ⟨execute_eq_or (eval_simpleStorage isStatic calldata storage),
    fun _ hc ha hg => execute_eq hc ha (eval_simpleStorage isStatic calldata storage) hg⟩

theorem runtime_implements_simpleStorage_get :
    execute .flat ⟨simpleStorageRuntime, encodeGet, false⟩ 21 (fun _ => 7) =
      .success (wordBytes 7) fun _ => 7 :=
  (runtime_implements_simpleStorage .flat 21 false encodeGet fun _ => 7).2 1 Nat.one_pos
    (affordable_flat _ _ _) (le_refl _)

def deployHead (len : U8) : Bytes :=
  [0x60, len, 0x80, 0x60, 13, 0x60, 0x00, 0x39, 0x60, len, 0x60, 0x00, 0xf3]

theorem deployInit_eq_returned_iff {runtime init : Bytes} : deployInit runtime = .returned init ↔
    (runtime ≠ [] ∧ runtime.length ≤ 242) ∧
      init = deployHead (BitVec.ofNat 8 runtime.length) ++ runtime := by
  unfold deployInit
  split_ifs with h
  · simp only [false_iff, not_and]
    intro hr
    rcases h with h | h
    · exact absurd h hr.1
    · omega
  · rw [not_or, not_lt] at h
    constructor
    · intro hi
      exact ⟨h, (Outcome.returned.inj hi).symm⟩
    · rintro ⟨-, rfl⟩
      rfl

theorem eval_deployInit {runtime init : Bytes} (h : deployInit runtime = .returned init)
    (calldata : Bytes) (isStatic : Bool) (storage : Word → Word) :
    eval ⟨init, calldata, isStatic⟩ 8 (.start storage) = some (.success runtime storage) := by
  obtain ⟨⟨-, hle⟩, rfl⟩ := deployInit_eq_returned_iff.mp h
  have hlen : BitVec.ofNat 256 (beNat [BitVec.ofNat 8 runtime.length]) =
      BitVec.ofNat 256 runtime.length := by
    congr 1
    simp only [beNat, List.foldl, BitVec.toNat_ofNat]
    omega
  refine Eq.trans (eval_push 1 (BitVec.ofNat 256 runtime.length) rfl hlen (by decide)) ?_
  refine Eq.trans (eval_dup1 rfl (by decide)) ?_
  refine Eq.trans (eval_push 1 13 rfl rfl (by simp)) ?_
  refine Eq.trans (eval_push 1 0 rfl rfl (by simp)) ?_
  refine Eq.trans (eval_codecopy rfl (by simp)) ?_
  refine Eq.trans (eval_push 1 (BitVec.ofNat 256 runtime.length) rfl hlen (by simp)) ?_
  refine Eq.trans (eval_push 1 0 rfl rfl (by simp)) ?_
  refine Eq.trans (eval_ret rfl) ?_
  -- what is returned is what `codecopy` brought from behind the head
  have hnat : (BitVec.ofNat 256 runtime.length).toNat = runtime.length := by
    rw [BitVec.toNat_ofNat]
    omega
  have hslice := slice_append (deployHead (BitVec.ofNat 8 runtime.length)) runtime []
  have hload := load_write (fun _ => 0) 0 runtime
  rw [List.append_nil] at hslice
  rw [hnat, show (13 : Word).toNat = 13 by rfl, show (0 : Word).toNat = 0 by rfl]
  change some (Result.success (load (write _ 0 (slice _
    (deployHead (BitVec.ofNat 8 runtime.length)).length runtime.length)) 0 _) storage) = _
  rw [hslice, hload]

/-- Whatever the instructions cost, running the init code of a runtime fails for want of gas or
returns exactly that runtime, which is what a creation charges the deposit for and checks before it
becomes the contract's code; a runtime gets an init code just when it has 1 to 242 bytes. -/
theorem deployInit_deploys {γ : Type} (sched : Schedule γ) (g : γ) (runtime calldata : Bytes)
    (isStatic : Bool) (storage : Word → Word) :
    (deployInit runtime ≠ .panicked ↔ 1 ≤ runtime.length ∧ runtime.length ≤ 242) ∧
    ∀ init, deployInit runtime = .returned init →
      (execute sched ⟨init, calldata, isStatic⟩ g storage = .exception ∨
        execute sched ⟨init, calldata, isStatic⟩ g storage = .success runtime storage) ∧
      ∀ c, 0 < c → Affordable sched ⟨init, calldata, isStatic⟩ c 8 (.start storage) →
        8 * c ≤ sched.left g →
        execute sched ⟨init, calldata, isStatic⟩ g storage = .success runtime storage := by
  refine ⟨?_, fun init h => ?_⟩
  · unfold deployInit
    split_ifs with h
    · refine iff_of_false (not_not.mpr rfl) fun hlen => ?_
      rcases h with rfl | h
      · exact absurd hlen.1 (by decide)
      · omega
    · rw [not_or, not_lt] at h
      exact iff_of_true (by simp) ⟨List.length_pos_iff.mpr h.1, h.2⟩
  · have he := eval_deployInit h calldata isStatic storage
    exact ⟨execute_eq_or he, fun c hc ha hg => execute_eq hc ha he hg⟩

theorem deployInit_deploys_simpleStorage : ∃ init,
    deployInit simpleStorageRuntime = .returned init ∧
      execute .flat ⟨init, [], false⟩ 8 (fun _ => 0) =
        .success simpleStorageRuntime fun _ => 0 :=
  ⟨_, rfl, ((deployInit_deploys .flat 8 simpleStorageRuntime [] false fun _ => 0).2 _ rfl).2 1
    Nat.one_pos (affordable_flat _ _ _) (le_refl _)⟩

inductive Reply
  | returned (output : Bytes)
  | reverted (output : Bytes)
  | failed
deriving DecidableEq

def Reply.ofResult : Result → Reply
  | .success output _ => .returned output
  | .revert output => .reverted output
  | _ => .failed

/-- A register: the contract without its bytecode and without the rest of its storage. -/
def register (isStatic : Bool) (calldata : Bytes) (w : Word) : Reply × Word :=
  if slice calldata 0 4 = simpleStorageSetSelector then
    if isStatic then (.failed, w) else (.returned [], wordAt calldata 4)
  else if slice calldata 0 4 = simpleStorageGetSelector then (.returned (wordBytes w), w)
  else (.reverted [], w)

/-- The calls a register can have answered so: any of them may fail, which changes nothing. -/
inductive RegisterRun {γ : Type} : Word → List (Call γ) → List Reply → Word → Prop
  | done (w : Word) : RegisterRun w [] [] w
  | failed {w w' : Word} {c : Call γ} {cs : List (Call γ)} {rs : List Reply}
      (rest : RegisterRun w cs rs w') : RegisterRun w (c :: cs) (.failed :: rs) w'
  | answered {w w' : Word} {c : Call γ} {cs : List (Call γ)} {rs : List Reply}
      (rest : RegisterRun (register c.isStatic c.calldata w).2 cs rs w') :
      RegisterRun w (c :: cs) ((register c.isStatic c.calldata w).1 :: rs) w'

theorem RegisterRun.single {γ : Type} {w w' : Word} {c : Call γ} {reply : Reply}
    (h : (reply, w') = (.failed, w) ∨ (reply, w') = register c.isStatic c.calldata w) :
    RegisterRun w [c] [reply] w' := by
  rcases h with h | h
  · obtain ⟨rfl, rfl⟩ := Prod.mk.inj h
    exact .failed (.done _)
  · obtain ⟨rfl, rfl⟩ := Prod.mk.inj h
    exact .answered (.done _)

theorem RegisterRun.append {γ : Type} {w w' w'' : Word} {cs cs' : List (Call γ)}
    {rs rs' : List Reply} (h : RegisterRun w cs rs w') (h' : RegisterRun w' cs' rs' w'') :
    RegisterRun w (cs ++ cs') (rs ++ rs') w'' := by
  induction h with
  | done => exact h'
  | failed _ ih => exact .failed (ih h')
  | answered _ ih => exact .answered (ih h')

theorem simpleStorage_register (isStatic : Bool) (calldata : Bytes) (storage : Word → Word) :
    Reply.ofResult (simpleStorage isStatic calldata storage) =
        (register isStatic calldata (storage 0)).1 ∧
      (simpleStorage isStatic calldata storage).storageAfter storage =
        fun k => if k = 0 then (register isStatic calldata (storage 0)).2 else storage k := by
  have hid : storage = fun k => if k = 0 then storage 0 else storage k := by
    funext k
    by_cases hk : k = 0
    · rw [if_pos hk, hk]
    · rw [if_neg hk]
  unfold simpleStorage register
  split_ifs
  · exact ⟨rfl, hid⟩
  · exact ⟨rfl, rfl⟩
  · exact ⟨rfl, hid⟩
  · exact ⟨rfl, hid⟩

section Calls

variable {γ : Type} (sched : Schedule γ)

theorem result_eq_or (c : Call γ) (storage : Word → Word) :
    c.result sched simpleStorageRuntime storage = .exception ∨
      c.result sched simpleStorageRuntime storage =
        simpleStorage c.isStatic c.calldata storage :=
  execute_eq_or (eval_simpleStorage c.isStatic c.calldata storage)

theorem calls_register (storage : Word → Word) (cs : List (Call γ)) :
    RegisterRun (storage 0) cs
        ((calls sched simpleStorageRuntime storage cs).1.map Reply.ofResult)
        ((calls sched simpleStorageRuntime storage cs).2 0) ∧
      ∀ k, k ≠ 0 → (calls sched simpleStorageRuntime storage cs).2 k = storage k := by
  induction cs generalizing storage with
  | nil => exact ⟨.done _, fun _ _ => rfl⟩
  | cons c cs ih =>
    have hstep := result_eq_or sched c storage
    simp only [calls, List.map_cons]
    rcases hstep with h | h
    · rw [h]
      exact ⟨.failed (ih storage).1, (ih storage).2⟩
    · obtain ⟨hreply, hafter⟩ := simpleStorage_register c.isStatic c.calldata storage
      have hrest := ih ((simpleStorage c.isStatic c.calldata storage).storageAfter storage)
      rw [h, hreply]
      rw [hafter] at hrest ⊢
      exact ⟨.answered hrest.1, fun k hk => (hrest.2 k hk).trans (if_neg hk)⟩

/-- Over its whole life, whatever it is called with and whatever gas the calls have, a contract
created from the init code of `SimpleStorage` is a register in slot 0 of its storage: it answers
each call as the register does or fails for want of gas, and no other slot is ever written. -/
theorem deployed_contract_is_register {g : γ} {init code data : Bytes}
    {storage after : Word → Word} (hinit : deployInit simpleStorageRuntime = .returned init)
    (hdeploy : execute sched ⟨init, data, false⟩ g storage = .success code after)
    (cs : List (Call γ)) :
    code = simpleStorageRuntime ∧ after = storage ∧
      RegisterRun (storage 0) cs ((calls sched code after cs).1.map Reply.ofResult)
        ((calls sched code after cs).2 0) ∧
      ∀ k, k ≠ 0 → (calls sched code after cs).2 k = storage k := by
  have hcases : execute sched ⟨init, data, false⟩ g storage = .exception ∨
      execute sched ⟨init, data, false⟩ g storage = .success simpleStorageRuntime storage :=
    execute_eq_or (eval_deployInit hinit data false storage)
  rw [hdeploy] at hcases
  rcases hcases with h | h
  · cases h
  · cases h
    exact ⟨rfl, rfl, calls_register sched storage cs⟩

theorem deployed_contract_is_register_set_get : ∃ init code after,
    deployInit simpleStorageRuntime = .returned init ∧
      execute .flat ⟨init, [], false⟩ 8 (fun _ => 0) = .success code after ∧
      RegisterRun 0 [⟨encodeSet 5, false, 21⟩, ⟨encodeGet, false, 21⟩]
        ((calls .flat code after [⟨encodeSet 5, false, 21⟩, ⟨encodeGet, false, 21⟩]).1.map
          Reply.ofResult)
        ((calls .flat code after [⟨encodeSet 5, false, 21⟩, ⟨encodeGet, false, 21⟩]).2 0) := by
  have hinit : deployInit simpleStorageRuntime = .returned _ := rfl
  have hdeploy := execute_eq (g := 8) Nat.one_pos (affordable_flat _ 8 _)
    (eval_deployInit hinit [] false fun _ => 0) (le_refl _)
  exact ⟨_, _, _, hinit, hdeploy, (deployed_contract_is_register .flat hinit hdeploy _).2.2.1⟩

theorem beNat_reverse (bytes : Bytes) : beNat bytes.reverse = fromLeBytes bytes := by
  induction bytes with
  | nil => rfl
  | cons b bs ih =>
    rw [List.reverse_cons, beNat_snoc, ih, fromLeBytes]
    omega

theorem beNat_toBeBytes (k n : ℕ) (h : n < 256 ^ k) : beNat (toBeBytes k n) = n := by
  rw [toBeBytes, beNat_reverse, fromLeBytes_toLeBytes k n h]

theorem wordBytes_eq_toBeBytes (w : Word) : wordBytes w = toBeBytes 32 w.toNat := by
  apply beNat_injective (by simp)
  rw [beNat_wordBytes, beNat_toBeBytes 32 w.toNat (by simpa using w.isLt)]

theorem wordAt_encodeSet (value : U64) : wordAt (encodeSet value) 4 = value.setWidth 256 := by
  have hnat : (value.setWidth 256).toNat = value.toNat := by
    rw [BitVec.toNat_setWidth]
    have := value.isLt
    omega
  have hbytes : List.replicate 24 0 ++ toBeBytes 8 value.toNat =
      wordBytes (value.setWidth 256) := by
    apply beNat_injective (by simp)
    rw [beNat_wordBytes, beNat_append, beNat_toBeBytes 8 _ (by simpa using value.isLt), hnat]
    simp [beNat]
  have hword := wordAt_append simpleStorageSetSelector [] (value.setWidth 256)
  rw [List.append_nil, ← hbytes] at hword
  exact hword

theorem RegisterRun.eq_of_no_set {w w' : Word} {cs : List (Call γ)} {rs : List Reply}
    (h : RegisterRun w cs rs w')
    (hcs : ∀ c ∈ cs, slice c.calldata 0 4 ≠ simpleStorageSetSelector) : w' = w := by
  induction h with
  | done => rfl
  | failed _ ih => exact ih fun c hc => hcs c (List.mem_cons_of_mem _ hc)
  | @answered w w' c cs rs _ ih =>
    rw [ih fun c hc => hcs c (List.mem_cons_of_mem _ hc)]
    unfold register
    rw [if_neg (hcs c List.mem_cons_self)]
    split_ifs <;> rfl

theorem slot_of_set {storage after : Word → Word} {out : Bytes} {value : U64} {set : Call γ}
    (hset : set.calldata = encodeSet value)
    (hok : set.result sched simpleStorageRuntime storage = .success out after) :
    after 0 = value.setWidth 256 := by
  have hcases := result_eq_or sched set storage
  rw [hok, hset] at hcases
  rcases hcases with h | h
  · cases h
  · have hsel : slice (encodeSet value) 0 4 = simpleStorageSetSelector := rfl
    unfold simpleStorage at h
    rw [if_pos hsel] at h
    split_ifs at h with hst
    rw [(Result.success.inj h).2]
    exact (if_pos rfl).trans (wordAt_encodeSet value)

/-- A value that was set with `encode_set` is what `encode_get` returns, as long as no call of
`set` came in between: whatever was called before and in between, the call of `get` returns the
32 bytes of the value or fails for want of gas. -/
theorem encodeGet_returns_last_encodeSet {storage after : Word → Word} {out : Bytes}
    (before between : List (Call γ)) {value : U64} {set get : Call γ}
    (hset : set.calldata = encodeSet value) (hget : get.calldata = encodeGet)
    (hok : set.result sched simpleStorageRuntime
      (calls sched simpleStorageRuntime storage before).2 = .success out after)
    (hbetween : ∀ c ∈ between, slice c.calldata 0 4 ≠ simpleStorageSetSelector) :
    Reply.ofResult (get.result sched simpleStorageRuntime
        (calls sched simpleStorageRuntime storage (before ++ set :: between)).2) ∈
      [.failed, .returned (toBeBytes 32 value.toNat)] := by
  have hafter : (calls sched simpleStorageRuntime storage (before ++ set :: between)).2 =
      (calls sched simpleStorageRuntime after between).2 := by
    rw [calls_append]
    simp only [calls, hok, Result.storageAfter]
  -- the slot is the register: set by the one call, and left alone by those in between
  have hslot : (calls sched simpleStorageRuntime after between).2 0 = value.setWidth 256 :=
    ((calls_register sched after between).1.eq_of_no_set hbetween).trans
      (slot_of_set sched hset hok)
  have hnat : (value.setWidth 256).toNat = value.toNat := by
    rw [BitVec.toNat_setWidth]
    have := value.isLt
    omega
  rw [hafter]
  rcases result_eq_or sched get (calls sched simpleStorageRuntime after between).2 with h | h
  · rw [h]
    exact List.mem_cons_self
  · have hreply := (simpleStorage_register get.isStatic get.calldata
      (calls sched simpleStorageRuntime after between).2).1
    rw [h, hreply, hget, hslot]
    show Reply.returned (wordBytes (value.setWidth 256)) ∈ _
    rw [wordBytes_eq_toBeBytes, hnat]
    exact List.mem_cons_of_mem _ List.mem_cons_self

theorem encodeGet_returns_last_encodeSet_five :
    Reply.ofResult ((⟨encodeGet, false, 21⟩ : Call ℕ).result .flat simpleStorageRuntime
        (calls .flat simpleStorageRuntime (fun _ => 0) [⟨encodeSet 5, false, 21⟩]).2) ∈
      [.failed, .returned (toBeBytes 32 (5 : U64).toNat)] := by
  have hok : (⟨encodeSet 5, false, 21⟩ : Call ℕ).result .flat simpleStorageRuntime (fun _ => 0) =
      .success [] fun k => if k = 0 then wordAt (encodeSet 5) 4 else 0 :=
    (execute_eq Nat.one_pos (affordable_flat _ 21 _)
      (eval_simpleStorage false (encodeSet 5) fun _ => 0) (le_refl _)).trans (if_pos rfl)
  have hset : (⟨encodeSet 5, false, 21⟩ : Call ℕ).calldata = encodeSet 5 := rfl
  have hget : (⟨encodeGet, false, 21⟩ : Call ℕ).calldata = encodeGet := rfl
  exact encodeGet_returns_last_encodeSet .flat [] [] hset hget hok
    fun _ hc => absurd hc List.not_mem_nil

end Calls

end KanariEvm.Contracts
