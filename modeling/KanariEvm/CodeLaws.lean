import KanariEvm.Contracts
import KanariEvm.Payout

namespace KanariEvm

open InMemoryDB Contracts
open StackMachine (Schedule Covered execute)

/-- The first revision with every instruction of the machine. -/
def shanghai : SpecId := 10

def ExecutionResult.reply : ExecutionResult → Contracts.Reply
  | .success _ _ output => .returned output.intoData
  | .revert _ output => .reverted output
  | .halt _ => .failed

/-- Accounts that have code keep it. -/
def InMemoryDB.KeepsCodes (db after : InMemoryDB) : Prop :=
  ∀ a, (db.logical a).code ≠ [] → (after.logical a).code = (db.logical a).code

/-- revm runs a message as a call of the machine at the program of the account, and a creation as a
run of the init code that leaves what it returns, each with some price list and some gas. Nothing
is said of a run that reaches an instruction without a meaning there. -/
structure Revm.RunsCode (R : Revm) (precompiled : SpecId → Address → Prop) : Prop where
  message : ∀ {db params tx dest result state}, tx.kind = .call dest →
    tx.authorizationList = [] → shanghai ≤ params.spec → ¬precompiled params.spec dest →
    R.outcome db params tx = .ok (result, state) →
    ∃ (γ : Type) (sched : Schedule γ) (g : γ) (run : StackMachine.Result),
      run = execute sched ⟨db.program dest, tx.data, false⟩ g (db.logical dest).storage ∧
      (run ≠ .outside → result.reply = Contracts.Reply.ofResult run ∧
        db.KeepsCodes (R.after db params tx state) ∧
        ((R.after db params tx state).logical dest).storage =
          run.storageAfter (db.logical dest).storage ∧
        ∀ a, a ≠ dest → ((R.after db params tx state).logical a).storage = (db.logical a).storage)
  creation : ∀ {db params tx result state}, tx.kind = .create → shanghai ≤ params.spec →
    R.outcome db params tx = .ok (result, state) →
    ∃ (γ : Type) (sched : Schedule γ) (g : γ) (run : StackMachine.Result),
      run = execute sched ⟨tx.data, [], false⟩ g (fun _ => 0) ∧
      (run ≠ .outside → db.KeepsCodes (R.after db params tx state) ∧
        (∀ a, (db.logical a).code ≠ [] →
          ((R.after db params tx state).logical a).storage = (db.logical a).storage) ∧
        ∀ {gas logs output}, result = .success gas logs output → ∃ code storage a,
          run = .success code storage ∧ output = .create code (some a) ∧
          ((R.after db params tx state).logical a).code = code ∧
          ((R.after db params tx state).logical a).storage = storage)

namespace Revm.RunsCode

variable {R : Revm} {precompiled : SpecId → Address → Prop} (hruns : R.RunsCode precompiled)
  {db : InMemoryDB} {params : KanariEvmParams} {tx : TxEnv} {result : ExecutionResult}
  {state : EvmState} {a : Address}

include hruns

/-- A message to the contract fails, or is answered and changes the slot as the register does. -/
theorem register (hcode : (db.logical a).code = simpleStorageRuntime)
    (hkind : tx.kind = .call a) (hauth : tx.authorizationList = [])
    (hspec : shanghai ≤ params.spec) (haccount : ¬precompiled params.spec a)
    (hout : R.outcome db params tx = .ok (result, state)) :
    db.KeepsCodes (R.after db params tx state) ∧
      ∃ w, ((R.after db params tx state).logical a).storage =
          (fun k => if k = 0 then w else (db.logical a).storage k) ∧
        ((result.reply, w) = (.failed, (db.logical a).storage 0) ∨
          (result.reply, w) = Contracts.register false tx.data ((db.logical a).storage 0)) := by
  obtain ⟨γ, sched, g, run, hrun, hrest⟩ := hruns.message hkind hauth hspec haccount hout
  have hprogram : db.program a = simpleStorageRuntime := by
    unfold InMemoryDB.program
    rw [hcode]
    rfl
  rw [hprogram] at hrun
  obtain ⟨hreply, hcodes, hstorage, -⟩ := hrest (by
    rw [hrun]
    exact simpleStorageRuntime_covered γ sched g tx.data _)
  refine ⟨hcodes, ?_⟩
  have hcases : run = .exception ∨ run = simpleStorage false tx.data (db.logical a).storage := by
    rw [hrun]
    exact StackMachine.execute_eq_or (eval_simpleStorage false tx.data _)
  rcases hcases with rfl | rfl
  · refine ⟨(db.logical a).storage 0, ?_, .inl ?_⟩
    · rw [hstorage]
      funext k
      split_ifs with hk
      · rw [hk]
        rfl
      · rfl
    · rw [hreply]
      rfl
  · obtain ⟨hanswer, hafter⟩ := simpleStorage_register false tx.data (db.logical a).storage
    refine ⟨_, hstorage.trans hafter, .inr ?_⟩
    rw [hreply, hanswer]

/-- A creation from the init code of a runtime leaves the runtime at the contract it names. -/
theorem deploys {runtime init : Bytes} (hinit : deployInit runtime = .returned init)
    (hkind : tx.kind = .create) (hdata : tx.data = init) (hspec : shanghai ≤ params.spec)
    (hout : R.outcome db params tx = .ok (result, state))
    (hcreated : (executionSummary result).2.2.1 = some a) :
    ((R.after db params tx state).logical a).code = runtime ∧
      ((R.after db params tx state).logical a).storage = fun _ => 0 := by
  obtain ⟨γ, sched, g, run, hrun, hrest⟩ := hruns.creation hkind hspec hout
  rw [hdata] at hrun
  have hcases : run = .exception ∨ run = .success runtime fun _ => 0 := by
    rw [hrun]
    exact StackMachine.execute_eq_or (eval_deployInit hinit [] false _)
  obtain ⟨-, -, hsuccess⟩ := hrest (by rcases hcases with h | h <;> rw [h] <;> nofun)
  cases result with
  | revert gas output => cases hcreated
  | halt gas => cases hcreated
  | success gas logs output =>
    obtain ⟨code, storage, b, hran, rfl, hcode, hstorage⟩ := hsuccess rfl
    obtain rfl : b = a := Option.some.inj hcreated
    rcases hcases with h | h
    · rw [h] at hran
      cases hran
    · rw [h] at hran
      cases hran
      exact ⟨hcode, hstorage⟩

end Revm.RunsCode

/-- A transaction that the machine can run: a creation, or a message without authorizations to an
account that is no precompile, of code that it covers. -/
def TxEnv.Covers (precompiled : SpecId → Address → Prop) (spec : SpecId) (db : InMemoryDB)
    (tx : TxEnv) : Prop :=
  match tx.kind with
  | .create => Covered tx.data
  | .call dest => tx.authorizationList = [] ∧ ¬precompiled spec dest ∧ Covered (db.program dest)

theorem Revm.RunsCode.elsewhere {R : Revm} {precompiled : SpecId → Address → Prop}
    (hruns : R.RunsCode precompiled) {db : InMemoryDB} {params : KanariEvmParams} {tx : TxEnv}
    {result : ExecutionResult} {state : EvmState} {a : Address} (hkind : tx.kind ≠ .call a)
    (hcovers : tx.Covers precompiled params.spec db) (hspec : shanghai ≤ params.spec)
    (hout : R.outcome db params tx = .ok (result, state)) (hcode : (db.logical a).code ≠ []) :
    db.KeepsCodes (R.after db params tx state) ∧
      ((R.after db params tx state).logical a).storage = (db.logical a).storage := by
  unfold TxEnv.Covers at hcovers
  cases htx : tx.kind with
  | create =>
    rw [htx] at hcovers
    obtain ⟨γ, sched, g, run, hrun, hrest⟩ := hruns.creation htx hspec hout
    obtain ⟨hcodes, hstorage, -⟩ := hrest (by
      rw [hrun]
      exact hcovers γ sched g [] _)
    exact ⟨hcodes, hstorage a hcode⟩
  | call dest =>
    rw [htx] at hcovers hkind
    obtain ⟨hauth, haccount, hprogram⟩ := hcovers
    obtain ⟨γ, sched, g, run, hrun, hrest⟩ := hruns.message htx hauth hspec haccount hout
    obtain ⟨-, hcodes, -, hstorage⟩ := hrest (by
      rw [hrun]
      exact hprogram γ sched g tx.data _)
    exact ⟨hcodes, hstorage a fun h => hkind (congrArg TxKind.call h.symm)⟩

end KanariEvm
