import KanariEvm.Conservation
import KanariEvm.History
import KanariEvm.Reference

namespace KanariEvm

open InMemoryDB Journaled

variable {P : Platform}

theorem replayPrior_cons (spec : KanariChainSpec) (block : SealedBlock) (db : InMemoryDB)
    (raw : Bytes) (rest : List Bytes) :
    replayPrior P spec block db (raw :: rest) =
      match executeRaw P db spec raw block.number block.timestamp block.baseFee with
      | (_, .error e) => .error e
      | (db, .ok _) => replayPrior P spec block db rest := by
  simp only [replayPrior, executeRaw]
  cases PreparedTx.decode P raw spec.chainId with
  | error e => rfl
  | ok prepared =>
    rcases ht : transactRaw P db spec prepared block.number block.timestamp block.baseFee with
      ⟨db', e | result⟩ <;> simp only [ht]

theorem replayPriors_append (spec : KanariChainSpec) {db db' : InMemoryDB}
    {blocks : List SealedBlock} (h : replayPriors P spec db blocks = .ok db')
    (rest : List SealedBlock) :
    replayPriors P spec db (blocks ++ rest) = replayPriors P spec db' rest := by
  induction blocks generalizing db with
  | nil =>
    cases h
    rfl
  | cons block blocks ih =>
    simp only [List.cons_append, replayPriors] at h ⊢
    cases hb : replayPrior P spec block db block.txs with
    | error e => simp [hb] at h
    | ok db₁ =>
      simp only [hb] at h
      exact ih h

theorem replayPriors_single {spec : KanariChainSpec} {block : SealedBlock} {raw : Bytes}
    (htxs : block.txs = [raw]) {db db' : InMemoryDB} {out : PreparedTx × ExecutionResult}
    (hex : executeRaw P db spec raw block.number block.timestamp block.baseFee =
      (db', .ok out)) : replayPriors P spec db [block] = .ok db' := by
  simp only [replayPriors, htxs, replayPrior_cons, hex, replayPrior]

section Burn

variable (hburn : P.toRevm.BurnsBaseFee) (hgas : P.toRevm.SpendsGas)

include hburn hgas

theorem executeRaw_burns {db db' : InMemoryDB} {spec : KanariChainSpec} {raw : Bytes}
    {number timestamp baseFee : U64} {out : PreparedTx × ExecutionResult}
    (h : executeRaw P db spec raw number timestamp baseFee = (db', .ok out)) :
    db'.totalBalance + baseFee.toNat ≤ db.totalBalance := by
  obtain ⟨-, htx⟩ := KanariNode.executeRaw_ok_iff.mp h
  obtain ⟨state, hout, rfl⟩ := transactRaw_ok htx
  have hburned := hburn _ _ _ _ _ hout
  have hused := hgas _ _ _ _ _ hout
  have hle : baseFee.toNat ≤ out.2.gasUsed.toNat * baseFee.toNat :=
    Nat.le_mul_of_pos_left _ hused
  change _ + out.2.gasUsed.toNat * baseFee.toNat = _ at hburned
  omega

/-- Every re-executed transaction burns at least its base fee, which the tracer never credits. -/
theorem replayPrior_burns {spec : KanariChainSpec} {block : SealedBlock} {db db' : InMemoryDB}
    {txs : List Bytes} (h : replayPrior P spec block db txs = .ok db') :
    db'.totalBalance + txs.length * block.baseFee.toNat ≤ db.totalBalance := by
  induction txs generalizing db with
  | nil =>
    cases h
    simp
  | cons raw rest ih =>
    rw [replayPrior_cons] at h
    rcases hex : executeRaw P db spec raw block.number block.timestamp block.baseFee with
      ⟨db₁, e | out⟩
    · simp [hex] at h
    · simp only [hex] at h
      have hfirst := executeRaw_burns hburn hgas hex
      have hrest := ih h
      rw [List.length_cons, Nat.succ_mul]
      omega

theorem replayPriors_burns {spec : KanariChainSpec} {db db' : InMemoryDB}
    {blocks : List SealedBlock} (h : replayPriors P spec db blocks = .ok db') :
    db'.totalBalance + (blocks.map fun b => b.txs.length * b.baseFee.toNat).sum ≤
      db.totalBalance := by
  induction blocks generalizing db with
  | nil =>
    cases h
    simp
  | cons block rest ih =>
    simp only [replayPriors] at h
    cases hb : replayPrior P spec block db block.txs with
    | error e => simp [hb] at h
    | ok db₁ =>
      simp only [hb] at h
      have hfirst := replayPrior_burns hburn hgas hb
      have hrest := ih h
      rw [List.map_cons, List.sum_cons]
      omega

end Burn

namespace KanariNode

variable {node : KanariNode} (hR : P.toRevm.CacheLaws)

theorem scratch_eq {chain : KanariNode} {spec : KanariChainSpec} (hrec : chain.Recorded spec)
    (hpre : node.blocks <+: chain.blocks) {number : U64}
    (hnumber : number.toNat = node.blocks.length + 1) :
    chain.scratch P number =
      replayPriors P spec (spec.applyGenesis P .empty) node.blocks := by
  obtain ⟨more, hmore⟩ := hpre
  have hnumbers := hrec.numbers
  simp only [← hmore] at hnumbers
  have hbelow : ∀ b ∈ node.blocks, decide (b.number.toNat < number.toNat) = true := by
    intro b hb
    obtain ⟨i, hi, rfl⟩ := List.mem_iff_getElem.mp hb
    have hn := hnumbers i (by rw [List.length_append]; omega)
    rw [List.getElem_append_left hi] at hn
    rw [decide_eq_true_eq]
    omega
  have habove : ∀ b ∈ more, ¬decide (b.number.toNat < number.toNat) = true := by
    intro b hb
    obtain ⟨i, hi, rfl⟩ := List.mem_iff_getElem.mp hb
    have hn := hnumbers (node.blocks.length + i) (by rw [List.length_append]; omega)
    rw [List.getElem_append_right (Nat.le_add_right _ _)] at hn
    simp only [Nat.add_sub_cancel_left] at hn
    rw [decide_eq_true_eq]
    omega
  rw [scratch, hrec.sameSpec, ← hmore, List.filter_append, List.filter_eq_self.mpr hbelow,
    List.filter_eq_nil_iff.mpr habove, List.append_nil]

theorem settleFees_of_free (db : InMemoryDB) (result : ExecutionResult) {baseFee : U64}
    (h : baseFee = 0) : settleFees P db result baseFee = db := by
  simp only [settleFees]
  exact if_pos ((Gas.baseFeeShare_eq_zero_iff _ _).mpr (.inr h))

include hR

omit hR in
/-- Re-executing the blocks of the chain gives the accounts of the live database. -/
def Retraced (P : Platform) (node : KanariNode) : Prop :=
  ∃ db, replayPriors P node.spec (node.spec.applyGenesis P .empty) node.blocks = .ok db ∧
    SameAccounts node.db db

theorem Retraced.sealedNode (hdet : P.toRevm.Deterministic) (h : node.Retraced P)
    {step : SealStep} {x : Execution} (hruns : node.Runs P step x) (hfee : node.sealFee P = 0) :
    (node.sealedNode P step x).Retraced P := by
  obtain ⟨db, hdb, hacc⟩ := h
  obtain ⟨db', hex, hacc'⟩ :=
    executeRaw_congr (Revm.sameAccounts_congruence hR) hdet hacc hruns.executed
  refine ⟨db', ?_, ?_⟩
  · change replayPriors P node.spec (node.spec.applyGenesis P .empty)
      (node.blocks ++ [node.blockOf P step x]) = .ok db'
    have hblock : (node.blockOf P step x).txs = [step.raw] := rfl
    rw [replayPriors_append _ hdb]
    exact replayPriors_single hblock hex
  · change SameAccounts (settleFees P x.db x.result (node.sealFee P)) db'
    rw [settleFees_of_free _ _ hfee]
    exact hacc'

theorem retraced_of_free (hdet : P.toRevm.Deterministic) (spec : KanariChainSpec)
    {ops : List Op} (hops : ∀ op ∈ ops, op.OnHealthyBackend)
    (hfree : ∀ b ∈ ((nodeMachine P).final (created P spec) ops).blocks, b.baseFee = 0) :
    ((nodeMachine P).final (created P spec) ops).Retraced P := by
  revert hfree
  apply (nodeMachine P).final_induction_mem
    (p := fun n => (∀ b ∈ n.blocks, b.baseFee = 0) → n.Retraced P)
  · intro n op hop ih
    change (∀ b ∈ (n.perform P op).blocks, b.baseFee = 0) → (n.perform P op).Retraced P
    rcases perform_cases hR n op with
      hsame | ⟨step, io, x, tree, rfl, hio, -⟩ | ⟨step, x, rfl, hruns, hp⟩
    · rw [hsame.blocks]
      intro hzero
      obtain ⟨db, hdb, hacc⟩ := ih hzero
      refine ⟨db, ?_, hsame.db.trans hacc⟩
      rw [hsame.spec, hsame.blocks]
      exact hdb
    · exact absurd (hops _ hop) hio
    · rw [hp]
      intro hzero
      exact (ih fun b hb => hzero b (List.mem_append_left _ hb)).sealedNode hR hdet hruns
        (hzero (n.blockOf P step x) (List.mem_append_right _ (List.mem_singleton_self _)))
  · exact fun _ => ⟨_, rfl, SameAccounts.refl _⟩

omit hR

/-- Tracing `step`, sealed by `node`, in the later `chain`: the scratch database has the accounts
of the live one, and the trace has the gas and the outcome of the stored receipt. -/
structure TracesPreState (P : Platform) (chain node : KanariNode) (step : SealStep)
    (x : Execution) : Prop where
  scratch : ∃ db, chain.scratch P x.number = .ok db ∧ SameLogical db node.db
  trace : ∀ opts, ∃ receipt out, chain.receipts.lookup (P.keccak256 step.raw) = some receipt ∧
    chain.traceTransaction P (P.keccak256 step.raw) opts = .ok out ∧
    out.gasUsed = receipt.gasUsed ∧ out.failed = !receipt.success

/-- The tracer's summary line, if it prints one that parses, has the gas of the result. -/
def SummaryAgrees (P : Platform) (node : KanariNode) (step : SealStep) (x : Execution) : Prop :=
  ∀ lines, P.inspect node.db (evmParams node.spec x.number step.timestamp (node.sealFee P))
    x.prepared.inner = .ok (x.result, .ok lines) →
    ∀ gas, summaryGas lines = some gas → gas = x.result.gasUsed

theorem traceSummary_executionSummary (result : ExecutionResult) :
    (traceSummary result).1 = !(executionSummary result).1 ∧
      (traceSummary result).2.1 = result.gasUsed := by
  cases result <;> exact ⟨rfl, rfl⟩

theorem Holds.traceTransaction {chain : KanariNode} {spec : KanariChainSpec} {step : SealStep}
    {x : Execution}
    (h : chain.Holds P step.raw x.prepared (node.blockOf P step x) (node.receiptOf P step x))
    (hrec : chain.Recorded spec) {db : InMemoryDB} (hdb : chain.scratch P x.number = .ok db)
    (opts : TraceOptions) :
    chain.traceTransaction P (P.keccak256 step.raw) opts =
      (traceIn P db chain.spec x.prepared.inner x.number step.timestamp (node.sealFee P)
        opts).2 := by
  simp only [KanariNode.traceTransaction, h.receipt, receiptOf_blockNumber,
    h.blockByNumber hrec, h.txRecord hrec, h.decoded, hdb]
  rfl

theorem trace_iff_summaryAgrees (hdet : P.toRevm.Deterministic)
    (htrace : P.toRevm.TracesFaithfully) {chain : KanariNode} {spec : KanariChainSpec}
    {step : SealStep} {x : Execution} (hruns : node.Runs P step x)
    (h : chain.Holds P step.raw x.prepared (node.blockOf P step x) (node.receiptOf P step x))
    (hrec : chain.Recorded spec) (hspec : node.spec = spec) {db : InMemoryDB}
    (hdb : chain.scratch P x.number = .ok db) (hsame : SameLogical db node.db) :
    (∀ opts, ∃ receipt out, chain.receipts.lookup (P.keccak256 step.raw) = some receipt ∧
      chain.traceTransaction P (P.keccak256 step.raw) opts = .ok out ∧
      out.gasUsed = receipt.gasUsed ∧ out.failed = !receipt.success) ↔
      node.SummaryAgrees P step x := by
  obtain ⟨-, htx⟩ := executeRaw_ok_iff.mp hruns.executed
  obtain ⟨state, hout, -⟩ := transactRaw_ok htx
  obtain ⟨lines, hlines⟩ := htrace _ _ _ _ _ hout
  have hscratch : P.inspect db (evmParams chain.spec x.number step.timestamp (node.sealFee P))
      x.prepared.inner = .ok (x.result, .ok lines) := by
    rw [hdet.inspect _ _ hsame, hrec.sameSpec, ← hspec]
    exact hlines
  have hsummary := traceSummary_executionSummary x.result
  have hout : ∀ opts, chain.traceTransaction P (P.keccak256 step.raw) opts =
      .ok (traceOutput opts x.result lines) := by
    intro opts
    rw [h.traceTransaction hrec hdb, traceIn]
    simp only [hscratch]
  constructor
  · intro hall lines' hlines' gas hgas
    obtain ⟨receipt, out, hreceipt, hok, hused, -⟩ := hall {}
    obtain rfl : lines = lines' := by
      rw [hlines'] at hlines
      simpa using hlines.symm
    rw [h.receipt, Option.some.injEq] at hreceipt
    rw [hout, Except.ok.injEq] at hok
    subst hreceipt hok
    rw [receiptOf_gasUsed, traceOutput] at hused
    simpa [hgas] using hused
  · intro hagrees opts
    refine ⟨_, _, h.receipt, hout opts, ?_, hsummary.1⟩
    rw [receiptOf_gasUsed, traceOutput]
    cases hg : summaryGas lines with
    | none => exact hsummary.2
    | some gas => exact hagrees lines hlines gas hg

section History

variable (hdet : P.toRevm.Deterministic) (hn : P.toRevm.NonceLaws)
  (hburn : P.toRevm.BurnsBaseFee) (hgas : P.toRevm.SpendsGas)
  (htrace : P.toRevm.TracesFaithfully)

include hR hdet hn hburn hgas htrace

/-- A sealed transaction is traced on the state it was executed on exactly when every block before
it was sealed under a zero base fee, and then its trace matches its receipt exactly when the
tracer's summary does. The base fee that sealing credits to the beneficiary is never credited in
the scratch database. -/
theorem traces_pre_state_iff (spec : KanariChainSpec)
    (hlt : (spec.applyGenesis P .empty).totalBalance < 2 ^ 256) (ops later : List Op)
    (hops : ∀ op ∈ ops, op.OnHealthyBackend) {step : SealStep} {x : Execution}
    (hruns : ((nodeMachine P).final (created P spec) ops).Runs P step x)
    (hlater : NoCollision P step.raw later) :
    TracesPreState P
        ((nodeMachine P).final (created P spec) (ops ++ .attempt step .healthy :: later))
        ((nodeMachine P).final (created P spec) ops) step x ↔
      (∀ b ∈ ((nodeMachine P).final (created P spec) ops).blocks, b.baseFee = 0) ∧
        ((nodeMachine P).final (created P spec) ops).SummaryAgrees P step x := by
  have hrec := recorded_final hR spec (ops ++ .attempt step .healthy :: later)
  have hnode := recorded_final hR spec ops
  have hfree := retraced_of_free hR hdet spec hops
  have hpre := blocks_final hR ((nodeMachine P).final (created P spec) ops)
    (.attempt step .healthy :: later)
  have htotal : ((nodeMachine P).final (created P spec) ops).db.totalBalance =
      (spec.applyGenesis P .empty).totalBalance := by
    have hgenesis : (created P spec).db = spec.applyGenesis P .empty := rfl
    rw [← hgenesis] at hlt ⊢
    exact final_total hR hburn hlt ops
  rw [(nodeMachine P).final_append] at hrec ⊢
  generalize (nodeMachine P).final (created P spec) ops = node at *
  rw [hruns.final] at hrec hpre ⊢
  have hholds := (hruns.holds hR hn).final hR hn hlater
  have hnumber : x.number.toNat = node.blocks.length + 1 := by
    rw [checkedSucc_toNat (node.checkedSucc_of_sealNumber hruns.number), hnode.blockNumber]
  have hscratch := scratch_eq (P := P) hrec hpre hnumber
  constructor
  · rintro ⟨⟨db, hdb, hsame⟩, hall⟩
    refine ⟨?_, (trace_iff_summaryAgrees hdet htrace hruns hholds hrec hnode.sameSpec hdb
      hsame).mp hall⟩
    -- the live total is that of genesis, so re-execution has burned nothing on the way
    have hburned := replayPriors_burns hburn hgas (hscratch.symm.trans hdb)
    rw [hsame.totalBalance, htotal] at hburned
    have hzero : (node.blocks.map fun b => b.txs.length * b.baseFee.toNat).sum = 0 := by omega
    intro b hb
    have hb0 := List.sum_eq_zero_iff.mp hzero _ (List.mem_map_of_mem hb)
    obtain ⟨raw, hraw⟩ := hnode.single b hb
    rw [hraw, List.length_singleton, Nat.one_mul] at hb0
    exact BitVec.eq_of_toNat_eq hb0
  · rintro ⟨hzero, hagrees⟩
    obtain ⟨db, hdb, hacc⟩ := hfree hzero
    rw [hnode.sameSpec, ← hscratch] at hdb
    have hsame := hacc.symm.sameLogical
    exact ⟨⟨db, hdb, hsame⟩, (trace_iff_summaryAgrees hdet htrace hruns hholds hrec
      hnode.sameSpec hdb hsame).mpr hagrees⟩

end History

theorem summaryAgrees_reference (node : KanariNode) (step : SealStep) (x : Execution) :
    node.SummaryAgrees Reference.platform step x := by
  intro lines hlines gas hgas
  change (Transfer.outcome node.db (evmParams node.spec x.number step.timestamp
    (node.sealFee Reference.platform)) x.prepared.inner).map _ = _ at hlines
  obtain ⟨⟨result, state⟩, ho, hprints⟩ := map_eq_ok hlines
  obtain ⟨dest, -, hresult, -⟩ := Transfer.outcome_ok ho
  simp only [hresult, Prod.mk.injEq, Except.ok.injEq] at hprints
  obtain ⟨hx, rfl⟩ := hprints
  have hprinted : summaryGas [Transfer.summaryLine (.success Transfer.gas [] (.call []))] =
      some Transfer.gas := by decide +kernel
  rw [hprinted, Option.some.injEq] at hgas
  rw [← hx, ← hgas]
  rfl

theorem traces_pre_state_iff_first :
    TracesPreState Reference.platform
      ((nodeMachine Reference.platform).final (created Reference.platform Reference.spec)
        [.attempt (.committed Reference.transfer0 5) .healthy,
          .attempt (.committed Reference.transfer1 7) .healthy])
      (created Reference.platform Reference.spec) (.committed Reference.transfer0 5)
      ⟨1, ((created Reference.platform Reference.spec).execute Reference.platform
        (.committed Reference.transfer0 5) 1).1, Reference.prepared 0 1000000000 none,
        Reference.moved⟩ := by
  have hruns : (created Reference.platform Reference.spec).Runs Reference.platform
      (.committed Reference.transfer0 5) _ :=
    Runs.of_eval 1 (Reference.prepared 0 1000000000 none) Reference.moved (by decide +kernel)
      (by decide +kernel)
  refine (traces_pre_state_iff Reference.cacheLaws Reference.deterministic Reference.nonceLaws
    Reference.burnsBaseFee Reference.spendsGas Reference.tracesFaithfully Reference.spec
    (by decide +kernel) [] [_] (by simp) hruns (by decide +kernel)).mpr ⟨?_, ?_⟩
  · intro b hb
    exact absurd hb List.not_mem_nil
  · exact summaryAgrees_reference _ _ _

/-- The second transfer is traced on a state in which the beneficiary never got the base fee of
the first one. -/
theorem second_trace_misses_base_fee :
    ∃ db, ((nodeMachine Reference.platform).final (created Reference.platform Reference.spec)
        [.attempt (.committed Reference.transfer0 5) .healthy,
          .attempt (.committed Reference.transfer1 7) .healthy]).scratch Reference.platform 2 =
            .ok db ∧
      ¬SameLogical db ((nodeMachine Reference.platform).final
        (created Reference.platform Reference.spec)
        [.attempt (.committed Reference.transfer0 5) .healthy]).db := by
  have hscratch : ((((nodeMachine Reference.platform).final
      (created Reference.platform Reference.spec)
        [.attempt (.committed Reference.transfer0 5) .healthy,
          .attempt (.committed Reference.transfer1 7) .healthy]).scratch Reference.platform
            2).toOption.map fun db => (db.logical blockBeneficiary).balance) = some 0 := by
    decide +kernel
  obtain ⟨db, hdb, hnothing⟩ := Option.map_eq_some_iff.mp hscratch
  refine ⟨db, eq_ok_of_toOption hdb, fun hsame => ?_⟩
  rw [hsame] at hnothing
  exact absurd hnothing (by decide +kernel)

end KanariNode

end KanariEvm
