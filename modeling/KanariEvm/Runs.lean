import KanariEvm.Sealing
import KanariEvm.StoreTables
import KanariEvm.Lib.Journal

namespace KanariEvm

open InMemoryDB

namespace KanariNode

/-- Two nodes that seal alike: one spec, the same cache and the same history. Store and tree are
left out, since a seal writes them without reading them. -/
structure Agree (m n : KanariNode) : Prop where
  spec : m.spec = n.spec
  db : SameCache m.db n.db
  blocks : m.blocks = n.blocks
  receipts : m.receipts = n.receipts

namespace Agree

variable {k m n : KanariNode}

theorem refl (n : KanariNode) : Agree n n := ⟨rfl, SameCache.refl _, rfl, rfl⟩

theorem symm (h : Agree m n) : Agree n m :=
  ⟨h.spec.symm, h.db.symm, h.blocks.symm, h.receipts.symm⟩

theorem trans (h : Agree k m) (h' : Agree m n) : Agree k n :=
  ⟨h.spec.trans h'.spec, h.db.trans h'.db, h.blocks.trans h'.blocks,
    h.receipts.trans h'.receipts⟩

theorem equivalence : Equivalence Agree := ⟨refl, symm, trans⟩

theorem blockNumber (h : Agree m n) : m.blockNumber = n.blockNumber := by
  simp only [KanariNode.blockNumber, h.blocks]

theorem pendingBaseFee (h : Agree m n) (P : Platform) :
    m.pendingBaseFee P = n.pendingBaseFee P := by
  simp only [KanariNode.pendingBaseFee, KanariNode.blockGasUsed, KanariNode.blockByNumber,
    KanariNode.txsGasUsed, h.blocks, h.receipts, h.spec]

theorem newBlock (h : Agree m n) {P : Platform} (raw : Bytes) (number timestamp baseFee : U64)
    {db₁ db₂ : InMemoryDB} (result : ExecutionResult)
    (hdb : SameCache (settleFees P db₁ result baseFee) (settleFees P db₂ result baseFee)) :
    m.newBlock P raw number timestamp baseFee db₁ result =
      n.newBlock P raw number timestamp baseFee db₂ result := by
  simp only [KanariNode.newBlock, sealedBlock, h.blocks, stateRoot, rebuilt, executed,
    hdb.smtEntries P]

theorem sealedReceipt (h : Agree m n) (P : Platform) (raw : Bytes) (prepared : PreparedTx)
    (result : ExecutionResult) (number timestamp : U64) :
    m.sealedReceipt P raw prepared result number timestamp =
      n.sealedReceipt P raw prepared result number timestamp := by
  simp only [KanariNode.sealedReceipt, h.blocks]

theorem persist (h : Agree m n) {P : Platform} (raw : Bytes) (number timestamp baseFee : U64)
    {db₁ db₂ : InMemoryDB} (prepared : PreparedTx) (result : ExecutionResult) (io : SealIo)
    (hdb : SameCache (settleFees P db₁ result baseFee) (settleFees P db₂ result baseFee)) :
    Agree (m.persist P raw number timestamp baseFee db₁ prepared result io).1
        (n.persist P raw number timestamp baseFee db₂ prepared result io).1 ∧
      (m.persist P raw number timestamp baseFee db₁ prepared result io).2 =
        (n.persist P raw number timestamp baseFee db₂ prepared result io).2 := by
  have hblock := h.newBlock raw number timestamp baseFee result hdb
  have hreceipt := h.sealedReceipt P raw prepared result number timestamp
  obtain ⟨rebuild, save⟩ := io
  cases rebuild with
  | some fault => exact ⟨⟨h.spec, hdb, h.blocks, h.receipts⟩, rfl⟩
  | none =>
    cases save with
    | some msg => exact ⟨⟨h.spec, hdb, h.blocks, h.receipts⟩, rfl⟩
    | none =>
      refine ⟨⟨h.spec, hdb, ?_, ?_⟩, rfl⟩
      · simp only [KanariNode.persist, afterSeal, h.blocks, hblock]
      · simp only [KanariNode.persist, afterSeal, h.receipts, hreceipt]

theorem nonceOf (h : Agree m n) {P : Platform} (hR : P.toRevm.CacheLaws) (a : Address) :
    (m.nonceOf P a).2 = (n.nonceOf P a).2 := by
  simp only [KanariNode.nonceOf, (Revm.sameCache_congruence hR).info a h.db]

variable {P : Platform} (hR : P.toRevm.CacheLaws) (hdet : P.toRevm.Deterministic) (h : Agree m n)

include hR hdet h

/-- Sealing cannot tell agreeing nodes apart, whatever the backend does. -/
theorem sealRawWithFee (raw : Bytes) (number timestamp baseFee : U64) (io : SealIo) :
    Agree (m.sealRawWithFee P raw number timestamp baseFee io).1
        (n.sealRawWithFee P raw number timestamp baseFee io).1 ∧
      (m.sealRawWithFee P raw number timestamp baseFee io).2 =
        (n.sealRawWithFee P raw number timestamp baseFee io).2 := by
  have hc := Revm.sameCache_congruence hR
  rcases hm : executeRaw P m.db m.spec raw number timestamp baseFee with ⟨db, out⟩
  obtain ⟨db', hn, hdb⟩ := executeRaw_congr hc hdet h.db hm
  rw [h.spec] at hn
  rcases out with e | ⟨prepared, result⟩
  · rw [sealRawWithFee_of_error hm, sealRawWithFee_of_error hn]
    exact ⟨⟨h.spec, hdb, h.blocks, h.receipts⟩, rfl⟩
  · rw [sealRawWithFee_of_ok hm, sealRawWithFee_of_ok hn]
    exact h.persist raw number timestamp baseFee prepared result io
      (settleFees_congr hc hdb result baseFee)

theorem sealCommitted (raw : Bytes) (timestamp : U64) (io : SealIo) :
    Agree (m.sealCommitted P raw timestamp io).1 (n.sealCommitted P raw timestamp io).1 ∧
      (m.sealCommitted P raw timestamp io).2 = (n.sealCommitted P raw timestamp io).2 := by
  unfold KanariNode.sealCommitted
  rw [h.blockNumber]
  cases checkedSucc n.blockNumber with
  | none => exact ⟨h, rfl⟩
  | some number =>
    simp only [sealRaw, h.pendingBaseFee P]
    exact h.sealRawWithFee hR hdet raw number timestamp _ io

end Agree

end KanariNode

/-- A request to seal: a transaction submitted at a wall-clock time, or a payload of a commit. -/
inductive SealStep
  | send (raw : Bytes) (now : U64)
  | committed (raw : Bytes) (timestamp : U64)
deriving DecidableEq

def SealStep.raw : SealStep → Bytes
  | .send raw _ => raw
  | .committed raw _ => raw

def SealStep.timestamp : SealStep → U64
  | .send _ now => now
  | .committed _ timestamp => timestamp

namespace KanariNode

variable (P : Platform) (node : KanariNode)

def sealStep (io : SealIo) : SealStep → KanariNode × Except NodeError B256
  | .send raw now => node.sendRawTransaction P raw now io
  | .committed raw timestamp => node.sealCommitted P raw timestamp io

/-- The base fee of the next block, narrowed to 64 bits as `seal_raw` narrows it. -/
def sealFee : U64 := (node.pendingBaseFee P).setWidth 64

def execute (step : SealStep) (number : U64) :
    InMemoryDB × Except NodeError (PreparedTx × ExecutionResult) :=
  executeRaw P node.db node.spec step.raw number step.timestamp (node.sealFee P)

/-- The number a step is executed under: none at the end of the number range, and none for a
submission that goes to the mempool instead. -/
def sealNumber : SealStep → Option U64
  | .send _ _ => if node.dagSender.isSome then none else checkedSucc node.blockNumber
  | .committed _ _ => checkedSucc node.blockNumber

theorem checkedSucc_of_sealNumber {step : SealStep} {number : U64}
    (h : node.sealNumber step = some number) : checkedSucc node.blockNumber = some number := by
  cases step with
  | committed raw timestamp => exact h
  | send raw now =>
    unfold sealNumber at h
    split_ifs at h
    exact h

def appended (before after : KanariNode) : Option SealedBlock :=
  (after.blocks.drop before.blocks.length).head?

theorem sealCommitted_cases (raw : Bytes) (timestamp : U64) (io : SealIo) :
    (checkedSucc node.blockNumber = none ∧
        node.sealCommitted P raw timestamp io = (node, .error .overflow)) ∨
      ∃ number, checkedSucc node.blockNumber = some number ∧
        node.sealCommitted P raw timestamp io =
          node.sealRawWithFee P raw number timestamp (node.sealFee P) io := by
  unfold sealCommitted
  cases checkedSucc node.blockNumber with
  | none => exact .inl ⟨rfl, rfl⟩
  | some number => exact .inr ⟨number, rfl, rfl⟩

variable {P node} in
theorem sealCommitted_isOk_iff {raw : Bytes} {ts : U64} {io : SealIo} :
    (node.sealCommitted P raw ts io).2.isOk = true ↔ io = .healthy ∧ ∃ number db out,
      checkedSucc node.blockNumber = some number ∧
        executeRaw P node.db node.spec raw number ts (node.sealFee P) = (db, .ok out) := by
  rcases node.sealCommitted_cases P raw ts io with ⟨hnone, hs⟩ | ⟨number, hsome, hs⟩
  · simp [hs, hnone, Except.isOk, Except.toBool]
  · rcases hex : executeRaw P node.db node.spec raw number ts (node.sealFee P) with
      ⟨db, e | ⟨prepared, result⟩⟩
    · rw [hs, sealRawWithFee_of_error hex]
      simp [hsome, hex, Except.isOk, Except.toBool]
    · rw [hs, sealRawWithFee_of_ok hex]
      rcases node.persist_cases P raw number ts (node.sealFee P) db prepared result io with
        ⟨hio, hp⟩ | ⟨hio, node', msg, hp⟩
      · rw [hp]
        simp [hio, Except.isOk, Except.toBool, hsome, hex]
      · rw [hp]
        simp [hio, Except.isOk, Except.toBool]

variable {P node} in
theorem agree_of_refused (hR : P.toRevm.CacheLaws) (hq : P.toRevm.RejectsQuietly) {raw : Bytes}
    {ts : U64} (h : (node.sealCommitted P raw ts .healthy).2.isOk = false) :
    Agree (node.sealCommitted P raw ts .healthy).1 node := by
  rcases node.sealCommitted_cases P raw ts .healthy with ⟨-, hs⟩ | ⟨number, hnumber, hs⟩
  · rw [hs]
    exact Agree.refl node
  · rcases hex : executeRaw P node.db node.spec raw number ts (node.sealFee P) with ⟨db, e | out⟩
    · rw [hs, sealRawWithFee_of_error hex]
      exact ⟨rfl, executeRaw_error_sameCache hR hq hex, rfl, rfl⟩
    · have hok := sealCommitted_isOk_iff.mpr ⟨rfl, number, db, out, hnumber, hex⟩
      exact absurd (h.symm.trans hok) Bool.noConfusion

theorem sendRawTransaction_of_single (h : node.dagSender = none) (raw : Bytes) (now : U64)
    (io : SealIo) :
    node.sendRawTransaction P raw now io = node.sealCommitted P raw now io := by
  simp only [sendRawTransaction, h, sealCommitted]

theorem sealStep_of_number {step : SealStep} {number : U64}
    (h : node.sealNumber step = some number) (io : SealIo) :
    node.sealStep P io step =
      node.sealRawWithFee P step.raw number step.timestamp (node.sealFee P) io := by
  have hsucc := node.checkedSucc_of_sealNumber h
  cases step with
  | committed raw timestamp =>
    simp only [sealStep, sealCommitted, hsucc]
    rfl
  | send raw now =>
    have hd : node.dagSender = none := by
      unfold sealNumber at h
      split_ifs at h with hd
      simpa using hd
    simp only [sealStep, sendRawTransaction, hd, hsucc]
    rfl

theorem sealStep_of_none {step : SealStep} (h : node.sealNumber step = none) (io : SealIo) :
    (∃ sender hash, node.sealStep P io step =
        ({ node with dagSender := some sender }, .ok hash)) ∨
      ∃ e, node.sealStep P io step = (node, .error e) := by
  cases step with
  | committed raw timestamp =>
    have hsucc : checkedSucc node.blockNumber = none := h
    exact .inr ⟨.overflow, by simp only [sealStep, sealCommitted, hsucc]⟩
  | send raw now =>
    rcases Option.eq_none_or_eq_some node.dagSender with hd | ⟨sender, hd⟩
    · have hsucc : checkedSucc node.blockNumber = none := by simpa [sealNumber, hd] using h
      exact .inr ⟨.overflow, by simp only [sealStep, sendRawTransaction, hd, hsucc]⟩
    · cases ht : sender.trySend [raw] with
      | ok sender' =>
        refine .inl ⟨sender', P.keccak256 raw, ?_⟩
        simp only [sealStep, sendRawTransaction, hd, ht]
      | error e =>
        refine .inr ⟨.execution s!"dag mempool full: {e}", ?_⟩
        simp only [sealStep, sendRawTransaction, hd, ht]

/-- Everything a seal attempt can do: hand the payload to the mempool, refuse it, or execute it and
go on to persist. -/
theorem sealStep_cases (step : SealStep) (io : SealIo) :
    (∃ sender hash, node.sealStep P io step =
        ({ node with dagSender := some sender }, .ok hash)) ∨
      (∃ db e, node.sealStep P io step = ({ node with db := db }, .error e) ∧
        ((node.sealNumber step = none ∧ db = node.db) ∨ ∃ number,
          node.sealNumber step = some number ∧ node.execute P step number = (db, .error e))) ∨
      (∃ number db prepared result, node.sealNumber step = some number ∧
        node.execute P step number = (db, .ok (prepared, result)) ∧
        node.sealStep P io step = node.persist P step.raw number step.timestamp (node.sealFee P)
          db prepared result io) := by
  rcases Option.eq_none_or_eq_some (node.sealNumber step) with hnone | ⟨number, hnumber⟩
  · rcases node.sealStep_of_none P hnone io with hqueued | ⟨e, he⟩
    · exact .inl hqueued
    · exact .inr (.inl ⟨node.db, e, he, .inl ⟨hnone, rfl⟩⟩)
  · have hseal := node.sealStep_of_number P hnumber io
    rcases hex : node.execute P step number with ⟨db, e | ⟨prepared, result⟩⟩
    · rw [sealRawWithFee_of_error hex] at hseal
      exact .inr (.inl ⟨db, e, hseal, .inr ⟨number, hnumber, hex⟩⟩)
    · rw [sealRawWithFee_of_ok hex] at hseal
      exact .inr (.inr ⟨number, db, prepared, result, hnumber, hex, hseal⟩)

end KanariNode

def sealMachine (P : Platform) : Journaled.Machine KanariNode SealStep SealedBlock where
  attempt node step :=
    let after := (node.sealStep P .healthy step).1
    (after, KanariNode.appended node after)

section Attempts

variable {P : Platform} {node : KanariNode}

theorem appended_of_blocks_eq {before after : KanariNode} (h : after.blocks = before.blocks) :
    KanariNode.appended before after = none := by
  simp [KanariNode.appended, h]

theorem appended_afterSeal (raw : Bytes) (number timestamp baseFee : U64) (db : InMemoryDB)
    (prepared : PreparedTx) (result : ExecutionResult) :
    KanariNode.appended node (node.afterSeal P raw number timestamp baseFee db prepared result) =
      some (node.newBlock P raw number timestamp baseFee db result) := by
  simp [KanariNode.appended, KanariNode.afterSeal]

theorem sealMachine_cases (P : Platform) (node : KanariNode) (step : SealStep) :
    (∃ sender, (sealMachine P).attempt node step = ({ node with dagSender := sender }, none)) ∨
      (∃ db e, (sealMachine P).attempt node step = ({ node with db := db }, none) ∧
        (db = node.db ∨ ∃ number, node.execute P step number = (db, .error e))) ∨
      (∃ number db prepared result, checkedSucc node.blockNumber = some number ∧
        node.execute P step number = (db, .ok (prepared, result)) ∧
        (sealMachine P).attempt node step =
          (node.afterSeal P step.raw number step.timestamp (node.sealFee P) db prepared result,
            some (node.newBlock P step.raw number step.timestamp (node.sealFee P) db result))) := by
  rcases node.sealStep_cases P step .healthy with
    ⟨sender, hash, h⟩ | ⟨db, e, h, hdb⟩ | ⟨number, db, prepared, result, hnum, hex, h⟩
  · exact .inl ⟨some sender, by simp only [sealMachine, h, appended_of_blocks_eq]⟩
  · refine .inr (.inl ⟨db, e, by simp only [sealMachine, h, appended_of_blocks_eq], ?_⟩)
    rcases hdb with ⟨-, hdb⟩ | ⟨number, -, hex⟩
    · exact .inl hdb
    · exact .inr ⟨number, hex⟩
  · refine .inr (.inr ⟨number, db, prepared, result, node.checkedSucc_of_sealNumber hnum, hex, ?_⟩)
    have hpersist : node.persist P step.raw number step.timestamp (node.sealFee P) db prepared
        result .healthy = (node.afterSeal P step.raw number step.timestamp (node.sealFee P) db
          prepared result, .ok (P.keccak256 step.raw)) := rfl
    simp only [sealMachine, h, hpersist, appended_afterSeal]

theorem sealMachine_blocks (node : KanariNode) (step : SealStep) :
    ((sealMachine P).attempt node step).1.blocks =
      node.blocks ++ ((sealMachine P).attempt node step).2.toList := by
  rcases sealMachine_cases P node step with
    ⟨sender, h⟩ | ⟨db, e, h, -⟩ | ⟨number, db, prepared, result, -, -, h⟩
  · simp [h]
  · simp [h]
  · simp [h, KanariNode.afterSeal]

end Attempts

/-- A node whose store records its chain and receipts: block numbers count up from one, and every
block holds one transaction. -/
structure KanariNode.Recorded (spec : KanariChainSpec) (node : KanariNode) : Prop where
  sameSpec : node.spec = spec
  store : node.store.Mirrors spec.chainId spec.genesisAlloc node.blocks
  numbers : ∀ i (hi : i < node.blocks.length), node.blocks[i].number.toNat = i + 1
  single : ∀ b ∈ node.blocks, ∃ raw, b.txs = [raw]
  receipts : ∀ hash, node.store.loadReceipt hash = .ok (node.receipts.lookup hash)

namespace KanariNode.Recorded

variable {P : Platform} {spec : KanariChainSpec} {node : KanariNode} (h : node.Recorded spec)

include h

theorem blockNumber : node.blockNumber.toNat = node.blocks.length := by
  unfold KanariNode.blockNumber
  rcases List.eq_nil_or_concat node.blocks with hnil | ⟨bs, b, hb⟩
  · simp [hnil]
  · have hlen : node.blocks.length = bs.length + 1 := by simp [hb]
    have hlast := h.numbers bs.length (by omega)
    simp only [hb, List.concat_eq_append, List.getElem_append_right (Nat.le_refl _), Nat.sub_self,
      List.getElem_singleton] at hlast
    simp [hb, hlast]

theorem afterSeal {number : U64} (hnum : checkedSucc node.blockNumber = some number) (raw : Bytes)
    (timestamp baseFee : U64) (db : InMemoryDB) (prepared : PreparedTx)
    (result : ExecutionResult) :
    (node.afterSeal P raw number timestamp baseFee db prepared result).Recorded spec := by
  have hn : number.toNat = node.blocks.length + 1 := by
    rw [checkedSucc_toNat hnum, h.blockNumber]
  refine ⟨h.sameSpec, h.store.write_sealBatch hn _ _, ?_, ?_, ?_⟩
  · intro i hi
    simp only [KanariNode.afterSeal, List.length_append, List.length_singleton] at hi ⊢
    rcases Nat.lt_or_ge i node.blocks.length with hlt | hge
    · rw [List.getElem_append_left hlt]
      exact h.numbers i hlt
    · have hi' : i = node.blocks.length := by omega
      subst hi'
      simpa [newBlock, sealedBlock] using hn
  · intro b hb
    rcases List.mem_append.mp hb with hold | hnew
    · exact h.single b hold
    · rw [List.mem_singleton.mp hnew]
      exact ⟨raw, rfl⟩
  · intro hash
    simp only [KanariNode.afterSeal, ChainStore.loadReceipt_sealBatch, Map.lookup_insert_ite,
      h.receipts]
    split_ifs <;> rfl

theorem attempt (step : SealStep) : ((sealMachine P).attempt node step).1.Recorded spec := by
  rcases sealMachine_cases P node step with
    ⟨sender, hs⟩ | ⟨db, e, hs, -⟩ | ⟨number, db, prepared, result, hnum, -, hs⟩
  · rw [hs]
    exact ⟨h.sameSpec, h.store, h.numbers, h.single, h.receipts⟩
  · rw [hs]
    exact ⟨h.sameSpec, h.store, h.numbers, h.single, h.receipts⟩
  · rw [hs]
    exact h.afterSeal hnum _ _ _ _ _ _

theorem run (steps : List SealStep) : ((sealMachine P).final node steps).Recorded spec :=
  (sealMachine P).final_induction (fun _ step hn => hn.attempt step) h steps

end KanariNode.Recorded

end KanariEvm
