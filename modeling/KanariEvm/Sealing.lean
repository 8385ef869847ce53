import KanariEvm.CacheRelations
import KanariEvm.Seal

namespace KanariEvm

open InMemoryDB

/-- Decode a raw transaction and execute it: the first half of a seal, on the database alone. -/
def executeRaw (P : Platform) (db : InMemoryDB) (spec : KanariChainSpec) (raw : Bytes)
    (number timestamp baseFee : U64) :
    InMemoryDB × Except NodeError (PreparedTx × ExecutionResult) :=
  match PreparedTx.decode P raw spec.chainId with
  | .error e => (db, .error e)
  | .ok prepared =>
    match transactRaw P db spec prepared number timestamp baseFee with
    | (db, .error e) => (db, .error e)
    | (db, .ok result) => (db, .ok (prepared, result))

namespace KanariNode

variable (P : Platform) (node : KanariNode)

def executed (db : InMemoryDB) (result : ExecutionResult) (baseFee : U64) : KanariNode :=
  { node with db := settleFees P db result baseFee }

def newBlock (raw : Bytes) (number timestamp baseFee : U64) (db : InMemoryDB)
    (result : ExecutionResult) : SealedBlock :=
  node.sealedBlock P raw number timestamp baseFee
    (((node.executed P db result baseFee).rebuilt P).stateRoot P)

def afterSeal (raw : Bytes) (number timestamp baseFee : U64) (db : InMemoryDB)
    (prepared : PreparedTx) (result : ExecutionResult) : KanariNode :=
  let block := node.newBlock P raw number timestamp baseFee db result
  let receipt := node.sealedReceipt P raw prepared result number timestamp
  { (node.executed P db result baseFee).rebuilt P with
    store := node.store.write (ChainStore.sealBatch block [(P.keccak256 raw, receipt)])
    blocks := node.blocks ++ [block]
    receipts := node.receipts.insert (P.keccak256 raw) receipt }

variable {P node} {raw : Bytes} {number timestamp baseFee : U64}

theorem sealRawWithFee_of_error {io : SealIo} {db : InMemoryDB} {e : NodeError}
    (h : executeRaw P node.db node.spec raw number timestamp baseFee = (db, .error e)) :
    node.sealRawWithFee P raw number timestamp baseFee io = ({ node with db := db }, .error e) := by
  unfold executeRaw at h
  unfold sealRawWithFee
  cases hd : PreparedTx.decode P raw node.spec.chainId with
  | error e' =>
    simp only [hd, Prod.mk.injEq, Except.error.injEq] at h
    obtain ⟨rfl, rfl⟩ := h
    rfl
  | ok prepared =>
    simp only [hd] at h
    rcases ht : transactRaw P node.db node.spec prepared number timestamp baseFee with ⟨db', out⟩
    cases out with
    | error e' =>
      simp only [ht, Prod.mk.injEq, Except.error.injEq] at h ⊢
      obtain ⟨rfl, rfl⟩ := h
      exact ⟨rfl, rfl⟩
    | ok result => simp [ht] at h

theorem executeRaw_ok_iff {db db' : InMemoryDB} {spec : KanariChainSpec} {prepared : PreparedTx}
    {result : ExecutionResult} :
    executeRaw P db spec raw number timestamp baseFee = (db', .ok (prepared, result)) ↔
      PreparedTx.decode P raw spec.chainId = .ok prepared ∧
        transactRaw P db spec prepared number timestamp baseFee = (db', .ok result) := by
  unfold executeRaw
  cases PreparedTx.decode P raw spec.chainId with
  | error e => simp
  | ok p =>
    simp only [Except.ok.injEq]
    rcases ht : transactRaw P db spec p number timestamp baseFee with ⟨db₁, out⟩
    cases out with
    | error e =>
      simp only [Prod.mk.injEq, reduceCtorEq, and_false, false_iff, not_and]
      rintro rfl
      simp [ht]
    | ok res =>
      simp only [Prod.mk.injEq, Except.ok.injEq]
      constructor
      · rintro ⟨rfl, rfl, rfl⟩
        exact ⟨rfl, ht⟩
      · rintro ⟨rfl, h⟩
        rw [ht] at h
        simp only [Prod.mk.injEq, Except.ok.injEq] at h
        exact ⟨h.1, rfl, h.2⟩

variable (P node) in
/-- The second half of a seal: the node and the answer for each way the backend can behave. -/
def persist (raw : Bytes) (number timestamp baseFee : U64) (db : InMemoryDB)
    (prepared : PreparedTx) (result : ExecutionResult) (io : SealIo) :
    KanariNode × Except NodeError B256 :=
  match io.rebuild, io.save with
  | some (msg, tree), _ =>
    ({ node.executed P db result baseFee with smt := tree }, .error (.storage msg))
  | none, some msg =>
    ((node.executed P db result baseFee).rebuilt P, .error (.ofStore (.backend msg)))
  | none, none =>
    (node.afterSeal P raw number timestamp baseFee db prepared result, .ok (P.keccak256 raw))

variable (P node raw number timestamp baseFee) in
theorem persist_cases (db : InMemoryDB) (prepared : PreparedTx) (result : ExecutionResult)
    (io : SealIo) :
    (io = .healthy ∧ node.persist P raw number timestamp baseFee db prepared result io =
        (node.afterSeal P raw number timestamp baseFee db prepared result,
          .ok (P.keccak256 raw))) ∨
      (io ≠ .healthy ∧ ∃ node' msg,
        node.persist P raw number timestamp baseFee db prepared result io =
          (node', .error (.storage msg))) := by
  obtain ⟨rebuild, save⟩ := io
  cases rebuild with
  | some fault => exact .inr ⟨fun h => (by cases h), _, fault.1, rfl⟩
  | none =>
    cases save with
    | some msg => exact .inr ⟨fun h => (by cases h), _, _, rfl⟩
    | none => exact .inl ⟨rfl, rfl⟩

theorem sealRawWithFee_of_ok {db : InMemoryDB} {prepared : PreparedTx} {result : ExecutionResult}
    (h : executeRaw P node.db node.spec raw number timestamp baseFee =
      (db, .ok (prepared, result))) (io : SealIo) :
    node.sealRawWithFee P raw number timestamp baseFee io =
      node.persist P raw number timestamp baseFee db prepared result io := by
  obtain ⟨hd, ht⟩ := executeRaw_ok_iff.mp h
  obtain ⟨rebuild, save⟩ := io
  simp only [sealRawWithFee, hd, ht, rebuildSmt, persist]
  cases rebuild with
  | some fault => rfl
  | none => cases save <;> rfl

end KanariNode

section Congruence

variable {P : Platform} {rel : InMemoryDB → InMemoryDB → Prop}
  (hc : P.toRevm.Congruence rel) (hdet : P.toRevm.Deterministic)
  {db₁ db₂ : InMemoryDB} (h : rel db₁ db₂)

include hc hdet h

theorem transactRaw_congr (spec : KanariChainSpec) (prepared : PreparedTx)
    (number timestamp baseFee : U64) :
    rel (transactRaw P db₁ spec prepared number timestamp baseFee).1
        (transactRaw P db₂ spec prepared number timestamp baseFee).1 ∧
      (transactRaw P db₁ spec prepared number timestamp baseFee).2 =
        (transactRaw P db₂ spec prepared number timestamp baseFee).2 := by
  have hl := hc.logical h
  simp only [transactRaw, Revm.transact, hdet.outcome _ _ hl, hdet.reads _ _ hl]
  have hread := hc.readAll (P.reads db₂ (KanariNode.evmParams spec number timestamp baseFee)
    prepared.inner) h
  cases P.outcome db₂ (KanariNode.evmParams spec number timestamp baseFee) prepared.inner with
  | error e => exact ⟨hread, rfl⟩
  | ok out => exact ⟨hc.commit _ hread, rfl⟩

theorem executeRaw_congr {spec : KanariChainSpec} {raw : Bytes} {number timestamp baseFee : U64}
    {db₁' : InMemoryDB} {out : Except NodeError (PreparedTx × ExecutionResult)}
    (hex : executeRaw P db₁ spec raw number timestamp baseFee = (db₁', out)) :
    ∃ db₂', executeRaw P db₂ spec raw number timestamp baseFee = (db₂', out) ∧ rel db₁' db₂' := by
  unfold executeRaw at hex ⊢
  cases hd : PreparedTx.decode P raw spec.chainId with
  | error e =>
    simp only [hd, Prod.mk.injEq] at hex ⊢
    obtain ⟨rfl, rfl⟩ := hex
    exact ⟨db₂, ⟨rfl, rfl⟩, h⟩
  | ok prepared =>
    obtain ⟨hrel, hout⟩ := transactRaw_congr hc hdet h spec prepared number timestamp baseFee
    simp only [hd] at hex ⊢
    rcases h₁ : transactRaw P db₁ spec prepared number timestamp baseFee with ⟨d₁, o₁⟩
    rcases h₂ : transactRaw P db₂ spec prepared number timestamp baseFee with ⟨d₂, o₂⟩
    rw [h₁, h₂] at hrel hout
    simp only at hrel hout
    subst hout
    cases o₁ with
    | error e =>
      simp only [h₁, Prod.mk.injEq] at hex ⊢
      obtain ⟨rfl, rfl⟩ := hex
      exact ⟨d₂, ⟨rfl, rfl⟩, hrel⟩
    | ok result =>
      simp only [h₁, Prod.mk.injEq] at hex ⊢
      obtain ⟨rfl, rfl⟩ := hex
      exact ⟨d₂, ⟨rfl, rfl⟩, hrel⟩

omit hdet

theorem creditBeneficiary_congr (amount : U256) :
    rel (creditBeneficiary P db₁ amount) (creditBeneficiary P db₂ amount) := by
  have hread : rel (P.basic db₁ blockBeneficiary).2 (P.basic db₂ blockBeneficiary).2 :=
    hc.read (.basic blockBeneficiary) h
  simp only [creditBeneficiary, hc.info blockBeneficiary h]
  exact hc.insertAccountInfo _ _ hread

theorem settleFees_congr (result : ExecutionResult) (baseFee : U64) :
    rel (KanariNode.settleFees P db₁ result baseFee)
      (KanariNode.settleFees P db₂ result baseFee) := by
  simp only [KanariNode.settleFees]
  split_ifs
  · exact h
  · exact creditBeneficiary_congr hc h _

end Congruence

section Refused

variable {P : Platform} (hR : P.toRevm.CacheLaws) {db db' : InMemoryDB} {spec : KanariChainSpec}
  {raw : Bytes} {number timestamp baseFee : U64} {e : NodeError}

/-- A refused transaction leaves the database alone, or leaves the reads of its execution. -/
theorem executeRaw_error_cases
    (h : executeRaw P db spec raw number timestamp baseFee = (db', .error e)) :
    db' = db ∨ ∃ prepared msg,
      P.outcome db (KanariNode.evmParams spec number timestamp baseFee) prepared = .error msg ∧
        db' = P.readAll db
          (P.reads db (KanariNode.evmParams spec number timestamp baseFee) prepared) := by
  unfold executeRaw at h
  cases hd : PreparedTx.decode P raw spec.chainId with
  | error e' =>
    simp only [hd, Prod.mk.injEq] at h
    exact .inl h.1.symm
  | ok prepared =>
    simp only [hd, transactRaw, Revm.transact] at h
    cases ho : P.outcome db (KanariNode.evmParams spec number timestamp baseFee)
        prepared.inner with
    | error msg =>
      simp only [ho, Prod.mk.injEq] at h
      exact .inr ⟨prepared.inner, msg, ho, h.1.symm⟩
    | ok out => simp [ho] at h

include hR

theorem executeRaw_error_sameAccounts
    (h : executeRaw P db spec raw number timestamp baseFee = (db', .error e)) :
    SameAccounts db' db := by
  rcases executeRaw_error_cases h with rfl | ⟨prepared, msg, -, rfl⟩
  · exact SameAccounts.refl _
  · exact Revm.readAll_sameAccounts hR _ _

theorem executeRaw_error_sameCache (hq : P.toRevm.RejectsQuietly)
    (h : executeRaw P db spec raw number timestamp baseFee = (db', .error e)) :
    SameCache db' db := by
  rcases executeRaw_error_cases h with rfl | ⟨prepared, msg, ho, rfl⟩
  · exact SameCache.refl _
  · apply Revm.readAll_sameCache_of_quiet hR
    intro r hr
    obtain ⟨a, rfl⟩ := hq _ _ _ _ ho r hr
    trivial

end Refused

end KanariEvm
