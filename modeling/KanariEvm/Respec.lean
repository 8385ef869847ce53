import KanariEvm.Reference
import KanariEvm.Restart

namespace KanariEvm

open InMemoryDB Journaled

theorem KanariChainSpec.applyGenesis_congr (P : Platform) {S S' : KanariChainSpec}
    (halloc : S'.genesisAlloc = S.genesisAlloc) (hcode : S'.genesisCode = S.genesisCode)
    (hstorage : S'.genesisStorage = S.genesisStorage) (db : InMemoryDB) :
    S'.applyGenesis P db = S.applyGenesis P db := by
  have hinsert : S'.insertAlloc P = S.insertAlloc P := by
    funext db entry
    simp only [insertAlloc, hcode]
  have hcontract : S'.insertCode P = S.insertCode P := by
    funext db entry
    simp only [insertCode, halloc]
  simp only [applyGenesis, halloc, hcode, hstorage, hinsert, hcontract]

namespace KanariNode

variable {P : Platform}

theorem executeRaw_respec {S S' : KanariChainSpec} (hid : S'.chainId = S.chainId)
    (hfork : S'.specId = S.specId) (db : InMemoryDB) (raw : Bytes)
    (number timestamp baseFee : U64) :
    executeRaw P db S' raw number timestamp baseFee =
      executeRaw P db S raw number timestamp baseFee := by
  simp only [executeRaw, transactRaw, evmParams, hid, hfork]

section Respec

variable {S : KanariChainSpec} {node : KanariNode} (hid : S.chainId = node.spec.chainId)
  (hfork : S.specId = node.spec.specId)

include hid hfork

theorem sealRawWithFee_respec (raw : Bytes) (number timestamp baseFee : U64) :
    ({ node with spec := S } : KanariNode).sealRawWithFee P raw number timestamp baseFee .healthy =
      ({ (node.sealRawWithFee P raw number timestamp baseFee .healthy).1 with spec := S },
        (node.sealRawWithFee P raw number timestamp baseFee .healthy).2) := by
  have hexec := executeRaw_respec (P := P) hid hfork node.db raw number timestamp baseFee
  rcases node.sealRawWithFee_healthy_cases P raw number timestamp baseFee with
    ⟨db, e, hex, hs⟩ | ⟨db, prepared, result, hex, hs⟩
  · rw [hs]
    rw [hex] at hexec
    exact sealRawWithFee_of_error hexec
  · rw [hs]
    rw [hex] at hexec
    exact sealRawWithFee_of_ok hexec .healthy

theorem replayTx_respec (block : SealedBlock) (raw : Bytes) :
    ({ node with spec := S } : KanariNode).replayTx P block raw =
      ({ (node.replayTx P block raw).1 with spec := S }, (node.replayTx P block raw).2) := by
  rw [replayTx_eq, replayTx_eq, sealRawWithFee_respec hid hfork]
  rcases node.sealRawWithFee P raw block.number block.timestamp block.baseFee .healthy with
    ⟨m, e | hash⟩ <;> rfl

end Respec

theorem replayTxs_respec {S : KanariChainSpec} {node : KanariNode}
    (hid : S.chainId = node.spec.chainId) (hfork : S.specId = node.spec.specId)
    (block : SealedBlock) (raws : List Bytes) :
    replayTxs P block { node with spec := S } raws =
      ({ (replayTxs P block node raws).1 with spec := S }, (replayTxs P block node raws).2) := by
  induction raws generalizing node with
  | nil => rfl
  | cons raw rest ih =>
    have hspec : (node.replayTx P block raw).1.spec = node.spec := by
      rw [replayTx_fst]
      rcases node.sealRawWithFee_healthy_cases P raw block.number block.timestamp
        block.baseFee with ⟨db, e, -, hs⟩ | ⟨db, prepared, result, -, hs⟩
      · rw [hs]
      · rw [hs]
        rfl
    rw [replayTxs, replayTxs, replayTx_respec hid hfork]
    rcases hx : node.replayTx P block raw with ⟨m, e | u⟩
    · rfl
    · rw [hx] at hspec
      exact ih (hid.trans (by rw [← hspec])) (hfork.trans (by rw [← hspec]))

theorem replayBlocks_respec {S : KanariChainSpec} {node : KanariNode}
    (hid : S.chainId = node.spec.chainId) (hfork : S.specId = node.spec.specId)
    (blocks : List SealedBlock) :
    replayBlocks P { node with spec := S } blocks =
      ({ (replayBlocks P node blocks).1 with spec := S }, (replayBlocks P node blocks).2) := by
  induction blocks generalizing node with
  | nil => rfl
  | cons block rest ih =>
    have hspec : (replayBlocks P node [block]).1.spec = node.spec :=
      (SameSetup.replayBlocks node [block]).spec
    simp only [replayBlocks] at hspec ⊢
    rw [replayTxs_respec hid hfork]
    rcases hx : replayTxs P block node block.txs with ⟨m, e | u⟩
    · rfl
    · rw [hx] at hspec
      exact ih (hid.trans (by rw [← hspec])) (hfork.trans (by rw [← hspec]))

/-- Opening `dir` under `S` either fails or gives back the genesis and the state of `closed`, a
node created under the genesis of `S₀`. -/
def ReopensFaithfully (P : Platform) (S₀ S : KanariChainSpec) (closed : KanariNode)
    (dir : DataDir) : Prop :=
  ∀ node, («open» P S dir).2 = .ok node →
    SameLogical (node.spec.applyGenesis P .empty) (S₀.applyGenesis P .empty) ∧
      node.genesisRoot = closed.genesisRoot ∧ SameLogical node.db closed.db ∧
      node.pendingBaseFee P = closed.pendingBaseFee P

/-- What a spec has to share with the one its directory was created under. The chain id is
checked and a stored allocation restored; nothing else of a spec is kept in the store. -/
structure Reproduces (S₀ S : KanariChainSpec) (blocks : List SealedBlock) : Prop where
  code : S.genesisCode = S₀.genesisCode
  storage : S.genesisStorage = S₀.genesisStorage
  alloc : S₀.genesisAlloc = [] → S.genesisAlloc = []
  fee : blocks = [] → S.baseFeeWei = S₀.baseFeeWei
  hardfork : blocks ≠ [] → S.specId = S₀.specId

theorem Reproduces.reopenSpec_alloc {S₀ S : KanariChainSpec} {blocks : List SealedBlock}
    (h : Reproduces S₀ S blocks) :
    (reopenSpec S S₀.genesisAlloc).genesisAlloc = S₀.genesisAlloc := by
  unfold reopenSpec
  split_ifs with hne
  · rfl
  · rw [not_not] at hne
    rw [h.alloc hne, hne]

theorem reopenSpec_fields (S : KanariChainSpec) (alloc : List (Address × U256)) :
    (reopenSpec S alloc).chainId = S.chainId ∧ (reopenSpec S alloc).specId = S.specId ∧
      (reopenSpec S alloc).genesisCode = S.genesisCode ∧
      (reopenSpec S alloc).genesisStorage = S.genesisStorage ∧
      (reopenSpec S alloc).baseFeeWei = S.baseFeeWei := by
  unfold reopenSpec
  split_ifs <;> exact ⟨rfl, rfl, rfl, rfl, rfl⟩

/-- The pending fee of a chain with a block is a matter of its history, not of its spec. -/
theorem pendingBaseFee_respec (node : KanariNode) {S : KanariChainSpec}
    (h : node.blocks = [] → S.baseFeeWei = node.spec.baseFeeWei) :
    ({ node with spec := S } : KanariNode).pendingBaseFee P = node.pendingBaseFee P := by
  simp only [pendingBaseFee]
  cases hl : node.blocks.getLast? with
  | none => exact h (List.getLast?_eq_none_iff.mp hl)
  | some head => rfl

section Laws

variable (hR : P.toRevm.CacheLaws) (hdet : P.toRevm.Deterministic) (hq : P.toRevm.RejectsQuietly)

include hR hdet hq

theorem reopensFaithfully_of_reproduces {S₀ S : KanariChainSpec} (hid : S.chainId = S₀.chainId)
    (steps : List SealStep) (h : Reproduces S₀ S (live P S₀ steps).blocks) :
    ReopensFaithfully P S₀ S (live P S₀ steps) ((live P S₀ steps).dataDir .fresh) := by
  set closed := live P S₀ steps with hclosed
  set dir := closed.dataDir .fresh
  set R := reopenSpec S S₀.genesisAlloc with hRdef
  obtain ⟨hRid, hRfork, hRcode, hRstorage, hRfee⟩ := reopenSpec_fields S S₀.genesisAlloc
  have hgenesis : ∀ db, R.applyGenesis P db = S₀.applyGenesis P db := fun db =>
    KanariChainSpec.applyGenesis_congr P h.reopenSpec_alloc (hRcode.trans h.code)
      (hRstorage.trans h.storage) db
  have hstart : (blank R dir).genesis P = { (blank S₀ dir).genesis P with spec := R } := by
    simp only [genesis, blank, rebuilt, stateRoot, hgenesis]
  obtain ⟨t, hreplay, hagree⟩ := replay_run hR hdet hq S₀ steps dir
  have hsetup := SameSetup.replayBlocks (P := P) ((blank S₀ dir).genesis P) closed.blocks
  rw [hreplay] at hsetup
  -- without blocks nothing executes, so the hardfork matters only once there are some
  have hagain : replayBlocks P ((blank R dir).genesis P) closed.blocks =
      ({ t with spec := R }, .ok ()) := by
    by_cases hb : closed.blocks = []
    · rw [hb] at hreplay ⊢
      simp only [replayBlocks, Prod.mk.injEq, and_true] at hreplay ⊢
      rw [hstart, hreplay]
    · rw [hstart, replayBlocks_respec (hRid.trans hid) (hRfork.trans (h.hardfork hb)), hreplay]
  have hmirrors : dir.chain.Mirrors S.chainId S₀.genesisAlloc closed.blocks := by
    rw [hid]
    exact (live_recorded P S₀ steps).store
  have hlive := SameSetup.run (P := P) (created P S₀) steps
  rw [ReopensFaithfully, open_of_replay hmirrors hagain]
  rintro _ ⟨⟩
  refine ⟨fun a => by rw [hgenesis], ?_, hagree.symm.db.sameLogical, ?_⟩
  · exact hsetup.genesisRoot.trans hlive.genesisRoot.symm
  · rw [pendingBaseFee_respec t, hagree.pendingBaseFee P]
    intro hb
    rw [hRfee, ← hagree.spec, (live_recorded P S₀ steps).sameSpec]
    exact h.fee (hagree.blocks.trans hb)

theorem reopensFaithfully_iff_of_no_blocks {S₀ S : KanariChainSpec}
    (hid : S.chainId = S₀.chainId) (steps : List SealStep)
    (hb : (live P S₀ steps).blocks = []) :
    ReopensFaithfully P S₀ S (live P S₀ steps) ((live P S₀ steps).dataDir .fresh) ↔
      SameLogical ((reopenSpec S S₀.genesisAlloc).applyGenesis P .empty)
          (S₀.applyGenesis P .empty) ∧
        P.smtRoot (smtEntries P ((reopenSpec S S₀.genesisAlloc).applyGenesis P .empty)) =
          P.smtRoot (smtEntries P (S₀.applyGenesis P .empty)) ∧
        S.baseFeeWei = S₀.baseFeeWei := by
  set closed := live P S₀ steps with hclosed
  set dir := closed.dataDir .fresh
  have hrec := live_recorded P S₀ steps
  have hmirrors : dir.chain.Mirrors S.chainId S₀.genesisAlloc [] := by
    rw [hid, ← hb]
    exact hrec.store
  have hopen : «open» P S dir = _ := open_of_replay hmirrors rfl
  obtain ⟨t, hreplay, hagree⟩ := replay_run hR hdet hq S₀ steps dir
  rw [hb] at hreplay
  obtain rfl : (blank S₀ dir).genesis P = t := congrArg Prod.fst hreplay
  have hdb : SameLogical closed.db (S₀.applyGenesis P .empty) := hagree.db.sameLogical
  have hroot := (SameSetup.run (P := P) (created P S₀) steps).genesisRoot
  have hfee : closed.pendingBaseFee P = S₀.baseFeeWei := by
    rw [pendingBaseFee, hb, hrec.sameSpec]
    rfl
  rw [ReopensFaithfully, hopen]
  simp only [Except.ok.injEq, forall_eq']
  have hnewFee : ((blank (reopenSpec S S₀.genesisAlloc) dir).genesis P).pendingBaseFee P =
      S.baseFeeWei := (reopenSpec_fields S S₀.genesisAlloc).2.2.2.2
  simp only [hnewFee, hfee]
  constructor
  · rintro ⟨hgenesis, hroots, -, hfees⟩
    exact ⟨hgenesis, hroots.trans hroot, hfees⟩
  · rintro ⟨hgenesis, hroots, hfees⟩
    exact ⟨hgenesis, hroots.trans hroot.symm, fun a => (hgenesis a).trans (hdb a).symm, hfees⟩

/-- Reopening a directory under a spec with its chain id gives back the genesis and the state the
closed node had if the spec shares what the store does not keep. While no block is sealed, it
does so only if genesis state, genesis root and base fee come out the same. -/
theorem reopen_reproduces_genesis (S₀ S : KanariChainSpec) (hid : S.chainId = S₀.chainId)
    (steps : List SealStep) :
    (Reproduces S₀ S (live P S₀ steps).blocks →
        ReopensFaithfully P S₀ S (live P S₀ steps) ((live P S₀ steps).dataDir .fresh)) ∧
      ((live P S₀ steps).blocks = [] →
        (ReopensFaithfully P S₀ S (live P S₀ steps) ((live P S₀ steps).dataDir .fresh) ↔
          SameLogical ((reopenSpec S S₀.genesisAlloc).applyGenesis P .empty)
              (S₀.applyGenesis P .empty) ∧
            P.smtRoot (smtEntries P ((reopenSpec S S₀.genesisAlloc).applyGenesis P .empty)) =
              P.smtRoot (smtEntries P (S₀.applyGenesis P .empty)) ∧
            S.baseFeeWei = S₀.baseFeeWei)) :=
  ⟨reopensFaithfully_of_reproduces hR hdet hq hid steps,
    reopensFaithfully_iff_of_no_blocks hR hdet hq hid steps⟩

end Laws

def bareSpec : KanariChainSpec := { Reference.spec with genesisAlloc := [], baseFeeWei := 7 }

theorem reopen_reproduces_genesis_transfer :
    ReopensFaithfully Reference.platform Reference.spec bareSpec
      (live Reference.platform Reference.spec [.committed Reference.transfer0 5])
      ((live Reference.platform Reference.spec
        [.committed Reference.transfer0 5]).dataDir .fresh) := by
  have hsealed : (live Reference.platform Reference.spec
      [.committed Reference.transfer0 5]).blocks ≠ [] := by decide +kernel
  have hid : bareSpec.chainId = Reference.spec.chainId := rfl
  have hrep : Reproduces Reference.spec bareSpec (live Reference.platform Reference.spec
      [.committed Reference.transfer0 5]).blocks :=
    ⟨rfl, rfl, fun _ => rfl, fun h => absurd h hsealed, fun _ => rfl⟩
  exact (reopen_reproduces_genesis Reference.cacheLaws Reference.deterministic
    Reference.rejectsQuietly Reference.spec bareSpec hid [.committed Reference.transfer0 5]).1 hrep

/-- An empty chain reopened under another base fee takes it over without a word. -/
theorem reopen_adopts_new_base_fee :
    ¬ReopensFaithfully Reference.platform Reference.spec (Reference.spec.withBaseFee 7)
      (live Reference.platform Reference.spec [])
      ((live Reference.platform Reference.spec []).dataDir .fresh) := by
  have hnew : ((«open» Reference.platform (Reference.spec.withBaseFee 7)
      ((live Reference.platform Reference.spec []).dataDir .fresh)).2.toOption.map
        fun n => n.pendingBaseFee Reference.platform) = some 7 := by decide +kernel
  have hold : (live Reference.platform Reference.spec []).pendingBaseFee Reference.platform =
      1000000000 := by decide +kernel
  intro hfaithful
  cases hopen : («open» Reference.platform (Reference.spec.withBaseFee 7)
      ((live Reference.platform Reference.spec []).dataDir .fresh)).2 with
  | error e =>
    rw [hopen] at hnew
    simp [Except.toOption] at hnew
  | ok node =>
    obtain ⟨-, -, -, hfee⟩ := hfaithful node hopen
    rw [hopen] at hnew
    simp only [Except.toOption, Option.map_some, Option.some.injEq, hfee, hold] at hnew
    exact absurd hnew (by decide)

end KanariNode

end KanariEvm
