import KanariEvm.ReadIsolation
import KanariEvm.Restart

namespace KanariEvm

open Journaled

namespace KanariNode

variable {P : Platform}

theorem replayBlocks_blocks (node : KanariNode) (blocks : List SealedBlock) :
    ∃ more, (replayBlocks P node blocks).1.blocks = node.blocks ++ more := by
  apply replayBlocks_induction (p := fun n => ∃ more, n.blocks = node.blocks ++ more)
  · rintro n raw number timestamp baseFee ⟨more, hmore⟩
    rcases n.sealRawWithFee_healthy_cases P raw number timestamp baseFee with
      ⟨db, e, -, hs⟩ | ⟨db, prepared, result, -, hs⟩
    · exact ⟨more, by rw [hs]; exact hmore⟩
    · refine ⟨more ++ [n.newBlock P raw number timestamp baseFee db result], ?_⟩
      rw [hs]
      simp only [afterSeal, hmore, List.append_assoc]
  · exact ⟨[], (List.append_nil _).symm⟩

theorem replayTxs_singly {node node' : KanariNode} {block : SealedBlock}
    (hone : ∃ raw, block.txs = [raw])
    (h : replayTxs P block node block.txs = (node', .ok ())) :
    ∃ sealed hash receipt, sealed.number = block.number ∧
      node'.blocks = node.blocks ++ [sealed] ∧
      node'.store = node.store.write (ChainStore.sealBatch sealed [(hash, receipt)]) := by
  obtain ⟨raw, hraw⟩ := hone
  rw [hraw, replayTxs] at h
  have hfst := replayTx_fst (P := P) node block raw
  rcases node.sealRawWithFee_healthy_cases P raw block.number block.timestamp block.baseFee with
    ⟨db, e, -, hs⟩ | ⟨db, prepared, result, -, hs⟩
  · have hfail : node.replayTx P block raw = ({ node with db := db }, .error e) := by
      simp only [replayTx, hs]
    simp [hfail] at h
  · rw [hs] at hfst
    rcases hx : node.replayTx P block raw with ⟨m, e | u⟩
    · simp [hx] at h
    · simp only [hx, replayTxs, Prod.mk.injEq, and_true] at h
      rw [hx, h] at hfst
      have hnode : node' = node.afterSeal P raw block.number block.timestamp block.baseFee db
          prepared result := hfst
      rw [hnode]
      exact ⟨node.newBlock P raw block.number block.timestamp block.baseFee db result,
        P.keccak256 raw, node.sealedReceipt P raw prepared result block.number block.timestamp,
        rfl, rfl, rfl⟩

theorem replayBlocks_store {blocks : List SealedBlock} {node node' : KanariNode}
    (hone : ∀ b ∈ blocks, ∃ raw, b.txs = [raw]) (h : replayBlocks P node blocks = (node', .ok ()))
    (hblocks : node'.blocks = node.blocks ++ blocks) :
    (∀ n b, node.store.loadBlock n = .ok (some b) → (∀ e ∈ blocks, e.number = n → e = b) →
        node'.store.loadBlock n = .ok (some b)) ∧
      ∀ last, blocks.getLast? = some last →
        node'.store.getU64 Keys.metaHeight = .ok (some last.number) := by
  induction blocks generalizing node with
  | nil =>
    simp only [replayBlocks, Prod.mk.injEq, and_true] at h
    subst h
    exact ⟨fun n b hb _ => hb, fun last hl => by simp at hl⟩
  | cons block rest ih =>
    rw [replayBlocks] at h
    rcases ht : replayTxs P block node block.txs with ⟨mid, e | u⟩
    · simp [ht] at h
    · simp only [ht] at h
      obtain ⟨sealed, hash, receipt, hnum, hmid, hstore⟩ :=
        replayTxs_singly (hone block List.mem_cons_self) ht
      -- replay only appends, so the block sealed here is the one it was given
      obtain ⟨more, hmore⟩ := replayBlocks_blocks (P := P) mid rest
      rw [h, hblocks, hmid, List.append_assoc] at hmore
      obtain ⟨hsealed, hrest⟩ := List.cons.inj (List.append_cancel_left hmore)
      obtain ⟨hrecords, hheight⟩ := ih (fun b hb => hone b (List.mem_cons_of_mem _ hb)) h
        (by rw [hblocks, hmid, hsealed, List.append_assoc]; rfl)
      refine ⟨fun n b hb huniq => ?_, fun last hl => ?_⟩
      · apply hrecords n b _ fun e he => huniq e (List.mem_cons_of_mem _ he)
        rw [hstore, ChainStore.loadBlock_sealBatch]
        split_ifs with hn
        · rw [← hsealed, huniq block List.mem_cons_self (by rw [hn, hnum])]
        · exact hb
      · cases rest with
        | nil =>
          simp only [List.getLast?_singleton, Option.some.injEq] at hl
          simp only [replayBlocks, Prod.mk.injEq, and_true] at h
          rw [← h, hstore, ChainStore.height_sealBatch, hnum, hl]
        | cons b bs => exact hheight last (by simpa using hl)

/-- Replay that restores the first blocks of the mirrored chain leaves a store that mirrors those.
With none to restore it leaves the store alone, so the chain has to be empty then. -/
theorem mirrors_replayed {start replayed : KanariNode} {chainId : U64}
    {alloc : List (Address × U256)} {full blocks : List SealedBlock}
    (hm : start.store.Mirrors chainId alloc full) (hfirst : blocks <+: full)
    (hnone : blocks = [] → full = [])
    (hnumbers : ∀ i (hi : i < blocks.length), blocks[i].number.toNat = i + 1)
    (hsingle : ∀ b ∈ blocks, ∃ raw, b.txs = [raw])
    (hreplay : replayBlocks P start blocks = (replayed, .ok ()))
    (hblocks : replayed.blocks = start.blocks ++ blocks) :
    replayed.store.Mirrors chainId alloc blocks := by
  have hsetup := SameSetup.replayBlocks (P := P) start blocks
  rw [hreplay] at hsetup
  obtain ⟨hrecords, hheight⟩ := replayBlocks_store hsingle hreplay hblocks
  have hlen := hfirst.length_le
  have hbound := hm.bound
  refine ⟨hsetup.chainId.trans hm.chainId, hsetup.alloc.trans hm.alloc,
    hsetup.storedFaucet.trans hm.faucet, ?_, by omega, ?_⟩
  · rcases List.eq_nil_or_concat blocks with hnil | ⟨front, last, hconcat⟩
    · have hfull := hnone hnil
      subst hnil hfull
      simp only [replayBlocks, Prod.mk.injEq, and_true] at hreplay
      rw [← hreplay]
      exact hm.height
    · rw [List.concat_eq_append] at hconcat
      subst hconcat
      have hlast := hnumbers front.length (by simp)
      rw [List.getElem_concat_length (by simp)] at hlast
      rw [ChainStore.height_eq_getD, hheight last (by simp), List.length_append,
        List.length_singleton, ← hlast, BitVec.ofNat_toNat, BitVec.setWidth_eq]
      rfl
  · intro i hi
    rw [hfirst.getElem hi]
    apply hrecords _ _ (hm.record i (by omega))
    intro e he hnum
    obtain ⟨k, hk, rfl⟩ := List.getElem_of_mem he
    have hkn := hnumbers k hk
    rw [hnum, BitVec.toNat_ofNat, Nat.mod_eq_of_lt (by omega)] at hkn
    obtain rfl : k = i := by omega
    exact hfirst.getElem hi

/-- The directory that `open` leaves when its process dies after it has replayed `j` blocks. The
tree is written ahead of each batch, so it may hold anything. -/
def crashedOpen (P : Platform) (spec : KanariChainSpec) (dir : DataDir) (j : ℕ)
    (tree : SparseMerkleTree) : DataDir :=
  match dir.chain.storedGenesisAlloc, dir.chain.loadBlocks with
  | .ok alloc, .ok blocks =>
    { (replayBlocks P ((blank (reopenSpec spec alloc) dir).genesis P)
        (blocks.take j)).1.dataDir dir with smt := tree }
  | _, _ => dir

section Laws

variable (hR : P.toRevm.CacheLaws) (hdet : P.toRevm.Deterministic) (hq : P.toRevm.RejectsQuietly)

include hR hdet hq

/-- What the store says after `j` replayed blocks of a run: the first `j` blocks, or all of them
when none was replayed yet. -/
theorem crashedOpen_mirrors (spec : KanariChainSpec) (steps : List SealStep) (dir : DataDir)
    (hm : dir.chain.Mirrors spec.chainId spec.genesisAlloc (live P spec steps).blocks) {j : ℕ}
    (hj : j ≤ (live P spec steps).blocks.length) (tree : SparseMerkleTree) :
    ∃ done, (live P spec done).blocks = (if j = 0 then (live P spec steps).blocks
        else (live P spec steps).blocks.take j) ∧
      (crashedOpen P spec dir j tree).chain.Mirrors spec.chainId spec.genesisAlloc
        (live P spec done).blocks := by
  have hself := reopenSpec_self spec
  have hcrash : (crashedOpen P spec dir j tree).chain =
      (replayBlocks P ((blank spec dir).genesis P)
        ((live P spec steps).blocks.take j)).1.store := by
    rw [crashedOpen, hm.alloc, hm.loadBlocks]
    simp only [hself]
    rfl
  rcases Nat.eq_zero_or_pos j with rfl | hpos
  · refine ⟨steps, (if_pos rfl).symm, ?_⟩
    rw [hcrash]
    exact hm
  -- the first `j` blocks are themselves the chain of a run
  obtain ⟨done, hdone⟩ := (sealMachine P).exists_journal_eq_take (created P spec) steps j
  rw [← live_blocks, ← live_blocks] at hdone
  refine ⟨done, by rw [if_neg (by omega), hdone], ?_⟩
  obtain ⟨node, hreplay, hagree⟩ := replay_run hR hdet hq spec done dir
  have hrec := live_recorded P spec done
  have hlen : (live P spec done).blocks.length = j := by
    rw [hdone, List.length_take]
    omega
  have hne : (live P spec done).blocks ≠ [] := List.ne_nil_of_length_pos (by omega)
  have hstart : ((blank spec dir).genesis P).store.Mirrors spec.chainId spec.genesisAlloc
      (live P spec steps).blocks := hm
  rw [hcrash, ← hdone, hreplay]
  exact mirrors_replayed hstart (hdone ▸ List.take_prefix _ _) (absurd · hne) hrec.numbers
    hrec.single hreplay (by rw [← hagree.blocks]; rfl)

/-- A process that dies while it reopens a chain of `h` blocks loses none of them exactly when it
dies before the first replayed block or after the last. -/
theorem open_crash_safe_iff (spec : KanariChainSpec) (ops : List Op)
    (hhealthy : ∀ op ∈ ops, op.OnHealthyBackend) (hquiet : QuietRun P (created P spec) ops)
    (j : ℕ) (hj : j ≤ ((nodeMachine P).final (created P spec) ops).blocks.length)
    (tree : SparseMerkleTree) :
    (∃ node, («open» P spec (crashedOpen P spec
        (((nodeMachine P).final (created P spec) ops).dataDir .fresh) j tree)).2 = .ok node ∧
          node.blocks = ((nodeMachine P).final (created P spec) ops).blocks) ↔
      j = 0 ∨ j = ((nodeMachine P).final (created P spec) ops).blocks.length := by
  -- quiet reads can be left out, which makes the run one of seal attempts
  have htwin := twin_of_erased_reads hR hdet (created P spec) hquiet
  rw [final_attempts P hhealthy] at htwin
  set closed := (nodeMachine P).final (created P spec) ops
  set steps := ops.filterMap Op.sealStep?
  have hblocks : closed.blocks = (live P spec steps).blocks := htwin.agree.blocks
  have hmirrors : (closed.dataDir .fresh).chain.Mirrors spec.chainId spec.genesisAlloc
      (live P spec steps).blocks := by
    change closed.store.Mirrors _ _ _
    rw [htwin.store]
    exact (live_recorded P spec steps).store
  obtain ⟨done, hdone, hcrash⟩ := crashedOpen_mirrors hR hdet hq spec steps
    (closed.dataDir .fresh) hmirrors (hblocks ▸ hj) tree
  obtain ⟨node, hopen, hagree, -⟩ := open_of_run hR hdet hq spec done _ hcrash
  rw [hopen, hblocks]
  have hnode : node.blocks = if j = 0 then (live P spec steps).blocks
      else (live P spec steps).blocks.take j := hagree.blocks.symm.trans hdone
  constructor
  · rintro ⟨n, hn, hall⟩
    obtain rfl : node = n := Except.ok.inj hn
    by_cases hj0 : j = 0
    · exact .inl hj0
    · rw [hnode, if_neg hj0] at hall
      have hlen := congrArg List.length hall
      rw [List.length_take] at hlen
      rw [hblocks] at hj
      exact .inr (by omega)
  · intro h
    refine ⟨node, rfl, ?_⟩
    rcases h with rfl | rfl
    · rw [hnode, if_pos rfl]
    · rw [hnode, List.take_length, ite_self]

end Laws

theorem open_crash_safe_iff_transfers :
    ∃ node, («open» Reference.platform Reference.spec (crashedOpen Reference.platform
        Reference.spec (((nodeMachine Reference.platform).final
          (created Reference.platform Reference.spec)
          [.attempt (.committed Reference.transfer0 5) .healthy,
            .read (.balanceOf Reference.funded),
            .attempt (.committed Reference.transfer1 5) .healthy]).dataDir .fresh) 2 ⟨∅⟩)).2 =
        .ok node ∧
      node.blocks = ((nodeMachine Reference.platform).final
        (created Reference.platform Reference.spec)
        [.attempt (.committed Reference.transfer0 5) .healthy,
          .read (.balanceOf Reference.funded),
          .attempt (.committed Reference.transfer1 5) .healthy]).blocks :=
  (open_crash_safe_iff Reference.cacheLaws Reference.deterministic Reference.rejectsQuietly
    Reference.spec [.attempt (.committed Reference.transfer0 5) .healthy,
      .read (.balanceOf Reference.funded), .attempt (.committed Reference.transfer1 5) .healthy]
    (by decide) ⟨trivial, by decide +kernel, trivial, trivial⟩ 2 (by decide +kernel) ⟨∅⟩).mpr
    (.inr (by decide +kernel))

/-- Dying between the two blocks leaves a chain of height one, which the next open accepts. -/
theorem crash_between_blocks_drops_a_block :
    ¬∃ node, («open» Reference.platform Reference.spec (crashedOpen Reference.platform
        Reference.spec ((live Reference.platform Reference.spec
          [.committed Reference.transfer0 5, .committed Reference.transfer1 5]).dataDir .fresh)
        1 ⟨∅⟩)).2 = .ok node ∧
      node.blocks = (live Reference.platform Reference.spec
        [.committed Reference.transfer0 5, .committed Reference.transfer1 5]).blocks := by
  rintro ⟨node, hopen, hblocks⟩
  have hone : ((«open» Reference.platform Reference.spec (crashedOpen Reference.platform
      Reference.spec ((live Reference.platform Reference.spec
        [.committed Reference.transfer0 5, .committed Reference.transfer1 5]).dataDir .fresh)
      1 ⟨∅⟩)).2.toOption.map fun n => n.blocks.length) = some 1 := by decide +kernel
  have htwo : (live Reference.platform Reference.spec
      [.committed Reference.transfer0 5, .committed Reference.transfer1 5]).blocks.length = 2 := by
    decide +kernel
  rw [hopen] at hone
  simp only [Except.toOption, Option.map_some, Option.some.injEq, hblocks, htwo] at hone
  exact absurd hone (by decide)

end KanariNode

end KanariEvm
