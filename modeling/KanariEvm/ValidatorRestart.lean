import KanariEvm.History
import KanariEvm.Restart
import KanariEvm.Validator

namespace KanariEvm

open InMemoryDB Journaled KanariNode

/-- A payload that can not be sealed any more: it does not decode for the chain, or the nonce it
decodes to is used up. -/
def KanariNode.Dead (P : Platform) (node : KanariNode) (raw : Bytes) : Prop :=
  ∀ prepared, PreparedTx.decode P raw node.spec.chainId = .ok prepared →
    node.db.Spent prepared.inner

/-- A commit that reaches `lastTs` arrives no later than the first one that carries payloads. -/
def Overtakes {ρ : Type} [DecidableEq ρ] (lastTs : U64) : List (CommittedSubDag ρ) → Prop
  | [] => True
  | commit :: rest => lastTs.toNat ≤ (commitTimestamp commit).toNat ∨
      (orderedPayloads [commit] = [] ∧ Overtakes lastTs rest)

section Inert

variable {P : Platform} (hR : P.toRevm.CacheLaws) (hn : P.toRevm.NonceLaws)

include hR hn

theorem KanariNode.Dead.perform {node : KanariNode} {raw : Bytes} (h : node.Dead P raw) (op : Op) :
    (node.perform P op).Dead P raw := by
  intro prepared hdecode
  rcases perform_cases hR node op with
    hsame | ⟨step, io, x, tree, -, -, hruns, hp⟩ | ⟨step, x, -, hruns, hp⟩
  · rw [hsame.spec] at hdecode
    exact hsame.db.spent (h prepared hdecode)
  · rw [hp] at hdecode ⊢
    obtain ⟨-, htx⟩ := executeRaw_ok_iff.mp hruns.executed
    exact settleFees_spent hR ((h prepared hdecode).transactRaw hn htx) _ _
  · rw [hp] at hdecode ⊢
    obtain ⟨-, htx⟩ := executeRaw_ok_iff.mp hruns.executed
    exact settleFees_spent hR ((h prepared hdecode).transactRaw hn htx) _ _

omit hR in
theorem KanariNode.Dead.not_executed {node : KanariNode} {raw : Bytes} (h : node.Dead P raw)
    {number timestamp baseFee : U64} {db : InMemoryDB} {out : PreparedTx × ExecutionResult} :
    executeRaw P node.db node.spec raw number timestamp baseFee ≠ (db, .ok out) := by
  intro hex
  obtain ⟨hdecode, htx⟩ := executeRaw_ok_iff.mp hex
  exact (h _ hdecode).not_executed hn htx

variable (hdet : P.toRevm.Deterministic) (hq : P.toRevm.RejectsQuietly)

include hq in
theorem KanariNode.Dead.sealCommitted {node : KanariNode} {raw : Bytes} (h : node.Dead P raw)
    (ts : U64) : Agree (node.sealCommitted P raw ts .healthy).1 node ∧
      (node.sealCommitted P raw ts .healthy).2.isOk = false := by
  have hrefused : (node.sealCommitted P raw ts .healthy).2.isOk = false := by
    refine Bool.eq_false_iff.mpr fun hok => ?_
    obtain ⟨-, number, db, out, -, hex⟩ := sealCommitted_isOk_iff.mp hok
    exact h.not_executed hn hex
  exact ⟨agree_of_refused hR hq hrefused, hrefused⟩

include hdet hq

theorem inert_dead (ts : U64) :
    Deferred.Inert (ValidatorNode.sealPayload P ts) Agree (KanariNode.Dead P) where
  next raw h := (h.sealCommitted hR hdet raw ts .healthy).1
  answer raw h := congrArg Except.isOk (h.sealCommitted hR hdet raw ts .healthy).2
  refused h := (h.sealCommitted hR hn hq ts).2
  still h hst := (h.sealCommitted hR hn hq ts).1.trans hst
  kept raw h := h.perform hR hn (.attempt (.committed raw ts) .healthy)

end Inert

theorem enqueue_append (dead pending payloads : List Bytes) :
    ∃ k, enqueue (dead ++ pending) payloads = dead.drop k ++ enqueue pending payloads := by
  refine ⟨(dead ++ pending ++ payloads).length - maxPendingPayloads, ?_⟩
  have hskip : (dead ++ pending ++ payloads).length - maxPendingPayloads - dead.length =
      (pending ++ payloads).length - maxPendingPayloads := by
    simp only [List.length_append]
    omega
  rw [enqueue_eq_drop, enqueue_eq_drop, List.append_assoc, List.drop_append,
    ← List.append_assoc, hskip]

namespace ValidatorNode

variable {P : Platform} {ρ : Type} [DecidableEq ρ]

/-- `w` holds what `v` holds, except for dead payloads at the head of the queue of `v`. -/
structure Shadows (P : Platform) (v w : ValidatorNode) : Prop where
  node : Agree v.node w.node
  pending : ∃ dead, v.pending = dead ++ w.pending ∧ ∀ raw ∈ dead, v.node.Dead P raw

variable (hR : P.toRevm.CacheLaws) (hn : P.toRevm.NonceLaws) (hdet : P.toRevm.Deterministic)
  (hq : P.toRevm.RejectsQuietly) {v w : ValidatorNode}

include hR hn hdet hq

theorem Shadows.sweep (h : Shadows P v w) (payloads : List Bytes) (ts lastTs lastTs' : U64) :
    Shadows P
      ⟨(Deferred.sweep (sealPayload P ts) v.node (enqueue v.pending payloads)).1, lastTs,
        (Deferred.sweep (sealPayload P ts) v.node (enqueue v.pending payloads)).2⟩
      ⟨(Deferred.sweep (sealPayload P ts) w.node (enqueue w.pending payloads)).1, lastTs',
        (Deferred.sweep (sealPayload P ts) w.node (enqueue w.pending payloads)).2⟩ := by
  obtain ⟨dead, hpending, hdead⟩ := h.pending
  obtain ⟨k, hqueue⟩ := enqueue_append dead w.pending payloads
  have hinert := inert_dead hR hn hdet hq ts
  have hds : ∀ raw ∈ dead.drop k, v.node.Dead P raw := fun raw hraw =>
    hdead raw (List.mem_of_mem_drop hraw)
  rw [hpending, hqueue]
  obtain ⟨hnode, hstill⟩ := hinert.sweep h.node hds (enqueue w.pending payloads)
  exact ⟨hnode, dead.drop k, hstill, fun raw hraw => hinert.kept_sweep (hds raw hraw) _⟩

theorem Shadows.execute (h : Shadows P v w) {commit : CommittedSubDag ρ}
    (hts : v.clampedTs commit = w.clampedTs commit) :
    Shadows P (v.execute P commit) (w.execute P commit) := by
  simp only [ValidatorNode.execute, hts]
  exact h.sweep hR hn hdet hq _ _ _ _

/-- With equal clocks the shadow follows for good. -/
theorem Shadows.run_of_synced (h : Shadows P v w) (hts : v.lastTs = w.lastTs)
    (commits : List (CommittedSubDag ρ)) : Shadows P (v.run P commits) (w.run P commits) := by
  induction commits generalizing v w with
  | nil => exact h
  | cons commit rest ih =>
    have hclamped : v.clampedTs commit = w.clampedTs commit := by
      rw [clampedTs, clampedTs, hts]
    exact ih (h.execute hR hn hdet hq hclamped) hclamped

omit hR hn hdet hq in
theorem execute_idle {commit : CommittedSubDag ρ} (hidle : w.pending = [])
    (hempty : orderedPayloads [commit] = []) :
    w.execute P commit = ⟨w.node, w.clampedTs commit, []⟩ := by
  simp only [ValidatorNode.execute, hidle, hempty]
  rfl

/-- A shadow that starts idle and behind catches up before it seals anything. -/
theorem Shadows.run (h : Shadows P v w) (hidle : w.pending = [])
    (hle : w.lastTs.toNat ≤ v.lastTs.toNat) {commits : List (CommittedSubDag ρ)}
    (ho : Overtakes v.lastTs commits) : Shadows P (v.run P commits) (w.run P commits) := by
  induction commits generalizing v w with
  | nil => exact h
  | cons commit rest ih =>
    by_cases hreached : v.lastTs.toNat ≤ (commitTimestamp commit).toNat
    -- the clocks meet at this commit and stay together
    · have hclamped : v.clampedTs commit = w.clampedTs commit := by
        apply BitVec.eq_of_toNat_eq
        rw [clampedTs, clampedTs, umax_toNat, umax_toNat]
        omega
      exact (h.execute hR hn hdet hq hclamped).run_of_synced hR hn hdet hq hclamped rest
    -- still behind: the commit is empty, and dead payloads are swept in vain at any timestamp
    · obtain ⟨hempty, hrest⟩ := ho.resolve_left hreached
      have hsame : v.clampedTs commit = v.lastTs := by
        apply BitVec.eq_of_toNat_eq
        rw [clampedTs, umax_toNat]
        omega
      have hshadow : Shadows P (v.execute P commit) (w.execute P commit) := by
        have hswept := h.sweep hR hn hdet hq (orderedPayloads [commit]) (v.clampedTs commit)
          (v.clampedTs commit) (w.clampedTs commit)
        rw [hidle, hempty] at hswept
        rw [execute_idle hidle hempty]
        simp only [ValidatorNode.execute, hempty]
        exact hswept
      refine ih hshadow ?_ ?_ ?_
      · rw [execute_idle hidle hempty]
      · rw [execute_idle hidle hempty]
        change (w.clampedTs commit).toNat ≤ (v.clampedTs commit).toNat
        rw [hsame, clampedTs, umax_toNat]
        omega
      · change Overtakes (v.clampedTs commit) rest
        rw [hsame]
        exact hrest

omit hn hq in
theorem sealPayload_recorded {spec : KanariChainSpec} (ts : U64) (node : KanariNode) (raw : Bytes)
    (h : node.Recorded spec ∧ ∃ steps, Agree (live P spec steps) node) :
    (sealPayload P ts node raw).1.Recorded spec ∧
      ∃ steps, Agree (live P spec steps) (sealPayload P ts node raw).1 := by
  obtain ⟨hrec, steps, hagree⟩ := h
  refine ⟨hrec.attempt (.committed raw ts), steps ++ [.committed raw ts], ?_⟩
  rw [live, (sealMachine P).final_append]
  exact (hagree.sealCommitted hR hdet raw ts .healthy).1

omit hn hq in
theorem run_recorded {spec : KanariChainSpec}
    (h : v.node.Recorded spec ∧ ∃ steps, Agree (live P spec steps) v.node)
    (commits : List (CommittedSubDag ρ)) :
    (v.run P commits).node.Recorded spec ∧
      ∃ steps, Agree (live P spec steps) (v.run P commits).node := by
  induction commits generalizing v with
  | nil => exact h
  | cons commit rest ih =>
    exact ih (Deferred.sweep_induction (sealPayload_recorded hR hdet _) h _)

/-- A validator restarted at a commit boundary seals the blocks of one that went on, if what was
pending can not be sealed any more and the clock it lost is overtaken before the next payload. -/
theorem restart_seals_same_blocks (spec : KanariChainSpec) (steps : List SealStep)
    (before after : List (CommittedSubDag ρ)) (tree : SparseMerkleTree)
    (hdead : ∀ raw ∈ ((spawn (live P spec steps)).run P before).pending,
      ((spawn (live P spec steps)).run P before).node.Dead P raw)
    (hts : Overtakes ((spawn (live P spec steps)).run P before).lastTs after) :
    ∃ node, («open» P spec
        (((spawn (live P spec steps)).run P before).node.crashDir tree)).2 = .ok node ∧
      ((spawn node).run P after).node.blocks =
        ((spawn (live P spec steps)).run P (before ++ after)).node.blocks := by
  have hstart : (spawn (live P spec steps)).node.Recorded spec ∧
      ∃ steps', Agree (live P spec steps') (spawn (live P spec steps)).node := by
    have hrec := live_recorded P spec steps
    exact ⟨⟨hrec.sameSpec, hrec.store, hrec.numbers, hrec.single, hrec.receipts⟩, steps,
      ⟨rfl, SameCache.refl _, rfl, rfl⟩⟩
  obtain ⟨hrec, steps', hagree⟩ := run_recorded hR hdet hstart before
  have hresume : (spawn (live P spec steps)).run P (before ++ after) =
      ((spawn (live P spec steps)).run P before).run P after := List.foldl_append
  rw [hresume]
  generalize (spawn (live P spec steps)).run P before = v at *
  have hmirrors : (v.node.crashDir tree).chain.Mirrors spec.chainId spec.genesisAlloc
      (live P spec steps').blocks := by
    rw [hagree.blocks]
    exact hrec.store
  obtain ⟨node, hopen, hnode, -⟩ := open_of_run hR hdet hq spec steps' _ hmirrors
  have hspawned : Agree node (spawn node).node := ⟨rfl, SameCache.refl _, rfl, rfl⟩
  have hshadow : Shadows P v (spawn node) :=
    ⟨(hagree.symm.trans hnode).trans hspawned, v.pending, (List.append_nil _).symm, hdead⟩
  refine ⟨node, by rw [hopen], ?_⟩
  exact (hshadow.run hR hn hdet hq rfl (Nat.zero_le _) hts).node.blocks.symm

omit hR hn hdet hq

def commitOf (timestampSecs : U64) (payloads : List Bytes) : CommittedSubDag ℕ :=
  ⟨0, [⟨0, timestampSecs, payloads⟩]⟩

theorem restart_seals_same_blocks_transfers :
    ∃ node, («open» Reference.platform Reference.spec
        (((spawn (live Reference.platform Reference.spec [])).run Reference.platform
          [commitOf 5 [Reference.transfer0, [0xff]]]).node.crashDir ⟨∅⟩)).2 = .ok node ∧
      ((spawn node).run Reference.platform [commitOf 7 [Reference.transfer1]]).node.blocks.length =
        2 := by
  have hpending : ((spawn (live Reference.platform Reference.spec [])).run Reference.platform
      [commitOf 5 [Reference.transfer0, [0xff]]]).pending = [[0xff]] := by decide +kernel
  have hts : Overtakes ((spawn (live Reference.platform Reference.spec [])).run Reference.platform
      [commitOf 5 [Reference.transfer0, [0xff]]]).lastTs [commitOf 7 [Reference.transfer1]] :=
    .inl (by decide +kernel)
  have hgarbage : ∀ chainId, (PreparedTx.decode Reference.platform [0xff] chainId).toOption =
      none := fun _ => rfl
  obtain ⟨node, hopen, hblocks⟩ := restart_seals_same_blocks Reference.cacheLaws
    Reference.nonceLaws Reference.deterministic Reference.rejectsQuietly Reference.spec []
    [commitOf 5 [Reference.transfer0, [0xff]]] [commitOf 7 [Reference.transfer1]] ⟨∅⟩ (by
      rw [hpending]
      intro raw hraw prepared hdecode
      rw [List.mem_singleton.mp hraw] at hdecode
      have hnone := hgarbage _ ▸ congrArg Except.toOption hdecode
      exact absurd hnone (by simp [Except.toOption])) hts
  refine ⟨node, hopen, ?_⟩
  rw [hblocks]
  decide +kernel

/-- A transfer that skips a nonce is committed, then the one it waits for. A validator seals both;
one that restarts in between has forgotten the first. -/
theorem restart_forgets_deferred_payload :
    ((«open» Reference.platform Reference.spec
        (((spawn (live Reference.platform Reference.spec [])).run Reference.platform
          [commitOf 5 [Reference.transfer1]]).node.crashDir ⟨∅⟩)).2.toOption.map fun node =>
      ((spawn node).run Reference.platform
        [commitOf 7 [Reference.transfer0]]).node.blocks.length) = some 1 ∧
      ((spawn (live Reference.platform Reference.spec [])).run Reference.platform
        ([commitOf 5 [Reference.transfer1]] ++
          [commitOf 7 [Reference.transfer0]])).node.blocks.length = 2 := by
  decide +kernel

end ValidatorNode

end KanariEvm
