import KanariEvm.Restart
import KanariEvm.Turns

namespace KanariEvm

open Journaled

namespace KanariNode

variable {P : Platform}

theorem finishOpen_ok {dir : DataDir} {replayed : KanariNode × Except NodeError Unit}
    {node : KanariNode} (h : (finishOpen dir replayed).2 = .ok node) :
    ∃ faucet, replayed.2 = .ok () ∧ node = { replayed.1 with faucetKey := faucet } := by
  obtain ⟨n, e | u⟩ := replayed
  · simp [finishOpen] at h
  · simp only [finishOpen, pickUpFaucetKey] at h
    cases hf : n.store.loadFaucetKey with
    | error e => simp [hf] at h
    | ok found =>
      cases found with
      | none =>
        simp only [hf, Except.ok.injEq] at h
        exact ⟨n.faucetKey, rfl, h.symm⟩
      | some secret =>
        simp only [hf, Except.ok.injEq] at h
        exact ⟨some secret, rfl, h.symm⟩

theorem reopenSpec_eq (spec : KanariChainSpec) (alloc : List (Address × U256)) :
    ∃ alloc', reopenSpec spec alloc = { spec with genesisAlloc := alloc' } := by
  unfold reopenSpec
  split_ifs
  · exact ⟨alloc, rfl⟩
  · exact ⟨spec.genesisAlloc, rfl⟩

theorem migrateLegacyJournal_start {spec : KanariChainSpec} {start : KanariNode}
    {dir dir' : DataDir} {file : Option Journal} {pending : List SealedBlock}
    (h : (blank spec dir).migrateLegacyJournal dir file = .ok (dir', start, pending)) :
    ∃ alloc origin secret, start =
      { blank { spec with genesisAlloc := alloc } origin with faucetKey := secret } := by
  cases file with
  | none => simp [migrateLegacyJournal] at h
  | some journal =>
    simp only [migrateLegacyJournal] at h
    by_cases hid : journal.chainId ≠ (blank spec dir).spec.chainId
    · simp [if_pos hid] at h
    · rw [if_neg hid, Except.ok.injEq, Prod.mk.injEq, Prod.mk.injEq] at h
      obtain ⟨alloc, halloc⟩ := reopenSpec_eq spec journal.genesisAlloc
      refine ⟨alloc, { dir with chain := start.store }, start.faucetKey, ?_⟩
      rw [← halloc, ← h.2.1]
      rfl

/-- Whatever a directory holds, a node opened from it has replayed some list of blocks on a
genesis. -/
theorem open_ok_genesis {spec : KanariChainSpec} {dir : DataDir} {node : KanariNode}
    (hopen : («open» P spec dir).2 = .ok node) :
    ∃ alloc origin secret records replayed faucet,
      replayBlocks P { (blank { spec with genesisAlloc := alloc } origin).genesis P with
        faucetKey := secret } records = (replayed, .ok ()) ∧
      node = { replayed with faucetKey := faucet } := by
  simp only [KanariNode.open] at hopen
  split at hopen
  · simp at hopen
  · rw [openFresh] at hopen
    split at hopen
    · rename_i file _
      cases hmig : (blank spec dir).migrateLegacyJournal dir file with
      | error e => simp [hmig] at hopen
      | ok migrated =>
        obtain ⟨dir', start, pending⟩ := migrated
        simp only [hmig] at hopen
        obtain ⟨faucet, hok, hnode⟩ := finishOpen_ok hopen
        obtain ⟨alloc, origin, secret, rfl⟩ := migrateLegacyJournal_start hmig
        exact ⟨alloc, origin, secret, pending, _, faucet, Prod.ext rfl hok, hnode⟩
    · obtain ⟨faucet, -, hnode⟩ := finishOpen_ok hopen
      exact ⟨spec.genesisAlloc,
        { dir with chain := dir.chain.initMeta spec.chainId spec.genesisAlloc }, none, [], _,
        faucet, rfl, hnode⟩
  · rw [openStored] at hopen
    split_ifs at hopen
    split at hopen
    · simp at hopen
    · rename_i stored _
      simp only at hopen
      split at hopen
      · simp at hopen
      · obtain ⟨faucet, hok, hnode⟩ := finishOpen_ok hopen
        obtain ⟨alloc, halloc⟩ := reopenSpec_eq spec stored
        rw [halloc] at hok hnode
        exact ⟨alloc, dir, none, _, _, faucet, Prod.ext rfl hok, hnode⟩

end KanariNode

/-- What can happen to a data directory and the process on it. The process may end anywhere: the
tree it leaves behind is arbitrary, the chain data is that of the last batch. -/
inductive Event (ρ : Type)
  | op (op : Op)
  | deliver (delivery : Delivery ρ)
  | reopen (tree : SparseMerkleTree)
  | restart (tree : SparseMerkleTree)
deriving DecidableEq

namespace Session

variable {ρ : Type} [DecidableEq ρ] (P : Platform) (spec : KanariChainSpec)

/-- One event. Commits reach a node with a mempool only, and a process whose `open` fails is no
successor. -/
def step (v : ValidatorNode) : Event ρ → Option ValidatorNode
  | .op op => some { v with node := v.node.perform P op }
  | .deliver delivery => if v.node.dagSender.isSome then some (v.executeAmid P delivery) else none
  | .reopen tree =>
    ((KanariNode.open P spec (v.node.crashDir tree)).2.toOption).map fun node => ⟨node, 0, []⟩
  | .restart tree =>
    ((KanariNode.open P spec (v.node.crashDir tree)).2.toOption).map ValidatorNode.spawn

def run (v : ValidatorNode) (events : List (Event ρ)) : Option ValidatorNode :=
  events.foldlM (step P spec) v

variable {P spec}

theorem run_cons {v v' : ValidatorNode} {event : Event ρ} {rest : List (Event ρ)} :
    run P spec v (event :: rest) = some v' ↔
      ∃ mid, step P spec v event = some mid ∧ run P spec mid rest = some v' := by
  rw [run, List.foldlM_cons]
  exact Option.bind_eq_some_iff

theorem run_append {v v' : ValidatorNode} {before after : List (Event ρ)} :
    run P spec v (before ++ after) = some v' ↔
      ∃ mid, run P spec v before = some mid ∧ run P spec mid after = some v' := by
  rw [run, List.foldlM_append]
  exact Option.bind_eq_some_iff

theorem step_cases {v v' : ValidatorNode} {event : Event ρ} (h : step P spec v event = some v') :
    (∃ op, event = .op op ∧ v' = { v with node := v.node.perform P op }) ∨
      (∃ delivery, event = .deliver delivery ∧ v.node.dagSender.isSome ∧
        v' = v.executeAmid P delivery) ∨
      ∃ tree node, (event = .reopen tree ∨ event = .restart tree) ∧
        (KanariNode.open P spec (v.node.crashDir tree)).2 = .ok node ∧
        (v' = ⟨node, 0, []⟩ ∨ v' = ValidatorNode.spawn node) := by
  have hopened : ∀ {tree : SparseMerkleTree} {f : KanariNode → ValidatorNode},
      ((KanariNode.open P spec (v.node.crashDir tree)).2.toOption).map f = some v' →
      ∃ node, (KanariNode.open P spec (v.node.crashDir tree)).2 = .ok node ∧ v' = f node := by
    intro tree f hf
    obtain ⟨node, hnode, hv⟩ := Option.map_eq_some_iff.mp hf
    exact ⟨node, eq_ok_of_toOption hnode, hv.symm⟩
  cases event with
  | op op => exact .inl ⟨op, rfl, (Option.some.inj h).symm⟩
  | deliver delivery =>
    simp only [step] at h
    split_ifs at h with hmode
    exact .inr (.inl ⟨delivery, rfl, hmode, (Option.some.inj h).symm⟩)
  | reopen tree =>
    obtain ⟨node, hopen, hv⟩ := hopened h
    exact .inr (.inr ⟨tree, node, .inl rfl, hopen, .inl hv⟩)
  | restart tree =>
    obtain ⟨node, hopen, hv⟩ := hopened h
    exact .inr (.inr ⟨tree, node, .inr rfl, hopen, .inr hv⟩)

/-- Whatever holds after `open` and is preserved by single operations holds throughout. -/
theorem run_induction {p : KanariNode → Prop}
    (perform : ∀ node op, p node → p (node.perform P op))
    (spawned : ∀ node, p node → p (ValidatorNode.spawn node).node)
    (reopened : ∀ node tree node', p node →
      (KanariNode.open P spec (node.crashDir tree)).2 = .ok node' → p node')
    {v v' : ValidatorNode} (h : p v.node) {events : List (Event ρ)}
    (hrun : run P spec v events = some v') : p v'.node := by
  induction events generalizing v with
  | nil =>
    obtain rfl : v = v' := Option.some.inj hrun
    exact h
  | cons event rest ih =>
    obtain ⟨mid, hstep, hrest⟩ := run_cons.mp hrun
    refine ih ?_ hrest
    rcases step_cases hstep with
      ⟨op, -, rfl⟩ | ⟨delivery, -, -, rfl⟩ | ⟨tree, node, -, hopen, rfl | rfl⟩
    · exact perform _ op h
    · exact v.executeAmid_induction perform h delivery
    · exact reopened _ tree _ h hopen
    · exact spawned _ (reopened _ tree _ h hopen)

end Session

end KanariEvm
