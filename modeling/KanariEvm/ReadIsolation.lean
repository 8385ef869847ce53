import KanariEvm.Reference
import KanariEvm.Opening
import KanariEvm.Twins

namespace KanariEvm

open Journaled

structure KanariNode.SameHistory (P : Platform) (m n : KanariNode) : Prop where
  blocks : m.blocks = n.blocks
  receipts : m.receipts = n.receipts
  store : m.store = n.store
  stateRoot : m.stateRoot P = n.stateRoot P

theorem KanariNode.Twin.sameHistory {m n : KanariNode} (h : m.Twin n) (P : Platform) :
    m.SameHistory P n :=
  ⟨h.agree.blocks, h.agree.receipts, h.store, by rw [stateRoot, stateRoot, h.smt]⟩

section Isolation

variable {P : Platform} (hR : P.toRevm.CacheLaws) (hdet : P.toRevm.Deterministic)

include hR hdet

theorem twin_of_erased_reads (node : KanariNode) {ops : List Op} (h : QuietRun P node ops) :
    ((nodeMachine P).final node ops).Twin
      ((nodeMachine P).final node (ops.filter Op.isAttempt)) :=
  ((KanariNode.Twin.bisim hR hdet).erase_noise KanariNode.Twin.equivalence
    (KanariNode.Twin.refl node) (KanariNode.Twin.noise_of_quietRun hR h)).1

/-- Quiet reads leave no trace: at every point of the run the node has the history of the run
without its reads, and of every other run with the same seals and quiet reads of its own. -/
theorem reads_never_influence_seals (node : KanariNode) (ops done : List Op)
    (hquiet : QuietRun P node ops) (hdone : done <+: ops) :
    ((nodeMachine P).final node done).SameHistory P
        ((nodeMachine P).final node (done.filter Op.isAttempt)) ∧
      ∀ other, QuietRun P node other → other.filter Op.isAttempt = done.filter Op.isAttempt →
        ((nodeMachine P).final node done).SameHistory P ((nodeMachine P).final node other) := by
  obtain ⟨rest, rfl⟩ := hdone
  have hsilent := twin_of_erased_reads hR hdet node hquiet.of_append
  refine ⟨hsilent.sameHistory P, fun other hother hsame => ?_⟩
  have htwin := twin_of_erased_reads hR hdet node hother
  rw [hsame] at htwin
  exact (hsilent.trans htwin.symm).sameHistory P

end Isolation

theorem reads_never_influence_seals_transfer :
    ((nodeMachine Reference.platform).final (.created Reference.platform Reference.spec)
        [.read (.balanceOf Reference.funded), .read (.storageOf Reference.recipient 5),
          .attempt (.committed Reference.transfer0 5) .healthy]).SameHistory Reference.platform
      ((nodeMachine Reference.platform).final (.created Reference.platform Reference.spec)
        [.attempt (.committed Reference.transfer0 5) .healthy]) :=
  (reads_never_influence_seals Reference.cacheLaws Reference.deterministic
    (.created Reference.platform Reference.spec)
    [.read (.balanceOf Reference.funded), .read (.storageOf Reference.recipient 5),
      .attempt (.committed Reference.transfer0 5) .healthy] _
    ⟨by decide +kernel, by decide +kernel, trivial, trivial⟩ (List.prefix_refl _)).1

/-- One lookup of an unused storage slot of the funded account changes the next block. -/
theorem storage_read_changes_next_block :
    ((nodeMachine Reference.platform).final (.created Reference.platform Reference.spec)
        [.read (.storageOf Reference.funded 5),
          .attempt (.committed Reference.transfer0 5) .healthy]).blocks ≠
      ((nodeMachine Reference.platform).final (.created Reference.platform Reference.spec)
        [.attempt (.committed Reference.transfer0 5) .healthy]).blocks := by
  decide +kernel

end KanariEvm
