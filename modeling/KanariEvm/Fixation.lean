import KanariEvm.Clock
import KanariEvm.Lib.SweepFix

namespace KanariEvm

open KanariNode ValidatorNode

variable {P : Platform}

namespace ValidatorNode

section Laws

variable (hR : P.toRevm.CacheLaws) (hdet : P.toRevm.Deterministic)

include hR hdet

theorem quiet_sealPayload (ts : U64) : Deferred.Quiet (sealPayload P ts) SameChain where
  equiv := ⟨SameChain.refl, SameChain.symm, SameChain.trans⟩
  answer m n raw h := by
    rw [Bool.eq_iff_iff]
    exact ⟨fun hok => h.sealable hR hdet hok, fun hok => h.symm.sealable hR hdet hok⟩
  still node raw hrefused := by
    refine sameChain_sealCommitted hR fun number db out hnumber hex => ?_
    have hok : (sealPayload P ts node raw).2 = true :=
      sealCommitted_isOk_iff.mpr ⟨rfl, number, db, out, hnumber, hex⟩
    exact absurd (hrefused.symm.trans hok) Bool.noConfusion

/-- The sweep of the commit executor ends, after at most one pass more than there are payloads, and
in one place only. There no pending payload can be sealed at the same timestamp, and a second sweep
seals nothing: it ends after one pass with the same chain, accounts and queue. -/
theorem sweep_reaches_fixation (node : KanariNode) (pending : List Bytes) (ts : U64) :
    ∃ passes final rest, passes ≤ pending.length + 1 ∧
      Deferred.Loops (sealPayload P ts) passes node pending final rest ∧
      Deferred.sweep (sealPayload P ts) node pending = (final, rest) ∧
      (∀ passes' final' rest', Deferred.Loops (sealPayload P ts) passes' node pending final' rest' →
        final' = final ∧ rest' = rest) ∧
      (∀ raw ∈ rest, ¬final.Sealable P ts raw) ∧
      ∃ again, Deferred.Loops (sealPayload P ts) 1 final rest again rest ∧
        Deferred.sweep (sealPayload P ts) final rest = (again, rest) ∧ SameChain again final := by
  have hquiet := quiet_sealPayload hR hdet ts
  obtain ⟨passes, hpasses, hloops⟩ := Deferred.loops_sweep (sealPayload P ts) node pending
  obtain ⟨hagain, hsame⟩ := hquiet.sweep_again hloops
  refine ⟨passes, _, _, hpasses, hloops, rfl, ?_, ?_, _, hagain, hagain.eq_sweep.symm, hsame⟩
  · exact fun passes' final' rest' h => Prod.mk.inj h.eq_sweep
  · intro raw hraw hsealable
    exact absurd (hsealable.symm.trans (hquiet.refused_of_loops hloops raw hraw)) Bool.noConfusion

end Laws

/-- The second transfer arrives before the first, and something that is no transaction between
them: two passes seal both, the third seals nothing. -/
theorem sweep_reaches_fixation_transfers :
    ∃ passes final rest, passes ≤ 4 ∧
      Deferred.Loops (sealPayload Reference.platform 5) passes
        (created Reference.platform Reference.spec)
        [Reference.transfer1, [0xff], Reference.transfer0] final rest ∧
      final.blocks.map (·.txs) = [[Reference.transfer0], [Reference.transfer1]] ∧
      rest = [[0xff]] ∧ ¬final.Sealable Reference.platform 5 [0xff] := by
  obtain ⟨passes, final, rest, hpasses, hloops, hsweep, -, hrefused, -⟩ :=
    sweep_reaches_fixation Reference.cacheLaws Reference.deterministic
      (created Reference.platform Reference.spec)
      [Reference.transfer1, [0xff], Reference.transfer0] 5
  have hrun : (Deferred.sweep (sealPayload Reference.platform 5)
        (created Reference.platform Reference.spec)
        [Reference.transfer1, [0xff], Reference.transfer0]).1.blocks.map (·.txs) =
          [[Reference.transfer0], [Reference.transfer1]] ∧
      (Deferred.sweep (sealPayload Reference.platform 5)
        (created Reference.platform Reference.spec)
        [Reference.transfer1, [0xff], Reference.transfer0]).2 = [[0xff]] := by decide +kernel
  rw [hsweep] at hrun
  obtain ⟨hblocks, rfl⟩ := hrun
  exact ⟨passes, final, _, hpasses, hloops, hblocks, rfl,
    hrefused _ (List.mem_singleton_self _)⟩

end ValidatorNode

end KanariEvm
