import KanariEvm.Reopening

namespace KanariEvm

open InMemoryDB Journaled KanariNode ValidatorNode

variable {P : Platform} {ρ : Type} [DecidableEq ρ]

/-- Block time does not run backwards along the chain. -/
def Chronological (blocks : List SealedBlock) : Prop :=
  blocks.Pairwise fun a b => a.timestamp.toNat ≤ b.timestamp.toNat

instance (blocks : List SealedBlock) : Decidable (Chronological blocks) := by
  unfold Chronological; infer_instance

def KanariNode.Sealable (P : Platform) (node : KanariNode) (ts : U64) (raw : Bytes) : Prop :=
  (node.sealCommitted P raw ts .healthy).2.isOk = true

instance (node : KanariNode) (ts : U64) (raw : Bytes) : Decidable (node.Sealable P ts raw) := by
  unfold Sealable; infer_instance

/-- The commit does not seal behind the head: its clamped timestamp is not below that of the head,
or no payload of its queue could be sealed. -/
def ValidatorNode.Timely (P : Platform) (v : ValidatorNode) (commit : CommittedSubDag ρ) : Prop :=
  (∀ head, v.node.blocks.getLast? = some head →
      head.timestamp.toNat ≤ (v.clampedTs commit).toNat) ∨
    ∀ raw ∈ enqueue v.pending (orderedPayloads [commit]),
      ¬v.node.Sealable P (v.clampedTs commit) raw

namespace KanariNode

variable {node : KanariNode}

theorem SameChain.refl (node : KanariNode) : SameChain node node :=
  ⟨rfl, SameAccounts.refl _, rfl, rfl, rfl⟩

theorem SameChain.symm {m n : KanariNode} (h : SameChain m n) : SameChain n m :=
  ⟨h.spec.symm, h.db.symm, h.blocks.symm, h.receipts.symm, h.store.symm⟩

theorem SameChain.trans {k m n : KanariNode} (h : SameChain k m) (h' : SameChain m n) :
    SameChain k n :=
  ⟨h.spec.trans h'.spec, h.db.trans h'.db, h.blocks.trans h'.blocks,
    h.receipts.trans h'.receipts, h.store.trans h'.store⟩

theorem not_attached_of_runs {request : Request} {step : SealStep} {io : SealIo} {x : Execution}
    (hop : request.op = .attempt step io) (hruns : node.Runs P step x) :
    node.dagSender.isSome = false := by
  cases request with
  | read request => exact absurd hop nofun
  | send raw now =>
    obtain ⟨rfl, -⟩ := Op.attempt.inj hop
    have hnumber := hruns.number
    unfold sealNumber at hnumber
    split_ifs at hnumber with hmode
    exact Bool.not_eq_true _ ▸ hmode

section Laws

variable (hR : P.toRevm.CacheLaws)

include hR

theorem sameChain_answer (h : node.dagSender.isSome) (requests : List Request) :
    SameChain (node.answer P requests) node := by
  induction requests generalizing node with
  | nil => exact SameChain.refl _
  | cons request rest ih =>
    have hmode := (perform_request (P := P) h request).1
    have hone : SameChain (node.perform P request.op) node := by
      rcases perform_cases hR node request.op with
        hsame | ⟨step, io, x, tree, hop, -, hruns, -⟩ | ⟨step, x, hop, hruns, -⟩
      · exact hsame
      · exact absurd (h.symm.trans (not_attached_of_runs hop hruns)) Bool.noConfusion
      · exact absurd (h.symm.trans (not_attached_of_runs hop hruns)) Bool.noConfusion
    exact (ih hmode).trans hone

theorem sameChain_sealCommitted {raw : Bytes} {ts : U64} {io : SealIo}
    (h : ∀ number db out, checkedSucc node.blockNumber = some number →
      executeRaw P node.db node.spec raw number ts (node.sealFee P) ≠ (db, .ok out)) :
    SameChain (node.sealCommitted P raw ts io).1 node := by
  have hcases := perform_cases hR node (.attempt (.committed raw ts) io)
  rcases hcases with hsame | ⟨step, io', x, tree, hop, -, hruns, -⟩ | ⟨step, x, hop, hruns, -⟩
  · exact hsame
  · obtain ⟨rfl, rfl⟩ := Op.attempt.inj hop
    exact absurd hruns.executed (h _ _ _ (node.checkedSucc_of_sealNumber hruns.number))
  · obtain ⟨rfl, rfl⟩ := Op.attempt.inj hop
    exact absurd hruns.executed (h _ _ _ (node.checkedSucc_of_sealNumber hruns.number))

variable (hdet : P.toRevm.Deterministic)

include hdet

/-- Nodes with one chain and the same accounts seal the same payloads. -/
theorem SameChain.sealable {m n : KanariNode} (h : SameChain m n) {raw : Bytes} {ts : U64}
    {io : SealIo} (hok : (m.sealCommitted P raw ts io).2.isOk = true) : n.Sealable P ts raw := by
  obtain ⟨-, number, db, out, hnumber, hex⟩ := sealCommitted_isOk_iff.mp hok
  have hfee : m.sealFee P = n.sealFee P := by
    simp only [sealFee, pendingBaseFee, blockGasUsed, blockByNumber, txsGasUsed, h.blocks,
      h.receipts, h.spec]
  have hblock : m.blockNumber = n.blockNumber := by simp only [blockNumber, h.blocks]
  rw [hblock] at hnumber
  rw [h.spec, hfee] at hex
  obtain ⟨db', hex', -⟩ := executeRaw_congr (Revm.sameAccounts_congruence hR) hdet h.db hex
  exact sealCommitted_isOk_iff.mpr ⟨rfl, number, db', out, hnumber, hex'⟩

end Laws

end KanariNode

namespace ValidatorNode

variable {v : ValidatorNode}

theorem executeAmid_blocks (h : v.node.dagSender.isSome) (delivery : Delivery ρ) :
    (v.executeAmid P delivery).node.dagSender.isSome ∧ ∃ fresh,
      (v.executeAmid P delivery).node.blocks = v.node.blocks ++ fresh ∧
        ∀ block ∈ fresh, block.timestamp = v.clampedTs delivery.commit := by
  refine Deferred.sweep_induction
    (p := fun s : KanariNode × List Turn => s.1.dagSender.isSome ∧ ∃ fresh,
      s.1.blocks = v.node.blocks ++ fresh ∧
        ∀ block ∈ fresh, block.timestamp = v.clampedTs delivery.commit)
    (fun s raw hs => ?_) ⟨h, [], (List.append_nil _).symm, fun _ hb => absurd hb List.not_mem_nil⟩ _
  obtain ⟨hmode, fresh, hfresh, hts⟩ := hs
  obtain ⟨hmode', ⟨-, block, hblocks, -, hblock⟩ | ⟨-, hblocks⟩⟩ :=
    sealTurn_blocks (P := P) hmode (v.clampedTs delivery.commit) raw
  · refine ⟨hmode', fresh ++ [block], by rw [hblocks, hfresh, List.append_assoc], ?_⟩
    intro b hb
    rcases List.mem_append.mp hb with hold | hnew
    · exact hts b hold
    · rw [List.mem_singleton.mp hnew]
      exact hblock
  · exact ⟨hmode', fresh, hblocks.trans hfresh, hts⟩

section Laws

variable (hR : P.toRevm.CacheLaws) (hdet : P.toRevm.Deterministic)

include hR hdet

theorem executeAmid_barren (h : v.node.dagSender.isSome) {delivery : Delivery ρ}
    (hnone : ∀ raw ∈ enqueue v.pending (orderedPayloads [delivery.commit]),
      ¬v.node.Sealable P (v.clampedTs delivery.commit) raw) :
    (v.executeAmid P delivery).node.blocks = v.node.blocks := by
  have hstep : ∀ s : KanariNode × List Turn,
      ∀ raw ∈ enqueue v.pending (orderedPayloads [delivery.commit]),
      s.1.dagSender.isSome ∧ SameChain s.1 v.node →
      (sealTurn P (v.clampedTs delivery.commit) s raw).1.1.dagSender.isSome ∧
        SameChain (sealTurn P (v.clampedTs delivery.commit) s raw).1.1 v.node := by
    intro s raw hraw hs
    refine ⟨(sealTurn_blocks (P := P) hs.1 _ raw).1, ?_⟩
    have hserved := (sameChain_answer hR hs.1 (s.2.headD .alone).requests).trans hs.2
    refine (sameChain_sealCommitted hR ?_).trans hserved
    intro number db out hnumber hex
    exact hnone raw hraw (hserved.sealable hR hdet
      (sealCommitted_isOk_iff.mpr ⟨(rfl : SealIo.healthy = .healthy), number, db, out, hnumber,
        hex⟩))
  exact (Deferred.sweep_induction_mem
    (p := fun s : KanariNode × List Turn => s.1.dagSender.isSome ∧ SameChain s.1 v.node)
    (s := (v.node, delivery.turns)) hstep ⟨h, SameChain.refl _⟩).2.blocks

omit hdet in
theorem sealTurn_grows (ts : U64) (s : KanariNode × List Turn) (raw : Bytes) :
    s.1.blocks.length + (sealTurn P ts s raw).2.toNat ≤
      (sealTurn P ts s raw).1.1.blocks.length := by
  have hserved : s.1.blocks.length ≤
      (s.1.answer P (s.2.headD .alone).requests).blocks.length :=
    answer_induction (p := fun n => s.1.blocks.length ≤ n.blocks.length)
      (fun n op hn => hn.trans (blocks_final hR n [op]).length_le) (Nat.le_refl _) _
  obtain ⟨-, ⟨hok, block, hblocks, -⟩ | ⟨hfail, hblocks⟩⟩ :=
    (s.1.answer P (s.2.headD .alone).requests).sealCommitted_blocks (P := P) raw ts
      (s.2.headD .alone).io
  · simp only [sealTurn, hok, hblocks, List.length_append, List.length_singleton,
      Bool.toNat_true]
    omega
  · simp only [sealTurn, hfail, hblocks, Bool.toNat_false]
    omega

structure Calm (s : KanariNode × List Turn) : Prop where
  attached : s.1.dagSender.isSome
  healthy : ∀ turn ∈ s.2, turn.io = .healthy

omit hR hdet in
theorem Calm.head {s : KanariNode × List Turn} (h : Calm s) :
    (s.2.headD .alone).io = .healthy := by
  obtain ⟨node, turns⟩ := s
  cases turns with
  | nil => rfl
  | cons turn rest => exact h.healthy turn List.mem_cons_self

omit hR hdet in
theorem Calm.next {s : KanariNode × List Turn} (h : Calm s) (ts : U64) (raw : Bytes) :
    Calm (sealTurn P ts s raw).1 :=
  ⟨(sealTurn_blocks h.attached ts raw).1, fun turn ht => h.healthy turn (List.mem_of_mem_tail ht)⟩

/-- On a healthy backend a turn seals exactly what could be sealed. -/
theorem Calm.sealTurn_iff {s : KanariNode × List Turn} (h : Calm s) {ts : U64} {raw : Bytes} :
    (sealTurn P ts s raw).2 = true ↔ s.1.Sealable P ts raw := by
  have hserved := sameChain_answer hR h.attached (s.2.headD .alone).requests
  constructor
  · exact fun hok => hserved.sealable hR hdet hok
  · intro hok
    have hsealed := hserved.symm.sealable hR hdet hok
    unfold KanariNode.Sealable at hsealed
    rw [← h.head] at hsealed
    exact hsealed

omit hdet in
theorem Calm.refused {s : KanariNode × List Turn} (h : Calm s) {ts : U64} {raw : Bytes}
    (hrefused : (sealTurn P ts s raw).2 = false) : SameChain (sealTurn P ts s raw).1.1 s.1 := by
  refine (sameChain_sealCommitted hR ?_).trans
    (sameChain_answer hR h.attached (s.2.headD .alone).requests)
  intro number db out hnumber hex
  have hok : (sealTurn P ts s raw).2 = true :=
    sealCommitted_isOk_iff.mpr ⟨h.head, number, db, out, hnumber, hex⟩
  exact absurd (hrefused.symm.trans hok) Bool.noConfusion

theorem barren_of_blocks_eq {delivery : Delivery ρ} (h : Calm (v.node, delivery.turns))
    (hblocks : (v.executeAmid P delivery).node.blocks = v.node.blocks) :
    ∀ raw ∈ enqueue v.pending (orderedPayloads [delivery.commit]),
      ¬v.node.Sealable P (v.clampedTs delivery.commit) raw := by
  have hgrows := Deferred.sweep_grows (f := fun s => s.1.blocks.length)
    (sealTurn_grows hR (P := P) (v.clampedTs delivery.commit)) (v.node, delivery.turns)
    (enqueue v.pending (orderedPayloads [delivery.commit]))
  change v.node.blocks.length + _ ≤ (v.executeAmid P delivery).node.blocks.length at hgrows
  rw [hblocks] at hgrows
  have hprogress := Bool.toNat_eq_zero.mp (Nat.le_zero.mp (Nat.le_of_add_le_add_left hgrows))
  intro raw hraw hsealable
  have hrefused := Deferred.refused_of_no_progress
    (r := fun s t : KanariNode × List Turn => Calm s ∧ Calm t ∧ SameChain s.1 t.1)
    (fun s t a ⟨hs, ht, hsame⟩ => by
      rw [Bool.eq_iff_iff, hs.sealTurn_iff hR hdet, ht.sealTurn_iff hR hdet]
      exact ⟨fun hok => hsame.sealable hR hdet hok, fun hok => hsame.symm.sealable hR hdet hok⟩)
    (fun s t a ⟨hs, ht, hsame⟩ hans => ⟨hs.next _ a, ht, (hs.refused hR hans).trans hsame⟩)
    ⟨h, h, SameChain.refl _⟩ hprogress raw hraw
  have hok := (h.sealTurn_iff hR hdet).mpr hsealable
  exact absurd (hrefused.symm.trans hok) Bool.noConfusion

omit hR hdet in
theorem chronological_append {blocks fresh : List SealedBlock} {ts : U64}
    (hts : ∀ block ∈ fresh, block.timestamp = ts) :
    Chronological (blocks ++ fresh) ↔ Chronological blocks ∧
      (fresh = [] ∨ ∀ head, blocks.getLast? = some head → head.timestamp.toNat ≤ ts.toNat) := by
  have hfresh : Chronological fresh := by
    refine List.pairwise_iff_forall_sublist.mpr fun {a b} hsub => ?_
    rw [hts a (hsub.subset (by simp)), hts b (hsub.subset (by simp))]
  rw [Chronological, List.pairwise_append]
  constructor
  · rintro ⟨hblocks, -, hcross⟩
    refine ⟨hblocks, ?_⟩
    cases fresh with
    | nil => exact .inl rfl
    | cons block rest =>
      refine .inr fun head hhead => ?_
      have hle := hcross head (List.mem_of_getLast? hhead) block List.mem_cons_self
      rwa [hts block List.mem_cons_self] at hle
  · rintro ⟨hblocks, rfl | hhead⟩
    · exact ⟨hblocks, hfresh, fun _ _ _ hb => absurd hb List.not_mem_nil⟩
    · refine ⟨hblocks, hfresh, fun a ha b hb => ?_⟩
      rw [hts b hb]
      -- every block is no later than the last
      rcases List.eq_nil_or_concat blocks with rfl | ⟨front, last, rfl⟩
      · exact absurd ha List.not_mem_nil
      · rw [List.concat_eq_append] at *
        have hlast := hhead last (by simp)
        rcases List.mem_append.mp ha with hfront | hend
        · have hle := (List.pairwise_append.mp hblocks).2.2 a hfront last
            (List.mem_singleton_self _)
          omega
        · rwa [List.mem_singleton.mp hend]

theorem Timely.chronological (hmode : v.node.dagSender.isSome) {delivery : Delivery ρ}
    (ht : v.Timely P delivery.commit) (h : Chronological v.node.blocks) :
    Chronological (v.executeAmid P delivery).node.blocks := by
  obtain ⟨-, fresh, hblocks, hts⟩ := executeAmid_blocks (P := P) hmode delivery
  rcases ht with hhead | hbarren
  · rw [hblocks]
    exact (chronological_append hts).mpr ⟨h, .inr hhead⟩
  · rw [executeAmid_barren hR hdet hmode hbarren]
    exact h

/-- On a healthy backend, a commit that keeps the chain chronological was timely. -/
theorem timely_of_chronological {delivery : Delivery ρ} (hcalm : Calm (v.node, delivery.turns))
    (h : Chronological (v.executeAmid P delivery).node.blocks) :
    v.Timely P delivery.commit := by
  obtain ⟨-, fresh, hblocks, hts⟩ := executeAmid_blocks (P := P) hcalm.attached delivery
  rw [hblocks] at h
  rcases ((chronological_append hts).mp h).2 with hnil | hhead
  · refine .inr (barren_of_blocks_eq hR hdet hcalm ?_)
    rw [hblocks, hnil, List.append_nil]
  · exact .inl hhead

end Laws

end ValidatorNode

/-- The events of a validator: requests, commits and restarts. A process that dies in the middle
of a commit is one whose backend fails from there on. -/
def Event.OfValidator : Event ρ → Prop
  | .op o => ∃ request : Request, o = request.op
  | .deliver _ => True
  | .reopen _ => False
  | .restart _ => True

def Event.Healthy : Event ρ → Prop
  | .deliver delivery => ∀ turn ∈ delivery.turns, turn.io = .healthy
  | _ => True

/-- Every commit of the run is timely in the state it meets. -/
def TimelyRun (P : Platform) (spec : KanariChainSpec) : ValidatorNode → List (Event ρ) → Prop
  | _, [] => True
  | v, event :: rest =>
    (∀ delivery, event = .deliver delivery → v.Timely P delivery.commit) ∧
      ∀ v', Session.step P spec v event = some v' → TimelyRun P spec v' rest

section Life

variable {spec : KanariChainSpec}

theorem validator_step {v v' : ValidatorNode} (h : v.node.Coherent P spec)
    (hmode : v.node.dagSender.isSome) {event : Event ρ} (hof : event.OfValidator)
    (hstep : Session.step P spec v event = some v') :
    v'.node.dagSender.isSome ∧
      ((∃ delivery, event = .deliver delivery ∧ v' = v.executeAmid P delivery) ∨
        v'.node.blocks = v.node.blocks) := by
  rcases Session.step_cases hstep with
    ⟨op, rfl, rfl⟩ | ⟨delivery, rfl, -, rfl⟩ | ⟨tree, node, hevent, hopen, hv⟩
  · obtain ⟨request, rfl⟩ := hof
    obtain ⟨hattached, hblocks⟩ := perform_request (P := P) hmode request
    exact ⟨hattached, .inr hblocks⟩
  · exact ⟨(executeAmid_blocks hmode delivery).1, .inl ⟨delivery, rfl, rfl⟩⟩
  · rcases hevent with rfl | rfl
    · exact hof.elim
    · have hv' : v' = spawn node := by
        simp only [Session.step, hopen, Except.toOption, Option.map_some,
          Option.some.injEq] at hstep
        exact hstep.symm
      rw [hv']
      exact ⟨rfl, .inr (h.reopened hopen).1⟩

variable (hR : P.toRevm.CacheLaws) (hdet : P.toRevm.Deterministic)

include hR hdet

theorem chronological_run {v v' : ValidatorNode} (h : v.node.Coherent P spec)
    (hmode : v.node.dagSender.isSome) {events : List (Event ρ)}
    (hof : ∀ event ∈ events, event.OfValidator) (hrun : Session.run P spec v events = some v')
    (hchrono : Chronological v.node.blocks) (ht : TimelyRun P spec v events) :
    Chronological v'.node.blocks := by
  induction events generalizing v with
  | nil =>
    obtain rfl : v = v' := Option.some.inj hrun
    exact hchrono
  | cons event rest ih =>
    obtain ⟨mid, hstep, hrest⟩ := Session.run_cons.mp hrun
    have hcoherent : mid.node.Coherent P spec :=
      h.session hR (Session.run_cons.mpr ⟨mid, hstep, rfl⟩ :
        Session.run P spec v [event] = some mid)
    obtain ⟨hmode', hcase⟩ := validator_step h hmode (hof event List.mem_cons_self) hstep
    refine ih hcoherent hmode' (fun e he => hof e (List.mem_cons_of_mem _ he)) hrest ?_
      (ht.2 mid hstep)
    rcases hcase with ⟨delivery, hevent, rfl⟩ | hblocks
    · exact (ht.1 delivery hevent).chronological hR hdet hmode hchrono
    · rw [hblocks]
      exact hchrono

theorem timelyRun_of_chronological {v v' : ValidatorNode} (h : v.node.Coherent P spec)
    (hmode : v.node.dagSender.isSome) {events : List (Event ρ)}
    (hof : ∀ event ∈ events, event.OfValidator) (hhealthy : ∀ event ∈ events, event.Healthy)
    (hrun : Session.run P spec v events = some v') (hchrono : Chronological v'.node.blocks) :
    TimelyRun P spec v events := by
  induction events generalizing v with
  | nil => trivial
  | cons event rest ih =>
    obtain ⟨mid, hstep, hrest⟩ := Session.run_cons.mp hrun
    have hcoherent : mid.node.Coherent P spec :=
      h.session hR (Session.run_cons.mpr ⟨mid, hstep, rfl⟩ :
        Session.run P spec v [event] = some mid)
    obtain ⟨hmode', hcase⟩ := validator_step h hmode (hof event List.mem_cons_self) hstep
    -- later blocks only follow, so the chain was chronological right after the event
    have hmid : Chronological mid.node.blocks :=
      List.Pairwise.sublist (hcoherent.session_grows hR hrest).sublist hchrono
    refine ⟨?_, ?_⟩
    · rintro delivery rfl
      have hv : mid = v.executeAmid P delivery := by
        simp only [Session.step, hmode, if_true, Option.some.injEq] at hstep
        exact hstep.symm
      rw [hv] at hmid
      exact timely_of_chronological hR hdet ⟨hmode, hhealthy _ List.mem_cons_self⟩ hmid
    · intro next hnext
      obtain rfl : mid = next := Option.some.inj (hstep.symm.trans hnext)
      exact ih hcoherent hmode' (fun e he => hof e (List.mem_cons_of_mem _ he))
        (fun e he => hhealthy e (List.mem_cons_of_mem _ he)) hrest

end Life

def restartBetween (before after : U64) : List (Event ℕ) :=
  [.deliver ⟨⟨0, [⟨0, before, [Reference.transfer0]⟩]⟩, []⟩, .restart ⟨∅⟩,
    .deliver ⟨⟨0, [⟨0, after, [Reference.transfer1]⟩]⟩, []⟩]

theorem restartBetween_ofValidator (before after : U64) :
    ∀ event ∈ restartBetween before after, event.OfValidator := by
  intro event hevent
  simp only [restartBetween, List.mem_cons, List.not_mem_nil, or_false] at hevent
  rcases hevent with rfl | rfl | rfl <;> trivial

end KanariEvm
