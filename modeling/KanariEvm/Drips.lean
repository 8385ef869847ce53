import KanariEvm.DevWallet
import KanariEvm.Once

namespace KanariEvm

open InMemoryDB

/-- What happens at a validator, one turn at its lock each: a faucet request, an operation (the
payload of a commit, a submission, a read), and the mempool task taking a batch off the channel. -/
inductive ValidatorAction
  | faucet (toAddr : Address) (amountWei : U256) (now : U64)
  | perform (op : Op)
  | forward
deriving DecidableEq

namespace KanariNode

variable (P : Platform) (W : Wallet)

def act (node : KanariNode) : ValidatorAction → KanariNode
  | .faucet toAddr amountWei now => (node.faucet P W toAddr amountWei now .healthy).1
  | .perform op => node.perform P op
  | .forward =>
    { node with dagSender := node.dagSender.map fun s => { s with queue := s.queue.tail } }

def actedOn (start : KanariNode) (actions : List ValidatorAction) (k : ℕ) : KanariNode :=
  (actions.take k).foldl (act P W) start

def Accepted (start : KanariNode) (actions : List ValidatorAction) (i : ℕ) (drip : Drip) : Prop :=
  ∃ toAddr amountWei now, actions[i]? = some (.faucet toAddr amountWei now) ∧
    ((actedOn P W start actions i).drip P W toAddr amountWei).2 = .ok drip ∧
    ((actedOn P W start actions i).faucet P W toAddr amountWei now .healthy).2.isOk = true

def ExecutesAt (start : KanariNode) (actions : List ValidatorAction) (k : ℕ) (raw : Bytes) : Prop :=
  ∃ ts io x, actions[k]? = some (.perform (.attempt (.committed raw ts) io)) ∧
    (actedOn P W start actions k).Runs P (.committed raw ts) x

/-- The nonce of an account after the first `k` actions. -/
def nonceAfter (start : KanariNode) (actions : List ValidatorAction) (account : Address) (k : ℕ) :
    ℕ :=
  ((actedOn P W start actions k).db.logical account).nonce.toNat

def NoncesDiffer (start : KanariNode) (actions : List ValidatorAction) : Prop :=
  ∀ i j drip drip', Accepted P W start actions i drip → Accepted P W start actions j drip' →
    i ≠ j → (drip.account, drip.tx.nonce) ≠ (drip'.account, drip'.tx.nonce)

/-- Between any two accepted drips, a commit's payload is executed that raises the nonce of the
faucet account. -/
def RaisedBetween (start : KanariNode) (actions : List ValidatorAction) : Prop :=
  ∀ i j drip drip', Accepted P W start actions i drip → Accepted P W start actions j drip' →
    i < j → ∃ k raw, i < k ∧ k < j ∧ ExecutesAt P W start actions k raw ∧
      nonceAfter P W start actions drip.account k <
        nonceAfter P W start actions drip.account (k + 1)

/-- One accepted drip, when it is executed, takes the nonce of another that could still come. -/
def Obstructs (start : KanariNode) (actions : List ValidatorAction) (drip drip' : Drip) : Prop :=
  ∃ i j k, Accepted P W start actions i drip ∧ Accepted P W start actions j drip' ∧ i ≠ j ∧
    i < k ∧ j < k ∧ ExecutesAt P W start actions k drip.raw ∧
    nonceAfter P W start actions drip'.account k ≤ drip'.tx.nonce.toNat ∧
    drip'.tx.nonce.toNat < nonceAfter P W start actions drip'.account (k + 1)

variable {P W} {node start : KanariNode} {actions : List ValidatorAction}

theorem persist_setup (raw : Bytes) (number timestamp baseFee : U64) (db : InMemoryDB)
    (prepared : PreparedTx) (result : ExecutionResult) (io : SealIo) :
    SameSetup (node.persist P raw number timestamp baseFee db prepared result io).1 node ∧
      (node.persist P raw number timestamp baseFee db prepared result io).1.dagSender =
        node.dagSender := by
  obtain ⟨rebuild, save⟩ := io
  cases rebuild with
  | some fault => exact ⟨⟨rfl, rfl, rfl, rfl, rfl, rfl⟩, rfl⟩
  | none =>
    cases save with
    | some msg => exact ⟨⟨rfl, rfl, rfl, rfl, rfl, rfl⟩, rfl⟩
    | none =>
      exact ⟨(SameSetup.refl node).afterSeal raw number timestamp baseFee db prepared result, rfl⟩

theorem perform_setup (node : KanariNode) (op : Op) :
    SameSetup (node.perform P op) node ∧
      (node.dagSender.isSome → (node.perform P op).dagSender.isSome) := by
  cases op with
  | read request =>
    rw [KanariNode.perform, serve_eq]
    exact ⟨(SameSetup.refl node).withDb _, id⟩
  | attempt step io =>
    rw [KanariNode.perform]
    rcases node.sealStep_cases P step io with
      ⟨sender, hash, hs⟩ | ⟨db, e, hs, -⟩ | ⟨number, db, prepared, result, -, -, hs⟩
    · rw [hs]
      exact ⟨⟨rfl, rfl, rfl, rfl, rfl, rfl⟩, fun _ => rfl⟩
    · rw [hs]
      exact ⟨(SameSetup.refl node).withDb db, id⟩
    · rw [hs]
      obtain ⟨hsetup, hsender⟩ := node.persist_setup (P := P) step.raw number step.timestamp
        (node.sealFee P) db prepared result io
      exact ⟨hsetup, fun h => by rw [hsender]; exact h⟩

section Laws

variable (hR : P.toRevm.CacheLaws)

include hR

theorem act_setup (h : node.dagSender.isSome) (action : ValidatorAction) :
    (node.act P W action).faucetKey = node.faucetKey ∧
      (node.act P W action).dagSender.isSome := by
  cases action with
  | faucet toAddr amountWei now =>
    obtain ⟨db, sender, -, hnode⟩ := faucet_validator hR h (W := W) toAddr amountWei now .healthy
    rw [act, hnode]
    exact ⟨rfl, rfl⟩
  | perform op =>
    obtain ⟨hsetup, hsender⟩ := node.perform_setup (P := P) op
    exact ⟨hsetup.faucetKey, hsender h⟩
  | forward => exact ⟨rfl, by rw [act, Option.isSome_map]; exact h⟩

/-- Only the payload of a commit changes accounts. -/
theorem act_cases (h : node.dagSender.isSome) (action : ValidatorAction) :
    SameAccounts (node.act P W action).db node.db ∨
      ∃ raw ts io x, action = .perform (.attempt (.committed raw ts) io) ∧
        node.Runs P (.committed raw ts) x ∧
        (node.act P W action).db = settleFees P x.db x.result (node.sealFee P) := by
  cases action with
  | faucet toAddr amountWei now =>
    obtain ⟨db, sender, hdb, hnode⟩ := faucet_validator hR h (W := W) toAddr amountWei now .healthy
    rw [act, hnode]
    exact .inl hdb
  | forward => exact .inl (SameAccounts.refl _)
  | perform op =>
    have hcommitted : ∀ step x, node.Runs P step x → ∃ raw ts, step = .committed raw ts := by
      intro step x hruns
      cases step with
      | committed raw ts => exact ⟨raw, ts, rfl⟩
      | send raw now =>
        have hnumber := hruns.number
        simp only [sealNumber, h, if_true] at hnumber
        cases hnumber
    rcases perform_cases hR node op with
      hsame | ⟨step, io, x, tree, rfl, -, hruns, hp⟩ | ⟨step, x, rfl, hruns, hp⟩
    · exact .inl hsame.db
    · obtain ⟨raw, ts, rfl⟩ := hcommitted step x hruns
      exact .inr ⟨raw, ts, io, x, rfl, hruns, congrArg (·.db) hp⟩
    · obtain ⟨raw, ts, rfl⟩ := hcommitted step x hruns
      exact .inr ⟨raw, ts, .healthy, x, rfl, hruns, congrArg (·.db) hp⟩

variable (hn : P.toRevm.CountsNonces)

include hn

theorem nonce_le_act (h : node.dagSender.isSome) (action : ValidatorAction) (a : Address) :
    (node.db.logical a).nonce.toNat ≤ ((node.act P W action).db.logical a).nonce.toNat := by
  rcases act_cases hR h (W := W) action with hsame | ⟨raw, ts, io, x, -, hruns, hdb⟩
  · exact Nat.le_of_eq (congrArg (fun l => l.nonce.toNat) (hsame.sameLogical a).symm)
  · obtain ⟨-, htx⟩ := executeRaw_ok_iff.mp hruns.executed
    obtain ⟨state, hout, hx⟩ := transactRaw_ok htx
    rw [hdb, settleFees_nonce hR, hx]
    exact hn.kept a hout

end Laws

theorem actedOn_succ (start : KanariNode) (actions : List ValidatorAction) (k : ℕ) :
    actedOn P W start actions (k + 1) = (actions[k]?.map
      ((actedOn P W start actions k).act P W)).getD (actedOn P W start actions k) := by
  rw [actedOn, List.take_add_one, List.foldl_append]
  cases actions[k]? with
  | none => rfl
  | some action => rfl

section Run

variable (hR : P.toRevm.CacheLaws) (hmode : start.dagSender.isSome)

include hR hmode

theorem actedOn_setup (k : ℕ) : (actedOn P W start actions k).faucetKey = start.faucetKey ∧
    (actedOn P W start actions k).dagSender.isSome := by
  induction k with
  | zero => exact ⟨rfl, hmode⟩
  | succ k ih =>
    rw [actedOn_succ]
    cases actions[k]? with
    | none => exact ih
    | some action =>
      obtain ⟨hkey, hsome⟩ := act_setup hR (W := W) ih.2 action
      exact ⟨hkey.trans ih.1, hsome⟩

omit hmode in
theorem Accepted.nonce {i : ℕ} {drip : Drip} (h : Accepted P W start actions i drip) :
    drip.tx.nonce.toNat = nonceAfter P W start actions drip.account i := by
  obtain ⟨toAddr, amountWei, now, -, hdrip, -⟩ := h
  obtain ⟨-, -, -, hdrafts⟩ := (actedOn P W start actions i).drip_spec hR (W := W) toAddr amountWei
  rw [nonceAfter, (hdrafts drip hdrip).nonce]

theorem Accepted.account_eq {i j : ℕ} {drip drip' : Drip} (h : Accepted P W start actions i drip)
    (h' : Accepted P W start actions j drip') : drip.account = drip'.account := by
  have hsecret : ∀ {i drip}, Accepted P W start actions i drip → ∃ secret,
      start.faucetKey = some secret ∧ W.address secret = .ok drip.account := by
    rintro i drip ⟨toAddr, amountWei, now, -, hdrip, -⟩
    obtain ⟨-, -, -, hdrafts⟩ :=
      (actedOn P W start actions i).drip_spec hR (W := W) toAddr amountWei
    obtain ⟨secret, -, hkey, haddress, -⟩ := (hdrafts drip hdrip).signed
    exact ⟨secret, (actedOn_setup hR hmode i).1 ▸ hkey, haddress⟩
  obtain ⟨secret, hkey, haddress⟩ := hsecret h
  obtain ⟨secret', hkey', haddress'⟩ := hsecret h'
  obtain rfl : secret = secret' := Option.some.inj (hkey.symm.trans hkey')
  exact Except.ok.inj (haddress.symm.trans haddress')

theorem Accepted.still {i : ℕ} {drip : Drip} (h : Accepted P W start actions i drip) (a : Address) :
    nonceAfter P W start actions a (i + 1) = nonceAfter P W start actions a i := by
  obtain ⟨toAddr, amountWei, now, hi, -⟩ := h
  have hsome : (actedOn P W start actions i).dagSender.isSome := (actedOn_setup hR hmode i).2
  obtain ⟨db, sender, hdb, hnode⟩ :=
    faucet_validator hR hsome (W := W) toAddr amountWei now .healthy
  rw [nonceAfter, actedOn_succ, hi, Option.map_some, Option.getD_some, act, hnode]
  exact congrArg (fun l => l.nonce.toNat) (hdb.sameLogical a)

variable (hn : P.toRevm.CountsNonces)

include hn

theorem nonceAfter_succ (a : Address) (k : ℕ) :
    nonceAfter P W start actions a k ≤ nonceAfter P W start actions a (k + 1) ∧
      (nonceAfter P W start actions a k < nonceAfter P W start actions a (k + 1) →
        ∃ raw, ExecutesAt P W start actions k raw) := by
  have hsome : (actedOn P W start actions k).dagSender.isSome := (actedOn_setup hR hmode k).2
  simp only [nonceAfter, actedOn_succ]
  cases hk : actions[k]? with
  | none => exact ⟨Nat.le_refl _, fun hlt => absurd hlt (Nat.lt_irrefl _)⟩
  | some action =>
    refine ⟨nonce_le_act hR hn hsome action a, fun hlt => ?_⟩
    rcases act_cases hR hsome (W := W) action with hsame | ⟨raw, ts, io, x, rfl, hruns, -⟩
    · have heq := congrArg (fun l => l.nonce.toNat) (hsame.sameLogical a)
      exact absurd heq.symm (Nat.ne_of_lt hlt)
    · exact ⟨raw, ts, io, x, hk, hruns⟩

theorem nonceAfter_mono (a : Address) : Monotone (nonceAfter P W start actions a) :=
  monotone_nat_of_le_succ fun k => (nonceAfter_succ hR hmode hn a k).1

omit hR hmode hn in
theorem exists_rise {a : Address} {i j : ℕ} (hij : i ≤ j)
    (hlt : nonceAfter P W start actions a i < nonceAfter P W start actions a j) :
    ∃ k, i ≤ k ∧ k < j ∧
      nonceAfter P W start actions a k < nonceAfter P W start actions a (k + 1) := by
  induction j, hij using Nat.le_induction with
  | base => exact absurd hlt (Nat.lt_irrefl _)
  | succ j hij ih =>
    by_cases hlast : nonceAfter P W start actions a j < nonceAfter P W start actions a (j + 1)
    · exact ⟨j, hij, Nat.lt_succ_self j, hlast⟩
    · obtain ⟨k, hik, hkj, hrise⟩ := ih (Nat.lt_of_lt_of_le hlt (Nat.not_lt.mp hlast))
      exact ⟨k, hik, Nat.lt_succ_of_lt hkj, hrise⟩

/-- The nonces of accepted drips differ exactly if every one of them was used up before the next. -/
theorem noncesDiffer_iff : NoncesDiffer P W start actions ↔ RaisedBetween P W start actions := by
  constructor
  · intro hdiffer i j drip drip' hi hj hij
    have haccount := hi.account_eq hR hmode hj
    have hne : drip.tx.nonce.toNat ≠ drip'.tx.nonce.toNat := by
      intro heq
      exact hdiffer i j drip drip' hi hj (Nat.ne_of_lt hij)
        (Prod.ext haccount (BitVec.eq_of_toNat_eq heq))
    rw [hi.nonce hR, hj.nonce hR, ← haccount] at hne
    have hmono : Monotone (nonceAfter P W start actions drip.account) :=
      nonceAfter_mono hR hmode hn drip.account
    have hle := hmono (Nat.le_of_lt hij)
    obtain ⟨k, hik, hkj, hrise⟩ :=
      exists_rise (Nat.le_of_lt hij) (Nat.lt_of_le_of_ne hle hne)
    -- the request itself moves nothing, so the rise comes after it
    have hne' : i ≠ k := by
      rintro rfl
      rw [hi.still hR hmode] at hrise
      exact absurd hrise (Nat.lt_irrefl _)
    obtain ⟨raw, hexecutes⟩ := (nonceAfter_succ hR hmode hn drip.account k).2 hrise
    exact ⟨k, raw, Nat.lt_of_le_of_ne hik hne', hkj, hexecutes, hrise⟩
  · intro hraised
    have hlt : ∀ i j drip drip', Accepted P W start actions i drip →
        Accepted P W start actions j drip' → i < j → drip.tx.nonce ≠ drip'.tx.nonce := by
      intro i j drip drip' hi hj hij heq
      obtain ⟨k, raw, hik, hkj, -, hrise⟩ := hraised i j drip drip' hi hj hij
      have hmono : Monotone (nonceAfter P W start actions drip.account) :=
        nonceAfter_mono hR hmode hn drip.account
      have hbefore := hmono (Nat.le_of_lt hik)
      have hafter : nonceAfter P W start actions drip.account (k + 1) ≤
          nonceAfter P W start actions drip.account j := hmono hkj
      have hnonce := congrArg BitVec.toNat heq
      rw [hi.nonce hR, hj.nonce hR, ← hi.account_eq hR hmode hj] at hnonce
      omega
    intro i j drip drip' hi hj hij heq
    obtain ⟨-, hnonce⟩ := Prod.mk.inj heq
    rcases Nat.lt_or_gt_of_ne hij with hearlier | hlater
    · exact hlt i j drip drip' hi hj hearlier hnonce
    · exact hlt j i drip' drip hj hi hlater hnonce.symm

omit hmode in
theorem Accepted.executed (hW : W.Faithful P) {i k : ℕ} {drip : Drip}
    (h : Accepted P W start actions i drip) (hk : ExecutesAt P W start actions k drip.raw) :
    drip.tx.nonce.toNat = nonceAfter P W start actions drip.account k := by
  obtain ⟨toAddr, amountWei, now, -, hdrip, -⟩ := h
  obtain ⟨-, -, -, hdrafts⟩ := (actedOn P W start actions i).drip_spec hR (W := W) toAddr amountWei
  obtain ⟨secret, sig, -, haddress, hsign, hraw⟩ := (hdrafts drip hdrip).signed
  obtain ⟨hdecode, hrecover⟩ := hW secret drip.account drip.tx sig haddress hsign
  obtain ⟨ts, io, x, -, hruns⟩ := hk
  obtain ⟨hprepared, htx⟩ := executeRaw_ok_iff.mp hruns.executed
  obtain ⟨envelope, henvelope, hsender, henv, -⟩ := PreparedTx.decode_ok_iff.mp hprepared
  rw [SealStep.raw, hraw, hdecode] at henvelope
  obtain rfl := Except.ok.inj henvelope
  have haccount : drip.account = x.prepared.sender := Except.ok.inj (hrecover.symm.trans hsender)
  have hinner := (Prod.mk.inj (Except.ok.inj henv)).2
  have hnonce := nonce_of_transactRaw hn htx
  rw [← hinner] at hnonce
  rw [nonceAfter, haccount, hnonce]

/-- On a validator, for every interleaving of faucet requests with commits and other work, no two
accepted drips have one nonce if and only if between any two of them a payload is executed that
raises the nonce of the faucet account; and then none of them takes the nonce of another. -/
theorem drips_compete_iff (hW : W.Faithful P) :
    (NoncesDiffer P W start actions ↔ RaisedBetween P W start actions) ∧
      (RaisedBetween P W start actions →
        ∀ drip drip', ¬Obstructs P W start actions drip drip') := by
  have hiff : NoncesDiffer P W start actions ↔ RaisedBetween P W start actions :=
    noncesDiffer_iff hR hmode hn
  refine ⟨hiff, fun hraised drip drip' => ?_⟩
  rintro ⟨i, j, k, hi, hj, hij, -, hjk, hexecutes, hopen, hclosed⟩
  have hmono : Monotone (nonceAfter P W start actions drip'.account) :=
    nonceAfter_mono hR hmode hn drip'.account
  have hlate := hmono (Nat.le_of_lt hjk)
  have haccount := hi.account_eq hR hmode hj
  have hnonce := hi.executed hR hn hW hexecutes
  have hnonce' := hj.nonce hR
  rw [haccount] at hnonce
  have hsame : drip.tx.nonce.toNat = drip'.tx.nonce.toNat := by omega
  exact hiff.mpr hraised i j drip drip' hi hj hij
    (Prod.ext haccount (BitVec.eq_of_toNat_eq hsame))

end Run

def dripping : KanariNode :=
  { (ValidatorNode.spawn (created DevWallet.platform Reference.spec)).node with
    faucetKey := some DevWallet.key }

def patient : List ValidatorAction :=
  [.faucet 0xdead 0 0, .perform (.attempt (.committed DevWallet.drip0.raw 5) .healthy),
    .faucet 0xbeef 0 0]

def hasty : List ValidatorAction :=
  [.faucet 0xdead 0 0, .faucet 0xbeef 0 0,
    .perform (.attempt (.committed DevWallet.drip0.raw 5) .healthy)]

def drawn (entry : DevWallet.Entry) : Drip := ⟨Reference.funded, entry.tx, entry.raw⟩

theorem accepted_of_eval {actions : List ValidatorAction} {i : ℕ} (toAddr : Address) {drip : Drip}
    (h : actions[i]? = some (.faucet toAddr 0 0) ∧
      ((actedOn DevWallet.platform DevWallet.wallet dripping actions i).drip DevWallet.platform
        DevWallet.wallet toAddr 0).2 = .ok drip ∧
      ((actedOn DevWallet.platform DevWallet.wallet dripping actions i).faucet DevWallet.platform
        DevWallet.wallet toAddr 0 0 .healthy).2.isOk = true) :
    Accepted DevWallet.platform DevWallet.wallet dripping actions i drip :=
  ⟨toAddr, 0, 0, h.1, h.2.1, h.2.2⟩

theorem executes_of_eval {actions : List ValidatorAction} {k : ℕ}
    (haction : actions[k]? =
      some (.perform (.attempt (.committed DevWallet.drip0.raw 5) .healthy)))
    (hnumber : (actedOn DevWallet.platform DevWallet.wallet dripping actions k).sealNumber
      (.committed DevWallet.drip0.raw 5) = some 1)
    (hok : ((actedOn DevWallet.platform DevWallet.wallet dripping actions k).execute
      DevWallet.platform (.committed DevWallet.drip0.raw 5) 1).2.isOk = true) :
    ExecutesAt DevWallet.platform DevWallet.wallet dripping actions k DevWallet.drip0.raw := by
  cases hex : ((actedOn DevWallet.platform DevWallet.wallet dripping actions k).execute
      DevWallet.platform (.committed DevWallet.drip0.raw 5) 1).2 with
  | error e =>
    rw [hex] at hok
    cases hok
  | ok out => exact ⟨5, .healthy, _, haction, Runs.of_eval 1 out.1 out.2 hnumber hex⟩

theorem patient_faucet {i : ℕ} {toAddr : Address} {amountWei : U256} {now : U64}
    (h : patient[i]? = some (.faucet toAddr amountWei now)) : i = 0 ∨ i = 2 := by
  have hlt : i < 3 := (List.getElem?_eq_some_iff.mp h).1
  rcases i with _ | _ | _ | i
  · exact .inl rfl
  · cases h
  · exact .inr rfl
  · omega

theorem drips_compete_iff_patient :
    Accepted DevWallet.platform DevWallet.wallet dripping patient 0 (drawn DevWallet.drip0) ∧
      Accepted DevWallet.platform DevWallet.wallet dripping patient 2 (drawn DevWallet.drip1) ∧
      NoncesDiffer DevWallet.platform DevWallet.wallet dripping patient := by
  have hfirst : Accepted DevWallet.platform DevWallet.wallet dripping patient 0
      (drawn DevWallet.drip0) := accepted_of_eval 0xdead (by decide +kernel)
  have hsecond : Accepted DevWallet.platform DevWallet.wallet dripping patient 2
      (drawn DevWallet.drip1) := accepted_of_eval 0xbeef (by decide +kernel)
  refine ⟨hfirst, hsecond, (drips_compete_iff DevWallet.cacheLaws rfl DevWallet.countsNonces
    DevWallet.faithful).1.mpr ?_⟩
  intro i j drip drip' hi hj hij
  have haccount : drip.account = Reference.funded :=
    hi.account_eq DevWallet.cacheLaws rfl hfirst
  obtain ⟨_, _, _, hi, -⟩ := hi
  obtain ⟨_, _, _, hj, -⟩ := hj
  have hends : i = 0 ∧ j = 2 := by
    have hi' := patient_faucet hi
    have hj' := patient_faucet hj
    omega
  obtain ⟨rfl, rfl⟩ := hends
  rw [haccount]
  exact ⟨1, DevWallet.drip0.raw, by decide, by decide,
    executes_of_eval rfl (by decide +kernel) (by decide +kernel), by decide +kernel⟩

/-- Without one, both drips have nonce 0: they are accepted, and the commit that seals the first
leaves the second behind for good. -/
theorem drips_share_nonce :
    Accepted DevWallet.platform DevWallet.wallet dripping hasty 0 (drawn DevWallet.drip0) ∧
      Accepted DevWallet.platform DevWallet.wallet dripping hasty 1 (drawn DevWallet.rival0) ∧
      ¬NoncesDiffer DevWallet.platform DevWallet.wallet dripping hasty ∧
      Obstructs DevWallet.platform DevWallet.wallet dripping hasty (drawn DevWallet.drip0)
        (drawn DevWallet.rival0) := by
  have hfirst : Accepted DevWallet.platform DevWallet.wallet dripping hasty 0
      (drawn DevWallet.drip0) := accepted_of_eval 0xdead (by decide +kernel)
  have hsecond : Accepted DevWallet.platform DevWallet.wallet dripping hasty 1
      (drawn DevWallet.rival0) := accepted_of_eval 0xbeef (by decide +kernel)
  refine ⟨hfirst, hsecond, fun hdiffer => ?_, 0, 1, 2, hfirst, hsecond, by decide, by decide,
    by decide, executes_of_eval rfl (by decide +kernel) (by decide +kernel), by decide +kernel,
    by decide +kernel⟩
  exact hdiffer 0 1 _ _ hfirst hsecond (by decide) rfl

end KanariNode

end KanariEvm
