import KanariEvm.Opening
import KanariEvm.Operations

namespace KanariEvm

open InMemoryDB

def maxFaucetEthPerRequest : U128 := 10000

def weiInEth : U128 := 1000000000000000000

/-- What is used of the signer and encoder of alloy. -/
structure Wallet where
  /-- `PrivateKeySigner::from_bytes`, then `address`. -/
  address : B256 → Except String Address
  signatureHash : TxEip1559 → B256
  signHashSync : B256 → B256 → Except String Signature
  encode2718 : TxEnvelope → Bytes

/-- What the wallet signs and encodes, the platform decodes, and recovers the address of the key. -/
def Wallet.Faithful (W : Wallet) (P : Platform) : Prop :=
  ∀ secret account tx sig, W.address secret = .ok account →
    W.signHashSync secret (W.signatureHash tx) = .ok sig →
    P.decode2718Exact (W.encode2718 (.eip1559 tx sig)) = .ok (.eip1559 tx sig) ∧
      P.recoverSigner (.eip1559 tx sig) = .ok account

structure Drip where
  account : Address
  tx : TxEip1559
  raw : Bytes
deriving DecidableEq

namespace KanariNode

variable (P : Platform) (W : Wallet) (node : KanariNode)

/-- Install the faucet key, persisting it in the store immediately; `fault` is the error of a
failing write. -/
def setFaucetKey (secret : B256) (fault : Option String) : KanariNode × Except NodeError Unit :=
  match fault with
  | some msg => (node, .error (.ofStore (.backend msg)))
  | none =>
    ({ node with store := node.store.setFaucetKey secret, faucetKey := some secret }, .ok ())

def loadFaucetKey : KanariNode × Except NodeError Bool :=
  match node.store.loadFaucetKey with
  | .error e => (node, .error (.ofStore e))
  | .ok none => (node, .ok false)
  | .ok (some secret) => ({ node with faucetKey := some secret }, .ok true)

/-- The transaction that `faucet` builds for the account of the key, signs and encodes. It is priced
at the pending base fee, the priority as well. -/
def dripFrom (secret : B256) (account toAddr : Address) (amountWei : U256) :
    KanariNode × Except NodeError Drip :=
  let (asked, balance) := node.balanceOf P account
  let fee := asked.pendingBaseFee P
  let gasCost : U256 := (saturatingMul 21000 fee).setWidth 256
  if balance.toNat < (amountWei + gasCost).toNat then
    (asked, .error (.execution "faucet account is dry"))
  else
    let (asked, nonce) := asked.nonceOf P account
    let tx : TxEip1559 := {
      chainId := asked.spec.chainId
      nonce := nonce
      gasLimit := 21000
      toKind := .call toAddr
      value := amountWei
      input := []
      accessList := []
      maxFeePerGas := fee
      maxPriorityFeePerGas := fee }
    match W.signHashSync secret (W.signatureHash tx) with
    | .error e => (asked, .error (.badSignature e))
    | .ok sig => (asked, .ok ⟨account, tx, W.encode2718 (.eip1559 tx sig)⟩)

/-- The first half of `faucet`, up to the encoded transaction. -/
def drip (toAddr : Address) (amountWei : U256) : KanariNode × Except NodeError Drip :=
  if (maxFaucetEthPerRequest * weiInEth).toNat < amountWei.toNat then
    (node, .error (.invalidTransaction "faucet amount exceeds per-request cap of 10000 ETH"))
  else
    match node.faucetKey with
    | none => (node, .error .noFaucetConfigured)
    | some secret =>
      match W.address secret with
      | .error e => (node, .error (.storage s!"bad faucet key: {e}"))
      | .ok account => node.dripFrom P W secret account toAddr amountWei

def faucet (toAddr : Address) (amountWei : U256) (now : U64) (io : SealIo) :
    KanariNode × Except NodeError B256 :=
  match node.drip P W toAddr amountWei with
  | (asked, .error e) => (asked, .error e)
  | (asked, .ok drip) => asked.sendRawTransaction P drip.raw now io

variable {P W node}

/-- What a drip is: a transaction at the current nonce of the account of the key, signed by it. -/
structure Drafts (P : Platform) (W : Wallet) (node : KanariNode) (drip : Drip) : Prop where
  nonce : drip.tx.nonce = (node.db.logical drip.account).nonce
  chainId : drip.tx.chainId = node.spec.chainId
  signed : ∃ secret sig, node.faucetKey = some secret ∧ W.address secret = .ok drip.account ∧
    W.signHashSync secret (W.signatureHash drip.tx) = .ok sig ∧
    drip.raw = W.encode2718 (.eip1559 drip.tx sig)

theorem dripFrom_cases (secret : B256) (account toAddr : Address) (amountWei : U256) :
    (∃ reads e, node.dripFrom P W secret account toAddr amountWei =
        ({ node with db := P.readAll node.db reads }, .error e) ∧ e ≠ .overflow) ∨
      ∃ reads tx sig, tx = {
          chainId := node.spec.chainId
          nonce := ((node.balanceOf P account).1.nonceOf P account).2
          gasLimit := 21000
          toKind := .call toAddr
          value := amountWei
          input := []
          accessList := []
          maxFeePerGas := node.pendingBaseFee P
          maxPriorityFeePerGas := node.pendingBaseFee P } ∧
        W.signHashSync secret (W.signatureHash tx) = .ok sig ∧
        node.dripFrom P W secret account toAddr amountWei =
          ({ node with db := P.readAll node.db reads },
            .ok ⟨account, tx, W.encode2718 (.eip1559 tx sig)⟩) := by
  simp only [dripFrom]
  split_ifs
  · exact .inl ⟨[.basic account], _, rfl, nofun⟩
  · split
    · exact .inl ⟨[.basic account, .basic account], _, rfl, nofun⟩
    · rename_i sig hsig
      exact .inr ⟨[.basic account, .basic account], _, sig, rfl, hsig, rfl⟩

theorem drip_cases (toAddr : Address) (amountWei : U256) :
    (∃ reads e, node.drip P W toAddr amountWei =
        ({ node with db := P.readAll node.db reads }, .error e) ∧ e ≠ .overflow) ∨
      ∃ reads secret drip sig, node.faucetKey = some secret ∧ W.address secret = .ok drip.account ∧
        drip.tx = {
          chainId := node.spec.chainId
          nonce := ((node.balanceOf P drip.account).1.nonceOf P drip.account).2
          gasLimit := 21000
          toKind := .call toAddr
          value := amountWei
          input := []
          accessList := []
          maxFeePerGas := node.pendingBaseFee P
          maxPriorityFeePerGas := node.pendingBaseFee P } ∧
        W.signHashSync secret (W.signatureHash drip.tx) = .ok sig ∧
        drip.raw = W.encode2718 (.eip1559 drip.tx sig) ∧
        node.drip P W toAddr amountWei =
          ({ node with db := P.readAll node.db reads }, .ok drip) := by
  unfold KanariNode.drip
  split_ifs
  · exact .inl ⟨[], _, rfl, nofun⟩
  · split
    · exact .inl ⟨[], _, rfl, nofun⟩
    · rename_i secret hkey
      split
      · exact .inl ⟨[], _, rfl, nofun⟩
      · rename_i account haddress
        rcases node.dripFrom_cases (P := P) (W := W) secret account toAddr amountWei with
          ⟨reads, e, h, he⟩ | ⟨reads, tx, sig, htx, hsig, h⟩
        · exact .inl ⟨reads, e, h, he⟩
        · exact .inr ⟨reads, secret, _, sig, hkey, haddress, htx, hsig, rfl, h⟩

theorem drip_fst (toAddr : Address) (amountWei : U256) :
    ∃ db, (node.drip P W toAddr amountWei).1 = { node with db := db } := by
  rcases node.drip_cases (P := P) (W := W) toAddr amountWei with
    ⟨reads, e, h, -⟩ | ⟨reads, secret, drip, sig, -, -, -, -, -, h⟩
  · exact ⟨_, by rw [h]⟩
  · exact ⟨_, by rw [h]⟩

section Laws

variable (hR : P.toRevm.CacheLaws)

include hR

theorem drip_spec (toAddr : Address) (amountWei : U256) :
    ∃ db, SameAccounts db node.db ∧ (node.drip P W toAddr amountWei).1 = { node with db := db } ∧
      ∀ drip, (node.drip P W toAddr amountWei).2 = .ok drip → node.Drafts P W drip := by
  rcases node.drip_cases (P := P) (W := W) toAddr amountWei with
    ⟨reads, e, h, -⟩ | ⟨reads, secret, drip, sig, hkey, haddress, htx, hsig, hraw, h⟩
  · rw [h]
    exact ⟨_, Revm.readAll_sameAccounts hR reads node.db, rfl, fun drip h => by cases h⟩
  · rw [h]
    refine ⟨_, Revm.readAll_sameAccounts hR reads node.db, rfl, ?_⟩
    intro drip' hdrip
    cases hdrip
    have hlooked : SameAccounts (node.balanceOf P drip.account).1.db node.db :=
      Revm.read_sameAccounts hR node.db (.basic drip.account)
    refine ⟨?_, by rw [htx], secret, sig, hkey, haddress, hsig, hraw⟩
    rw [htx, nonceOf_snd _ hR]
    exact congrArg (·.nonce) (hlooked.sameLogical drip.account)

/-- On a validator a faucet request, whatever becomes of it, reads accounts and fills the mempool
channel. -/
theorem faucet_validator (h : node.dagSender.isSome) (toAddr : Address) (amountWei : U256)
    (now : U64) (io : SealIo) : ∃ db sender, SameAccounts db node.db ∧
      (node.faucet P W toAddr amountWei now io).1 =
        { node with db := db, dagSender := some sender } := by
  obtain ⟨db, hdb, hnode, -⟩ := node.drip_spec hR (W := W) toAddr amountWei
  obtain ⟨sender, hsender⟩ := Option.isSome_iff_exists.mp h
  rcases hdrip : node.drip P W toAddr amountWei with ⟨asked, e | drip⟩
  · rw [hdrip] at hnode
    refine ⟨db, sender, hdb, ?_⟩
    rw [faucet, hdrip, ← hsender]
    exact hnode
  · rw [hdrip] at hnode
    have hasked : asked.dagSender = some sender := by rw [show asked = _ from hnode, hsender]
    simp only [faucet, hdrip, sendRawTransaction, hasked]
    split
    · exact ⟨db, sender, hdb, by rw [← hsender]; exact hnode⟩
    · rename_i sender' _
      refine ⟨db, sender', hdb, ?_⟩
      rw [show asked = _ from hnode]

end Laws

end KanariNode

end KanariEvm
