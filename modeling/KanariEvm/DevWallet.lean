import KanariEvm.Faucet
import KanariEvm.Reference

namespace KanariEvm.DevWallet

/-! The development key as the key of a faucet, with three drips that it signs. -/

/-- The secret of the development account. -/
def key : B256 := 0xac0974bec39a17e36ba4a6b4d238ff944bacb478cbed5efcae784d7bf4f2ff80

/-- What the faucet of the development chain builds at a nonce and a fee. -/
def dripTx (nonce : U64) (toAddr : Address) (fee : U128) : TxEip1559 where
  chainId := 19088
  nonce := nonce
  gasLimit := 21000
  maxFeePerGas := fee
  maxPriorityFeePerGas := fee
  toKind := .call toAddr
  value := 0
  accessList := []
  input := []

/-- A drip with its signature hash, its signature, its wire form and its hash. -/
structure Entry where
  tx : TxEip1559
  signatureHash : B256
  sig : Signature
  raw : Bytes
  hash : B256

def drip0 : Entry where
  tx := dripTx 0 0xdead 1000000000
  signatureHash := 0xbf615ca30b970f14d610dee0c177a51ed9bf06e13e70e94d42db386be16d776d
  sig := {
    r := 0xe455a89f7eb15a263bc301f8d0aedb518ffec27ca60b9b6322207a26b88b9a0d
    s := 0x506d4240c663f3989c5a3438bdc6defae33f2c3806c91d9abc6d53c2aee685d1
    oddYParity := true }
  raw := toBeBytes 21 0x02f86c824a9080843b9aca00843b9aca0082520894 ++
    toBeBytes 25 0x000000000000000000000000000000000000dead8080c001a0 ++
    toBeBytes 32 0xe455a89f7eb15a263bc301f8d0aedb518ffec27ca60b9b6322207a26b88b9a0d ++
    toBeBytes 33 0xa0506d4240c663f3989c5a3438bdc6defae33f2c3806c91d9abc6d53c2aee685d1
  hash := 0xb552b29f145ba5e7e58b0d6fc32edfbbeb5b440cd03e8750aa56281e062b1ffe

def rival0 : Entry where
  tx := dripTx 0 0xbeef 1000000000
  signatureHash := 0xa62ff833345f2923040791c108176f25240a743ace35486ef046f3b174874f01
  sig := {
    r := 0x720c6e0aaba2c6f94bbc936478d08c7712cfcc0c2523046e443953a75023c6d9
    s := 0x75bfb234fe5e8adc891e133624f23384b0bf64f826fdd9e91c26f9c5f40d2abf
    oddYParity := false }
  raw := toBeBytes 21 0x02f86c824a9080843b9aca00843b9aca0082520894 ++
    toBeBytes 25 0x000000000000000000000000000000000000beef8080c080a0 ++
    toBeBytes 32 0x720c6e0aaba2c6f94bbc936478d08c7712cfcc0c2523046e443953a75023c6d9 ++
    toBeBytes 33 0xa075bfb234fe5e8adc891e133624f23384b0bf64f826fdd9e91c26f9c5f40d2abf
  hash := 0x6ef9334d25b89f8e40d75b5c59feb032c23a12f53e2889253a271cab64663d11

def drip1 : Entry where
  tx := dripTx 1 0xbeef 875175000
  signatureHash := 0x05fc689b64303f20cf301eb30dbdcb8c38f17e9fea62fa486ac119dc4a2fb0db
  sig := {
    r := 0xb6d421bfe2fcb5e1e7b13f571387c258d7647c237042008e817fddd23d34df2b
    s := 0x7a5ae162ea407a00f6d489e3f1d8988c7c9feb9815f07ca031474e22678c04e3
    oddYParity := false }
  raw := toBeBytes 21 0x02f86c824a900184342a1c5884342a1c5882520894 ++
    toBeBytes 25 0x000000000000000000000000000000000000beef8080c080a0 ++
    toBeBytes 32 0xb6d421bfe2fcb5e1e7b13f571387c258d7647c237042008e817fddd23d34df2b ++
    toBeBytes 33 0xa07a5ae162ea407a00f6d489e3f1d8988c7c9feb9815f07ca031474e22678c04e3
  hash := 0x6267faed552bd35b4241aab19ae934a38ed963f909247bb73913bef1190c4ce3

def entries : List Entry := [drip0, rival0, drip1]

def walletOf (entries : List Entry) : Wallet where
  address secret := if secret = key then .ok Reference.funded else .error "signature error"
  signatureHash tx := ((entries.find? fun e => e.tx = tx).map (·.signatureHash)).getD 0
  signHashSync secret hash :=
    match entries.find? fun e => secret = key ∧ e.signatureHash = hash with
    | some e => .ok e.sig
    | none => .error "signature error"
  encode2718 envelope :=
    ((entries.find? fun e => .eip1559 e.tx e.sig = envelope).map (·.raw)).getD []

def wallet : Wallet := walletOf entries

/-- A wallet keeps faith with a platform that lists its drips, where no two of them share a hash and
none has the hash that stands for an unknown one. -/
theorem walletOf_faithful {P : Platform} {entries : List Entry}
    (hlisted : ∀ e ∈ entries, (walletOf entries).signHashSync key e.signatureHash = .ok e.sig ∧
      P.decode2718Exact ((walletOf entries).encode2718 (.eip1559 e.tx e.sig)) =
        .ok (.eip1559 e.tx e.sig) ∧
      P.recoverSigner (.eip1559 e.tx e.sig) = .ok Reference.funded)
    (hunknown : (walletOf entries).signHashSync key 0 = .error "signature error") :
    (walletOf entries).Faithful P := by
  intro secret account tx sig haddress hsign
  have hkey : secret = key := by
    by_contra hne
    simp only [walletOf, if_neg hne] at haddress
    cases haddress
  subst hkey
  have haccount : Reference.funded = account := by
    simpa only [walletOf, if_true, Except.ok.injEq] using haddress
  cases hfind : entries.find? fun e => e.tx = tx with
  | none =>
    have hhash : (walletOf entries).signatureHash tx = 0 := by
      simp only [walletOf, hfind, Option.map_none, Option.getD_none]
    rw [hhash, hunknown] at hsign
    cases hsign
  | some e =>
    have htx : e.tx = tx := by simpa using List.find?_some hfind
    have hhash : (walletOf entries).signatureHash tx = e.signatureHash := by
      simp only [walletOf, hfind, Option.map_some, Option.getD_some]
    obtain ⟨hsigned, hdecode, hrecover⟩ := hlisted e (List.mem_of_find?_eq_some hfind)
    rw [hhash, hsigned, Except.ok.injEq] at hsign
    rw [← htx, ← hsign, ← haccount]
    exact ⟨hdecode, hrecover⟩

def platform : Platform :=
  Reference.platformWith Transfer.revm (entries.map fun e => (e.raw, .eip1559 e.tx e.sig))
    (entries.map fun e => (e.raw, e.hash))

theorem cacheLaws : platform.toRevm.CacheLaws := Transfer.revm_cacheLaws _

theorem countsNonces : platform.toRevm.CountsNonces := Transfer.revm_countsNonces _

theorem faithful : wallet.Faithful platform :=
  walletOf_faithful (by decide +kernel) (by decide +kernel)

end KanariEvm.DevWallet
