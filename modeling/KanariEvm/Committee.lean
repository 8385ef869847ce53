import KanariEvm.HexDecode

namespace KanariEvm

inductive IpAddr
  | v4 (octets : BitVec 32)
  | v6 (octets : BitVec 128)
deriving DecidableEq

structure SocketAddr where
  ip : IpAddr
  port : U16
deriving DecidableEq

structure ValidatorEntry where
  id : String
  dagAddress : SocketAddr
  publicKey : List Char
deriving DecidableEq

/-- Shared committee file: every validator holds the same copy. -/
structure DagCommittee where
  authorities : List ValidatorEntry
deriving DecidableEq

inductive CommitteeError
  | io (text : String)
  | invalid (text : String)
deriving DecidableEq

/-- What the code uses of the `dag` crate: the public key of a signer, the bytes a public key
serialises to, and the reading of a public key from its bytes. -/
structure DagCrypto where
  Signer : Type
  PublicKey : Type
  publicKey : Signer → PublicKey
  toBytes : PublicKey → Bytes
  fromBytes : Bytes → Except String PublicKey

/-- A public key has 32 bytes and is what is read back from them, and a key that was read from
bytes serialises to these. -/
structure DagCrypto.Lawful (D : DagCrypto) : Prop where
  length : ∀ key, (D.toBytes key).length = 32
  from_to : ∀ key, D.fromBytes (D.toBytes key) = .ok key
  to_from : ∀ bytes key, D.fromBytes bytes = .ok key → D.toBytes key = bytes

def HexError.text : HexError → String
  | .oddLength => "odd hex length (want pairs of digits)"
  | .invalidChar => "non-hex character in input"
  | .invalidLength want got => "want " ++ toString want ++ " bytes, got " ++ toString got

section Model

variable (D : DagCrypto)

def encodePubkey (key : D.PublicKey) : Except CommitteeError (List Char) :=
  let bytes := D.toBytes key
  if bytes.length ≠ 32 then
    .error (.invalid ("public key must be 32 bytes, got " ++ toString bytes.length))
  else .ok (hexEncode bytes)

def decodePubkey (hex : List Char) : Except String D.PublicKey := do
  let bytes ← (hexDecode32 hex).mapError fun e => "bad public key: " ++ e.text
  D.fromBytes bytes

structure AuthorityInfo where
  stake : ℕ
  key : D.PublicKey

/-- Build the Mysticeti committee (equal stake per validator). -/
def DagCommittee.toMysticeti (committee : DagCommittee) :
    Except CommitteeError (List (AuthorityInfo D)) :=
  if committee.authorities.length < 4 then
    .error (.invalid ("need at least 4 validators for quorum, got " ++
      toString committee.authorities.length))
  else committee.authorities.mapM fun entry => do
    let key ← (decodePubkey D entry.publicKey).mapError fun e =>
      .invalid ("bad public key for " ++ entry.id ++ ": " ++ e)
    return ⟨1, key⟩

structure LoadedValidator where
  index : ℕ
  id : String
  authority : U64
  signer : D.Signer
  committee : List (AuthorityInfo D)
  dagAddresses : List SocketAddr
  ownAddress : SocketAddr

/-- Load a validator identity from what the committee file and the key file were read and parsed
to, and find our own entry by public-key match. -/
def loadValidator (committeePath keyPath : String)
    (committeeFile : Except CommitteeError DagCommittee)
    (keyFile : Except CommitteeError D.Signer) : Except CommitteeError (LoadedValidator D) := do
  let committee ← committeeFile
  let signer ← keyFile
  let ownPubkey ← encodePubkey D (D.publicKey signer)
  let authorities := committee.authorities
  let index := authorities.findIdx fun entry => entry.publicKey = ownPubkey
  match authorities[index]? with
  | none =>
    throw (.invalid ("key " ++ keyPath ++ " matches no validator in " ++ committeePath))
  | some entry =>
    return {
      index
      id := entry.id
      authority := BitVec.ofNat 64 index
      signer
      committee := ← committee.toMysticeti D
      dagAddresses := authorities.map (·.dagAddress)
      ownAddress := entry.dagAddress }

/-- What the machine decides of a key generation: the signers it draws, and the errors of creating
the directory, of writing and reading back a key file and of writing the committee file. -/
structure KeygenIo where
  random : ℕ → D.Signer
  createDirAll : Option String
  writeKey : ℕ → Option String
  loadSigner : ℕ → Option CommitteeError
  writeCommittee : Option String

def orFail {ε : Type} : Option ε → Except ε Unit
  | none => .ok ()
  | some e => .error e

/-- The checks that `generate_committee` makes before it touches the directory. -/
def validateKeygen (nodeCount : U64) (baseDagPort : U16) : Except CommitteeError Unit := do
  if nodeCount.toNat < 4 then
    throw (.invalid ("need at least 4 validators for quorum, got " ++ toString nodeCount.toNat))
  let span : U32 := saturatingMul (saturatingSub (nodeCount.setWidth 32) 1) 10
  let top : U32 := saturatingAdd (baseDagPort.setWidth 32) span
  if 65535 < (saturatingMul top 10).toNat then
    throw (.invalid ("dag ports " ++ toString baseDagPort.toNat ++ "..=" ++ toString top.toNat ++
      " overflow the mesh source-port range (listen * 10 must fit u16); use a base port below ~" ++
      toString (saturatingSub 6553 span).toNat))

/-- The DAG port of validator `i`: `base.checked_add((i as u16).saturating_mul(10))`. -/
def dagPort (baseDagPort : U16) (i : ℕ) : Except CommitteeError U16 :=
  let offset : U16 := saturatingMul (BitVec.ofNat 16 i) 10
  if baseDagPort.toNat + offset.toNat < 2 ^ 16 then .ok (baseDagPort + offset)
  else .error (.invalid "dag port range overflow")

def generateEntry (io : KeygenIo D) (host : IpAddr) (baseDagPort : U16) (i : ℕ) :
    Except CommitteeError ValidatorEntry := do
  let signer := io.random i
  let port ← dagPort baseDagPort i
  let publicKey ← encodePubkey D (D.publicKey signer)
  orFail ((io.writeKey i).map .io)
  orFail (io.loadSigner i)
  return ⟨"0x" ++ toString (i + 1), ⟨host, port⟩, publicKey⟩

def generateCommittee (io : KeygenIo D) (nodeCount : U64) (host : IpAddr) (baseDagPort : U16) :
    Except CommitteeError DagCommittee := do
  validateKeygen nodeCount baseDagPort
  orFail (io.createDirAll.map .io)
  let authorities ← (List.range nodeCount.toNat).mapM (generateEntry D io host baseDagPort)
  orFail (io.writeCommittee.map .io)
  return ⟨authorities⟩

end Model

/-- The RPC port of `run_validator`: the given one, else the validator's DAG port plus one; `none`
where the `+` of the source overflows. -/
def validatorRpcPort (rpcPort : Option U16) (ownAddress : SocketAddr) : Option U16 :=
  match rpcPort with
  | some port => some port
  | none => checkedSucc ownAddress.port

theorem encodePubkey_eq {D : DagCrypto} (hD : D.Lawful) (key : D.PublicKey) :
    encodePubkey D key = .ok (hexEncode (D.toBytes key)) := by
  simp [encodePubkey, hD.length key]

/-- The Ed25519 keys of four secrets, the first of 32 bytes `01`, the last of 32 bytes `04`. -/
def DagCrypto.sample : DagCrypto where
  Signer := Fin 4
  PublicKey := { bytes : Bytes // bytes.length = 32 }
  publicKey i := ⟨toBeBytes 32 ([
    0x8a88e3dd7409f195fd52db2d3cba5d72ca6709bf1d94121bf3748801b40f6f5c,
    0x8139770ea87d175f56a35466c34c7ecccb8d8a91b4ee37a25df60f5b8fc9b394,
    0xed4928c628d1c2c6eae90338905995612959273a5c63f93636c14614ac8737d1,
    0xca93ac1705187071d67b83c7ff0efe8108e8ec4530575d7726879333dbdabe7c].get i), by simp⟩
  toBytes key := key.val
  fromBytes bytes := if h : bytes.length = 32 then .ok ⟨bytes, h⟩ else .error "invalid public key"

theorem DagCrypto.sample_lawful : DagCrypto.sample.Lawful where
  length key := key.property
  from_to key := dif_pos key.property
  to_from bytes key h := by
    simp only [DagCrypto.sample] at h
    split_ifs at h with hlen
    cases h
    rfl

end KanariEvm
