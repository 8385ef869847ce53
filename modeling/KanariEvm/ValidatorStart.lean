import KanariEvm.Committee
import KanariEvm.DevWallet
import KanariEvm.Mesh
import KanariEvm.Rpc
import KanariEvm.Seats
import KanariEvm.Start

namespace KanariEvm

open Journaled

structure ValidatorFileConfig where
  committee : Option String
  key : Option String
  dataDir : Option String
  rpcHost : Option String
  rpcPort : Option U16
  logLevel : Option String
  faucetKey : Option (List Char)

structure ValidatorCli where
  committee : Option String
  key : Option String
  dataDir : Option String
  rpcPort : Option U16
  rpcHost : Option String
  faucetKey : Option (List Char)
  logLevel : Option LogLevel

structure ResolvedValidator where
  committee : String
  key : String
  dataDir : Option String
  rpcPort : Option U16
  rpcHost : String
  faucetKey : Option (List Char)
  logLevel : String

/-- Merge CLI flags over an optional TOML file. -/
def resolveValidatorConfig (cli : ValidatorCli) (file : ValidatorFileConfig) :
    Except String ResolvedValidator :=
  match cli.committee.or file.committee, cli.key.or file.key with
  | none, _ => .error "--committee is required (or set committee in --config)"
  | some _, none => .error "--key is required (or set key in --config)"
  | some committee, some key => .ok {
      committee
      key
      dataDir := cli.dataDir.or file.dataDir
      rpcPort := cli.rpcPort.or file.rpcPort
      rpcHost := (cli.rpcHost.or file.rpcHost).getD "127.0.0.1"
      faucetKey := cli.faucetKey.or file.faucetKey
      logLevel := ((cli.logLevel.map LogLevel.asStr).or file.logLevel).getD "info" }

def parseSecret (hex : List Char) : Except Fatal B256 :=
  match fromHexFixed 256 (trim hex) with
  | some secret => .ok secret
  | none => .error (.message "invalid --faucet-key: want 32-byte 0x hex")

def CommitteeError.text : CommitteeError → String
  | .io text => "io error: " ++ text
  | .invalid text => "invalid committee file: " ++ text

/-- What the machine decides of a start as validator: what the committee file and the key file were
read and parsed to, and the errors of setting up logs, of creating the directory, of writing the
faucet key and of joining the mesh. -/
structure ValidatorIo (D : DagCrypto) where
  committeeFile : Except CommitteeError DagCommittee
  keyFile : Except CommitteeError D.Signer
  initLogging : String → Option String
  createDirAll : Option String
  setFaucetKey : Option String
  join : Option String

structure Running where
  validator : ValidatorNode
  id : String
  dataDir : String
  rpcHost : String
  rpcPort : U16

section Command

variable (P : Platform) (W : Wallet) (D : DagCrypto) (io : ValidatorIo D)

/-- The shared faucet key: it goes to the store first and is checked then; the balance is looked up
for the banner. -/
def shareFaucet (node : KanariNode) (faucetKey : Option B256) : KanariNode × Except Fatal Unit :=
  match faucetKey with
  | none => (node, .ok ())
  | some secret =>
    match node.setFaucetKey secret io.setFaucetKey with
    | (node, .error e) => (node, .error (.failedTo "store faucet key" e))
    | (node, .ok ()) =>
      match W.address secret with
      | .error _ => (node, .error (.message "invalid --faucet-key secret"))
      | .ok addr => ((node.balanceOf P addr).1, .ok ())

/-- `run_validator` up to the point where it serves. The genesis is the devnet's, whatever the
settings. -/
def runValidator (settings : ResolvedValidator) (faucetKey : Option B256) (dir : DataDir) :
    DataDir × Except Fatal Running :=
  match loadValidator D settings.committee settings.key io.committeeFile io.keyFile with
  | .error e => (dir, .error (.message ("bad committee/key: " ++ e.text)))
  | .ok identity =>
    let dataDir := settings.dataDir.getD
      ("./.kanari-evm-validator-" ++ toString (identity.index + 1))
    match io.createDirAll with
    | some e => (dir, .error (.message ("cannot create data dir " ++ dataDir ++ ": " ++ e)))
    | none =>
      match validatorRpcPort settings.rpcPort identity.ownAddress with
      | none => (dir, .error (.panicked "attempt to add with overflow"))
      | some rpcPort =>
        match KanariNode.open P .devnet dir with
        | (dir, .error e) => (dir, .error (.failedTo "open node" e))
        | (dir, .ok node) =>
          match shareFaucet P W D io node faucetKey with
          | (node, .error e) => (node.dataDir dir, .error e)
          | (node, .ok ()) =>
            match io.join with
            | some e => (node.dataDir dir, .error (.message ("failed to join DAG mesh: " ++ e)))
            | none => (node.dataDir dir, .ok {
                validator := .spawn node
                id := identity.id
                dataDir
                rpcHost := settings.rpcHost
                rpcPort })

def validatorCommand (cli : ValidatorCli) (file : ValidatorFileConfig) (dir : DataDir) :
    DataDir × Except Fatal Running :=
  match resolveValidatorConfig cli file with
  | .error e => (dir, .error (.message e))
  | .ok settings =>
    match io.initLogging settings.logLevel with
    | some e => (dir, .error (.message e))
    | none =>
      match settings.faucetKey.mapM parseSecret with
      | .error e => (dir, .error e)
      | .ok secret => runValidator P W D io settings secret dir

end Command

namespace ChainStore

theorem foldl_insert_comm {key : Bytes} {batch : WriteBatch} (h : ∀ put ∈ batch, put.1 ≠ key)
    (db : Map Bytes StoreValue) (value : StoreValue) :
    batch.foldl (fun db put => db.insert put.1 put.2) (db.insert key value) =
      (batch.foldl (fun db put => db.insert put.1 put.2) db).insert key value := by
  induction batch generalizing db with
  | nil => rfl
  | cons put rest ih =>
    have hput : key ≠ put.1 := (h put List.mem_cons_self).symm
    rw [List.foldl_cons, List.foldl_cons, Finmap.insert_insert_of_ne db hput,
      ih fun other hmem => h other (List.mem_cons_of_mem put hmem)]

theorem write_setFaucetKey (s : ChainStore) (secret : B256) (block : SealedBlock)
    (receipts : List (B256 × StoredReceipt)) :
    (s.setFaucetKey secret).write (sealBatch block receipts) =
      (s.write (sealBatch block receipts)).setFaucetKey secret := by
  have hother : ∀ put ∈ sealBatch block receipts, put.1 ≠ Keys.metaFaucetKey := by
    intro put hput
    rw [sealBatch, List.cons_append, List.mem_cons, List.mem_append, List.mem_flatMap,
      List.mem_singleton] at hput
    rcases hput with rfl | ⟨r, -, hr⟩ | rfl
    · exact Keys.ne_of_table (by simp)
    · rw [List.mem_cons, List.mem_singleton] at hr
      rcases hr with rfl | rfl
      · exact Keys.ne_of_table (by simp)
      · exact Keys.ne_of_table (by simp)
    · change Keys.metaHeight ≠ Keys.metaFaucetKey
      decide
  simp only [write, setFaucetKey, List.foldl_cons, List.foldl_nil,
    foldl_insert_comm hother]

end ChainStore

namespace KanariNode

variable {P : Platform}

/-- The node with one and the same key in its store. -/
def rekeyed (node : KanariNode) : KanariNode :=
  { node with store := node.store.setFaucetKey 0 }

theorem sealCommitted_rekeyed (node : KanariNode) (raw : Bytes) (ts : U64) (io : SealIo) :
    node.rekeyed.sealCommitted P raw ts io =
      ((node.sealCommitted P raw ts io).1.rekeyed, (node.sealCommitted P raw ts io).2) := by
  rcases node.sealCommitted_cases P raw ts io with ⟨hnone, hs⟩ | ⟨number, hsome, hs⟩
  · rw [hs, KanariNode.sealCommitted,
      show checkedSucc node.rekeyed.blockNumber = none from hnone]
  · rw [hs, KanariNode.sealCommitted,
      show checkedSucc node.rekeyed.blockNumber = some number from hsome]
    show node.rekeyed.sealRawWithFee P raw number ts (node.sealFee P) io = _
    rcases hex : executeRaw P node.db node.spec raw number ts (node.sealFee P) with
      ⟨db, e | ⟨prepared, result⟩⟩
    · have hex' : executeRaw P node.rekeyed.db node.rekeyed.spec raw number ts
          (node.sealFee P) = (db, .error e) := hex
      rw [sealRawWithFee_of_error hex, sealRawWithFee_of_error hex']
      rfl
    · have hex' : executeRaw P node.rekeyed.db node.rekeyed.spec raw number ts
          (node.sealFee P) = (db, .ok (prepared, result)) := hex
      rw [sealRawWithFee_of_ok hex, sealRawWithFee_of_ok hex']
      obtain ⟨rebuild, save⟩ := io
      cases rebuild with
      | some fault => rfl
      | none =>
        cases save with
        | some msg => rfl
        | none =>
          simp only [persist, rekeyed, afterSeal, ChainStore.write_setFaucetKey]
          rfl

theorem requestReads_rekeyed (node : KanariNode) (request : ReadRequest) :
    node.rekeyed.requestReads P request = node.requestReads P request := by
  have hcall : ∀ call now, node.rekeyed.callReads P call now = node.callReads P call now := by
    intro call now
    simp only [callReads, callTx_fst, callTx_snd]
    rfl
  cases request with
  | call call now => exact hcall call now
  | traceCall call now opts => exact hcall call now
  | _ => rfl

theorem serve_rekeyed (node : KanariNode) (request : ReadRequest) :
    node.rekeyed.serve P request = (node.serve P request).rekeyed := by
  rw [serve_eq, serve_eq, requestReads_rekeyed]
  rfl

theorem perform_rekeyed (node : KanariNode) (request : Request) :
    node.rekeyed.perform P request.op = (node.perform P request.op).rekeyed := by
  cases request with
  | read request => exact serve_rekeyed node request
  | send raw now =>
    simp only [Request.op, KanariNode.perform, sealStep]
    cases hsender : node.dagSender with
    | none =>
      rw [node.sendRawTransaction_of_single P hsender,
        node.rekeyed.sendRawTransaction_of_single P hsender, sealCommitted_rekeyed]
    | some sender =>
      have hsender' : node.rekeyed.dagSender = some sender := hsender
      simp only [sendRawTransaction, hsender, hsender']
      cases sender.trySend [raw] with
      | error e => rfl
      | ok sender => rfl

end KanariNode

theorem quietRun_rekeyed {P : Platform} (node : KanariNode) (requests : List Request) :
    QuietRun P node.rekeyed (requests.map Request.op) ↔
      QuietRun P node (requests.map Request.op) := by
  induction requests generalizing node with
  | nil => exact Iff.rfl
  | cons request rest ih =>
    have hrest := ih (node.perform P request.op)
    rw [← KanariNode.perform_rekeyed] at hrest
    cases request with
    | read request =>
      have hquiet : node.rekeyed.ServesQuietly P request ↔ node.ServesQuietly P request := by
        rw [KanariNode.ServesQuietly, KanariNode.ServesQuietly, KanariNode.requestReads_rekeyed]
        rfl
      exact and_congr hquiet hrest
    | send raw now => exact and_congr Iff.rfl hrest

theorem KanariNode.answer_rekeyed {P : Platform} (node : KanariNode) (requests : List Request) :
    node.rekeyed.answer P requests = (node.answer P requests).rekeyed := by
  induction requests generalizing node with
  | nil => rfl
  | cons request rest ih =>
    rw [KanariNode.answer, List.foldl_cons, KanariNode.perform_rekeyed]
    exact ih (node.perform P request.op)

namespace ValidatorNode

variable {P : Platform} {ρ : Type} [DecidableEq ρ]

def rekeyed (v : ValidatorNode) : ValidatorNode := { v with node := v.node.rekeyed }

theorem rekeyed_node (v : ValidatorNode) : v.rekeyed.node = v.node.rekeyed := rfl

theorem rekeyed_pending (v : ValidatorNode) : v.rekeyed.pending = v.pending := rfl

theorem clampedTs_rekeyed (v : ValidatorNode) (commit : CommittedSubDag ρ) :
    v.rekeyed.clampedTs commit = v.clampedTs commit := rfl

theorem sealTurn_rekeyed (ts : U64) :
    Deferred.Projects (sealTurn P ts) (sealTurn P ts)
      (fun s : KanariNode × List Turn => (s.1.rekeyed, s.2)) id := by
  intro s raw
  simp only [sealTurn, id_eq, KanariNode.answer_rekeyed, KanariNode.sealCommitted_rekeyed]

theorem watched_rekeyed (ts : U64) :
    Deferred.Projects (Deferred.watched (quietTurn P) (sealTurn P ts))
      (Deferred.watched (quietTurn P) (sealTurn P ts))
      (fun s : (KanariNode × List Turn) × Bool => ((s.1.1.rekeyed, s.1.2), s.2)) id := by
  intro s raw
  have hturn := sealTurn_rekeyed (P := P) ts s.1 raw
  have hquiet : quietTurn P (s.1.1.rekeyed, s.1.2) raw = quietTurn P s.1 raw := by
    simp only [quietTurn, quietRun_rekeyed]
  simp only [id_eq] at hturn
  simp only [Deferred.watched, id_eq, ← hturn, hquiet]

theorem executeAmid_rekeyed (v : ValidatorNode) (delivery : Delivery ρ) :
    v.rekeyed.executeAmid P delivery = (v.executeAmid P delivery).rekeyed := by
  have hsweep := (sealTurn_rekeyed (P := P) (v.clampedTs delivery.commit)).sweep
    (v.node, delivery.turns) (enqueue v.pending (orderedPayloads [delivery.commit]))
  simp only [List.map_id] at hsweep
  simp only [executeAmid, clampedTs_rekeyed, rekeyed_node, rekeyed_pending, hsweep]
  rfl

theorem undisturbed_rekeyed (v : ValidatorNode) (delivery : Delivery ρ) :
    v.rekeyed.Undisturbed P delivery ↔ v.Undisturbed P delivery := by
  have hsweep := (watched_rekeyed (P := P) (v.clampedTs delivery.commit)).sweep
    ((v.node, delivery.turns), true) (enqueue v.pending (orderedPayloads [delivery.commit]))
  simp only [List.map_id] at hsweep
  simp only [Undisturbed, clampedTs_rekeyed, rekeyed_node, rekeyed_pending, hsweep]

end ValidatorNode

def Member.rekeyed (member : Member) : Member :=
  { member with validator := member.validator.rekeyed }

section Mesh

variable {ι ρ : Type} [DecidableEq ι] [DecidableEq ρ] {P : Platform}
  {order : ℕ → CommittedSubDag ρ}

theorem meshStep_rekeyed (mesh : ι → Member) (e : MeshEvent ι) :
    meshStep P order (fun i => (mesh i).rekeyed) e =
      fun i => (meshStep P order mesh e i).rekeyed := by
  funext j
  cases e with
  | deliver i turns =>
    by_cases hj : j = i
    · subst hj
      simp only [meshStep, Function.update_self]
      exact congrArg (Member.mk · _) (ValidatorNode.executeAmid_rekeyed _ _)
    · simp only [meshStep, Function.update_of_ne hj]
  | serve i request =>
    by_cases hj : j = i
    · subst hj
      simp only [meshStep, Function.update_self, Member.rekeyed, ValidatorNode.rekeyed,
        KanariNode.perform_rekeyed]
    · simp only [meshStep, Function.update_of_ne hj]

/-- The committee runs the same whatever faucet keys its members hold. -/
theorem meshRun_rekeyed (mesh : ι → Member) (events : List (MeshEvent ι)) (i : ι) :
    meshRun P order (fun j => (mesh j).rekeyed) events i =
      (meshRun P order mesh events i).rekeyed := by
  induction events generalizing mesh with
  | nil => rfl
  | cons e rest ih =>
    rw [meshRun, List.foldl_cons, meshStep_rekeyed]
    exact ih (meshStep P order mesh e)

theorem quietMesh_rekeyed (mesh : ι → Member) (events : List (MeshEvent ι)) :
    QuietMesh P order (fun j => (mesh j).rekeyed) events ↔ QuietMesh P order mesh events := by
  induction events generalizing mesh with
  | nil => exact Iff.rfl
  | cons e rest ih =>
    have hrest := ih (meshStep P order mesh e)
    rw [← meshStep_rekeyed] at hrest
    cases e with
    | deliver i turns => exact and_congr (ValidatorNode.undisturbed_rekeyed _ _) hrest
    | serve i request => exact and_congr (quietRun_rekeyed _ [request]) hrest

end Mesh

section Start

variable {P : Platform} {W : Wallet} {D : DagCrypto}

theorem ChainStore.setFaucetKey_setFaucetKey (s : ChainStore) (secret secret' : B256) :
    (s.setFaucetKey secret).setFaucetKey secret' = s.setFaucetKey secret' := by
  simp only [ChainStore.setFaucetKey, ChainStore.write, List.foldl_cons, List.foldl_nil,
    Finmap.insert_insert]

variable (hR : P.toRevm.CacheLaws)

include hR

theorem shareFaucet_replica {io : ValidatorIo D} {node node' : KanariNode}
    {faucetKey : Option B256} (h : shareFaucet P W D io node faucetKey = (node', .ok ())) :
    node'.rekeyed.Replica node.rekeyed := by
  cases faucetKey with
  | none =>
    obtain rfl : node = node' := (Prod.mk.inj h).1
    exact .refl _
  | some secret =>
    simp only [shareFaucet, KanariNode.setFaucetKey] at h
    cases hfault : io.setFaucetKey with
    | some msg => simp [hfault] at h
    | none =>
      cases haddress : W.address secret with
      | error e => simp [hfault, haddress] at h
      | ok addr =>
        simp only [hfault, haddress, Prod.mk.injEq, and_true] at h
        subst h
        have hquiet : ∀ r ∈ [DbRead.basic addr], r.Quiet node.db := by
          intro r hr
          rw [List.mem_singleton.mp hr]
          trivial
        -- the look-up for the banner caches the account, which no read can tell
        refine ⟨⟨rfl, Revm.readAll_sameCache_of_quiet hR hquiet, rfl, rfl⟩, ?_, rfl⟩
        exact node.store.setFaucetKey_setFaucetKey secret 0

/-- However it was configured, a validator that starts in a fresh directory stands at the genesis of
the devnet. -/
theorem validatorCommand_replica {io : ValidatorIo D} {cli : ValidatorCli}
    {file : ValidatorFileConfig} {running : Running}
    (h : (validatorCommand P W D io cli file .fresh).2 = .ok running) :
    ∃ node, running.validator = .spawn node ∧
      node.rekeyed.Replica (KanariNode.created P .devnet).rekeyed := by
  have hfresh := KanariNode.open_fresh (P := P) .devnet
  -- each check that fails ends the command; past them all stands the opened node
  simp only [validatorCommand] at h
  split at h
  · cases h
  split at h
  · cases h
  split at h
  · cases h
  simp only [runValidator] at h
  split at h
  · cases h
  split at h
  · cases h
  split at h
  · cases h
  split at h
  · cases h
  rename_i opened node hopen
  obtain rfl : node = KanariNode.created P .devnet := by
    rw [hopen] at hfresh
    exact Except.ok.inj hfresh
  split at h
  · cases h
  rename_i shared hshared
  split at h
  · cases h
  cases h
  exact ⟨shared, rfl, shareFaucet_replica hR hshared⟩

end Start

section Committee

variable {ι ρ : Type} [DecidableEq ι] [DecidableEq ρ] {P : Platform} {W : Wallet} {D : DagCrypto}
  {order : ℕ → CommittedSubDag ρ} (hR : P.toRevm.CacheLaws) (hdet : P.toRevm.Deterministic)

include hR hdet

/-- The members of a committee may be started with any flags, any files and any faucet keys or none:
handed the same commits, they hold the same chain, up to the keys in their stores. -/
theorem started_validators_converge {cli : ι → ValidatorCli} {file : ι → ValidatorFileConfig}
    {io : ι → ValidatorIo D} {running : ι → Running}
    (hstart : ∀ i, (validatorCommand P W D (io i) (cli i) (file i) .fresh).2 = .ok (running i))
    {events : List (MeshEvent ι)}
    (hquiet : QuietMesh P order (fun i => ⟨(running i).validator, 0⟩) events) (i j : ι)
    {a b : Member} (ha : meshRun P order (fun i => ⟨(running i).validator, 0⟩) events i = a)
    (hb : meshRun P order (fun i => ⟨(running i).validator, 0⟩) events j = b) :
    (a.delivered ≤ b.delivered → a.validator.node.blocks <+: b.validator.node.blocks) ∧
      (a.delivered = b.delivered →
        a.validator.node.rekeyed.SameHistory P b.validator.node.rekeyed ∧
        a.validator.lastTs = b.validator.lastTs ∧
        a.validator.pending = b.validator.pending) := by
  choose node hspawn hnode using fun i => validatorCommand_replica hR (hstart i)
  -- the members differ in their keys only, so they are compared with the keys taken out
  have hmesh : (fun i => (⟨(running i).validator, 0⟩ : Member).rekeyed) =
      meshStart fun i => (node i).rekeyed := by
    funext k
    rw [hspawn]
    rfl
  have hreplicas : ∀ k l, (node k).rekeyed.Replica (node l).rekeyed := fun k l =>
    (hnode k).trans (hnode l).symm
  have hquiet' : QuietMesh P order (meshStart fun i => (node i).rekeyed) events := by
    rw [← hmesh]
    exact (quietMesh_rekeyed _ events).mpr hquiet
  have hi := meshStart_follows hR hdet hreplicas hquiet' i i
  have hj := meshStart_follows hR hdet hreplicas hquiet' i j
  rw [← hmesh, meshRun_rekeyed] at hi hj
  rw [ha] at hi
  rw [hb] at hj
  exact converges_of_follows hR hi hj

end Committee

def pairCli : Bool → ValidatorCli
  | true => ⟨some "dag-committee.json", some "validator-4.key", none, none, none,
      some (hexPrefixed DevWallet.key.asSlice), some .warn⟩
  | false => ⟨none, none, none, none, none, none, none⟩

def pairFile : Bool → ValidatorFileConfig
  | true => ⟨none, none, none, none, none, none, none⟩
  | false => ⟨some "dag-committee.json", some "validator-3.key", some "./data/node2",
      some "0.0.0.0", some 9000, some "debug", none⟩

def pairIo (member : Bool) : ValidatorIo DagCrypto.sample where
  committeeFile := .ok (DagCrypto.sample.committee fun _ => hexEncode)
  keyFile := .ok (DagCrypto.sample.signer (if member then Fin.last 3 else (Fin.last 2).castSucc))
  initLogging := fun _ => none
  createDirAll := none
  setFaucetKey := none
  join := none

def pairStart (member : Bool) : DataDir × Except Fatal Running :=
  validatorCommand Reference.platform DevWallet.wallet DagCrypto.sample (pairIo member)
    (pairCli member) (pairFile member) .fresh

def pairRunning (member : Bool) : Running :=
  (pairStart member).2.toOption.getD ⟨.spawn (.created Reference.platform .devnet), "", "", "", 0⟩

theorem started_validators_converge_pair :
    (pairRunning true).rpcPort ≠ (pairRunning false).rpcPort ∧
    (meshRun Reference.platform transferFirst (fun i => ⟨(pairRunning i).validator, 0⟩) pairEvents
        true).validator.node.rekeyed.SameHistory Reference.platform
      (meshRun Reference.platform transferFirst (fun i => ⟨(pairRunning i).validator, 0⟩)
        pairEvents false).validator.node.rekeyed := by
  have hserves : ∀ i, (pairStart i).2.toOption.isSome = true := by decide +kernel
  have hstart : ∀ i, (pairStart i).2 = .ok (pairRunning i) := by
    intro i
    obtain ⟨running, hrunning⟩ := Option.isSome_iff_exists.mp (hserves i)
    rw [pairRunning, hrunning]
    exact eq_ok_of_toOption hrunning
  have hquiet : QuietMesh Reference.platform transferFirst
      (fun i => ⟨(pairRunning i).validator, 0⟩) pairEvents :=
    ⟨by decide +kernel, by decide +kernel, by decide +kernel, trivial⟩
  exact ⟨by decide +kernel, ((started_validators_converge Reference.cacheLaws
    Reference.deterministic hstart hquiet true false rfl rfl).2 rfl).1⟩

end KanariEvm
