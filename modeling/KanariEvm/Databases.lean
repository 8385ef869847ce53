import KanariEvm.Lib.Cells
import KanariEvm.Lib.UnixPath
import KanariEvm.Open
import KanariEvm.Reads
import KanariEvm.Reference

namespace KanariEvm

open UnixPath

/-- `file_name().and_then(to_str).unwrap_or("kanari-evm-state")`. -/
def stateName (stateBase : Path) : List Char :=
  (stateBase.fileName.bind fun name => toStr name.bytes).getD "kanari-evm-state".toList

def stateStem (stateBase : Path) : List Char := (stateName stateBase).takeWhile (· ≠ '.')

theorem noSlash_stateName (stateBase : Path) : 0x2f ∉ encode (stateName stateBase) := by
  cases htext : stateBase.fileName.bind fun name => toStr name.bytes with
  | none =>
    rw [stateName, htext, Option.getD_none]
    decide
  | some text =>
    obtain ⟨name, -, hstr⟩ := Option.bind_eq_some_iff.mp htext
    rw [stateName, htext, Option.getD_some, encode_of_toStr hstr]
    exact name.noSlash

theorem noSlash_stateStem (stateBase : Path) : 0x2f ∉ encode (stateStem stateBase) := by
  intro hmem
  apply noSlash_stateName stateBase
  rw [← List.takeWhile_append_dropWhile (p := (· ≠ '.')) (l := stateName stateBase), encode_append]
  exact List.mem_append_left _ hmem

theorem length_dbName (stem : List Char) :
    (encode (stem ++ ".chain.db".toList)).length = (encode stem).length + 9 := by
  rw [encode_append, List.length_append]
  rfl

theorem dbName_ne {stem : List Char} {bytes : List UInt8} (h : bytes.length < 9) :
    encode (stem ++ ".chain.db".toList) ≠ bytes := by
  rintro rfl
  rw [length_dbName] at h
  omega

def chainDbName (stateBase : Path) : FileName where
  bytes := encode (stateStem stateBase ++ ".chain.db".toList)
  ne_nil := dbName_ne (by decide)
  ne_dot := dbName_ne (by decide)
  ne_dots := dbName_ne (by decide)
  noSlash := by
    rw [encode_append, List.mem_append, not_or]
    exact ⟨noSlash_stateStem stateBase, by decide⟩

/-- Directory holding the chain RocksDB, derived from the `--state-file` base path. -/
def chainDbDir (stateBase : Path) : Path :=
  (stateBase.parent.getD ⟨.here, []⟩).join (chainDbName stateBase)

/-- The name is cut to the stem: before the first dot, and to the default if it is no text. -/
def CutTo (name : FileName) (stem : List Char) : Prop :=
  (∃ text, toStr name.bytes = some text ∧ '.' ∉ stem ∧
    (text = stem ∨ ∃ rest, text = stem ++ '.' :: rest)) ∨
  (toStr name.bytes = none ∧ stem = "kanari-evm-state".toList)

theorem takeWhile_eq_iff {text stem : List Char} : text.takeWhile (· ≠ '.') = stem ↔
    '.' ∉ stem ∧ (text = stem ∨ ∃ rest, text = stem ++ '.' :: rest) := by
  constructor
  · rintro rfl
    refine ⟨fun hmem => by simpa using List.mem_takeWhile_imp hmem, ?_⟩
    have hsplit := List.takeWhile_append_dropWhile (p := (· ≠ '.')) (l := text)
    have hhead := List.head?_dropWhile_not (· ≠ '.') text
    cases hrest : text.dropWhile (· ≠ '.') with
    | nil =>
      rw [hrest, List.append_nil] at hsplit
      exact .inl hsplit.symm
    | cons c rest =>
      rw [hrest, List.head?_cons] at hhead
      have hc : c = '.' := by simpa using hhead
      rw [hrest, hc] at hsplit
      exact .inr ⟨rest, hsplit.symm⟩
  · rintro ⟨hdot, hstem⟩
    have hplain : ∀ c ∈ stem, decide (c ≠ '.') = true := by
      intro c hc
      apply decide_eq_true
      rintro rfl
      exact hdot hc
    rcases hstem with rfl | ⟨rest, rfl⟩
    · exact List.takeWhile_eq_self_iff.mpr hplain
    · rw [List.takeWhile_append_of_pos hplain, List.takeWhile_cons_of_neg (by decide),
        List.append_nil]

theorem cutTo_text_iff {name : FileName} {text stem : List Char}
    (h : toStr name.bytes = some text) : CutTo name stem ↔ text.takeWhile (· ≠ '.') = stem := by
  rw [takeWhile_eq_iff]
  simp only [CutTo, h, Option.some.injEq, reduceCtorEq, false_and, or_false, exists_eq_left']

theorem cutTo_encode_iff {name : FileName} {text stem : List Char}
    (h : name.bytes = encode text) : CutTo name stem ↔ text.takeWhile (· ≠ '.') = stem := by
  apply cutTo_text_iff
  rw [h, toStr_encode]

theorem cutTo_iff {stateBase : Path} {name : FileName} (h : stateBase.fileName = some name)
    {stem : List Char} : CutTo name stem ↔ stateStem stateBase = stem := by
  have hname : stateName stateBase = (toStr name.bytes).getD "kanari-evm-state".toList := by
    rw [stateName, h, Option.bind_some]
  cases htext : toStr name.bytes with
  | none =>
    have hstem : stateStem stateBase = "kanari-evm-state".toList := by
      rw [stateStem, hname, htext, Option.getD_none]
      decide
    simp only [CutTo, htext, reduceCtorEq, false_and, exists_false, true_and, false_or, hstem]
    exact eq_comm
  | some text =>
    rw [cutTo_text_iff htext, stateStem, hname, htext, Option.getD_some]

theorem chainDbName_eq_iff {p q : Path} :
    chainDbName p = chainDbName q ↔ stateStem p = stateStem q := by
  rw [FileName.ext_iff]
  constructor
  · intro h
    exact List.append_cancel_right (encode_injective h)
  · intro h
    simp only [chainDbName, h]

section Databases

variable {D : Type} (locate : Path → D)

def chainDb (stateBase : Path) : Option (D × FileName) := (chainDbDir stateBase).entry locate

theorem chainDb_of_entry {stateBase : Path} {dir : D} {name : FileName}
    (h : stateBase.entry locate = some (dir, name)) :
    chainDb locate stateBase = some (dir, chainDbName stateBase) := by
  obtain ⟨d, hparent, rfl, -⟩ := Path.entry_eq_some_iff.mp h
  rw [chainDb, chainDbDir, Path.entry_join, hparent, Option.getD_some]

/-- In one directory the database is the same exactly if the names are cut to one stem. -/
theorem chainDb_eq_iff {p q : Path} {dir : D} {n m : FileName}
    (hp : p.entry locate = some (dir, n)) (hq : q.entry locate = some (dir, m)) :
    chainDb locate p = chainDb locate q ↔ ∃ stem, CutTo n stem ∧ CutTo m stem := by
  obtain ⟨-, -, -, hn⟩ := Path.entry_eq_some_iff.mp hp
  obtain ⟨-, -, -, hm⟩ := Path.entry_eq_some_iff.mp hq
  rw [chainDb_of_entry locate hp, chainDb_of_entry locate hq, Option.some.injEq, Prod.mk.injEq,
    chainDbName_eq_iff]
  simp only [cutTo_iff hn, cutTo_iff hm, true_and]
  constructor
  · intro h
    exact ⟨stateStem q, h, rfl⟩
  · rintro ⟨stem, hstem, hstem'⟩
    exact hstem.trans hstem'.symm

end Databases

structure Database where
  chain : ChainStore
  smt : SparseMerkleTree

def Database.fresh : Database := ⟨.empty, ⟨∅⟩⟩

/-- What an `open` finds of the format before RocksDB, beside the database. -/
structure LegacyFiles where
  stateFile : Option (Option Journal)
  migratedFile : Option (Option Journal)
  faucetSidecar : Option (List Char)

/-- The data directory that an `open` works on. -/
def LegacyFiles.dataDir (legacy : LegacyFiles) (db : Database) : DataDir :=
  ⟨db.chain, db.smt, legacy.stateFile, legacy.migratedFile, legacy.faucetSidecar⟩

/-- What can happen on a host, each to the node of one state base: it is opened, one of its methods
is called, or its process ends. -/
inductive HostEvent
  | «open» (stateBase : Path) (spec : KanariChainSpec) (legacy : LegacyFiles)
  | call (stateBase : Path) (method : KanariNode → KanariNode)
  | stop (stateBase : Path)

namespace HostEvent

def stateBase : HostEvent → Path
  | .open stateBase _ _ => stateBase
  | .call stateBase _ => stateBase
  | .stop stateBase => stateBase

/-- The event on the database of the state base and the node there. A method finds in its store and
its tree what the database holds by then, and reaches the disk through these only. -/
def act (P : Platform) : HostEvent → Database × Option KanariNode → Database × Option KanariNode
  | .open _ spec legacy, (db, _) =>
    let (dir, opened) := KanariNode.open P spec (legacy.dataDir db)
    (⟨dir.chain, dir.smt⟩, opened.toOption)
  | .call _ method, (db, some node) =>
    let node := method { node with store := db.chain, smt := db.smt }
    (⟨node.store, node.smt⟩, some node)
  | .call _ _, (db, none) => (db, none)
  | .stop _, (db, _) => (db, none)

end HostEvent

abbrev Host (D : Type) := Cells.State (Option (D × FileName)) Path Database (Option KanariNode)

namespace Host

def fresh {D : Type} : Host D := ⟨fun _ => .fresh, fun _ => none⟩

variable {D : Type} [DecidableEq D] (P : Platform) (locate : Path → D)

def run (host : Host D) (events : List HostEvent) : Host D :=
  Cells.run (chainDb locate) HostEvent.stateBase (HostEvent.act P) host events

def view (host : Host D) (stateBase : Path) : Database × Option KanariNode :=
  (host.cell (chainDb locate stateBase), host.actor stateBase)

def withDatabase (host : Host D) (stateBase : Path) (db : Database) : Host D :=
  { host with cell := Function.update host.cell (chainDb locate stateBase) db }

/-- Neither what the chain database of `p` holds nor anything that is done at `p` makes a
difference to `q`: whatever else happens on the host, and in whatever order, chain database and
node of `q` end up the same. -/
def Undisturbed (p q : Path) : Prop :=
  ∀ (host : Host D) (db : Database) (events : List HostEvent),
    (host.run P locate events).view locate q =
      ((host.withDatabase locate p db).run P locate
        (events.filter fun e => e.stateBase ≠ p)).view locate q

/-- The two state bases have chain databases of their own, and neither node ever replays, rewrites
or extends the chain of the other. -/
structure KeepsApart (p q : Path) : Prop where
  distinct : chainDb locate p ≠ chainDb locate q
  left : Undisturbed P locate p q
  right : Undisturbed P locate q p

variable {P locate}

theorem undisturbed_of_ne {p q : Path} (h : chainDb locate p ≠ chainDb locate q) :
    Undisturbed P locate p q := by
  intro host db events
  have hsame : Cells.SameAt (chainDb locate) (chainDb locate q) host
      (host.withDatabase locate p db) :=
    ⟨(Function.update_of_ne h.symm _ _).symm, fun _ _ => rfl⟩
  have hdrop : ∀ e ∈ events, decide (e.stateBase ≠ p) = false →
      chainDb locate e.stateBase ≠ chainDb locate q := by
    intro e _ he
    rwa [not_not.mp (of_decide_eq_false he)]
  have hrun : Cells.SameAt (chainDb locate) (chainDb locate q) (host.run P locate events)
      ((host.withDatabase locate p db).run P locate (events.filter fun e => e.stateBase ≠ p)) :=
    Cells.run_filter _ hsame hdrop
  exact Prod.ext hrun.cell (hrun.actor q rfl)

theorem keepsApart_of_ne {p q : Path} (h : chainDb locate p ≠ chainDb locate q) :
    KeepsApart P locate p q :=
  ⟨h, undisturbed_of_ne h, undisturbed_of_ne h.symm⟩

/-- Two state bases in one directory keep apart exactly if their names are cut to no common stem,
whether or not they differ without their last extensions. -/
theorem keepsApart_iff {p q : Path} {dir : D} {n m : FileName}
    (hp : p.entry locate = some (dir, n)) (hq : q.entry locate = some (dir, m)) :
    KeepsApart P locate p q ↔ ¬∃ stem, CutTo n stem ∧ CutTo m stem := by
  rw [← chainDb_eq_iff locate hp hq]
  constructor
  · exact KeepsApart.distinct
  · exact keepsApart_of_ne

def named (name : FileName) : Path := Path.join ⟨.bare, []⟩ name

theorem parent_named (name : FileName) : (named name).parent = some ⟨.bare, []⟩ :=
  Path.parent_join _ _

theorem fileName_named (name : FileName) : (named name).fileName = some name :=
  Path.fileName_join _ _

theorem entry_named (name : FileName) : (named name).entry id = some (⟨.bare, []⟩, name) :=
  Path.entry_join id _ _

def stateJson : FileName := ⟨encode "state.json".toList, by decide, by decide, by decide, by decide⟩

def forkJson : FileName := ⟨encode "fork.json".toList, by decide, by decide, by decide, by decide⟩

theorem keepsApart_state_fork :
    fileStem stateJson ≠ fileStem forkJson ∧
      KeepsApart Reference.platform id (named stateJson) (named forkJson) := by
  refine ⟨by decide +kernel, (keepsApart_iff (entry_named _) (entry_named _)).mpr ?_⟩
  rintro ⟨stem, hstate, hfork⟩
  have hbytes : stateJson.bytes = encode "state.json".toList := rfl
  have hbytes' : forkJson.bytes = encode "fork.json".toList := rfl
  rw [cutTo_encode_iff hbytes] at hstate
  rw [cutTo_encode_iff hbytes'] at hfork
  exact absurd (hstate.trans hfork.symm) (by decide)

theorem open_shared {p q : Path} (hshare : chainDb locate p = chainDb locate q) (host : Host D)
    {events : List HostEvent} (hevents : ∀ e ∈ events, e.stateBase = p) (spec : KanariChainSpec)
    (legacy : LegacyFiles) :
    (host.run P locate (events ++ [.open q spec legacy])).actor q =
      (KanariNode.open P spec (legacy.dataDir
        (events.foldl (fun v e => e.act P v) (host.view locate p)).1)).2.toOption := by
  have halone : (host.run P locate events).view locate p =
      events.foldl (fun v e => e.act P v) (host.view locate p) := Cells.run_alone hevents
  have hcell : (host.run P locate events).cell (chainDb locate q) =
      (events.foldl (fun v e => e.act P v) (host.view locate p)).1 := by
    rw [← halone, ← hshare]
    rfl
  rw [run, Cells.run, List.foldl_append, ← hcell]
  exact Function.update_self _ _ _

def abJson : FileName := ⟨encode "a.b.json".toList, by decide, by decide, by decide, by decide⟩

def acJson : FileName := ⟨encode "a.c.json".toList, by decide, by decide, by decide, by decide⟩

def sealsTransfer : List HostEvent :=
  [.open (named abJson) Reference.spec ⟨none, none, none⟩,
    .call (named abJson) fun node =>
      node.perform Reference.platform (.attempt (.committed Reference.transfer0 5) .healthy)]

def opensNext : HostEvent := .open (named acJson) Reference.spec ⟨none, none, none⟩

theorem stateStem_named {name : FileName} {text : List Char} (h : name.bytes = encode text) :
    stateStem (named name) = text.takeWhile (· ≠ '.') := by
  apply (cutTo_iff (fileName_named name)).mp
  rw [cutTo_encode_iff h]

/-- `a.b.json` and `a.c.json` differ without the extension `json`, and share `a.chain.db`: the node
that is opened on the second replays the block that the node on the first has sealed. -/
theorem dotted_names_share_database :
    (named abJson).parent = (named acJson).parent ∧ fileStem abJson ≠ fileStem acJson ∧
    chainDbDir (named abJson) = chainDbDir (named acJson) ∧
    ¬KeepsApart Reference.platform id (named abJson) (named acJson) ∧
    ((fresh.run Reference.platform id (sealsTransfer ++ [opensNext])).actor (named acJson)).map
      (fun node => node.blocks.map (·.txs)) = some [[Reference.transfer0]] ∧
    ((fresh.run Reference.platform id [opensNext]).actor (named acJson)).map
      (fun node => node.blocks.map (·.txs)) = some [] := by
  have hdir : chainDbDir (named abJson) = chainDbDir (named acJson) := by
    have hname : chainDbName (named abJson) = chainDbName (named acJson) := by
      rw [chainDbName_eq_iff, stateStem_named rfl, stateStem_named rfl]
      decide
    rw [chainDbDir, chainDbDir, parent_named, parent_named, hname]
  have hshare : chainDb id (named abJson) = chainDb id (named acJson) := by
    rw [chainDb, chainDb, hdir]
  have hparent : (named abJson).parent = (named acJson).parent := by
    rw [parent_named, parent_named]
  refine ⟨hparent, by decide +kernel, hdir, fun h => h.distinct hshare, ?_, ?_⟩
  · have hevents : ∀ e ∈ sealsTransfer, e.stateBase = named abJson := by
      simp [sealsTransfer, HostEvent.stateBase]
    rw [opensNext, open_shared hshare fresh hevents]
    decide +kernel
  · have halone := open_shared (P := Reference.platform) (rfl : chainDb id (named acJson) = _) fresh
      (List.forall_mem_nil _) Reference.spec ⟨none, none, none⟩
    rw [List.nil_append] at halone
    rw [opensNext, halone]
    decide +kernel

end Host

end KanariEvm
