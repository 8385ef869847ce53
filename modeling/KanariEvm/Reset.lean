import KanariEvm.Databases
import KanariEvm.DevWallet
import KanariEvm.KeySurvival

namespace KanariEvm

open UnixPath

inductive Entry
  | file (content : List UInt8)
  | database (db : Database)

abbrev Listing := Map FileName Entry

/-- The entries that hold chain state. A name that is no text counts as empty. -/
def stateEntry (name : FileName) : Bool :=
  let name := (toStr name.bytes).getD []
  name == "state.json".toList || ".chain.db".toList.isSuffixOf name ||
    ".faucet.key".toList.isSuffixOf name || ".smt".toList.isSuffixOf name

/-- What the machine decides of a reset: the line typed at the prompt, if it can be read; the
entries that `read_dir` lists, with those it could not read; and the error of removing an entry,
with what is left of it. -/
structure ResetIo where
  answer : Option (List Char)
  readDir : Except String (List (Option FileName))
  remove : FileName → Option (String × Option Entry)

inductive ResetEnd
  | nothing
  | aborted
  | complete (removed : U32)
  | unreadable (e : String)
  | stuck (name : FileName) (e : String)
  | overflow

def ResetEnd.message (dataDir : String) (path : FileName → String) : ResetEnd → String
  | .nothing => "nothing to reset: " ++ dataDir ++ " does not exist"
  | .aborted => "aborted"
  | .complete removed =>
    "reset complete: removed " ++ toString removed.toNat ++ " state entr(y/ies) from " ++ dataDir
  | .unreadable e => "cannot read " ++ dataDir ++ ": " ++ e
  | .stuck name e => "cannot remove " ++ path name ++ ": " ++ e
  | .overflow => "attempt to add with overflow"

/-- The loop of a reset over the entries. It stops at the first that it cannot remove. -/
def removeEntries (io : ResetIo) : Listing → U32 → List FileName → Listing × ResetEnd
  | dir, removed, [] => (dir, .complete removed)
  | dir, removed, name :: rest =>
    if stateEntry name then
      match io.remove name with
      | none =>
        if removed = BitVec.allOnes 32 then (dir.erase name, .overflow)
        else removeEntries io (dir.erase name) (removed + 1) rest
      | some (e, none) => (dir.erase name, .stuck name e)
      | some (e, some left) => (dir.insert name left, .stuck name e)
    else removeEntries io dir removed rest

def cmdReset (io : ResetIo) (force : Bool) : Option Listing → Option Listing × ResetEnd
  | none => (none, .nothing)
  | some dir =>
    if force = false ∧ io.answer.map trim ≠ some "YES".toList then (some dir, .aborted)
    else
      match io.readDir with
      | .error e => (some dir, .unreadable e)
      | .ok entries =>
        -- `flatten` passes over the entries that could not be read
        let (dir, done) := removeEntries io dir 0 (entries.filterMap id)
        (some dir, done)

section Remove

variable {io : ResetIo}

theorem removeEntries_spares {name : FileName} (hname : stateEntry name = false) (dir : Listing)
    (removed : U32) (names : List FileName) :
    (removeEntries io dir removed names).1.lookup name = dir.lookup name := by
  induction names generalizing dir removed with
  | nil => rfl
  | cons first rest ih =>
    rw [removeEntries]
    by_cases hstate : stateEntry first = true
    · have hne : name ≠ first := by
        intro heq
        rw [heq, hstate] at hname
        cases hname
      rw [if_pos hstate]
      cases io.remove first with
      | none =>
        have herased : (dir.erase first).lookup name = dir.lookup name :=
          Finmap.lookup_erase_ne hne
        by_cases hfull : removed = BitVec.allOnes 32
        · simp only [if_pos hfull]
          exact herased
        · simp only [if_neg hfull]
          rw [ih, herased]
      | some fault =>
        obtain ⟨e, left⟩ := fault
        cases left with
        | none => exact Finmap.lookup_erase_ne hne
        | some left => exact Finmap.lookup_insert_of_ne dir hne
    · rw [if_neg hstate]
      exact ih dir removed

theorem removeEntries_gone {name : FileName} {dir : Listing} (hgone : dir.lookup name = none)
    {removed n : U32} {names : List FileName} {left : Listing}
    (h : removeEntries io dir removed names = (left, .complete n)) : left.lookup name = none := by
  induction names generalizing dir removed with
  | nil =>
    simp only [removeEntries, Prod.mk.injEq] at h
    rw [← h.1]
    exact hgone
  | cons first rest ih =>
    rw [removeEntries] at h
    by_cases hstate : stateEntry first = true
    · rw [if_pos hstate] at h
      split at h
      · split_ifs at h with hfull
        · simp at h
        · apply ih _ h
          by_cases heq : name = first
          · rw [heq]
            exact Finmap.lookup_erase first dir
          · rw [Finmap.lookup_erase_ne heq]
            exact hgone
      · simp at h
      · simp at h
    · rw [if_neg hstate] at h
      exact ih hgone h

theorem removeEntries_complete {dir left : Listing} {removed n : U32} {names : List FileName}
    (h : removeEntries io dir removed names = (left, .complete n)) :
    (∀ name ∈ names, stateEntry name = true → left.lookup name = none) ∧
      n.toNat = removed.toNat + names.countP stateEntry := by
  induction names generalizing dir removed with
  | nil =>
    simp only [removeEntries, Prod.mk.injEq, ResetEnd.complete.injEq] at h
    refine ⟨fun name hname => absurd hname List.not_mem_nil, ?_⟩
    rw [List.countP_nil, ← h.2, Nat.add_zero]
  | cons first rest ih =>
    rw [removeEntries] at h
    by_cases hstate : stateEntry first = true
    · rw [if_pos hstate] at h
      split at h
      · split_ifs at h with hfull
        · simp at h
        obtain ⟨hrest, hcount⟩ := ih h
        have hnext : (removed + 1).toNat = removed.toNat + 1 := by
          rw [← BitVec.toNat_inj, BitVec.toNat_allOnes] at hfull
          bv_omega
        constructor
        · intro name hname hof
          rcases List.mem_cons.mp hname with rfl | hmem
          -- what is removed stays so, though a listing may name an entry twice
          · exact removeEntries_gone (Finmap.lookup_erase name dir) h
          · exact hrest name hmem hof
        · rw [List.countP_cons_of_pos hstate, hcount, hnext]
          omega
      · simp at h
      · simp at h
    · rw [if_neg hstate] at h
      obtain ⟨hrest, hcount⟩ := ih h
      constructor
      · intro name hname hof
        rcases List.mem_cons.mp hname with rfl | hmem
        · exact absurd hof hstate
        · exact hrest name hmem hof
      · rw [List.countP_cons_of_neg hstate]
        exact hcount

end Remove

def migratedName (name : FileName) : FileName :=
  .ending (fileStem name) ".migrated.json".toList
    (fun hmem => name.noSlash (fileStem_subset name hmem)) (by decide) (by decide)

/-- The state file's name with `.faucet.key` behind it; for a name that is text, which is what
formatting its path keeps. -/
def sidecarName (name : FileName) : FileName :=
  .ending name.bytes ".faucet.key".toList name.noSlash (by decide) (by decide)

namespace Listing

variable (dir : Listing)

def file (name : FileName) : Option (List UInt8) :=
  match dir.lookup name with
  | some (.file content) => some content
  | _ => none

/-- The database of a name. RocksDB creates the directory if there is none. -/
def database (name : FileName) : Database :=
  match dir.lookup name with
  | some (.database db) => db
  | _ => .fresh

def dataDir (parse : List UInt8 → Option Journal) (name : FileName) : DataDir where
  chain := (dir.database (chainDbName (Host.named name))).chain
  smt := (dir.database (chainDbName (Host.named name))).smt
  stateFile := (dir.file name).map parse
  migratedFile := (dir.file (migratedName name)).map parse
  faucetSidecar := (dir.file (sidecarName name)).map fun content => (toStr content).getD []

variable {dir} {parse : List UInt8 → Option Journal} {name : FileName}

theorem file_of_lookup (h : dir.lookup name = none) : dir.file name = none := by
  rw [file, h]

theorem database_of_lookup (h : dir.lookup name = none) : dir.database name = .fresh := by
  rw [database, h]

/-- Without its state, the directory is new to `open`, but for what a migration has put aside. -/
theorem dataDir_of_lookup (hdb : dir.lookup (chainDbName (Host.named name)) = none)
    (hfile : dir.lookup name = none) (hsidecar : dir.lookup (sidecarName name) = none) :
    dir.dataDir parse name =
      { DataDir.fresh with migratedFile := (dir.dataDir parse name).migratedFile } := by
  simp only [dataDir, database_of_lookup hdb, file_of_lookup hfile, file_of_lookup hsidecar,
    Option.map_none]
  rfl

end Listing

theorem stateEntry_of_text {name : FileName} {text : List Char} (h : name.bytes = encode text)
    (hstate : text = "state.json".toList ∨ ".chain.db".toList <:+ text ∨
      ".faucet.key".toList <:+ text ∨ ".smt".toList <:+ text) : stateEntry name = true := by
  have htext : (toStr name.bytes).getD [] = text := by rw [h, toStr_encode, Option.getD_some]
  simp only [stateEntry, htext, Bool.or_eq_true, beq_iff_eq, List.isSuffixOf_iff_suffix]
  rcases hstate with h | h | h | h
  · exact .inl (.inl (.inl h))
  · exact .inl (.inl (.inr h))
  · exact .inl (.inr h)
  · exact .inr h

theorem stateEntry_stateJson : stateEntry Host.stateJson = true :=
  stateEntry_of_text rfl (.inl rfl)

theorem stateEntry_chainDbName (stateBase : Path) : stateEntry (chainDbName stateBase) = true :=
  stateEntry_of_text rfl (.inr (.inl (List.suffix_append _ _)))

theorem stateEntry_sidecarName {name : FileName} {text : List Char}
    (h : toStr name.bytes = some text) : stateEntry (sidecarName name) = true := by
  have hbytes : (sidecarName name).bytes = encode (text ++ ".faucet.key".toList) := by
    rw [encode_append, encode_of_toStr h]
    rfl
  exact stateEntry_of_text hbytes (.inr (.inr (.inl (List.suffix_append _ _))))

def DataDir.aside (dir : DataDir) (file : Option (Option Journal)) : DataDir :=
  { dir with migratedFile := file }

/-- Without a state file, the step does not look at what was put aside, and creates no state
file. -/
def Overlooks {α : Type} (f : DataDir → DataDir × α) : Prop :=
  ∀ dir file, dir.stateFile = none →
    f (dir.aside file) = ((f dir).1.aside file, (f dir).2) ∧ (f dir).1.stateFile = none

section Overlook

variable (P : Platform) (W : Wallet)

theorem finishOpen_overlooks (replayed : KanariNode × Except NodeError Unit) :
    Overlooks fun dir => KanariNode.finishOpen dir replayed := by
  intro dir file hfile
  obtain ⟨node, e | u⟩ := replayed
  · exact ⟨rfl, hfile⟩
  · exact ⟨rfl, hfile⟩

theorem open_overlooks (spec : KanariChainSpec) : Overlooks (KanariNode.open P spec) := by
  intro dir file hfile
  have hfile' : (dir.aside file).stateFile = none := hfile
  have hchain : (dir.aside file).chain = dir.chain := rfl
  have hblank : ∀ spec, KanariNode.blank spec (dir.aside file) = KanariNode.blank spec dir :=
    fun _ => rfl
  simp only [KanariNode.open, hchain]
  cases dir.chain.storedChainId with
  | error e => exact ⟨rfl, hfile⟩
  | ok stored =>
    cases stored with
    | none =>
      -- without a state file nothing is migrated, and so neither of the other two is looked at
      simp only [KanariNode.openFresh, hfile, hfile', hblank]
      exact finishOpen_overlooks _ dir file hfile
    | some chainId =>
      simp only [KanariNode.openStored, hchain, hblank]
      split_ifs
      · exact ⟨rfl, hfile⟩
      · cases dir.chain.storedGenesisAlloc with
        | error e => exact ⟨rfl, hfile⟩
        | ok alloc =>
          dsimp only
          cases ((KanariNode.blank (KanariNode.reopenSpec spec alloc) dir).genesis
              P).store.loadBlocks with
          | error e => exact ⟨rfl, hfile⟩
          | ok blocks => exact finishOpen_overlooks _ dir file hfile

theorem run_overlooks (opts : StartOptions) (io : StartIo) : Overlooks (run P W opts io) := by
  intro dir file hfile
  have hfile' : (dir.aside file).stateFile = none := hfile
  obtain ⟨hopen, hnone⟩ := open_overlooks P (opts.spec true) dir file hfile
  simp only [run, hfile, hfile', Option.isNone_none, hopen]
  cases io.initLogging opts.logLevel.asStr with
  | some e => exact ⟨rfl, hfile⟩
  | none =>
    dsimp only
    split_ifs
    · exact ⟨rfl, hfile⟩
    · cases io.createDirAll with
      | some e => exact ⟨rfl, hfile⟩
      | none =>
        cases opts.faucetSecret W io true with
        | error e => exact ⟨rfl, hfile⟩
        | ok faucetSecret =>
          rcases hopened : KanariNode.open P (opts.spec true) dir with ⟨opened, e | node⟩
          · rw [hopened] at hnone
            exact ⟨rfl, hnone⟩
          · rw [hopened] at hnone
            exact ⟨rfl, hnone⟩

theorem killedOpen_overlooks (spec : KanariChainSpec) (step : MigrationStep) (replayed : ℕ)
    (tree : SparseMerkleTree) :
    Overlooks fun dir => (killedOpen P spec dir step replayed tree, ()) := by
  intro dir file hfile
  have hfile' : (dir.aside file).stateFile = none := hfile
  have hchain : (dir.aside file).chain = dir.chain := rfl
  have hblank : ∀ spec, KanariNode.blank spec (dir.aside file) = KanariNode.blank spec dir :=
    fun _ => rfl
  simp only [killedOpen, hchain, hfile, hfile']
  cases dir.chain.storedChainId with
  | error e => exact ⟨rfl, hfile⟩
  | ok stored =>
    cases stored with
    | none =>
      dsimp only
      split_ifs
      · exact ⟨rfl, rfl⟩
      · exact ⟨rfl, rfl⟩
    | some chainId =>
      dsimp only
      split_ifs
      · simp only [KanariNode.crashedOpen, hchain, hblank]
        cases dir.chain.storedGenesisAlloc with
        | error e => exact ⟨rfl, hfile⟩
        | ok alloc =>
          cases dir.chain.loadBlocks with
          | error e => exact ⟨rfl, hfile⟩
          | ok blocks => exact ⟨rfl, hfile⟩
      · exact ⟨rfl, hfile⟩

theorem started_overlooks (start : Start) : Overlooks fun dir => (started P W dir start, ()) := by
  intro dir file hfile
  have hfile' : (dir.aside file).stateFile = none := hfile
  cases start with
  | killed opts step replayed tree =>
    simp only [started, hfile, hfile', Option.isNone_none]
    split_ifs
    · exact killedOpen_overlooks P _ step replayed tree dir file hfile
    · exact ⟨rfl, hfile⟩
  | ran opts io requests tree =>
    obtain ⟨hrun, hnone⟩ := run_overlooks P W opts io dir file hfile
    simp only [started, hrun]
    rcases hran : run P W opts io dir with ⟨left, e | node⟩
    · rw [hran] at hnone
      exact ⟨rfl, hnone⟩
    · rw [hran] at hnone
      exact ⟨rfl, hnone⟩

theorem afterStarts_overlooks (starts : List Start) (i : ℕ) :
    Overlooks fun dir => (afterStarts P W dir starts i, ()) := by
  intro dir file hfile
  simp only [afterStarts]
  generalize starts.take i = done
  induction done generalizing dir with
  | nil => exact ⟨rfl, hfile⟩
  | cons start rest ih =>
    obtain ⟨hsame, hnone⟩ := started_overlooks P W start dir file hfile
    rw [List.foldl_cons, List.foldl_cons, (Prod.mk.inj hsame).1]
    exact ih (started P W dir start) hnone

theorem serves_aside {dir : DataDir} (hfile : dir.stateFile = none)
    (file : Option (Option Journal)) (start : Start) (node : KanariNode) :
    start.Serves P W (dir.aside file) node ↔ start.Serves P W dir node := by
  simp only [Start.Serves, (run_overlooks P W _ _ dir file hfile).1]

end Overlook

/-- Every later start on the directory goes as it would have gone on an empty one: it serves the
same nodes, and leaves the same behind but for what was put aside before. -/
structure StartsOver (P : Platform) (W : Wallet) (dir : DataDir) : Prop where
  left : ∀ starts i, afterStarts P W dir starts i =
    (afterStarts P W .fresh starts i).aside dir.migratedFile
  serves : ∀ starts i (start : Start) node, start.Serves P W (afterStarts P W dir starts i) node ↔
    start.Serves P W (afterStarts P W .fresh starts i) node

theorem startsOver_of_aside (P : Platform) (W : Wallet) {dir : DataDir}
    (h : dir = DataDir.fresh.aside dir.migratedFile) : StartsOver P W dir := by
  have hfresh : DataDir.fresh.stateFile = none := rfl
  have hleft : ∀ starts i, afterStarts P W dir starts i =
      (afterStarts P W .fresh starts i).aside dir.migratedFile := by
    intro starts i
    have hsame := (afterStarts_overlooks P W starts i .fresh dir.migratedFile hfresh).1
    rw [← h] at hsame
    exact (Prod.mk.inj hsame).1
  constructor
  · exact hleft
  · intro starts i start node
    rw [hleft]
    exact serves_aside P W (afterStarts_overlooks P W starts i .fresh none hfresh).2 _ start node

/-- A reset that completes removes the chain state of every state file in the directory, in
whatever order the entries are listed, and nothing else; and whatever has happened in the directory
before, starts on `state.json` begin anew. -/
theorem reset_starts_over (P : Platform) (W : Wallet) (parse : List UInt8 → Option Journal)
    {io : ResetIo} {force : Bool} {dir left : Listing} {removed : U32}
    {entries : List (Option FileName)} (hlisted : io.readDir = .ok entries)
    (hall : ∀ name, dir.lookup name ≠ none → some name ∈ entries)
    (hreset : cmdReset io force (some dir) = (some left, .complete removed)) :
    removed.toNat = (entries.filterMap id).countP stateEntry ∧
    (∀ name, left.lookup name = if stateEntry name then none else dir.lookup name) ∧
    ∀ name text, toStr name.bytes = some text →
      (stateEntry name = true ∨ dir.lookup name = none) →
      StartsOver P W (left.dataDir parse name) := by
  rw [cmdReset] at hreset
  split_ifs at hreset
  · simp at hreset
  · simp only [hlisted, Prod.mk.injEq, Option.some.injEq] at hreset
    have hdone : removeEntries io dir 0 (entries.filterMap id) = (left, .complete removed) :=
      Prod.ext hreset.1 hreset.2
    obtain ⟨hgone, hcount⟩ := removeEntries_complete hdone
    have hlookup : ∀ name, left.lookup name =
        if stateEntry name then none else dir.lookup name := by
      intro name
      by_cases hstate : stateEntry name = true
      · rw [if_pos hstate]
        -- an entry that was there is in the listing, by assumption
        by_cases hthere : dir.lookup name = none
        · exact removeEntries_gone hthere hdone
        · exact hgone name (List.mem_filterMap.mpr ⟨_, hall name hthere, rfl⟩) hstate
      · have hspared : (removeEntries io dir 0 (entries.filterMap id)).1.lookup name =
            dir.lookup name := removeEntries_spares (eq_false_of_ne_true hstate) dir 0 _
        rw [hdone] at hspared
        rw [if_neg hstate]
        exact hspared
    refine ⟨hcount.trans (Nat.zero_add _), hlookup, fun name text htext hname => ?_⟩
    have hfile : left.lookup name = none := by
      rw [hlookup]
      split_ifs with hstate
      · rfl
      · exact hname.resolve_left hstate
    -- a journal that was renamed once may have survived; no start reads it
    apply startsOver_of_aside
    apply Listing.dataDir_of_lookup
    · rw [hlookup, if_pos (stateEntry_chainDbName _)]
    · exact hfile
    · rw [hlookup, if_pos (stateEntry_sidecarName htext)]

def notesTxt : FileName := ⟨encode "notes.txt".toList, by decide, by decide, by decide, by decide⟩

def inUse : Listing :=
  (((∅ : Listing).insert (chainDbName (Host.named Host.stateJson)) (.database
    ⟨(KanariNode.created Reference.platform Reference.spec).store, ⟨∅⟩⟩)).insert Host.stateJson
      (.file [])).insert notesTxt (.file [0x6e, 0x6f])

def willingIo : ResetIo where
  answer := some "YES\n".toList
  readDir := .ok [some notesTxt, some (chainDbName (Host.named Host.stateJson)), none,
    some Host.stateJson]
  remove := fun _ => none

theorem reset_starts_over_in_use : ∃ left,
    cmdReset willingIo false (some inUse) = (some left, .complete 2) ∧
    left.lookup notesTxt = some (.file [0x6e, 0x6f]) ∧
    StartsOver Reference.platform DevWallet.wallet
      (left.dataDir (fun _ => none) Host.stateJson) := by
  have hnotes : stateEntry notesTxt = false := by
    have htext : toStr notesTxt.bytes = some "notes.txt".toList := toStr_encode _
    rw [stateEntry, htext]
    decide
  have hreset : cmdReset willingIo false (some inUse) = (some ((inUse.erase
      (chainDbName (Host.named Host.stateJson))).erase Host.stateJson), .complete 2) := by
    have hasked : ¬(false = false ∧ willingIo.answer.map trim ≠ some "YES".toList) := by decide
    rw [cmdReset, if_neg hasked]
    simp only [willingIo, List.filterMap_cons, id_eq, List.filterMap_nil, removeEntries, hnotes,
      stateEntry_chainDbName, stateEntry_stateJson, Bool.false_eq_true, if_false, if_true]
    rfl
  have hall : ∀ name, inUse.lookup name ≠ none →
      some name ∈ [some notesTxt, some (chainDbName (Host.named Host.stateJson)), none,
        some Host.stateJson] := by
    intro name hthere
    simp only [inUse, Map.lookup_insert_ite] at hthere
    split_ifs at hthere with hnotes hjson hdb
    · simp [hnotes]
    · simp [hjson]
    · simp [hdb]
    · exact absurd (Finmap.lookup_empty name) hthere
  obtain ⟨-, hlookup, hover⟩ := reset_starts_over Reference.platform DevWallet.wallet
    (fun _ => none) rfl hall hreset
  refine ⟨_, hreset, ?_, hover _ _ (toStr_encode _) (.inl stateEntry_stateJson)⟩
  rw [hlookup, hnotes, if_neg Bool.false_ne_true]
  exact Finmap.lookup_insert _

end KanariEvm
