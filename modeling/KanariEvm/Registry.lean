import KanariEvm.Lib.UnixPath
import KanariEvm.Store
import Mathlib.Data.Fintype.Defs
import Mathlib.Data.Set.Function
import Mathlib.Logic.Function.Basic

namespace KanariEvm

open UnixPath

/-- Relative paths resolve against the working directory of the process. -/
def resolveDir (cwd : Except String PathText) (dir : PathText) : Except StoreError PathText :=
  if dir.isAbsolute then .ok dir
  else
    match cwd with
    | .error e => .error (.backend ("failed to resolve cwd for RocksDB: " ++ e))
    | .ok cwd => .ok (cwd.join dir)

namespace Registry

/-- Where a client of `open_or_get_db` is: at a step of its call, or with what the call returned. -/
inductive Client
  | idle
  | entered (path : PathText)
  | retained (path : PathText)
  | opening (path : PathText)
  | opened (path : PathText) (db : ℕ)
  | holding (db : ℕ)
  | refused (e : StoreError)
deriving DecidableEq

namespace Client

def handle : Client → Option ℕ
  | .opened _ db => some db
  | .holding db => some db
  | _ => none

def path : Client → Option PathText
  | .entered path => some path
  | .retained path => some path
  | .opening path => some path
  | .opened path _ => some path
  | _ => none

end Client

/-- The databases of a process. Instances are numbered as they are opened, and known by the spelling
they were opened under, whereas the registry compares paths by their components. The registry does
not keep an instance alive. One that nobody holds any more stays open until it is closed. -/
structure Databases (ι : Type) where
  registry : Path → Option ℕ
  instances : List PathText
  closed : List ℕ
  clients : ι → Client

/-- What the machine decides when a database is opened: the error of creating the parent directory,
and RocksDB's, which knows what this process has open. -/
structure OpenIo where
  createDirAll : Option String
  openDb : List PathText → PathText → Option String

namespace OpenIo

/-- RocksDB does not open twice what the process has open, as far as its lock table can tell: the
table is keyed by the spelling. -/
def LocksSpellings (io : OpenIo) : Prop := ∀ held path, path ∈ held → io.openDb held path ≠ none

def Healthy (io : OpenIo) : Prop :=
  io.createDirAll = none ∧ ∀ held path, io.openDb held path = none ↔ path ∉ held

theorem Healthy.locksSpellings {io : OpenIo} (h : io.Healthy) : io.LocksSpellings :=
  fun held path hheld hnone => (h.2 held path).mp hnone hheld

end OpenIo

/-- A step of one client, or the end of closing an instance. -/
inductive Event (ι : Type)
  | call (c : ι) (cwd : Except String PathText) (dir : PathText)
  | retain (c : ι)
  | lookup (c : ι)
  | openDb (c : ι) (io : OpenIo)
  | register (c : ι)
  | clone (c c' : ι)
  | drop (c : ι)
  | close (db : ℕ)

def spellings {ι : Type} (events : List (Event ι)) : Set PathText :=
  {path | ∃ c cwd dir, .call c cwd dir ∈ events ∧ resolveDir cwd dir = .ok path}

def OneSpelling {ι : Type} (events : List (Event ι)) : Prop :=
  Set.InjOn PathText.path (spellings events)

def LocksSpellings {ι : Type} (events : List (Event ι)) : Prop :=
  ∀ c io, .openDb c io ∈ events → io.LocksSpellings

namespace Databases

variable {ι : Type}

def initial (ι : Type) : Databases ι := ⟨fun _ => none, [], [], fun _ => .idle⟩

section Open

variable (s : Databases ι)

def Live (db : ℕ) : Prop := ∃ c, (s.clients c).handle = some db

instance [Fintype ι] (db : ℕ) : Decidable (s.Live db) := by unfold Live; infer_instance

def IsOpen (path : PathText) (db : ℕ) : Prop := db ∉ s.closed ∧ s.instances[db]? = some path

def openPaths : List PathText :=
  (List.range s.instances.length).filterMap fun db =>
    if db ∈ s.closed then none else s.instances[db]?

theorem mem_openPaths {path : PathText} : path ∈ s.openPaths ↔ ∃ db, s.IsOpen path db := by
  rw [openPaths, List.mem_filterMap]
  apply exists_congr
  intro db
  constructor
  · rintro ⟨-, hdb⟩
    split_ifs at hdb with hclosed
    exact ⟨hclosed, hdb⟩
  · rintro ⟨hclosed, hdb⟩
    refine ⟨List.mem_range.mpr (List.getElem?_eq_some_iff.mp hdb).1, ?_⟩
    rw [if_neg hclosed, hdb]

end Open

def set [DecidableEq ι] (s : Databases ι) (c : ι) (client : Client) : Databases ι :=
  { s with clients := Function.update s.clients c client }

section Step

variable [Fintype ι] [DecidableEq ι] (s : Databases ι)

def refuse (c : ι) (text : String) : Databases ι := s.set c (.refused (.backend text))

/-- One event. The lock of the registry is left out: it only excludes some orders of these steps,
and no step holds it while RocksDB works. -/
def step : Event ι → Databases ι
  | .call c cwd dir =>
    match s.clients c with
    | .idle =>
      match resolveDir cwd dir with
      | .ok path => s.set c (.entered path)
      | .error e => s.set c (.refused e)
    | _ => s
  | .retain c =>
    match s.clients c with
    | .entered path =>
      { s.set c (.retained path) with
        registry := fun q => (s.registry q).filter fun db => s.Live db }
    | _ => s
  | .lookup c =>
    match s.clients c with
    | .retained path =>
      match (s.registry path.path).filter fun db => s.Live db with
      | some db => s.set c (.holding db)
      | none => s.set c (.opening path)
    | _ => s
  | .openDb c io =>
    match s.clients c with
    | .opening path =>
      match io.createDirAll with
      | some e => s.refuse c ("failed to create RocksDB parent directory: " ++ e)
      | none =>
        match io.openDb s.openPaths path with
        | some e => s.refuse c ("Failed to open RocksDB for kanari: " ++ e)
        | none =>
          { s.set c (.opened path s.instances.length) with instances := s.instances ++ [path] }
    | _ => s
  | .register c =>
    match s.clients c with
    | .opened path db =>
      { s.set c (.holding db) with registry := Function.update s.registry path.path (some db) }
    | _ => s
  | .clone c c' =>
    match s.clients c, s.clients c' with
    | .holding db, .idle => s.set c' (.holding db)
    | _, _ => s
  | .drop c =>
    match s.clients c with
    | .holding _ => s.set c .idle
    | .refused _ => s.set c .idle
    | _ => s
  | .close db =>
    if db < s.instances.length ∧ ¬s.Live db then { s with closed := db :: s.closed } else s

def run (events : List (Event ι)) : Databases ι := events.foldl step s

def openOrGetDb (c : ι) (cwd : Except String PathText) (dir : PathText) (io : OpenIo) :
    Databases ι :=
  s.run [.call c cwd dir, .retain c, .lookup c, .openDb c io, .register c]

end Step

/-- Registered instances are those of their path and have been handed out; whoever opened one that
is not registered yet has it alone; what is held is registered and not closed; and a spelling has
one open instance. -/
structure Sound (paths : Set PathText) (s : Databases ι) : Prop where
  named : ∀ p db, s.registry p = some db →
    (∃ path, s.instances[db]? = some path ∧ path.path = p) ∧ ∀ c q, s.clients c ≠ .opened q db
  opened : ∀ c path db, s.clients c = .opened path db →
    s.instances[db]? = some path ∧ ∀ c', (s.clients c').handle = some db → c' = c
  held : ∀ c db, s.clients c = .holding db → ∃ p, s.registry p = some db
  unclosed : ∀ c db, (s.clients c).handle = some db → db ∉ s.closed
  past : ∀ db ∈ s.closed, db < s.instances.length
  exclusive : ∀ path db db', s.IsOpen path db → s.IsOpen path db' → db = db'
  opens : ∀ path ∈ s.instances, path ∈ paths
  calls : ∀ c path, (s.clients c).path = some path → path ∈ paths

section Sound

variable {paths : Set PathText} {s : Databases ι}

theorem sound_initial : (initial ι).Sound paths where
  named _ _ h := by cases h
  opened _ _ _ h := by cases h
  held _ _ h := by cases h
  unclosed _ _ h := by cases h
  past _ h := by cases h
  exclusive _ _ _ h := by simp [IsOpen, initial] at h
  opens _ h := by cases h
  calls _ _ h := by cases h

theorem Sound.mono {paths' : Set PathText} (h : s.Sound paths) (hsub : paths ⊆ paths') :
    s.Sound paths' :=
  { h with
    opens := fun path hpath => hsub (h.opens path hpath)
    calls := fun c path hpath => hsub (h.calls c path hpath) }

theorem Sound.instance_of_handle (h : s.Sound paths) {c : ι} {db : ℕ}
    (hc : (s.clients c).handle = some db) : ∃ path, s.instances[db]? = some path := by
  cases hclient : s.clients c with
  | opened path db' =>
    rw [hclient] at hc
    cases hc
    exact ⟨path, (h.opened c path db hclient).1⟩
  | holding db' =>
    rw [hclient] at hc
    cases hc
    obtain ⟨p, hp⟩ := h.held c db hclient
    obtain ⟨path, hpath, -⟩ := (h.named p db hp).1
    exact ⟨path, hpath⟩
  | _ =>
    rw [hclient] at hc
    cases hc

theorem Sound.handle_unique (h : s.Sound paths) (hone : Set.InjOn PathText.path paths) {c c' : ι}
    {db db' : ℕ} {path path' : PathText} (hc : (s.clients c).handle = some db)
    (hc' : (s.clients c').handle = some db') (hpath : s.instances[db]? = some path)
    (hpath' : s.instances[db']? = some path') (hsame : path.path = path'.path) : db = db' := by
  have hspelled : path = path' :=
    hone (h.opens path (List.mem_of_getElem? hpath)) (h.opens path' (List.mem_of_getElem? hpath'))
      hsame
  subst hspelled
  exact h.exclusive path db db' ⟨h.unclosed c db hc, hpath⟩ ⟨h.unclosed c' db' hc', hpath'⟩

theorem Sound.registered (h : s.Sound paths) {c : ι} {db : ℕ} {path : PathText}
    (hc : s.clients c = .holding db) (hpath : s.instances[db]? = some path) :
    s.registry path.path = some db := by
  obtain ⟨p, hp⟩ := h.held c db hc
  obtain ⟨path', hpath', rfl⟩ := (h.named p db hp).1
  cases hpath.symm.trans hpath'
  exact hp

theorem Sound.close (h : s.Sound paths) {db : ℕ} (hlt : db < s.instances.length)
    (hdead : ¬s.Live db) : Sound paths { s with closed := db :: s.closed } := by
  refine ⟨h.named, h.opened, h.held, fun c db' hc => ?_, fun db' hdb' => ?_,
    fun path db₁ db₂ h₁ h₂ => ?_, h.opens, h.calls⟩
  · intro hclosed
    rcases List.mem_cons.mp hclosed with rfl | hclosed
    · exact hdead ⟨c, hc⟩
    · exact h.unclosed c db' hc hclosed
  · rcases List.mem_cons.mp hdb' with rfl | hdb'
    · exact hlt
    · exact h.past db' hdb'
  · exact h.exclusive path db₁ db₂ ⟨fun hc => h₁.1 (List.mem_cons_of_mem _ hc), h₁.2⟩
      ⟨fun hc => h₂.1 (List.mem_cons_of_mem _ hc), h₂.2⟩

variable [DecidableEq ι]

@[simp] theorem set_clients (c c' : ι) (client : Client) :
    (s.set c client).clients c' = if c' = c then client else s.clients c' :=
  Function.update_apply s.clients c client c'

theorem live_set {c : ι} {client : Client} (hc : (s.clients c).handle = none)
    (hclient : client.handle = none) (db : ℕ) : (s.set c client).Live db ↔ s.Live db := by
  apply exists_congr
  intro c'
  rw [set_clients]
  split_ifs with heq
  · rw [heq, hc, hclient]
  · rfl

theorem Sound.calls_set (h : s.Sound paths) {c : ι} {client : Client}
    (hclient : ∀ path, client.path = some path → path ∈ paths) (c' : ι) (path : PathText)
    (hc' : ((s.set c client).clients c').path = some path) : path ∈ paths := by
  rw [set_clients] at hc'
  split_ifs at hc' with heq
  · exact hclient path hc'
  · exact h.calls c' path hc'

theorem Sound.release (h : s.Sound paths) (c : ι) {client : Client}
    (hclient : client.handle = none) (hpaths : ∀ path, client.path = some path → path ∈ paths) :
    (s.set c client).Sound paths := by
  have hold : ∀ c' db, ((s.set c client).clients c').handle = some db →
      (s.clients c').handle = some db := by
    intro c' db hc'
    rw [set_clients] at hc'
    split_ifs at hc' with heq
    · rw [hclient] at hc'
      cases hc'
    · exact hc'
  have hsame : ∀ c' path db, (s.set c client).clients c' = .opened path db →
      s.clients c' = .opened path db := by
    intro c' path db hc'
    rw [set_clients] at hc'
    split_ifs at hc' with heq
    · rw [hc'] at hclient
      cases hclient
    · exact hc'
  refine ⟨fun p db hp => ?_, fun c' path db hc' => ?_, fun c' db hc' => ?_, fun c' db hc' => ?_,
    h.past, h.exclusive, h.opens, h.calls_set hpaths⟩
  · exact ⟨(h.named p db hp).1, fun c' q hc' => (h.named p db hp).2 c' q (hsame c' q db hc')⟩
  · obtain ⟨hpath, halone⟩ := h.opened c' path db (hsame c' path db hc')
    exact ⟨hpath, fun c'' hc'' => halone c'' (hold c'' db hc'')⟩
  · rw [set_clients] at hc'
    split_ifs at hc' with heq
    · rw [hc'] at hclient
      cases hclient
    · exact h.held c' db hc'
  · exact h.unclosed c' db (hold c' db hc')

theorem Sound.join (h : s.Sound paths) (c : ι) {p : Path} {db : ℕ}
    (hreg : s.registry p = some db) (hlive : s.Live db) : (s.set c (.holding db)).Sound paths := by
  have hsame : ∀ c' q db', (s.set c (.holding db)).clients c' = .opened q db' →
      s.clients c' = .opened q db' := by
    intro c' q db' hc'
    rw [set_clients] at hc'
    split_ifs at hc' with heq
    exact hc'
  refine ⟨fun q db' hq => ?_, fun c' q db' hc' => ?_, fun c' db' hc' => ?_, fun c' db' hc' => ?_,
    h.past, h.exclusive, h.opens, h.calls_set fun _ hpath => by cases hpath⟩
  · exact ⟨(h.named q db' hq).1, fun c' q' hc' => (h.named q db' hq).2 c' q' (hsame c' q' db' hc')⟩
  · obtain ⟨hpath, halone⟩ := h.opened c' q db' (hsame c' q db' hc')
    refine ⟨hpath, fun c'' hc'' => ?_⟩
    rw [set_clients] at hc''
    split_ifs at hc'' with heq
    · cases hc''
      exact absurd (hsame c' q db hc') ((h.named p db hreg).2 c' q)
    · exact halone c'' hc''
  · rw [set_clients] at hc'
    split_ifs at hc' with heq
    · cases hc'
      exact ⟨p, hreg⟩
    · exact h.held c' db' hc'
  · rw [set_clients] at hc'
    split_ifs at hc' with heq
    · cases hc'
      obtain ⟨c₀, hc₀⟩ := hlive
      exact h.unclosed c₀ db hc₀
    · exact h.unclosed c' db' hc'

theorem isOpen_of_open {c : ι} {path path' : PathText} {db : ℕ}
    (h : IsOpen { s.set c (.opened path s.instances.length) with
      instances := s.instances ++ [path] } path' db) :
    s.IsOpen path' db ∨ db = s.instances.length ∧ path' = path := by
  obtain ⟨hopen, hpath⟩ := h
  by_cases hlt : db < s.instances.length
  · rw [List.getElem?_append_left hlt] at hpath
    exact .inl ⟨hopen, hpath⟩
  · have heq : db = s.instances.length := by
      have := (List.getElem?_eq_some_iff.mp hpath).1
      rw [List.length_append, List.length_singleton] at this
      omega
    subst heq
    have hnew : (s.instances ++ [path])[s.instances.length]? = some path := by simp
    cases hpath.symm.trans hnew
    exact .inr ⟨rfl, rfl⟩

theorem Sound.open (h : s.Sound paths) (c : ι) {path : PathText}
    (hc : (s.clients c).path = some path) (hfree : path ∉ s.openPaths) :
    Sound paths { s.set c (.opened path s.instances.length) with
      instances := s.instances ++ [path] } := by
  have hin : path ∈ paths := h.calls c path hc
  have hfresh : ∀ c' db, (s.clients c').handle = some db → db < s.instances.length := by
    intro c' db hc'
    obtain ⟨path', hpath'⟩ := h.instance_of_handle hc'
    exact (List.getElem?_eq_some_iff.mp hpath').1
  have hkeep : ∀ {db : ℕ} {path' : PathText}, s.instances[db]? = some path' →
      (s.instances ++ [path])[db]? = some path' := by
    intro db path' hpath'
    rw [List.getElem?_append_left (List.getElem?_eq_some_iff.mp hpath').1, hpath']
  have hnew : (s.instances ++ [path])[s.instances.length]? = some path := by simp
  have hfree' : ∀ db, ¬s.IsOpen path db := fun db hdb => hfree (s.mem_openPaths.mpr ⟨db, hdb⟩)
  refine ⟨fun p db hp => ?_, fun c' path' db hc' => ?_, fun c' db hc' => ?_, fun c' db hc' => ?_,
    fun db hdb => ?_, fun path' db db' hdb hdb' => ?_, fun path' hpath' => ?_,
    h.calls_set fun path' hpath' => ?_⟩
  · obtain ⟨⟨path', hpath', hname⟩, halone⟩ := h.named p db hp
    refine ⟨⟨path', hkeep hpath', hname⟩, fun c' q hc' => ?_⟩
    rw [set_clients] at hc'
    split_ifs at hc' with heq
    · cases hc'
      have := (List.getElem?_eq_some_iff.mp hpath').1
      omega
    · exact halone c' q hc'
  · rw [set_clients] at hc'
    split_ifs at hc' with heq
    · cases hc'
      subst heq
      -- nobody else can have the new number: handles are of instances that were there
      refine ⟨hnew, fun c'' hc'' => ?_⟩
      rw [set_clients] at hc''
      split_ifs at hc'' with heq
      · exact heq
      · have := hfresh c'' _ hc''
        omega
    · obtain ⟨hpath', halone⟩ := h.opened c' path' db hc'
      refine ⟨hkeep hpath', fun c'' hc'' => ?_⟩
      rw [set_clients] at hc''
      split_ifs at hc'' with heq'
      · cases hc''
        have := (List.getElem?_eq_some_iff.mp hpath').1
        omega
      · exact halone c'' hc''
  · rw [set_clients] at hc'
    split_ifs at hc' with heq
    exact h.held c' db hc'
  · rw [set_clients] at hc'
    split_ifs at hc' with heq
    · cases hc'
      exact fun hclosed => absurd (h.past _ hclosed) (lt_irrefl _)
    · exact h.unclosed c' db hc'
  · have := h.past db hdb
    rw [List.length_append]
    omega
  · rcases isOpen_of_open hdb with hold | ⟨rfl, rfl⟩
    · rcases isOpen_of_open hdb' with hold' | ⟨rfl, rfl⟩
      · exact h.exclusive path' db db' hold hold'
      · exact absurd hold (hfree' db)
    · rcases isOpen_of_open hdb' with hold' | ⟨rfl, -⟩
      · exact absurd hold' (hfree' db')
      · rfl
  · rcases List.mem_append.mp hpath' with hold | hnew
    · exact h.opens path' hold
    · rw [List.mem_singleton.mp hnew]
      exact hin
  · cases hpath'
    exact hin

/-- The opener of an instance registers it. Whatever the path had before is not held any more, or it
would have been open under the same spelling. -/
theorem Sound.register (h : s.Sound paths) (hone : Set.InjOn PathText.path paths) {c : ι}
    {path : PathText} {db : ℕ} (hc : s.clients c = .opened path db) :
    Sound paths { s.set c (.holding db) with
      registry := Function.update s.registry path.path (some db) } := by
  obtain ⟨hpath, halone⟩ := h.opened c path db hc
  have hhandle : (s.clients c).handle = some db := by rw [hc]; rfl
  have hsame : ∀ c' q db', ({ s.set c (.holding db) with
      registry := Function.update s.registry path.path (some db) } : Databases ι).clients c' =
        .opened q db' → s.clients c' = .opened q db' ∧ c' ≠ c := by
    intro c' q db' hc'
    rw [set_clients] at hc'
    split_ifs at hc' with heq
    exact ⟨hc', heq⟩
  refine ⟨fun p db' hp => ?_, fun c' p db' hc' => ?_, fun c' db' hc' => ?_, fun c' db' hc' => ?_,
    h.past, h.exclusive, h.opens, h.calls_set fun _ hpath => by cases hpath⟩
  · change Function.update s.registry path.path (some db) p = some db' at hp
    by_cases heq : p = path.path
    · subst heq
      rw [Function.update_self] at hp
      cases hp
      refine ⟨⟨path, hpath, rfl⟩, fun c' q hc' => ?_⟩
      obtain ⟨hc', hne⟩ := hsame c' q db hc'
      exact hne (halone c' (by rw [hc']; rfl))
    · rw [Function.update_of_ne heq] at hp
      obtain ⟨hpath', halone'⟩ := h.named p db' hp
      exact ⟨hpath', fun c' q hc' => halone' c' q (hsame c' q db' hc').1⟩
  · obtain ⟨hc', hne⟩ := hsame c' p db' hc'
    obtain ⟨hpath', halone'⟩ := h.opened c' p db' hc'
    refine ⟨hpath', fun c'' hc'' => ?_⟩
    rw [set_clients] at hc''
    split_ifs at hc'' with heq
    · cases hc''
      exact absurd (halone c' (by rw [hc']; rfl)) hne
    · exact halone' c'' hc''
  · rw [set_clients] at hc'
    split_ifs at hc' with heq
    · cases hc'
      exact ⟨path.path, Function.update_self path.path _ _⟩
    · obtain ⟨path', hpath'⟩ := h.instance_of_handle (by rw [hc']; rfl)
      have hreg := h.registered hc' hpath'
      refine ⟨path'.path, ?_⟩
      by_cases hpp : path'.path = path.path
      · rw [h.handle_unique hone (by rw [hc']; rfl) hhandle hpath' hpath hpp, hpp]
        exact Function.update_self path.path _ _
      · exact (Function.update_of_ne hpp _ _).trans hreg
  · rw [set_clients] at hc'
    split_ifs at hc' with heq
    · cases hc'
      exact h.unclosed c db hhandle
    · exact h.unclosed c' db' hc'

end Sound

section Run

variable {paths : Set PathText} {s : Databases ι} [Fintype ι]

theorem Sound.retain (h : s.Sound paths) :
    Sound paths { s with registry := fun q => (s.registry q).filter fun db => s.Live db } := by
  refine ⟨fun p db hp => ?_, h.opened, fun c db hc => ?_, h.unclosed, h.past, h.exclusive, h.opens,
    h.calls⟩
  · exact h.named p db (Option.filter_eq_some_iff.mp hp).1
  · obtain ⟨p, hp⟩ := h.held c db hc
    have hlive : s.Live db := ⟨c, by rw [hc]; rfl⟩
    exact ⟨p, Option.filter_eq_some_iff.mpr ⟨hp, decide_eq_true hlive⟩⟩

variable [DecidableEq ι]

theorem Sound.step (h : s.Sound paths) (hone : Set.InjOn PathText.path paths) (event : Event ι)
    (hpaths : spellings [event] ⊆ paths) (hlocks : LocksSpellings [event]) :
    (s.step event).Sound paths := by
  have hgoes : ∀ {c path}, (s.clients c).path = some path →
      ∀ q, some path = some q → q ∈ paths := by
    rintro c path hc q ⟨⟩
    exact h.calls c path hc
  have hends : ∀ q : PathText, none = some q → q ∈ paths := fun _ hq => by cases hq
  cases event with
  | call c cwd dir =>
    simp only [Databases.step]
    split
    · split
      case _ path hpath =>
        refine h.release c rfl fun q hq => hpaths ⟨c, cwd, dir, List.mem_singleton.mpr rfl, ?_⟩
        cases hq
        exact hpath
      · exact h.release c rfl hends
    · exact h
  | retain c =>
    simp only [Databases.step]
    split
    case _ path hc => exact h.retain.release c rfl (hgoes (by rw [hc]; rfl))
    · exact h
  | lookup c =>
    simp only [Databases.step]
    split
    case _ path hc =>
      split
      case _ db hdb =>
        -- the weak handle upgrades only while somebody holds the instance
        obtain ⟨hreg, hlive⟩ := Option.filter_eq_some_iff.mp hdb
        exact h.join c hreg (of_decide_eq_true hlive)
      · exact h.release c rfl (hgoes (by rw [hc]; rfl))
    · exact h
  | openDb c io =>
    simp only [Databases.step]
    split
    case _ path hc =>
      split
      · exact h.release c rfl hends
      · split
        · exact h.release c rfl hends
        case _ hopen =>
          refine h.open c (by rw [hc]; rfl) fun hheld => ?_
          exact hlocks c io (List.mem_singleton.mpr rfl) _ _ hheld hopen
    · exact h
  | register c =>
    simp only [Databases.step]
    split
    case _ path db hc => exact h.register hone hc
    · exact h
  | clone c c' =>
    simp only [Databases.step]
    split
    case _ db hc hc' =>
      obtain ⟨p, hp⟩ := h.held c db hc
      exact h.join c' hp ⟨c, by rw [hc]; rfl⟩
    · exact h
  | drop c =>
    simp only [Databases.step]
    split
    · exact h.release c rfl hends
    · exact h.release c rfl hends
    · exact h
  | close db =>
    simp only [Databases.step]
    split_ifs with hdead
    · exact h.close hdead.1 hdead.2
    · exact h

theorem Sound.run (h : s.Sound paths) (hone : Set.InjOn PathText.path paths)
    (events : List (Event ι)) (hpaths : spellings events ⊆ paths) (hlocks : LocksSpellings events) :
    (s.run events).Sound paths := by
  induction events generalizing s with
  | nil => exact h
  | cons event events ih =>
    have hfirst : spellings [event] ⊆ paths := by
      rintro path ⟨c, cwd, dir, hmem, hpath⟩
      exact hpaths ⟨c, cwd, dir, List.mem_cons.mpr (.inl (List.mem_singleton.mp hmem)), hpath⟩
    have hrest : spellings events ⊆ paths := by
      rintro path ⟨c, cwd, dir, hmem, hpath⟩
      exact hpaths ⟨c, cwd, dir, List.mem_cons_of_mem _ hmem, hpath⟩
    refine ih (h.step hone event hfirst fun c io hmem => hlocks c io ?_) hrest
      fun c io hmem => hlocks c io (List.mem_cons_of_mem _ hmem)
    exact List.mem_cons.mpr (.inl (List.mem_singleton.mp hmem))

theorem sound_run {events : List (Event ι)} (hone : OneSpelling events)
    (hlocks : LocksSpellings events) : ((initial ι).run events).Sound (spellings events) :=
  sound_initial.run hone events subset_rfl hlocks

theorem Sound.lookup_held (h : s.Sound paths) {c c' : ι} {db : ℕ} {path path' : PathText}
    (hc : s.clients c = .holding db) (hpath : s.instances[db]? = some path)
    (hc' : s.clients c' = .retained path') (hsame : path.path = path'.path) :
    s.step (.lookup c') = s.set c' (.holding db) := by
  have hlive : s.Live db := ⟨c, by rw [hc]; rfl⟩
  have hreg : s.registry path'.path = some db := hsame ▸ h.registered hc hpath
  have hfound : ((s.registry path'.path).filter fun db => s.Live db) = some db :=
    Option.filter_eq_some_iff.mpr ⟨hreg, decide_eq_true hlive⟩
  simp only [Databases.step, hc', hfound]

/-- In whatever order the clients of the opener take their steps, drop what they hold and have it
closed: those that hold a database of one path hold the same instance, and a call that looks up a
path whose instance is held gets this instance. -/
theorem clients_share_one_instance (events : List (Event ι)) (hone : OneSpelling events)
    (hlocks : LocksSpellings events) :
    let s := (initial ι).run events
    (∀ c c' db db' path path', (s.clients c).handle = some db →
      (s.clients c').handle = some db' → s.instances[db]? = some path →
      s.instances[db']? = some path' → path.path = path'.path → db = db') ∧
    ∀ c c' db path path', s.clients c = .holding db → s.instances[db]? = some path →
      s.clients c' = .retained path' → path.path = path'.path →
      (s.step (.lookup c')).clients c' = .holding db := by
  intro s
  have hs : s.Sound (spellings events) := sound_run hone hlocks
  refine ⟨fun c c' db db' path path' hc hc' hpath hpath' hsame => ?_,
    fun c c' db path path' hc hpath hc' hsame => ?_⟩
  · exact hs.handle_unique hone hc hc' hpath hpath' hsame
  · rw [hs.lookup_held hc hpath hc' hsame, set_clients, if_pos rfl]

def dataDb : PathText := encode "/state.chain.db".toList

def quietIo : OpenIo :=
  ⟨none, fun held path => if path ∈ held then some "lock hold by current process" else none⟩

theorem quietIo_healthy : quietIo.Healthy := by
  refine ⟨rfl, fun held path => ?_⟩
  simp only [quietIo]
  split_ifs with hheld
  · simp [hheld]
  · simp [hheld]

def secondLooks : List (Event Bool) :=
  [.call false (.error "gone") dataDb, .retain false, .lookup false, .openDb false quietIo,
    .register false, .call true (.error "gone") dataDb, .retain true]

theorem secondLooks_spellings : spellings secondLooks ⊆ {dataDb} := by
  rintro path ⟨c, cwd, dir, hmem, hpath⟩
  simp only [secondLooks, List.mem_cons, Event.call.injEq, List.not_mem_nil, reduceCtorEq, false_or,
    or_false] at hmem
  rcases hmem with ⟨-, -, rfl⟩ | ⟨-, -, rfl⟩
  · cases hpath
    rfl
  · cases hpath
    rfl

theorem secondLooks_locks : LocksSpellings secondLooks := by
  intro c io hmem
  simp only [secondLooks, List.mem_cons, Event.openDb.injEq, List.not_mem_nil, reduceCtorEq,
    false_or, or_false] at hmem
  rw [hmem.2]
  exact quietIo_healthy.locksSpellings

theorem clients_share_one_instance_two :
    let s := (initial Bool).run secondLooks
    s.clients false = .holding 0 ∧ (s.step (.lookup true)).clients true = .holding 0 := by
  have hfirst : ((initial Bool).run secondLooks).clients false = .holding 0 := by decide +kernel
  have hone : OneSpelling secondLooks :=
    (Set.injOn_singleton PathText.path dataDb).mono secondLooks_spellings
  have hshared := (clients_share_one_instance secondLooks hone secondLooks_locks).2
  exact ⟨hfirst, hshared false true 0 dataDb dataDb hfirst (by decide +kernel) (by decide +kernel)
    rfl⟩

-- Two spellings of one path, when the second call looks before the first one registers.
example :
    let twice : PathText := encode "//state.chain.db".toList
    let s := (initial Bool).run [.call false (.error "gone") dataDb, .retain false, .lookup false,
      .call true (.error "gone") twice, .retain true, .lookup true, .openDb false quietIo,
      .openDb true quietIo, .register false, .register true]
    twice.path = dataDb.path ∧ s.clients false = .holding 0 ∧ s.clients true = .holding 1 := by
  decide +kernel

def lookingUp (s : Databases ι) (c : ι) (path : PathText) : Databases ι :=
  { s.set c (.retained path) with
    registry := fun q => (s.registry q).filter fun db => s.Live db }

theorem openOrGetDb_eq {c : ι} (hc : s.clients c = .idle) {cwd : Except String PathText}
    {dir path : PathText} (hpath : resolveDir cwd dir = .ok path) (io : OpenIo) :
    s.openOrGetDb c cwd dir io =
      (s.lookingUp c path).run [.lookup c, .openDb c io, .register c] := by
  have hcall : s.step (.call c cwd dir) = s.set c (.entered path) := by
    simp only [Databases.step, hc, hpath]
  have hlive : ∀ db, (s.set c (.entered path)).Live db ↔ s.Live db := live_set (by rw [hc]; rfl) rfl
  have hretain : (s.set c (.entered path)).step (.retain c) = s.lookingUp c path := by
    have hentered : (s.set c (.entered path)).clients c = .entered path := by
      rw [set_clients, if_pos rfl]
    have hset : (s.set c (.entered path)).set c (.retained path) = s.set c (.retained path) := by
      simp only [Databases.set, Function.update_idem]
    simp only [Databases.step, hentered, hlive, hset]
    rfl
  rw [openOrGetDb, Databases.run, List.foldl_cons, hcall, List.foldl_cons, hretain]
  rfl

theorem Sound.lookup_missing (h : s.Sound paths) {c : ι} {path : PathText}
    (hc : s.clients c = .retained path)
    (hnone : ∀ c' db path', s.clients c' = .holding db → s.instances[db]? = some path' →
      path'.path ≠ path.path) :
    s.step (.lookup c) = s.set c (.opening path) := by
  have hfound : ((s.registry path.path).filter fun db => s.Live db) = none := by
    rw [Option.filter_eq_none_iff]
    intro db hdb hlive
    obtain ⟨c', hc'⟩ := of_decide_eq_true hlive
    obtain ⟨⟨path', hpath', hname⟩, hopened⟩ := h.named path.path db hdb
    cases hclient : s.clients c' with
    | opened q db' =>
      rw [hclient] at hc'
      cases hc'
      exact hopened c' q hclient
    | holding db' =>
      rw [hclient] at hc'
      cases hc'
      exact hnone c' db path' hclient hpath' hname
    | _ =>
      rw [hclient] at hc'
      cases hc'
  simp only [Databases.step, hc, hfound]

theorem run_found {c : ι} {db : ℕ} (io : OpenIo)
    (hfound : s.step (.lookup c) = s.set c (.holding db)) :
    s.run [.lookup c, .openDb c io, .register c] = s.set c (.holding db) := by
  have hholding : (s.set c (.holding db)).clients c = .holding db := by
    rw [set_clients, if_pos rfl]
  simp only [Databases.run, List.foldl_cons, List.foldl_nil, hfound]
  simp only [Databases.step, hholding]

theorem run_missing {c : ι} {path : PathText} {io : OpenIo} (hdir : io.createDirAll = none)
    (hmissing : s.step (.lookup c) = s.set c (.opening path)) :
    s.run [.lookup c, .openDb c io, .register c] =
      match io.openDb s.openPaths path with
      | some e => s.refuse c ("Failed to open RocksDB for kanari: " ++ e)
      | none =>
        { s.set c (.holding s.instances.length) with
          instances := s.instances ++ [path]
          registry := Function.update s.registry path.path (some s.instances.length) } := by
  have hopening : (s.set c (.opening path)).clients c = .opening path := by
    rw [set_clients, if_pos rfl]
  have hset : ∀ client, (s.set c (.opening path)).set c client = s.set c client := by
    intro client
    simp only [Databases.set, Function.update_idem]
  have hopen : (s.set c (.opening path)).step (.openDb c io) =
      match io.openDb s.openPaths path with
      | some e => s.refuse c ("Failed to open RocksDB for kanari: " ++ e)
      | none =>
        { s.set c (.opened path s.instances.length) with instances := s.instances ++ [path] } := by
    simp only [Databases.step, hopening, hdir, refuse, hset]
    rfl
  simp only [Databases.run, List.foldl_cons, List.foldl_nil, hmissing, hopen]
  cases io.openDb s.openPaths path with
  | some e =>
    have hrefused : ∀ e, (s.set c (.refused e)).clients c = .refused e := by
      intro e
      rw [set_clients, if_pos rfl]
    simp only [refuse, Databases.step, hrefused]
  | none =>
    have hopened : ∀ db, (s.set c (.opened path db)).clients c = .opened path db := by
      intro db
      rw [set_clients, if_pos rfl]
    simp only [Databases.step, hopened]
    simp only [Databases.set, Function.update_idem]

/-- What a call gets that nobody interrupts, in every state that clients can bring about. An
instance that is held under the path is reused. Otherwise RocksDB opens the path and it is
registered, unless an instance is open under it that is not registered yet, or not closed yet. -/
theorem call_alone_opens_or_gets (events : List (Event ι)) (hone : OneSpelling events)
    (hlocks : LocksSpellings events) {c : ι} (hc : ((initial ι).run events).clients c = .idle)
    {cwd : Except String PathText} {dir path : PathText} (hpath : resolveDir cwd dir = .ok path)
    {io : OpenIo} (hio : io.Healthy) :
    let s := (initial ι).run events
    let s' := s.openOrGetDb c cwd dir io
    (∀ c' db path', s.clients c' = .holding db → s.instances[db]? = some path' →
      path'.path = path.path → s'.clients c = .holding db ∧ s'.instances = s.instances) ∧
    ((∀ c' db path', s.clients c' = .holding db → s.instances[db]? = some path' →
        path'.path ≠ path.path) →
      if path ∈ s.openPaths then
        (∃ e, io.openDb s.openPaths path = some e ∧
          s'.clients c = .refused (.backend ("Failed to open RocksDB for kanari: " ++ e))) ∧
          s'.instances = s.instances
      else
        s'.clients c = .holding s.instances.length ∧ s'.instances = s.instances ++ [path] ∧
          s'.registry path.path = some s.instances.length) ∧
    ∀ c' ≠ c, s'.clients c' = s.clients c' := by
  intro s s'
  have hs : s.Sound (spellings events) := sound_run hone hlocks
  have hlook : (s.lookingUp c path).Sound (insert path (spellings events)) :=
    (hs.mono (Set.subset_insert path _)).retain.release c rfl fun _ hq => by
      cases hq
      exact Set.mem_insert path _
  have hclient : (s.lookingUp c path).clients c = .retained path := by
    rw [lookingUp, set_clients, if_pos rfl]
  have hother : ∀ c' ≠ c, (s.lookingUp c path).clients c' = s.clients c' := by
    intro c' hne
    rw [lookingUp, set_clients, if_neg hne]
  have hs' : s' = (s.lookingUp c path).run [.lookup c, .openDb c io, .register c] :=
    openOrGetDb_eq hc hpath io
  have hfound : ∀ c' db path', s.clients c' = .holding db → s.instances[db]? = some path' →
      path'.path = path.path → s' = (s.lookingUp c path).set c (.holding db) := by
    intro c' db path' hc' hdb hsame
    have hne : c' ≠ c := by
      rintro rfl
      rw [hc] at hc'
      cases hc'
    rw [hs', run_found io (hlook.lookup_held ((hother c' hne).trans hc') hdb hclient hsame)]
  have hmissing : (∀ c' db path', s.clients c' = .holding db → s.instances[db]? = some path' →
        path'.path ≠ path.path) →
      s' = match io.openDb s.openPaths path with
      | some e => (s.lookingUp c path).refuse c ("Failed to open RocksDB for kanari: " ++ e)
      | none =>
        { (s.lookingUp c path).set c (.holding s.instances.length) with
          instances := s.instances ++ [path]
          registry := Function.update (s.lookingUp c path).registry path.path
            (some s.instances.length) } := by
    intro hnone
    rw [hs', run_missing hio.1 (hlook.lookup_missing hclient fun c' db path' hc' => ?_)]
    · rfl
    · by_cases hne : c' = c
      · rw [hne, hclient] at hc'
        cases hc'
      · exact hnone c' db path' ((hother c' hne).symm.trans hc')
  refine ⟨fun c' db path' hc' hdb hsame => ?_, fun hnone => ?_, fun c' hne => ?_⟩
  · rw [hfound c' db path' hc' hdb hsame, set_clients, if_pos rfl]
    exact ⟨rfl, rfl⟩
  · rw [hmissing hnone]
    cases hopen : io.openDb s.openPaths path with
    | some e =>
      have hheld : path ∈ s.openPaths := by
        by_contra hfree
        rw [(hio.2 s.openPaths path).mpr hfree] at hopen
        cases hopen
      rw [if_pos hheld]
      exact ⟨⟨e, rfl, by simp only [refuse, set_clients, if_pos]⟩, rfl⟩
    | none =>
      rw [if_neg ((hio.2 s.openPaths path).mp hopen)]
      exact ⟨by rw [set_clients, if_pos rfl], rfl, Function.update_self path.path _ _⟩
  · by_cases hheld : ∃ c₀ db path', s.clients c₀ = .holding db ∧
        s.instances[db]? = some path' ∧ path'.path = path.path
    · obtain ⟨c₀, db, path', hc₀, hdb, hsame⟩ := hheld
      rw [hfound c₀ db path' hc₀ hdb hsame, set_clients, if_neg hne, hother c' hne]
    · rw [hmissing fun c₀ db path' hc₀ hdb hsame => hheld ⟨c₀, db, path', hc₀, hdb, hsame⟩]
      cases io.openDb s.openPaths path with
      | some e => simp only [refuse, set_clients, if_neg hne, hother c' hne]
      | none => rw [set_clients, if_neg hne, hother c' hne]

theorem call_alone_opens_or_gets_second :
    let s := (initial Bool).run (secondLooks.take 5)
    s.clients false = .holding 0 ∧
      (s.openOrGetDb true (.error "gone") dataDb quietIo).clients true = .holding 0 := by
  have hfirst : ((initial Bool).run (secondLooks.take 5)).clients false = .holding 0 := by
    decide +kernel
  have htake : spellings (secondLooks.take 5) ⊆ {dataDb} := by
    rintro path ⟨c, cwd, dir, hmem, hpath⟩
    exact secondLooks_spellings ⟨c, cwd, dir, List.mem_of_mem_take hmem, hpath⟩
  have hone : OneSpelling (secondLooks.take 5) :=
    (Set.injOn_singleton PathText.path dataDb).mono htake
  have hlocks : LocksSpellings (secondLooks.take 5) :=
    fun c io hmem => secondLooks_locks c io (List.mem_of_mem_take hmem)
  have hcall := call_alone_opens_or_gets (secondLooks.take 5) hone hlocks (c := true)
    (by decide +kernel) (rfl : resolveDir (.error "gone") dataDb = .ok dataDb) quietIo_healthy
  exact ⟨hfirst, (hcall.1 false 0 dataDb hfirst (by decide +kernel) rfl).1⟩

end Run

end Databases

end Registry

end KanariEvm
