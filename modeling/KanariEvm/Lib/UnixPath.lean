import Mathlib.Data.List.DropRight

namespace UnixPath

/-- A name in a directory: bytes without a slash, other than `.` and `..`. -/
@[ext]
structure FileName where
  bytes : List UInt8
  ne_nil : bytes ≠ []
  ne_dot : bytes ≠ [0x2e]
  ne_dots : bytes ≠ [0x2e, 0x2e]
  noSlash : 0x2f ∉ bytes
deriving DecidableEq

def encode (text : List Char) : List UInt8 := text.flatMap String.utf8EncodeChar

theorem encode_append (s t : List Char) : encode (s ++ t) = encode s ++ encode t :=
  List.flatMap_append

/-- `OsStr::to_str`: the text of bytes that are UTF-8. -/
def toStr (bytes : List UInt8) : Option (List Char) :=
  bytes.toByteArray.utf8Decode?.map Array.toList

theorem toStr_encode (text : List Char) : toStr (encode text) = some text := by
  have h : (encode text).toByteArray.utf8Decode? = some text.toArray := List.utf8Decode?_utf8Encode
  rw [toStr, h]
  rfl

theorem encode_of_toStr {bytes : List UInt8} {text : List Char} (h : toStr bytes = some text) :
    encode text = bytes := by
  obtain ⟨chars, hchars, rfl⟩ := Option.map_eq_some_iff.mp h
  have hsome : bytes.toByteArray.utf8Decode?.isSome := by rw [hchars, Option.isSome_some]
  have hget : bytes.toByteArray.utf8Decode?.get hsome = chars := by simp [hchars]
  have harray : (encode chars.toList).toByteArray = bytes.toByteArray := by
    rw [← hget]
    exact ByteArray.utf8Encode_get_utf8Decode?
  have hlist := congrArg (fun b => b.data.toList) harray
  simpa only [List.toList_data_toByteArray] using hlist

theorem encode_injective {s t : List Char} (h : encode s = encode t) : s = t := by
  have hstr := congrArg toStr h
  rwa [toStr_encode, toStr_encode, Option.some.injEq] at hstr

/-- `Path::file_stem`: the name less its last extension. A dot in front starts no extension. -/
def fileStem (name : FileName) : List UInt8 :=
  let before := (name.bytes.rdropWhile (· ≠ 0x2e)).dropLast
  if before = [] then name.bytes else before

theorem fileStem_subset (name : FileName) : fileStem name ⊆ name.bytes := by
  intro b hb
  simp only [fileStem] at hb
  split_ifs at hb with hbare
  · exact hb
  · exact (List.rdropWhile_prefix _ _).subset (List.dropLast_subset _ hb)

def FileName.ending (base : List UInt8) (text : List Char) (hbase : 0x2f ∉ base)
    (hlong : 2 < (encode text).length) (htext : 0x2f ∉ encode text) : FileName where
  bytes := base ++ encode text
  ne_nil := by
    intro h
    have hlen := congrArg List.length h
    rw [List.length_append, List.length_nil] at hlen
    omega
  ne_dot := by
    intro h
    have hlen := congrArg List.length h
    rw [List.length_append, List.length_singleton] at hlen
    omega
  ne_dots := by
    intro h
    have hlen := congrArg List.length h
    rw [List.length_append, List.length_cons, List.length_singleton] at hlen
    omega
  noSlash := by
    rw [List.mem_append, not_or]
    exact ⟨hbase, htext⟩

inductive Anchor
  | root
  | here
  | bare
deriving DecidableEq

inductive Component
  | parentDir
  | normal (name : FileName)
deriving DecidableEq

/-- A path, as `Path` compares it: by its components. -/
structure Path where
  anchor : Anchor
  components : List Component
deriving DecidableEq

namespace Path

def fileName (p : Path) : Option FileName :=
  match p.components.getLast? with
  | some (.normal name) => some name
  | _ => none

/-- `parent`: the path without its last component. -/
def parent (p : Path) : Option Path :=
  if p.components ≠ [] then some { p with components := p.components.dropLast }
  else match p.anchor with
    | .here => some ⟨.bare, []⟩
    | _ => none

def join (p : Path) (name : FileName) : Path :=
  { p with components := p.components ++ [.normal name] }

variable {D : Type}

/-- A path as an entry of a directory: the directory, as the file system finds it, and the name. -/
def entry (locate : Path → D) (p : Path) : Option (D × FileName) :=
  p.parent.bind fun dir => p.fileName.map fun name => (locate dir, name)

theorem parent_join (p : Path) (name : FileName) : (p.join name).parent = some p := by
  simp [parent, join]

theorem fileName_join (p : Path) (name : FileName) : (p.join name).fileName = some name := by
  simp [fileName, join]

theorem entry_join (locate : Path → D) (p : Path) (name : FileName) :
    (p.join name).entry locate = some (locate p, name) := by
  rw [entry, parent_join, fileName_join, Option.bind_some, Option.map_some]

theorem entry_eq_some_iff {locate : Path → D} {p : Path} {dir : D} {name : FileName} :
    p.entry locate = some (dir, name) ↔
      ∃ d, p.parent = some d ∧ locate d = dir ∧ p.fileName = some name := by
  rw [entry, Option.bind_eq_some_iff]
  apply exists_congr
  intro d
  rw [Option.map_eq_some_iff]
  constructor
  · rintro ⟨hparent, name', hname, hpair⟩
    cases hpair
    exact ⟨hparent, rfl, hname⟩
  · rintro ⟨hparent, rfl, hname⟩
    exact ⟨hparent, name, hname, rfl⟩

end Path

/-- A path as it is spelled, which is how the system and foreign libraries receive it. -/
abbrev PathText := List UInt8

theorem noSlash_of_mem_splitOn {text : PathText} :
    ∀ piece ∈ text.splitOn 0x2f, (0x2f : UInt8) ∉ piece := by
  induction text with
  | nil =>
    intro piece hpiece
    rw [List.splitOn_nil, List.mem_singleton] at hpiece
    rw [hpiece]
    exact List.not_mem_nil
  | cons b text ih =>
    intro piece hpiece
    obtain ⟨first, rest, hsplit⟩ := List.exists_cons_of_ne_nil (List.splitOn_ne_nil 0x2f text)
    rw [hsplit] at ih
    rw [List.splitOn_cons_eq_if_modifyHead, hsplit] at hpiece
    split_ifs at hpiece with hslash
    · rcases List.mem_cons.mp hpiece with rfl | hpiece
      · exact List.not_mem_nil
      · exact ih piece hpiece
    · rcases List.mem_cons.mp hpiece with rfl | hpiece
      · rw [List.mem_cons, not_or]
        refine ⟨fun heq => hslash (by rw [← heq, beq_self_eq_true]), ih first List.mem_cons_self⟩
      · exact ih piece (List.mem_cons_of_mem _ hpiece)

/-- What a piece between slashes stands for: an empty one and `.` are left out. -/
def component (piece : List UInt8) (noSlash : 0x2f ∉ piece) : Option Component :=
  if ne_nil : piece = [] then none
  else if ne_dot : piece = [0x2e] then none
  else if ne_dots : piece = [0x2e, 0x2e] then some .parentDir
  else some (.normal ⟨piece, ne_nil, ne_dot, ne_dots, noSlash⟩)

namespace PathText

def isAbsolute (text : PathText) : Bool := text.head? = some 0x2f

/-- `join`: an absolute path replaces what it is joined to. -/
def join (base text : PathText) : PathText :=
  if text.isAbsolute then text
  else if base.getLast?.all (· = 0x2f) then base ++ text
  else base ++ 0x2f :: text

/-- `components`: repeated slashes, a slash at the end and dots inside are not seen. -/
def path (text : PathText) : Path where
  anchor :=
    if text.isAbsolute then .root
    else if (text.splitOn 0x2f).head? = some [0x2e] then .here
    else .bare
  components := (text.splitOn 0x2f).attach.filterMap fun piece =>
    component piece.1 (noSlash_of_mem_splitOn piece.1 piece.2)

end PathText

end UnixPath
