import KanariEvm.Primitives

namespace KanariEvm

/-- `serde_json::Value`. A number that is no unsigned integer is kept as it is written: nothing
reads its value. -/
inductive Json
  | null
  | bool (b : Bool)
  | num (n : ℕ)
  | real (text : List Char)
  | str (s : List Char)
  | arr (items : List Json)
  | obj (fields : List (String × Json))

namespace Json

def get (v : Json) (key : String) : Option Json :=
  match v with
  | .obj fields => fields.lookup key
  | _ => none

def asStr : Json → Option (List Char)
  | .str s => some s
  | _ => none

def isNull : Json → Bool
  | .null => true
  | _ => false

def erase (fields : List (String × Json)) (key : String) : List (String × Json) :=
  fields.filter fun f => f.1 ≠ key

def insert (fields : List (String × Json)) (key : String) (v : Json) : List (String × Json) :=
  erase fields key ++ [(key, v)]

end Json

theorem eq_str_of_asStr {v : Json} {s : List Char} (h : v.asStr = some s) : v = .str s := by
  cases v with
  | str t =>
    cases h
    rfl
  | null => cases h
  | bool b => cases h
  | num n => cases h
  | real text => cases h
  | arr items => cases h
  | obj fields => cases h

end KanariEvm
