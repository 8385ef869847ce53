import KanariEvm.Dispatch

namespace KanariEvm

/-- A character of a string: quote, backslash and control characters are escaped. -/
def escapeChar (c : Char) : List Char :=
  let backslash := Char.ofNat 0x5c
  match c.toNat with
  | 0x08 => [backslash, 'b']
  | 0x09 => [backslash, 't']
  | 0x0a => [backslash, 'n']
  | 0x0c => [backslash, 'f']
  | 0x0d => [backslash, 'r']
  | 0x22 => [backslash, c]
  | 0x5c => [backslash, c]
  | n => if n < 0x20 then backslash :: 'u' :: hexFixed 4 n else [c]

def writeString (s : List Char) : List Char :=
  Char.ofNat 0x22 :: s.flatMap escapeChar ++ [Char.ofNat 0x22]

mutual

def Json.write : Json → List Char
  | .null => "null".toList
  | .bool b => (if b then "true" else "false").toList
  | .num n => Nat.toDigits 10 n
  | .real text => text
  | .str s => writeString s
  | .arr [] => "[]".toList
  | .arr (item :: items) => '[' :: item.write ++ Json.writeItems items
  | .obj [] => [Char.ofNat 0x7b, Char.ofNat 0x7d]
  | .obj (field :: fields) =>
    Char.ofNat 0x7b :: Json.writeField field ++ Json.writeFields fields

def Json.writeItems : List Json → List Char
  | [] => [']']
  | item :: items => ',' :: item.write ++ Json.writeItems items

def Json.writeField : String × Json → List Char
  | (key, v) => writeString key.toList ++ ':' :: v.write

def Json.writeFields : List (String × Json) → List Char
  | [] => [Char.ofNat 0x7d]
  | field :: fields => ',' :: Json.writeField field ++ Json.writeFields fields

end

namespace Server

structure RpcRequest where
  jsonrpc : Option (List Char)
  id : Json
  method : List Char
  params : Json

def optionalText : Json → Option (Option (List Char))
  | .null => some none
  | .str s => some (some s)
  | _ => none

def requestOf (jsonrpc id method params : Option Json) : Option RpcRequest := do
  let jsonrpc ← match jsonrpc with
    | none => some none
    | some v => optionalText v
  let method ← method.bind Json.asStr
  return ⟨jsonrpc, id.getD .null, method, params.getD .null⟩

/-- `serde_json::from_value::<RpcRequest>`: an object by its keys, an array by position. -/
def RpcRequest.fromValue : Json → Option RpcRequest
  | .obj fields => requestOf (fields.lookup "jsonrpc") (fields.lookup "id")
      (fields.lookup "method") (fields.lookup "params")
  | .arr items =>
    if items.length ≤ 4 then requestOf items[0]? items[1]? items[2]? items[3]? else none
  | _ => none

def ok (id result : Json) : Json :=
  .obj [("jsonrpc", .text "2.0"), ("id", id), ("result", result)]

def err (id : Json) (code : Int) (message : String) : Json :=
  .obj [("jsonrpc", .text "2.0"), ("id", id),
    ("error", .obj [("code", .real (toString code).toList), ("message", .text message)])]

def parseError : Json := err .null (-32700) "parse error"

def invalidRequest : Json := err .null (-32600) "invalid request"

def emptyBatch : Json := .arr [err .null (-32600) "empty batch"]

def respond (id : Json) : Except RpcError Json → Json
  | .ok result => ok id result
  | .error e => err id e.code e.message

section Handler

variable (P : Platform) (W : Wallet) (ratio : U64 × U64 → List Char)

/-- `dispatch`; what it logs has no effect. -/
def dispatch (node : KanariNode) (io : RpcIo) (req : RpcRequest) : Outcome (KanariNode × Json) :=
  match methodNames.lookup (String.ofList req.method) with
  | none => .returned (node,
      err req.id (-32601) ("Method not found: " ++ String.ofList req.method))
  | some method => do
    let (node, answer) ← arm P W ratio io node req.params method
    return (node, respond req.id answer)

def handleItem (node : KanariNode) (io : RpcIo) (item : Json) : Outcome (KanariNode × Json) :=
  match RpcRequest.fromValue item with
  | none => .returned (node, parseError)
  | some req => dispatch P W ratio node io req

/-- The loop over a batch; each item meets the node that the items before it left. -/
def handleBatch (node : KanariNode) (io : ℕ → RpcIo) :
    List Json → Outcome (KanariNode × List Json)
  | [] => .returned (node, [])
  | item :: items => do
    let (node, response) ← handleItem P W ratio node (io 0) item
    let (node, responses) ← handleBatch node (fun i => io (i + 1)) items
    return (node, response :: responses)

def summaryMax : ℕ := 160

def summarize (v : Json) : Outcome (List Char) :=
  let s := v.write
  let len := (utf8 s).length
  if summaryMax < len then do
    let head ← Outcome.textTo summaryMax s
    return head ++ "…(".toList ++ Nat.toDigits 10 len ++ "B)".toList
  else return s

/-- A body is logged first: a single request with its parameters, a batch with its methods only. -/
def logBody : Json → Outcome Unit
  | .obj fields => do
    let _ ← summarize ((fields.lookup "params").getD .null)
    return ()
  | _ => return ()

/-- `inner_handle_rpc`; the items of a batch are served one after the other, under `io 0`, `io 1`
and so on. -/
def innerHandleRpc (node : KanariNode) (io : ℕ → RpcIo) (body : Json) :
    Outcome (KanariNode × Json) := do
  logBody body
  match body with
  | .arr [] => return (node, emptyBatch)
  | .arr items => do
    let (node, responses) ← handleBatch P W ratio node io items
    return (node, .arr responses)
  | .obj _ => handleItem P W ratio node (io 0) body
  | _ => return (node, invalidRequest)

end Handler

end Server

end KanariEvm
