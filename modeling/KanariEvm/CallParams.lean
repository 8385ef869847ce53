import KanariEvm.Fork
import KanariEvm.Lib.Outcome

namespace KanariEvm

abbrev JsonFields := List (String × Json)

def parseBytes (v : Json) : Except String Bytes :=
  match v.asStr.bind bytesFromStr with
  | some bytes => .ok bytes
  | none => .error "invalid bytes (want 0x-hex)"

def parseU256 (v : Json) : Except String U256 :=
  match v.asStr with
  | none => .error "want 0x quantity"
  | some s =>
    match uintFromStrRadix16 256 (trimStart0x s) with
    | some n => .ok n
    | none => .error "invalid 0x quantity"

/-- `u.to::<u128>()`: panics when the value does not fit. -/
def U256.toU128 (u : U256) : Outcome U128 :=
  if u.toNat < 2 ^ 128 then .returned (u.setWidth 128) else .panicked

abbrev Parsed (α : Type) := ExceptT String Outcome α

def takeParsed {α : Type} (obj : JsonFields) (key : String) (parse : Json → Parsed α) :
    Parsed (Option α) :=
  match obj.lookup key with
  | none => pure none
  | some .null => pure none
  | some v => some <$> parse v

/-- The field `data`, or its alias `input` where there is no `data`. -/
def callData (obj : JsonFields) : Except String (Option Bytes) :=
  match obj.lookup "data", obj.lookup "input" with
  | some v, _ => some <$> parseBytes v
  | none, some v => some <$> parseBytes v
  | none, none => .ok none

/-- Build a `CallRequest` from an `eth_call`/`eth_estimateGas` params object. -/
def callRequestFromJson (obj : JsonFields) : Parsed CallRequest := do
  let data ← ofExcept (callData obj)
  let fromAddr ← takeParsed obj "from" fun v => ofExcept (parseAddress v)
  let toAddr ← takeParsed obj "to" fun v => ofExcept (parseAddress v)
  let value ← takeParsed obj "value" fun v => ofExcept (parseU256 v)
  let gas ← takeParsed obj "gas" fun v => ofExcept (parseU64 v)
  let gasPrice ← takeParsed obj "gasPrice" fun v => do
    let u ← ofExcept (parseU256 v)
    ExceptT.lift u.toU128
  let nonce ← takeParsed obj "nonce" fun v => ofExcept (parseU64 v)
  return { fromAddr, toAddr, data, value, gas, gasPrice, nonce }

end KanariEvm
