/-!
JSON values as serde_json has them, and the lookups that readers of a message use.
-/
namespace XitForge.JsonValue

/-- A number is a `u64`, a negative `i64`, or a double, which is kept by its bits. -/
inductive Number where
  | posInt (n : UInt64)
  | negInt (n : Int)
  | float (bits : UInt64)
  deriving DecidableEq, Repr

inductive Value where
  | null
  | bool (b : Bool)
  | number (n : Number)
  | string (s : String)
  | array (items : List Value)
  | object (entries : List (String × Value))

namespace Value

/-- `get` of a key: only objects have any. -/
def get (key : String) : Value → Option Value
  | object entries => (entries.find? fun entry => entry.1 == key).map Prod.snd
  | _ => none

def asStr : Value → Option String
  | string s => some s
  | _ => none

def asU64 : Value → Option UInt64
  | number (.posInt n) => some n
  | _ => none

end Value

end XitForge.JsonValue
