namespace ScanBridge.Json

/-- A number is either an exact integer of 64 bits or a number of another kind, which is kept as it
was written. -/
inductive Value
  | null
  | boolean (b : Bool)
  | integer (n : Int)
  | real (literal : String)
  | string (s : String)
  | array (items : List Value)
  | object (members : List (String × Value))
  deriving Repr

/-- Why a text is no JSON: it stops too early, or a character stands where it must not. -/
inductive Fault
  | ended
  | malformed
  deriving DecidableEq, Repr

end ScanBridge.Json
