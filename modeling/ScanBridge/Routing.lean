namespace ScanBridge

abbrev Token := UInt64

/-- The entries whose scans are running, each under its token. An engine hands back nothing but the
token it was given, so every event finds its way through this table. Tokens are not used twice until
the counter has run through all its values, and zero is no token. -/
structure Registry (τ : Type) where
  counter : UInt64 := 1
  live : List (Token × τ) := []
  deriving DecidableEq, Repr

namespace Registry

variable {τ : Type}

/-- The token the next registration gets. A counter that has run out gives the first token again. -/
def nextToken (r : Registry τ) : Token := if r.counter = 0 then 1 else r.counter

def release (r : Registry τ) (token : Token) : Registry τ :=
  { r with live := r.live.filter (·.1 ≠ token) }

def register (r : Registry τ) (entry : τ) : Registry τ :=
  { counter := r.counter + 1
    live := (r.nextToken, entry) :: r.live.filter (·.1 ≠ r.nextToken) }

def resolve (r : Registry τ) (token : Token) : Option τ :=
  if token = 0 then none else (r.live.find? (·.1 = token)).map (·.2)

def size (r : Registry τ) : Nat := r.live.length

end Registry

end ScanBridge
