import ScanBridge.World

namespace ScanBridge

/-- The two fields of an import request that the answer may overwrite. -/
structure Slot where
  data : Option Pointer := none
  size : Nat := 0
  deriving DecidableEq, Repr

inductive EventData
  | null
  | rule (r : Layout.Rule)
  | request (module : Layout.Terminated) (slot : Slot)
  | object (o : Layout.Object)
  deriving Repr

def EventData.slot : EventData → Slot
  | .request _ slot => slot
  | _ => {}

structure Event where
  token : Token
  code : Int32
  ctx : Option Layout.Context := none
  data : EventData := .null
  deriving Repr

structure Reply where
  verdict : Int32
  slot : Slot

/-- What an engine does from a point on: it reports an event and goes on as the reply tells it,
looks at memory, or ends with what is left of it, an `α`. Every run is finite, and any engine is
such a tree. -/
inductive Run (α : Type)
  | finish (status : Int32) (left : α)
  | panic (left : α)
  | notify (n : Notice) (rest : Run α)
  | look (k : World → Run α)
  | emit (event : Event) (k : Reply → Run α)

def Run.map {α β : Type} (f : α → β) : Run α → Run β
  | .finish status left => .finish status (f left)
  | .panic left => .panic (f left)
  | .notify n rest => .notify n (rest.map f)
  | .look k => .look fun w => (k w).map f
  | .emit event k => .emit event fun reply => (k reply).map f

inductive Ending
  | status (code : Int32)
  | panicked
  deriving DecidableEq, Repr

structure Answered (σ : Type) where
  reply : Reply
  state : σ
  world : World

structure Driven (α σ : Type) where
  ending : Ending
  engine : α
  state : σ
  world : World

/-- Runs an engine against `answer`, which carries a state of its own from event to event. -/
def Run.drive {α σ : Type} (answer : Event → σ → World → Answered σ) :
    Run α → σ → World → Driven α σ
  | .finish status left, s, w => ⟨.status status, left, s, w⟩
  | .panic left, s, w => ⟨.panicked, left, s, w⟩
  | .notify n rest, s, w => rest.drive answer s (w.notify n)
  | .look k, s, w => (k w).drive answer s w
  | .emit event k, s, w =>
    (k (answer event s w).reply).drive answer (answer event s w).state (answer event s w).world

/-- Engines of type `ε`: what one does with the token it is given. -/
class Engine (ε : Type) where
  run : ε → Token → Run ε

end ScanBridge
