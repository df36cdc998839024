import ScanBridge.Memory.Heap

namespace ScanBridge

/-- The import buffers one bundle holds. They are released together, and with that the tracker is
sealed: it holds nothing and accepts nothing any more. -/
inductive Tracker
  | active (held : List Nat)
  | sealed
  deriving DecidableEq, Repr

namespace Tracker

def held : Tracker → List Nat
  | .active held => held
  | .sealed => []

def pending (t : Tracker) : Nat := t.held.length

def isSealed : Tracker → Bool
  | .active _ => false
  | .sealed => true

structure Offered where
  accepted : Bool
  tracker : Tracker
  heap : Heap

/-- Offers a buffer. A sealed tracker refuses it and it is released at once. -/
def track (t : Tracker) (address : Nat) (h : Heap) : Offered :=
  match t with
  | .active held => ⟨true, .active (held ++ [address]), h⟩
  | .sealed => ⟨false, .sealed, h.free .bundle address⟩

/-- Seals the tracker and takes out what it held, which is then to be released. -/
def drain (t : Tracker) : List Nat × Tracker := (t.held, .sealed)

structure Released where
  count : Nat
  tracker : Tracker
  heap : Heap

def releaseAll (t : Tracker) (h : Heap) : Released :=
  let drained := t.drain
  ⟨drained.1.length, drained.2, h.freeAll .bundle drained.1⟩

end Tracker

end ScanBridge
