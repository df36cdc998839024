import ScanBridge.Memory.Tracker
import ScanBridge.Notice
import ScanBridge.Routing

namespace ScanBridge

abbrev BundleId := Nat

/-- What all bundles and engines of a process share. -/
structure World where
  heap : Heap := {}
  registry : Registry BundleId := {}
  nextBundle : BundleId := 0
  notices : Array Notice := #[]

/-- What is held at a moment: import buffers not yet released, and scans that are running. -/
structure Live where
  buffers : Nat
  registrations : Nat
  deriving DecidableEq, Repr

namespace World

def live (w : World) : Live := ⟨w.heap.importBuffers.toNat, w.registry.size⟩

def notify (w : World) (n : Notice) : World := { w with notices := w.notices.push n }

/-- Gives notice of every metadata entry of a rule that is of no known type, as each reading of the
rule's metadata does. -/
def notifyUnknownMetas (w : World) (r : Layout.Rule) : World :=
  r.unknownMetas.foldl (fun w m => w.notify (.unknownMeta m.1 m.2)) w

/-- Releases what a tracker holds; nothing is said of a tracker that holds nothing. -/
def releaseAll (w : World) (t : Tracker) : Tracker.Released × World :=
  let released := t.releaseAll w.heap
  let w := if released.count = 0 then w else w.notify (.releasing released.count)
  (released, { w with heap := released.heap })

def release (w : World) (t : Tracker) : World := (w.releaseAll t).2

end World

end ScanBridge
