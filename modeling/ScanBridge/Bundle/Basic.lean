import ScanBridge.Callback

namespace ScanBridge

structure ScanOptions where
  /-- The greatest payload that satisfies an import request; no limit if absent. -/
  maxModuleData : Option Nat := none
  deriving DecidableEq, Repr

/-- The events of a scan by what became of them. Those of a kind that the callback did not offer
were `skipped`, those of no known kind `unknown`. -/
structure Stats where
  rulesMatching : Nat := 0
  rulesNotMatching : Nat := 0
  scansFinished : Nat := 0
  importsRequested : Nat := 0
  modulesImported : Nat := 0
  skipped : Nat := 0
  unknown : Nat := 0
  importBuffers : Nat := 0
  importBytes : Nat := 0
  deriving DecidableEq, Repr

namespace Stats

def count (s : Stats) : EventKind → Stats
  | .ruleMatching => { s with rulesMatching := s.rulesMatching + 1 }
  | .ruleNotMatching => { s with rulesNotMatching := s.rulesNotMatching + 1 }
  | .scanFinished => { s with scansFinished := s.scansFinished + 1 }
  | .importModule => { s with importsRequested := s.importsRequested + 1 }
  | .moduleImported => { s with modulesImported := s.modulesImported + 1 }

def delivered (s : Stats) : Nat :=
  s.rulesMatching + s.rulesNotMatching + s.scansFinished + s.importsRequested + s.modulesImported

@[simp] theorem delivered_count (s : Stats) (k : EventKind) :
    (s.count k).delivered = s.delivered + 1 := by
  cases k <;> simp only [count, delivered] <;> omega

end Stats

structure Summary where
  aborted : Bool := false
  stats : Stats := {}
  deriving DecidableEq, Repr

/-- A bundle holds a callback, the capabilities it offered when the bundle was made, the import
buffers handed out on its behalf, and the account of the scan that runs or ran last. -/
structure Bundle (σ : Type) where
  id : BundleId
  callback : σ
  capabilities : Capabilities
  tracker : Tracker := .active []
  options : ScanOptions := {}
  stats : Stats := {}
  aborted : Bool := false
  error : Option BridgeError := none

namespace Bundle

variable {σ : Type}

/-- A new bundle. The callback is asked once, here, what it offers. -/
def new [ScanCallback σ] (callback : σ) (options : ScanOptions) (w : World) : Bundle σ × World :=
  let probed := probe callback
  let w := if probed.1.isEmpty then w.notify .incapable else w
  ({ id := w.nextBundle, callback := probed.2, capabilities := probed.1, options },
    { w with nextBundle := w.nextBundle + 1 })

def pending (b : Bundle σ) : Nat := b.tracker.pending

def isClosed (b : Bundle σ) : Bool := b.tracker.isSealed

structure Closed (σ : Type) where
  released : Nat
  bundle : Bundle σ
  world : World

/-- Releases the import buffers and closes the bundle for further scans. -/
def close (b : Bundle σ) (w : World) : Closed σ :=
  let released := w.releaseAll b.tracker
  ⟨released.1.count, { b with tracker := released.1.tracker }, released.2⟩

def discard (b : Bundle σ) (w : World) : World := w.release b.tracker

/-- Keeps the first failure of a scan and gives notice of later ones. -/
def recordError (b : Bundle σ) (e : BridgeError) (w : World) : Bundle σ × World :=
  match b.error with
  | none => ({ b with error := some e }, w)
  | some _ => (b, w.notify (.discarded e))

end Bundle

end ScanBridge
