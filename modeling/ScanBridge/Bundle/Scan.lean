import ScanBridge.Bundle.Dispatch

namespace ScanBridge

inductive ScanResult
  | completed (summary : Summary)
  | failed (error : BridgeError)
  | enginePanicked
  deriving DecidableEq, Repr

namespace Bundle

variable {σ ε : Type}

structure Scanned (σ ε : Type) where
  result : ScanResult
  bundle : Bundle σ
  engine : ε
  world : World

def cleared (b : Bundle σ) : Bundle σ := { b with error := none, aborted := false, stats := {} }

/-- The world with the bundle registered, under the token `w.registry.nextToken`. -/
def enrol (b : Bundle σ) (w : World) : World :=
  { w with registry := w.registry.register b.id }.notify .registered

def withdraw (token : Token) (w : World) : World :=
  { w with registry := w.registry.release token }.notify .released

/-- The end of a scan whose engine ended with a status. The first failure is handed out and not
kept. -/
def conclude (b : Bundle σ) (status : Int32) (w : World) : ScanResult × Bundle σ × World :=
  match b.error with
  | some e => (.failed e, { b with error := none }, w)
  | none =>
    if status = 0 then
      (.completed ⟨b.aborted, b.stats⟩, b,
        w.notify (.finished b.stats.delivered b.stats.skipped b.aborted))
    else (.failed (.engine status), b, w)

/-- Scans with an engine. The account is cleared, the bundle is registered under a fresh token while
the engine runs, and the result is the first failure, else the engine's own failure, else a summary.
A closed bundle is not scanned at all. -/
def scan [ScanCallback σ] [Engine ε] (b : Bundle σ) (engine : ε) (w : World) : Scanned σ ε :=
  if b.isClosed then ⟨.failed .closed, b, engine, w⟩
  else
    let token := w.registry.nextToken
    let driven := (Engine.run engine token).drive answer b.cleared (b.enrol w)
    let w := withdraw token driven.world
    match driven.ending with
    | .panicked => ⟨.enginePanicked, driven.state, driven.engine, w⟩
    | .status code =>
      let concluded := driven.state.conclude code w
      ⟨concluded.1, concluded.2.1, driven.engine, concluded.2.2⟩

end Bundle

end ScanBridge
