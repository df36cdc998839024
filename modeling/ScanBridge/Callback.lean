import ScanBridge.World

namespace ScanBridge

inductive Call
  | ruleMatching (ctx : Option Layout.Context) (rule : Layout.Rule)
  | ruleNotMatching (ctx : Option Layout.Context) (rule : Layout.Rule)
  | scanFinished (ctx : Option Layout.Context)
  | importModule (ctx : Option Layout.Context) (module : String)
  | moduleImported (ctx : Option Layout.Context) (object : Layout.Object)

def Call.kind : Call → EventKind
  | .ruleMatching .. => .ruleMatching
  | .ruleNotMatching .. => .ruleNotMatching
  | .scanFinished _ => .scanFinished
  | .importModule .. => .importModule
  | .moduleImported .. => .moduleImported

/-- How a call ends. The payload of an answer counts for an import request only; an empty one
leaves the request unsatisfied. -/
inductive Outcome
  | answer (control : Control) (payload : Bytes)
  | failed (why : Failure)
  | panicked

structure Reaction (σ : Type) where
  outcome : Outcome
  state : σ
  world : World

/-- The caller's side of a scan: an object of type `σ` offers some of the five capabilities and is
called with one event at a time. Asking for a capability may itself change it, so the answer need
not stay the same. -/
class ScanCallback (σ : Type) where
  offers : σ → EventKind → Bool × σ
  call : σ → Call → World → Reaction σ

/-- The capabilities that a callback offers now, asked for in the order of the codes, and the
callback after it was asked. -/
def probe {σ : Type} [ScanCallback σ] (callback : σ) : Capabilities × σ :=
  EventKind.all.foldl (fun (caps, s) k =>
    ((if (ScanCallback.offers s k).1 then caps.insert k else caps), (ScanCallback.offers s k).2))
    (.none, callback)

end ScanBridge
