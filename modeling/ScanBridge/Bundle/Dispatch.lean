import ScanBridge.Bundle.Basic
import ScanBridge.Engine.Run

namespace ScanBridge

/-- The call an event of a kind amounts to, unless the data that it needs is missing. -/
def Event.call? (e : Event) (kind : EventKind) : Option Call :=
  match kind, e.data with
  | .ruleMatching, .rule r => some (.ruleMatching e.ctx r)
  | .ruleNotMatching, .rule r => some (.ruleNotMatching e.ctx r)
  | .scanFinished, _ => some (.scanFinished e.ctx)
  | .importModule, .request module _ => some (.importModule e.ctx (Text.ofTerminated module))
  | .moduleImported, .object o => some (.moduleImported e.ctx o)
  | _, _ => none

def Event.refuse {σ : Type} (e : Event) (state : σ) (w : World) : Answered σ :=
  ⟨⟨Verdict.error.code, e.data.slot⟩, state, w⟩

namespace Bundle

variable {σ : Type}

structure Injected (σ : Type) where
  bundle : Bundle σ
  slot : Slot
  world : World

/-- Satisfies an import request: the payload is copied to a buffer of its own, the bundle keeps the
buffer, and the request points to it. An empty payload, one above the limit and a closed bundle
leave the request as it is. -/
def inject (b : Bundle σ) (module : String) (payload : Bytes) (slot : Slot) (w : World) :
    Injected σ :=
  let tooLarge := b.options.maxModuleData.filter (· < payload.length)
  match payload, tooLarge with
  | [], _ => ⟨b, slot, w⟩
  | _ :: _, some limit => ⟨b, slot, w.notify (.tooLarge module payload.length limit)⟩
  | _ :: _, none =>
    let address := w.heap.next
    let offered := b.tracker.track address (w.heap.alloc .bundle payload)
    let w := { w with heap := offered.heap }
    if offered.accepted then
      { bundle := { b with
          tracker := offered.tracker
          stats := { b.stats with
            importBuffers := b.stats.importBuffers + 1
            importBytes := b.stats.importBytes + payload.length } }
        slot := ⟨some (.heap address), payload.length⟩
        world := w.notify (.injected module payload.length) }
    else ⟨b, slot, w.notify (.rejected module)⟩

structure Delivered (σ : Type) where
  outcome : Except BridgeError Control
  bundle : Bundle σ
  slot : Slot
  world : World

/-- Calls the callback with an event that has its data. The event counts as delivered whatever the
callback then does, and also if it no longer offers to handle the kind. -/
def invoke [ScanCallback σ] (b : Bundle σ) (call : Call) (slot : Slot) (w : World) :
    Delivered σ :=
  let asked := ScanCallback.offers b.callback call.kind
  let b := { b with stats := b.stats.count call.kind, callback := asked.2 }
  if asked.1 then
    let reaction := ScanCallback.call b.callback call w
    let b := { b with callback := reaction.state }
    match reaction.outcome, call with
    | .failed why, _ => ⟨.error (.callback why), b, slot, reaction.world⟩
    | .panicked, _ => ⟨.error (.panicked call.kind), b, slot, reaction.world⟩
    | .answer control payload, .importModule _ module =>
      let injected := b.inject module payload slot reaction.world
      ⟨.ok control, injected.bundle, injected.slot, injected.world⟩
    | .answer control _, _ => ⟨.ok control, b, slot, reaction.world⟩
  else ⟨.ok .continue, b, slot, w⟩

/-- Delivers an event of a kind; an event without its data is a failure and does not count. -/
def deliver [ScanCallback σ] (b : Bundle σ) (kind : EventKind) (e : Event) (w : World) :
    Delivered σ :=
  match e.call? kind with
  | none => ⟨.error (.missingEventData kind), b, e.data.slot, w⟩
  | some call => b.invoke call e.data.slot w

def settle (b : Bundle σ) (outcome : Except BridgeError Control) (w : World) : Bundle σ × World :=
  match outcome with
  | .error e => b.recordError e w
  | .ok .abort => ({ b with aborted := true }, w)
  | .ok .continue => (b, w)

/-- Answers an event that is for this bundle. One of unknown kind and one the callback did not offer
to handle pass without effect; the rest are delivered, and a failure of any sort becomes the verdict
`error`. -/
def handle [ScanCallback σ] (b : Bundle σ) (e : Event) (w : World) : Answered (Bundle σ) :=
  match EventKind.ofCode? e.code with
  | none =>
    { reply := ⟨Verdict.continue.code, e.data.slot⟩
      state := { b with stats := { b.stats with unknown := b.stats.unknown + 1 } }
      world := w.notify (.unknownEvent e.code) }
  | some kind =>
    if b.capabilities.has kind then
      let delivered := b.deliver kind e w
      let verdict := Verdict.ofOutcome delivered.outcome
      let settled := delivered.bundle.settle delivered.outcome delivered.world
      { reply := ⟨verdict.code, delivered.slot⟩
        state := settled.1
        world := settled.2.notify (.dispatched kind verdict) }
    else
      { reply := ⟨Verdict.continue.code, e.data.slot⟩
        state := { b with stats := { b.stats with skipped := b.stats.skipped + 1 } }
        world := w }

/-- Answers an event during a scan of this bundle. An event that stands for no running scan is
refused with a notice; one for another bundle is refused too, since that bundle waits for its own
callback to return. -/
def answer [ScanCallback σ] (e : Event) (b : Bundle σ) (w : World) : Answered (Bundle σ) :=
  match w.registry.resolve e.token with
  | none => e.refuse b (w.notify (.unroutable e.code))
  | some id => if id = b.id then b.handle e w else e.refuse b w

end Bundle

/-- Answers an event while no bundle is being scanned by its engine. -/
def answerUnattended (e : Event) (_ : Unit) (w : World) : Answered Unit :=
  match w.registry.resolve e.token with
  | none => e.refuse () (w.notify (.unroutable e.code))
  | some _ => e.refuse () w

end ScanBridge
