import ScanBridge.Bundle.Scan

namespace ScanBridge

/-- Everything an event says about its rule, kept on its own. -/
structure MatchRecord where
  rule : String
  ns : String
  tags : List String
  metadata : MetaMap
  strings : List MatchString
  deriving DecidableEq

def MatchRecord.capture (ctx : Option Layout.Context) (r : Layout.Rule) : MatchRecord where
  rule := r.name
  ns := r.namespaceName
  tags := r.tagNames
  metadata := .ofList r.metaEntries
  strings := r.matchStrings ctx

structure MatchRecorder where
  records : List MatchRecord := []
  deriving DecidableEq

/-- Offers to handle matching rules only, records each and lets the scan go on. -/
instance : ScanCallback MatchRecorder where
  offers r k := (k = .ruleMatching, r)
  call r c w :=
    match c with
    | .ruleMatching ctx rule =>
      { outcome := .answer .continue []
        state := ⟨r.records ++ [MatchRecord.capture ctx rule]⟩
        world := w.notifyUnknownMetas rule }
    | _ => ⟨.answer .continue [], r, w⟩

inductive Collected
  | records (rs : List MatchRecord)
  | failed (error : BridgeError)
  | enginePanicked
  deriving DecidableEq

/-- Scans once with a recorder of its own. The records, the engine and the world after the scan. -/
def scanMatches {ε : Type} [Engine ε] (engine : ε) (w : World) : Collected × ε × World :=
  let made := Bundle.new ({} : MatchRecorder) {} w
  let scanned := made.1.scan engine made.2
  let w := scanned.bundle.discard scanned.world
  match scanned.result with
  | .completed _ =>
    let records := scanned.bundle.callback.records
    (.records records, scanned.engine, w.notify (.collected records.length))
  | .failed e => (.failed e, scanned.engine, w)
  | .enginePanicked => (.enginePanicked, scanned.engine, w)

end ScanBridge
