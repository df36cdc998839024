import ScanBridge.Session.Report

namespace ScanBridge

/-- What to do on the calls for an event: on those about `subject`, and of these on the `nth`,
counted from 1; on all where one of the two is absent. The first directive that applies to a call is
followed. `ν` is what stands for steps to run. -/
structure Directive (ν : Type) where
  event : EventKind
  subject : Option String := none
  nth : Option Nat := none
  captures : Bool := false
  nested : Option ν := none
  offers : Option Capabilities := none
  panics : Bool := false
  fails : Option (List String) := none
  aborts : Bool := false
  payload : Option Bytes := none

def Directive.applies {ν : Type} (d : Directive ν) (event : EventKind) (subject : String)
    (n : Nat) : Bool :=
  d.event = event && d.subject.all (· = subject) && d.nth.all (· = n)

structure Inner where
  reports : List Report
  failure : Option Failure
  world : World

/-- A callback that writes down every call and follows directives: on a certain call it may run
steps of its own, change what it offers, panic, fail, abort, or hand out other module data. -/
structure Journal where
  offered : Capabilities := .every
  modules : List (String × Bytes) := []
  lookup : List String := []
  directives : List (Directive (World → Inner)) := []
  heard : EventKind → Nat := fun _ => 0
  calls : List (CallNote Report) := []

def Call.subject : Call → String
  | .ruleMatching _ r | .ruleNotMatching _ r => r.name
  | .scanFinished _ => ""
  | .importModule _ module => module
  | .moduleImported _ o => o.name

def Call.rule? : Call → Option (Option Layout.Context × Layout.Rule)
  | .ruleMatching ctx r | .ruleNotMatching ctx r => some (ctx, r)
  | _ => none

namespace Journal

def told (j : Journal) : Call → Told
  | .ruleMatching ctx r | .ruleNotMatching ctx r =>
    .rule r.name r.namespaceName r.tagNames r.metaEntries (j.lookup.map r.meta?)
      (r.matchStrings ctx)
  | .scanFinished _ => .finished
  | .importModule _ module => .request module
  | .moduleImported _ o => .imported o.name o.type

def afterReadings (r : Layout.Rule) : Nat → World → World
  | 0, w => w
  | n + 1, w => afterReadings r n (w.notifyUnknownMetas r)

def payload (j : Journal) (module : String) : Bytes :=
  ((j.modules.find? (·.1 = module)).map (·.2)).getD []

/-- How a call ends that `d` applies to. A failure of steps that were run goes first. -/
def outcome (j : Journal) (c : Call) (d : Directive (World → Inner)) (inner : Option Failure) :
    Outcome :=
  let control := if d.aborts then Control.abort else .continue
  match inner, d.panics, d.fails, c with
  | some why, _, _, _ => .failed why
  | none, true, _, _ => .panicked
  | none, false, some chain, _ => .failed (.ofChain chain)
  | none, false, none, .importModule _ module =>
    .answer control (d.payload.getD (j.payload module))
  | none, false, none, _ => .answer control []

/-- One call. A rule's metadata is read once for the note, once for each name looked up, and once
more for a capture. -/
def react (j : Journal) (c : Call) (w : World) : Reaction Journal :=
  let n := j.heard c.kind + 1
  let d := (j.directives.find? (·.applies c.kind c.subject n)).getD { event := c.kind }
  let live := w.live
  let capture :=
    c.rule?.bind fun r => if d.captures then some (MatchRecord.capture r.1 r.2) else none
  let w := match c.rule? with
    | none => w
    | some r => afterReadings r.2 (1 + j.lookup.length + capture.toList.length) w
  let inner := d.nested.map (· w)
  let note : CallNote Report :=
    { event := c.kind, live, told := j.told c, capture, nested := inner.map (·.reports) }
  { outcome := j.outcome c d (inner.bind (·.failure))
    state := { j with
      offered := d.offers.getD j.offered
      heard := fun k => if k = c.kind then n else j.heard k
      calls := j.calls ++ [note] }
    world := (inner.map (·.world)).getD w }

end Journal

instance : ScanCallback Journal where
  offers j k := (j.offered.has k, j)
  call := Journal.react

end ScanBridge
