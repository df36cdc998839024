import ScanBridge.Failure
import ScanBridge.Layout.Read

namespace ScanBridge

inductive Level
  | debug
  | info
  | warn
  deriving DecidableEq, Repr

namespace Level

def rank : Level → Nat
  | .debug => 0
  | .info => 1
  | .warn => 2

def name : Level → String
  | .debug => "DEBUG"
  | .info => "INFO"
  | .warn => "WARN"

end Level

inductive Field
  | number (n : Int)
  | truth (b : Bool)
  | text (s : String)
  deriving DecidableEq, Repr

/-- What is worth telling about a run while it goes on. -/
inductive Notice
  | registered
  | released
  | unroutable (code : Int32)
  | unknownEvent (code : Int32)
  | dispatched (event : EventKind) (verdict : Verdict)
  | discarded (error : BridgeError)
  | incapable
  | injected (module : String) (size : Nat)
  | tooLarge (module : String) (size limit : Nat)
  | rejected (module : String)
  | unknownMeta (name : String) (kind : Int32)
  | releasing (buffers : Nat)
  | finished (delivered skipped : Nat) (aborted : Bool)
  | collected (records : Nat)
  | emitted (code : Int32) (verdict : Option Verdict)
  deriving DecidableEq, Repr

namespace Notice

def level : Notice → Level
  | .unroutable _ | .discarded _ | .incapable | .tooLarge .. | .rejected _ => .warn
  | .collected _ => .info
  | _ => .debug

def text : Notice → String
  | .registered => "registered scan callback"
  | .released => "released scan callback"
  | .unroutable _ => "dropping unroutable scan event"
  | .unknownEvent _ => "ignoring unknown scan event"
  | .dispatched .. => "dispatched scan event"
  | .discarded _ => "additional scan callback error discarded"
  | .incapable => "scan callback implements no capabilities; every event will be skipped"
  | .injected .. => "injected module data"
  | .tooLarge .. => "module data exceeds limit; import left unsatisfied"
  | .rejected _ => "import buffer rejected; import left unsatisfied"
  | .unknownMeta .. => "skipping meta with unknown type"
  | .releasing _ => "releasing import buffers"
  | .finished .. => "scan finished"
  | .collected _ => "collected rule matches"
  | .emitted .. => "scripted event emitted"

/-- A verdict as a field shows it; a code that is none shows as `None`. -/
def verdictText : Option Verdict → String
  | none => "None"
  | some v => "Some(" ++ v.name ++ ")"

def fields : Notice → List (String × Field)
  | .registered | .released | .incapable => []
  | .unroutable code | .unknownEvent code => [("message", .number code.toInt)]
  | .dispatched event verdict => [("event", .text event.name), ("verdict", .text verdict.name)]
  | .discarded error => [("error", .text error.message)]
  | .injected module size => [("module", .text module), ("size", .number size)]
  | .tooLarge module size limit =>
    [("module", .text module), ("size", .number size), ("limit", .number limit)]
  | .rejected module =>
    [("module", .text module), ("error", .text BridgeError.closed.message)]
  | .unknownMeta name kind => [("meta", .text name), ("kind", .number kind.toInt)]
  | .releasing buffers => [("buffers", .number buffers)]
  | .finished delivered skipped aborted =>
    [("delivered", .number delivered), ("skipped", .number skipped), ("aborted", .truth aborted)]
  | .collected records => [("matches", .number records)]
  | .emitted code verdict =>
    [("code", .number code.toInt), ("verdict", .text (verdictText verdict))]

end Notice

end ScanBridge
