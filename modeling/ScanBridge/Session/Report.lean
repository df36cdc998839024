import ScanBridge.Engine.Listed
import ScanBridge.Engine.ReplyList
import ScanBridge.Engine.Scripted
import ScanBridge.Record.Basic
import ScanBridge.Script.Document

namespace ScanBridge

structure BundleState where
  capabilities : Capabilities
  pending : Nat
  closed : Bool
  deriving DecidableEq, Repr

def Bundle.state {σ : Type} (b : Bundle σ) : BundleState := ⟨b.capabilities, b.pending, b.isClosed⟩

inductive EngineView
  | scripted (emissions : List Emission) (imports : List Import) (intact : Bool)
  | listed (sightings : List Sighting) (intact : Bool)
  deriving DecidableEq, Repr

inductive Told
  | rule (name ns : String) (tags : List String) (metas : List (String × MetaValue))
      (lookup : List (Option MetaValue)) (strings : List MatchString)
  | finished
  | request (module : String)
  | imported (module : String) (type : ObjectType)
  deriving DecidableEq, Repr

/-- The note of one call; `ρ` are the reports of steps it ran. -/
structure CallNote (ρ : Type) where
  event : EventKind
  live : Live
  told : Told
  capture : Option MatchRecord := none
  nested : Option (List ρ) := none

inductive Named
  | bundle
  | engine
  | recorder
  deriving DecidableEq, Repr

/-- What a step answers; `κ` are the notes of calls. -/
inductive Answer (κ : Type)
  | bundle (state : BundleState)
  | ready
  | refused (error : ScriptError)
  | scanned (result : ScanResult) (calls : Option (List κ)) (engine : EngineView)
      (bundle : BundleState)
  | collected (result : Collected) (engine : EngineView)
  | unrouted (ending : Ending) (engine : EngineView)
  | direct (ending : Ending) (seen : List Event) (engine : EngineView)
  | closed (released : Nat) (bundle : BundleState)
  | dropped (existed : Bool)
  | records (records : List MatchRecord)
  | counted (records : List MatchRecord)
  | offered (capabilities : Capabilities)
  | unknownName (what : Named)
  | unknownStep

def Answer.error? {κ : Type} : Answer κ → Option BridgeError
  | .scanned (.failed e) .. => some e
  | .collected (.failed e) _ => some e
  | _ => none

/-- The report of a step: its answer and what was held after it. Inside a scan there is a note for
each call of a journal, and a call that ran steps has their reports in its note. -/
inductive Report
  | mk (answer : Answer (CallNote Report)) (live : Live)

namespace Report

def answer : Report → Answer (CallNote Report)
  | ⟨answer, _⟩ => answer

def live : Report → Live
  | ⟨_, live⟩ => live

end Report

end ScanBridge
