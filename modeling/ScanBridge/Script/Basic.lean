import ScanBridge.Event
import ScanBridge.Metadata

namespace ScanBridge

/-- A kind by name, or a bare code. Only an event of a named kind comes with data. -/
inductive KindSpec
  | named (kind : EventKind)
  | raw (code : Int32)
  deriving DecidableEq, Repr

namespace KindSpec

def code : KindSpec → Int32
  | .named kind => kind.code
  | .raw code => code

def named? : KindSpec → Option EventKind
  | .named kind => some kind
  | .raw _ => none

end KindSpec

/-- One match of a string. A missing length is that of the data. -/
structure MatchSpec where
  base : Int64 := 0
  offset : Int64
  data : String := ""
  length : Option Int32 := none
  deriving DecidableEq, Repr

structure StringSpec where
  name : String
  hits : List MatchSpec := []
  deriving DecidableEq, Repr

/-- An event is written with all fields whatever its kind; each kind uses the fields that are about
it. -/
structure EventSpec where
  kind : KindSpec
  rule : String := ""
  ns : String := "default"
  tags : List String := []
  metadata : MetaMap := .empty
  strings : List StringSpec := []
  module : String := ""
  objectType : Option Int8 := none
  deriving DecidableEq

structure Script where
  events : List EventSpec := []
  deriving DecidableEq

/-- Adds a match to the first string of a name, or adds the string. -/
def addMatch (name : String) (m : MatchSpec) : List StringSpec → List StringSpec
  | [] => [⟨name, [m]⟩]
  | s :: rest =>
    if s.name = name then { s with hits := s.hits ++ [m] } :: rest
    else s :: addMatch name m rest

namespace EventSpec

def ruleMatching (rule : String) : EventSpec := { kind := .named .ruleMatching, rule }

def ruleNotMatching (rule : String) : EventSpec := { kind := .named .ruleNotMatching, rule }

def scanFinished : EventSpec := { kind := .named .scanFinished }

def importModule (module : String) : EventSpec := { kind := .named .importModule, module }

def moduleImported (module : String) : EventSpec := { kind := .named .moduleImported, module }

def raw (code : Int32) : EventSpec := { kind := .raw code }

def inNamespace (e : EventSpec) (ns : String) : EventSpec := { e with ns }

def tag (e : EventSpec) (tag : String) : EventSpec := { e with tags := e.tags ++ [tag] }

def withMeta (e : EventSpec) (key : String) (value : MetaValue) : EventSpec :=
  { e with metadata := e.metadata.insert key value }

def stringMatch (e : EventSpec) (name : String) (offset : Int64) (data : String) : EventSpec :=
  { e with strings := addMatch name { offset, data } e.strings }

end EventSpec

def Script.push (s : Script) (e : EventSpec) : Script := { s with events := s.events ++ [e] }

end ScanBridge
