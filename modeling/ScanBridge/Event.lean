namespace ScanBridge

inductive EventKind
  | ruleMatching
  | ruleNotMatching
  | scanFinished
  | importModule
  | moduleImported
  deriving DecidableEq, Repr

namespace EventKind

def all : List EventKind :=
  [.ruleMatching, .ruleNotMatching, .scanFinished, .importModule, .moduleImported]

def code : EventKind → Int32
  | .ruleMatching => 1
  | .ruleNotMatching => 2
  | .scanFinished => 3
  | .importModule => 4
  | .moduleImported => 5

def ofCode? (code : Int32) : Option EventKind := all.find? (·.code = code)

def name : EventKind → String
  | .ruleMatching => "rule-matching"
  | .ruleNotMatching => "rule-not-matching"
  | .scanFinished => "scan-finished"
  | .importModule => "import-module"
  | .moduleImported => "module-imported"

def ofName? (name : String) : Option EventKind := all.find? (·.name = name)

def isRule : EventKind → Bool
  | .ruleMatching | .ruleNotMatching => true
  | _ => false

def isModule : EventKind → Bool
  | .importModule | .moduleImported => true
  | _ => false

@[simp] theorem ofCode?_code (k : EventKind) : ofCode? k.code = some k := by cases k <;> decide

@[simp] theorem ofName?_name (k : EventKind) : ofName? k.name = some k := by cases k <;> decide

end EventKind

/-- What a callback wants of the scan. -/
inductive Control
  | continue
  | abort
  deriving DecidableEq, Repr

/-- What the engine is told. -/
inductive Verdict
  | continue
  | abort
  | error
  deriving DecidableEq, Repr

namespace Verdict

def code : Verdict → Int32
  | .continue => 0
  | .abort => 1
  | .error => 2

def ofCode? (code : Int32) : Option Verdict :=
  [Verdict.continue, .abort, .error].find? (·.code = code)

def name : Verdict → String
  | .continue => "Continue"
  | .abort => "Abort"
  | .error => "Error"

/-- An error goes before an abort. -/
def ofOutcome {ε : Type} : Except ε Control → Verdict
  | .error _ => .error
  | .ok .abort => .abort
  | .ok .continue => .continue

@[simp] theorem ofCode?_code (v : Verdict) : ofCode? v.code = some v := by cases v <;> decide

end Verdict

/-- The kinds of event that a callback handles. -/
structure Capabilities where
  ruleMatching : Bool := false
  ruleNotMatching : Bool := false
  scanFinished : Bool := false
  importModule : Bool := false
  moduleImported : Bool := false
  deriving DecidableEq, Repr

namespace Capabilities

def has (c : Capabilities) : EventKind → Bool
  | .ruleMatching => c.ruleMatching
  | .ruleNotMatching => c.ruleNotMatching
  | .scanFinished => c.scanFinished
  | .importModule => c.importModule
  | .moduleImported => c.moduleImported

def filter (p : EventKind → Bool) : Capabilities where
  ruleMatching := p .ruleMatching
  ruleNotMatching := p .ruleNotMatching
  scanFinished := p .scanFinished
  importModule := p .importModule
  moduleImported := p .moduleImported

def none : Capabilities := {}

def every : Capabilities := filter fun _ => true

def ofList (ks : List EventKind) : Capabilities := filter (ks.contains ·)

def toList (c : Capabilities) : List EventKind := EventKind.all.filter c.has

def union (a b : Capabilities) : Capabilities := filter fun k => a.has k || b.has k

def insert (k : EventKind) (c : Capabilities) : Capabilities := filter fun l => l = k || c.has l

def contains (a b : Capabilities) : Bool := EventKind.all.all fun k => !b.has k || a.has k

def isEmpty (c : Capabilities) : Bool := EventKind.all.all fun k => !c.has k

@[simp] theorem has_filter (p : EventKind → Bool) (k : EventKind) : (filter p).has k = p k := by
  cases k <;> rfl

@[ext] theorem ext_has {a b : Capabilities} (h : ∀ k, a.has k = b.has k) : a = b := by
  cases a; cases b
  have h₁ := h .ruleMatching
  have h₂ := h .ruleNotMatching
  have h₃ := h .scanFinished
  have h₄ := h .importModule
  have h₅ := h .moduleImported
  simp_all [has]

end Capabilities

end ScanBridge
