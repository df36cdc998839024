import ScanBridge.Engine.Run
import ScanBridge.Script.Layout
import ScanBridge.Script.Validity

namespace ScanBridge

/-- One reported event and the verdict on it; no verdict where the code is none. -/
structure Emission where
  code : Int32
  verdict : Option Verdict
  deriving DecidableEq, Repr

structure Import where
  module : String
  data : Bytes
  deriving DecidableEq, Repr

/-- The engine that plays a valid script, with the account of its last run. It stops at the first
verdict other than `continue`. Module data is copied when an import has been answered and read again
at the end, as an engine does that keeps the pointer for the whole scan. -/
structure ScriptedEngine where
  script : Script
  valid : script.fault? = none
  emissions : List Emission := []
  imports : List Import := []
  intact : Bool := true

namespace ScriptedEngine

def ofScript (script : Script) : Except ScriptFault ScriptedEngine :=
  match h : script.fault? with
  | some fault => .error fault
  | none => .ok { script, valid := h }

def succeeded : Int32 := 0

/-- Status of a run that an error, or a code that is no verdict, has ended. -/
def callbackFailed : Int32 := 30

/-- A pointer kept until the end, and what was found behind it. -/
structure Kept where
  data : Pointer
  size : Nat
  copy : Bytes

structure Progress where
  emissions : List Emission := []
  imports : List Import := []
  kept : List Kept := []

def event (token : Token) (e : EventSpec) : Event :=
  let code := e.kind.code
  match e.kind.named? with
  | some .ruleMatching | some .ruleNotMatching =>
    { token, code, ctx := some e.layoutContext, data := .rule e.layoutRule }
  | some .importModule =>
    { token, code, ctx := some {}, data := .request (Layout.Terminated.ofString e.module) {} }
  | some .moduleImported =>
    { token, code, ctx := some {}
      data := .object ⟨Layout.Terminated.ofString e.module, e.objectType.getD 3⟩ }
  | some .scanFinished | none => { token, code, ctx := some {} }

def Progress.takeImport (p : Progress) (e : EventSpec) (slot : Slot) (w : World) : Progress :=
  match e.kind.named?, slot.data with
  | some .importModule, some data =>
    if 0 < slot.size then
      match w.heap.read data slot.size with
      | some copy =>
        { p with
          imports := p.imports ++ [⟨e.module, copy⟩]
          kept := p.kept ++ [⟨data, slot.size, copy⟩] }
      | none => p
    else p
  | _, _ => p

def Progress.emitted (p : Progress) (code : Int32) (verdict : Option Verdict) : Progress :=
  { p with emissions := p.emissions ++ [⟨code, verdict⟩] }

/-- The end of a run: all kept pointers are read once more. -/
def close (engine : ScriptedEngine) (p : Progress) (status : Int32) : Run ScriptedEngine :=
  .look fun w => .finish status { engine with
    emissions := p.emissions
    imports := p.imports
    intact := p.kept.all fun k => w.heap.read k.data k.size = some k.copy }

def play (engine : ScriptedEngine) (token : Token) (p : Progress) :
    List EventSpec → Run ScriptedEngine
  | [] => engine.close p succeeded
  | e :: rest =>
    .emit (event token e) fun reply => .look fun w =>
      let verdict := Verdict.ofCode? reply.verdict
      let p := (p.takeImport e reply.slot w).emitted e.kind.code verdict
      .notify (.emitted e.kind.code verdict) <|
        match verdict with
        | some .continue => engine.play token p rest
        | some .abort => engine.close p succeeded
        | some .error | none => engine.close p callbackFailed

end ScriptedEngine

instance : Engine ScriptedEngine where
  run engine token := engine.play token {} engine.script.events

end ScanBridge
