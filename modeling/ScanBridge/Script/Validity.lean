import ScanBridge.Script.Basic
import ScanBridge.Text.Quoted

namespace ScanBridge

inductive FaultCause
  | noRule
  | noModule
  | nulInText (text : String)
  deriving DecidableEq, Repr

/-- The first event at fault and what is wrong with it. -/
structure ScriptFault where
  index : Nat
  cause : FaultCause
  deriving DecidableEq, Repr

def ScriptFault.message (f : ScriptFault) : String :=
  "event #" ++ toString f.index ++ ": " ++
    match f.cause with
    | .noRule => "rule event without `rule`"
    | .noModule => "module event without `module`"
    | .nulInText text => "text contains NUL byte: " ++ Text.quote text

namespace EventSpec

def metaTexts (e : String × MetaValue) : List String :=
  match e.2 with
  | .string s => [e.1, s]
  | _ => [e.1]

/-- Every text of an event that is handed out NUL-terminated. -/
def texts (e : EventSpec) : List String :=
  [e.rule, e.ns, e.module] ++ e.tags ++ e.metadata.entries.flatMap metaTexts ++
    e.strings.map StringSpec.name

/-- What is wrong with an event, a missing name before any text. The data of matches may contain
NUL, since it is handed out with its length. -/
def faultCause? (e : EventSpec) : Option FaultCause :=
  let kind := e.kind.named?
  if kind.any EventKind.isRule && e.rule.isEmpty then some .noRule
  else if kind.any EventKind.isModule && e.module.isEmpty then some .noModule
  else (e.texts.find? (·.toList.contains '\x00')).map .nulInText

end EventSpec

/-- The first fault among events that are counted from `index`. -/
def firstFault? (index : Nat) : List EventSpec → Option ScriptFault
  | [] => none
  | e :: rest =>
    match e.faultCause? with
    | some cause => some ⟨index, cause⟩
    | none => firstFault? (index + 1) rest

def Script.fault? (s : Script) : Option ScriptFault := firstFault? 0 s.events

end ScanBridge
