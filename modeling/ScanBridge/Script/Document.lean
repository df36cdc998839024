import ScanBridge.Script.Validity
import ScanBridge.Text.Utf8
import ScanBridge.Toml.Reader

namespace ScanBridge

open Toml (Value)

inductive ScriptError
  | toml
  | invalid (fault : ScriptFault)
  | notFound
  | notText
  deriving DecidableEq, Repr

/-- Values for the fields of a record: by name from a table, by position from an array. A date or
time has no such field. -/
def fieldsOf (names : List String) : Value → Option (String → Option Value)
  | .table entries => some (Toml.lookup? entries)
  | .array items => some fun name => (names.idxOf? name).bind (items[·]?)
  | .datetime _ => some fun _ => none
  | _ => none

def fieldOr {α : Type} (read : Value → Option α) (default : α) : Option Value → Option α
  | none => some default
  | some v => read v

def readString : Value → Option String
  | .string s => some s
  | _ => none

def readInt64 : Value → Option Int64
  | .integer n => some n
  | _ => none

def readInt32 : Value → Option Int32
  | .integer n =>
    if Int32.minValue.toInt ≤ n.toInt ∧ n.toInt ≤ Int32.maxValue.toInt then
      some (Int32.ofInt n.toInt)
    else none
  | _ => none

def readInt8 : Value → Option Int8
  | .integer n =>
    if Int8.minValue.toInt ≤ n.toInt ∧ n.toInt ≤ Int8.maxValue.toInt then
      some (Int8.ofInt n.toInt)
    else none
  | _ => none

def readList {α : Type} (read : Value → Option α) : Value → Option (List α)
  | .array items => items.mapM read
  | _ => none

def readKind : Value → Option KindSpec
  | .string s => (EventKind.ofName? s).map .named
  | v => (readInt32 v).map .raw

def readMetaValue : Value → Option MetaValue
  | .integer n => some (.integer n)
  | .boolean b => some (.boolean b)
  | .string s => some (.string s)
  | _ => none

/-- The key under which a date or time that stands for a whole table is known. -/
def datetimeKey : String := "$__toml_private_datetime"

def readMetadata : Value → Option MetaMap
  | .table entries => do
    let entries ← entries.mapM fun e => (readMetaValue e.2).map fun v => (e.1, v)
    some (.ofList entries)
  | .datetime text => some (MetaMap.empty.insert datetimeKey (.string text))
  | _ => none

def readMatch (v : Value) : Option MatchSpec := do
  let field ← fieldsOf ["base", "offset", "data", "length"] v
  some {
    base := ← fieldOr readInt64 0 (field "base")
    offset := ← (field "offset").bind readInt64
    data := ← fieldOr readString "" (field "data")
    length := ← fieldOr (fun v => (readInt32 v).map some) none (field "length") }

def readStringSpec (v : Value) : Option StringSpec := do
  let field ← fieldsOf ["name", "matches"] v
  some {
    name := ← (field "name").bind readString
    hits := ← fieldOr (readList readMatch) [] (field "matches") }

def readEvent (v : Value) : Option EventSpec := do
  let field ← fieldsOf
    ["kind", "rule", "namespace", "tags", "meta", "strings", "module", "object_type"] v
  some {
    kind := ← (field "kind").bind readKind
    rule := ← fieldOr readString "" (field "rule")
    ns := ← fieldOr readString "default" (field "namespace")
    tags := ← fieldOr (readList readString) [] (field "tags")
    metadata := ← fieldOr readMetadata .empty (field "meta")
    strings := ← fieldOr (readList readStringSpec) [] (field "strings")
    module := ← fieldOr readString "" (field "module")
    objectType := ← fieldOr (fun v => (readInt8 v).map some) none (field "object_type") }

namespace Script

/-- The script of a document's root table, valid or not. Fields that are left out take their
defaults, fields of other names are passed over, and a value of another type or beyond its range
refuses the document. -/
def ofEntries (entries : List (String × Value)) : Option Script :=
  (fieldOr (readList readEvent) [] (Toml.lookup? entries "event")).map Script.mk

def ofDocument (entries : List (String × Value)) : Except ScriptError Script :=
  match ofEntries entries with
  | none => .error .toml
  | some s =>
    match s.fault? with
    | some fault => .error (.invalid fault)
    | none => .ok s

def ofToml (text : String) : Except ScriptError Script :=
  match Toml.parse? text with
  | none => .error .toml
  | some entries => ofDocument entries

/-- The valid script of a file with these contents, if there is a file. -/
def load (contents : Option Bytes) : Except ScriptError Script :=
  match contents with
  | none => .error .notFound
  | some bytes =>
    match Text.decode? bytes with
    | none => .error .notText
    | some text => ofToml text

end Script

end ScanBridge
