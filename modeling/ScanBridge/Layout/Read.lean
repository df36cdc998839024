import ScanBridge.Layout.Basic
import ScanBridge.Metadata

namespace ScanBridge

inductive ObjectType
  | integer
  | string
  | record
  | array
  | function
  | dictionary
  | float
  | unknown (code : Int8)
  deriving DecidableEq, Repr

namespace ObjectType

def ofCode (code : Int8) : ObjectType :=
  if code = 1 then .integer
  else if code = 2 then .string
  else if code = 3 then .record
  else if code = 4 then .array
  else if code = 5 then .function
  else if code = 6 then .dictionary
  else if code = 7 then .float
  else .unknown code

end ObjectType

structure MatchString where
  name : String
  base : UInt64
  offset : UInt64
  data : Bytes
  deriving DecidableEq, Repr

namespace Layout

/-- The data of a match: as many bytes as stated, none if the number is negative. -/
def Match.bytes (m : Match) : Bytes :=
  match m.data with
  | none => []
  | some bs => bs.take m.dataLength.toInt.toNat

/-- A match under the name of its string. Signed positions are taken as unsigned ones. -/
def Match.named (name : String) (m : Match) : MatchString where
  name := name
  base := m.base.toUInt64
  offset := m.offset.toUInt64
  data := m.bytes

/-- The matches at an index of the table; an index beyond its end finds none. -/
def Context.matchesAt (ctx : Option Context) (index : UInt64) : List Match :=
  match ctx with
  | none => []
  | some c =>
    match c.table.toList[index.toNat]? with
    | none => []
    | some list => list.toList

/-- The value of an entry, or its code if that is of no known type. -/
def Meta.value (m : Meta) : Except Int32 MetaValue :=
  if m.kind = integerKind then .ok (.integer m.integer)
  else if m.kind = booleanKind then .ok (.boolean (m.integer != 0))
  else if m.kind = stringKind then .ok (.string (Text.ofTerminated m.string))
  else .error m.kind

def Meta.name (m : Meta) : String := Text.ofTerminated m.identifier

namespace Rule

def name (r : Rule) : String := Text.ofTerminated r.identifier

def namespaceName (r : Rule) : String := Text.ofTerminated r.ns

def tagNames (r : Rule) : List String := r.tags.toList.map Text.ofTerminated

/-- The metadata of known type, in the order of the rule. -/
def metaEntries (r : Rule) : List (String × MetaValue) :=
  r.metas.toList.filterMap fun m =>
    match m.value with
    | .ok v => some (m.name, v)
    | .error _ => none

def unknownMetas (r : Rule) : List (String × Int32) :=
  r.metas.toList.filterMap fun m =>
    match m.value with
    | .ok _ => none
    | .error code => some (m.name, code)

/-- The metadata under a name. Of several entries the last one counts. -/
def meta? (r : Rule) (name : String) : Option MetaValue :=
  (r.metaEntries.reverse.find? (·.1 = name)).map (·.2)

def matchStrings (r : Rule) (ctx : Option Context) : List MatchString :=
  r.strings.toList.flatMap fun s =>
    (Context.matchesAt ctx s.index).map (Match.named (Text.ofTerminated s.identifier))

end Rule

namespace Object

def name (o : Object) : String := Text.ofTerminated o.identifier

def type (o : Object) : ObjectType := .ofCode o.objectType

end Object

end Layout

end ScanBridge
