import ScanBridge.Record.Basic

namespace ScanBridge

def MatchString.toJson (s : MatchString) : Json.Value :=
  .object [
    ("name", .string s.name),
    ("base", .integer s.base.toNat),
    ("offset", .integer s.offset.toNat),
    ("data", .array (s.data.map fun b => .integer b.toNat))]

def MatchRecord.toJson (r : MatchRecord) : Json.Value :=
  .object [
    ("rule", .string r.rule),
    ("namespace", .string r.ns),
    ("tags", .array (r.tags.map .string)),
    ("meta", .object (r.metadata.entries.map fun e => (e.1, e.2.toJson))),
    ("strings", .array (r.strings.map MatchString.toJson))]

namespace MatchRecord

inductive Layer
  | array
  | record
  deriving DecidableEq, Repr

structure Piece where
  layer : Layer
  text : List Char
  deriving DecidableEq, Repr

def piece (r : MatchRecord) : Piece := ⟨.record, r.toJson.render⟩

def separated : List MatchRecord → List Piece
  | [] => []
  | r :: rs => r.piece :: rs.flatMap fun r => [⟨.array, [',']⟩, r.piece]

/-- Records as one JSON array. The array's own brackets and commas are pieces of their own, so that
a writer that runs full can be told whether it refused one of them or a part of a record. -/
def pieces (rs : List MatchRecord) : List Piece :=
  ⟨.array, ['[']⟩ :: separated rs ++ [⟨.array, [']']⟩]

def text (rs : List MatchRecord) : String := String.ofList ((pieces rs).flatMap Piece.text)

def Piece.bytes (p : Piece) : Bytes := p.text.flatMap String.utf8EncodeChar

/-- What a writer that accepts a limited number of bytes has accepted, and the layer whose byte it
refused first. -/
structure Writing where
  accepted : Bytes
  refused : Option Layer
  deriving DecidableEq, Repr

/-- Writes pieces until one does not fit whole. -/
def writePieces (limit : Nat) : List Piece → Writing
  | [] => ⟨[], none⟩
  | p :: ps =>
    if p.bytes.length ≤ limit then
      let more := writePieces (limit - p.bytes.length) ps
      ⟨p.bytes ++ more.accepted, more.refused⟩
    else ⟨p.bytes.take limit, some p.layer⟩

def write (rs : List MatchRecord) (limit : Nat) : Writing := writePieces limit (pieces rs)

end MatchRecord

end ScanBridge
