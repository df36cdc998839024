import ScanBridge.Layout.Basic
import ScanBridge.Script.Basic

namespace ScanBridge

def Layout.Terminated.ofString (s : String) : Layout.Terminated := some (Text.toTerminated s)

/-- A match with its data, the next in the pool. The state counts what was taken so far. -/
def MatchSpec.layout (pool : Array Bytes) (m : MatchSpec) : StateM Nat Layout.Match := do
  let next ← getModify (· + 1)
  let data := pool[next]?
  let dataLength := Int32.ofNat (data.getD []).length
  return { base := m.base, offset := m.offset, matchLength := m.length.getD dataLength, data,
           dataLength }

def layoutHits (pool : Array Bytes) (strings : List StringSpec) :
    StateM Nat (List (List Layout.Match)) :=
  strings.mapM fun s => s.hits.mapM (MatchSpec.layout pool)

namespace EventSpec

def layoutMeta (e : String × MetaValue) : Layout.Meta :=
  let identifier := Layout.Terminated.ofString e.1
  match e.2 with
  | .integer n => { identifier, kind := Layout.integerKind, integer := n }
  | .boolean b => { identifier, kind := Layout.booleanKind, integer := if b then 1 else 0 }
  | .string s => { identifier, kind := Layout.stringKind, string := Layout.Terminated.ofString s }

def layoutRule (e : EventSpec) : Layout.Rule where
  identifier := Layout.Terminated.ofString e.rule
  ns := Layout.Terminated.ofString e.ns
  tags := .ofList (e.tags.map Layout.Terminated.ofString)
  metas := .ofList (e.metadata.entries.map layoutMeta)
  strings := .ofList (e.strings.zipIdx.map fun (s, i) =>
    ⟨Layout.Terminated.ofString s.name, UInt64.ofNat i⟩)

/-- The data of all matches, string by string, from which the matches take theirs one after another.
-/
def pool (e : EventSpec) : Array Bytes :=
  (e.strings.flatMap fun s => s.hits.map fun m => Text.encode m.data).toArray

/-- The scan context of a rule event. Each declared string takes the table entry of its own
position, so that strings of one name keep their matches apart. -/
def layoutContext (e : EventSpec) : Layout.Context where
  table := .ofList (((layoutHits e.pool e.strings).run 0).run.1.map .ofList)

end EventSpec

end ScanBridge
