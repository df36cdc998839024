import ScanBridge.Text.Utf8

namespace ScanBridge.Layout

/-- The address of NUL-terminated text. -/
abbrev Terminated := Option Bytes

/-- A list the way an engine lays it out in its own memory: its address, which may be missing, and
the length stated for it. -/
structure Span (α : Type) where
  items : Option (List α) := none
  length : Nat := 0
  deriving Repr

namespace Span

/-- The elements: none without an address, else as many as stated. -/
def toList {α : Type} (s : Span α) : List α :=
  match s.items with
  | none => []
  | some items => items.take s.length

def ofList {α : Type} (items : List α) : Span α := ⟨some items, items.length⟩

@[simp] theorem toList_ofList {α : Type} (items : List α) : (ofList items).toList = items := by
  simp [ofList, toList]

@[simp] theorem toList_none {α : Type} (n : Nat) : (⟨none, n⟩ : Span α).toList = [] := rfl

end Span

/-- One metadata entry. The type code says which of the two values counts. -/
structure Meta where
  identifier : Terminated := none
  kind : Int32 := 0
  integer : Int64 := 0
  string : Terminated := none
  deriving Repr

/-- A string a rule declares; its matches stand at `index` in the table of the scan context. -/
structure Declared where
  identifier : Terminated := none
  index : UInt64 := 0
  deriving Repr

structure Rule where
  identifier : Terminated := none
  ns : Terminated := none
  tags : Span Terminated := {}
  metas : Span Meta := {}
  strings : Span Declared := {}
  deriving Repr

/-- One match. The data may be cut short: `dataLength` counts what is there, whatever
`matchLength` says. -/
structure Match where
  base : Int64 := 0
  offset : Int64 := 0
  matchLength : Int32 := 0
  data : Option Bytes := none
  dataLength : Int32 := 0
  deriving Repr

structure Context where
  table : Span (Span Match) := {}
  deriving Repr

structure Object where
  identifier : Terminated := none
  objectType : Int8 := 0
  deriving Repr

def integerKind : Int32 := 1

def stringKind : Int32 := 2

def booleanKind : Int32 := 3

end ScanBridge.Layout
