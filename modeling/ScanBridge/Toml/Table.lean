import ScanBridge.Toml.Value

namespace ScanBridge.Toml

/-- How a table came to be, which decides who may still add to it: a header opens a table once,
dotted keys reach only into tables that dotted keys made, and a table made on the way to another one
may still be opened by a header of its own. -/
inductive Origin
  | explicit
  | passed
  | dotted
  deriving DecidableEq, Repr

mutual

inductive Item
  | value (v : Value)
  | table (t : Table)
  | tables (ts : List Table)

inductive Table
  | mk (origin : Origin) (entries : List (String × Item))

end

namespace Table

def origin : Table → Origin
  | ⟨origin, _⟩ => origin

def entries : Table → List (String × Item)
  | ⟨_, entries⟩ => entries

def empty (origin : Origin) : Table := ⟨origin, []⟩

def opened (t : Table) : Table := ⟨.explicit, t.entries⟩

def get? (t : Table) (key : String) : Option Item := (t.entries.find? (·.1 = key)).map (·.2)

def set (t : Table) (key : String) (item : Item) : Table :=
  ⟨t.origin,
    if (t.get? key).isSome then t.entries.map fun e => if e.1 = key then (key, item) else e
    else t.entries ++ [(key, item)]⟩

def erase (t : Table) (key : String) : Table := ⟨t.origin, t.entries.filter (·.1 ≠ key)⟩

/-- Changes the table at the end of a path. Missing tables on the way are made, the last element
stands for an array of tables, and a value on the way is a fault. A dotted path does not enter a
table that a header opened or that was written as a value. -/
def alter (dotted : Bool) (change : Table → Option Table) : List String → Table → Option Table
  | [], t => change t
  | key :: path, t =>
    match t.get? key with
    | none =>
      (alter dotted change path (.empty (if dotted then .dotted else .passed))).map
        fun inner => t.set key (.table inner)
    | some (.table inner) =>
      if dotted ∧ inner.origin = .explicit then none
      else (alter dotted change path inner).map fun inner => t.set key (.table inner)
    | some (.tables ts) =>
      ts.getLast?.bind fun last =>
        (alter dotted change path last).map fun last => t.set key (.tables (ts.dropLast ++ [last]))
    | some (.value _) => none

/-- The entry at the end of a path, where arrays of tables stand for their last element. -/
def entryAt (t : Table) : List String → String → Option Item
  | [], name => t.get? name
  | key :: path, name =>
    match t.get? key with
    | some (.table inner) => entryAt inner path name
    | some (.tables ts) => ts.getLast?.bind fun last => entryAt last path name
    | _ => none

/-- Adds a value under a key that may be dotted. A key has one value only, and a dotted key does
not add to a table that it did not make. -/
def addValue (path : List String) (key : String) (v : Value) (t : Table) : Option Table :=
  alter true (fun inner =>
    if decide (inner.origin = .dotted) = path.isEmpty then none
    else if (inner.get? key).isSome then none
    else some (inner.set key (.value v))) path t

end Table

mutual

def Item.freeze : Item → Value
  | .value v => v
  | .table t => t.freeze
  | .tables ts => .array (freezeTables ts)

def Table.freeze : Table → Value
  | ⟨_, entries⟩ => .table (freezeEntries entries)

def freezeTables : List Table → List Value
  | [] => []
  | t :: ts => t.freeze :: freezeTables ts

def freezeEntries : List (String × Item) → List (String × Value)
  | [] => []
  | (key, item) :: rest => (key, item.freeze) :: freezeEntries rest

end

inductive Line
  | header (path : List String) (name : String)
  | arrayHeader (path : List String) (name : String)
  | entry (path : List String) (name : String) (v : Value)

/-- A table that lines are added to, and where it goes when the next header comes. -/
structure Open where
  place : Option (List String × String × Bool)
  table : Table

structure Draft where
  root : Table
  current : Open

namespace Draft

def empty : Draft := ⟨.empty .explicit, ⟨none, .empty .explicit⟩⟩

def settle (d : Draft) : Option Table :=
  match d.current.place with
  | none => some d.current.table
  | some (path, name, isElement) =>
    d.root.alter false (fun parent =>
      match isElement, parent.get? name with
      | true, none => some (parent.set name (.tables [d.current.table]))
      | true, some (.tables ts) => some (parent.set name (.tables (ts ++ [d.current.table])))
      | false, none => some (parent.set name (.table d.current.table))
      | false, some (.table t) =>
        if t.origin = .explicit then none else some (parent.set name (.table d.current.table))
      | _, _ => none) path

/-- Opens the table of a header. One that was made on the way to another table keeps its entries;
any other table of that name is a fault. -/
def openTable (root : Table) (path : List String) (name : String) : Option Draft := do
  let taken ← match root.entryAt path name with
    | none => some (Table.empty .explicit)
    | some (.table t) => if t.origin = .passed then some t.opened else none
    | some _ => none
  let root ← root.alter false (fun parent => some (parent.erase name)) path
  some ⟨root, ⟨some (path, name, false), taken⟩⟩

def openElement (root : Table) (path : List String) (name : String) : Option Draft := do
  let root ← root.alter false (fun parent =>
    match parent.get? name with
    | none => some parent
    | some (.tables _) => some parent
    | some _ => none) path
  some ⟨root, ⟨some (path, name, true), .empty .explicit⟩⟩

def add (d : Draft) : Line → Option Draft
  | .header path name => do openTable (← d.settle) path name
  | .arrayHeader path name => do openElement (← d.settle) path name
  | .entry path name v => do
    let table ← d.current.table.addValue path name v
    some { d with current := { d.current with table } }

end Draft

def ofLines (lines : List Line) : Option Value := do
  let d ← lines.foldlM Draft.add Draft.empty
  let root ← d.settle
  some root.freeze

end ScanBridge.Toml
