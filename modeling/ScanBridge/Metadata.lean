import ScanBridge.Json.Printer
import ScanBridge.Json.Reader

namespace ScanBridge

inductive MetaValue
  | integer (n : Int64)
  | boolean (b : Bool)
  | string (s : String)
  deriving DecidableEq, Repr

namespace MetaValue

def asInt64? : MetaValue → Option Int64
  | .integer n => some n
  | _ => none

def asInt32? (v : MetaValue) : Option Int32 :=
  v.asInt64?.bind fun n =>
    if Int32.minValue.toInt ≤ n.toInt ∧ n.toInt ≤ Int32.maxValue.toInt then
      some (Int32.ofInt n.toInt)
    else none

def asBool? : MetaValue → Option Bool
  | .boolean b => some b
  | _ => none

def asString? : MetaValue → Option String
  | .string s => some s
  | _ => none

/-- A value in JSON: the type is not written, it shows in the text. -/
def toJson : MetaValue → Json.Value
  | .integer n => .integer n.toInt
  | .boolean b => .boolean b
  | .string s => .string s

def ofJson? : Json.Value → Option MetaValue
  | .integer n =>
    if Int64.minValue.toInt ≤ n ∧ n ≤ Int64.maxValue.toInt then some (.integer (Int64.ofInt n))
    else none
  | .boolean b => some (.boolean b)
  | .string s => some (.string s)
  | _ => none

def jsonText (v : MetaValue) : String := String.ofList v.toJson.render

inductive Fault
  | json (fault : Json.Fault)
  | otherType
  deriving DecidableEq, Repr

/-- Reads a value from JSON text. The type is looked at before whatever stands behind the value. -/
def ofJsonText (text : String) : Except Fault MetaValue :=
  match Json.readValue text with
  | .error f => .error (.json f)
  | .ok (json, rest) =>
    match ofJson? json with
    | none => .error .otherType
    | some v => if rest.isEmpty then .ok v else .error (.json .malformed)

end MetaValue

/-- Sets the value of a name in a list of entries that is ordered by name. -/
def insertEntry (name : String) (value : MetaValue) :
    List (String × MetaValue) → List (String × MetaValue)
  | [] => [(name, value)]
  | (n, v) :: rest =>
    if name < n then (name, value) :: (n, v) :: rest
    else if n < name then (n, v) :: insertEntry name value rest
    else (name, value) :: rest

theorem mem_insertEntry {name : String} {value : MetaValue} {e : String × MetaValue}
    {es : List (String × MetaValue)} (h : e ∈ insertEntry name value es) :
    e = (name, value) ∨ e ∈ es := by
  induction es with
  | nil => simpa [insertEntry] using h
  | cons f es ih =>
    unfold insertEntry at h
    split at h
    · simpa using h
    · split at h
      · rcases List.mem_cons.mp h with h | h
        · exact .inr (by simp [h])
        · rcases ih h with h | h
          · exact .inl h
          · exact .inr (by simp [h])
      · rcases List.mem_cons.mp h with h | h
        · exact .inl h
        · exact .inr (by simp [h])

def Ordered (es : List (String × MetaValue)) : Prop := es.Pairwise (·.1 < ·.1)

theorem ordered_insertEntry {es : List (String × MetaValue)} (h : Ordered es) (name : String)
    (value : MetaValue) : Ordered (insertEntry name value es) := by
  induction es with
  | nil => exact List.pairwise_singleton _ _
  | cons e es ih =>
    obtain ⟨hfirst, hrest⟩ := List.pairwise_cons.mp h
    unfold insertEntry
    split
    · rename_i hlt
      refine List.pairwise_cons.mpr ⟨fun f hf => ?_, h⟩
      rcases List.mem_cons.mp hf with rfl | hf
      · exact hlt
      · exact String.lt_trans hlt (hfirst f hf)
    · rename_i hge
      split
      · rename_i hlt
        refine List.pairwise_cons.mpr ⟨fun f hf => ?_, ih hrest⟩
        rcases mem_insertEntry hf with rfl | hf
        · exact hlt
        · exact hfirst f hf
      · rename_i hle
        have hsame : e.1 = name := String.le_antisymm (String.not_lt.mp hge) (String.not_lt.mp hle)
        exact List.pairwise_cons.mpr ⟨fun f hf => hsame ▸ hfirst f hf, hrest⟩

/-- A map from names to metadata values. It keeps its names in the order of their characters, which
is the order of their UTF-8 bytes, and each name once. -/
structure MetaMap where
  entries : List (String × MetaValue) := []
  ordered : Ordered entries := by exact List.Pairwise.nil
  deriving DecidableEq

namespace MetaMap

def empty : MetaMap := {}

def insert (m : MetaMap) (name : String) (value : MetaValue) : MetaMap :=
  ⟨insertEntry name value m.entries, ordered_insertEntry m.ordered name value⟩

/-- Of entries with one name, the last one stays. -/
def ofList (es : List (String × MetaValue)) : MetaMap :=
  es.foldl (fun m e => m.insert e.1 e.2) empty

def get? (m : MetaMap) (name : String) : Option MetaValue :=
  (m.entries.find? (·.1 = name)).map (·.2)

end MetaMap

end ScanBridge
