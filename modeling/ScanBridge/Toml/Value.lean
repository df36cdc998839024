namespace ScanBridge.Toml

/-- A float is kept as a type only and a date or time as its text, since scripts refuse the one and
take nothing but the text of the other. -/
inductive Value
  | string (s : String)
  | integer (n : Int64)
  | float
  | boolean (b : Bool)
  | datetime (text : String)
  | array (items : List Value)
  | table (entries : List (String × Value))
  deriving Repr

mutual

def Value.same : Value → Value → Bool
  | .string s, .string t | .datetime s, .datetime t => s = t
  | .integer m, .integer n => m = n
  | .float, .float => true
  | .boolean a, .boolean b => a = b
  | .array xs, .array ys => sameItems xs ys
  | .table es, .table fs => sameEntries es fs
  | _, _ => false

def sameItems : List Value → List Value → Bool
  | [], [] => true
  | x :: xs, y :: ys => x.same y && sameItems xs ys
  | _, _ => false

def sameEntries : List (String × Value) → List (String × Value) → Bool
  | [], [] => true
  | (k, x) :: es, (l, y) :: fs => k = l && x.same y && sameEntries es fs
  | _, _ => false

end

mutual

theorem Value.same_iff (v w : Value) : v.same w = true ↔ v = w := by
  cases v with
  | array xs => cases w <;> simp [Value.same, sameItems_iff xs]
  | table es => cases w <;> simp [Value.same, sameEntries_iff es]
  | _ => cases w <;> simp [Value.same]

theorem sameItems_iff (xs ys : List Value) : sameItems xs ys = true ↔ xs = ys := by
  cases xs with
  | nil => cases ys <;> simp [sameItems]
  | cons x xs => cases ys <;> simp [sameItems, x.same_iff, sameItems_iff xs]

theorem sameEntries_iff (es fs : List (String × Value)) : sameEntries es fs = true ↔ es = fs := by
  cases es with
  | nil => cases fs <;> simp [sameEntries]
  | cons e es =>
    obtain ⟨k, x⟩ := e
    cases fs <;> simp [sameEntries, x.same_iff, sameEntries_iff es, Prod.ext_iff]

end

instance : DecidableEq Value := fun v w => decidable_of_iff _ (v.same_iff w)

def lookup? (entries : List (String × Value)) (key : String) : Option Value :=
  (entries.find? (·.1 = key)).map (·.2)

end ScanBridge.Toml
