import ScanBridge.Proofs.JsonText
import ScanBridge.Proofs.RuleLayout
import ScanBridge.Proofs.Utf8
import ScanBridge.Record.Written

namespace ScanBridge

namespace Json.Value

def member? {α : Type} (name : String) (read : Value → Option α) : Value → Option α
  | .object members => (members.find? (·.1 = name)).bind (read ·.2)
  | _ => none

def text? : Value → Option String
  | .string s => some s
  | _ => none

/-- The items of an array, each read by `read`. -/
def list? {α : Type} (read : Value → Option α) : Value → Option (List α)
  | .array items => items.mapM read
  | _ => none

def word? : Value → Option UInt64
  | .integer n => if 0 ≤ n ∧ n < 2 ^ 64 then some (.ofNat n.toNat) else none
  | _ => none

def byte? : Value → Option UInt8
  | .integer n => if 0 ≤ n ∧ n < 2 ^ 8 then some (.ofNat n.toNat) else none
  | _ => none

theorem member?_object {α : Type} {read : Value → Option α} {members : List (String × Value)}
    {name : String} {v : Value} {a : α} (hmember : members.find? (·.1 = name) = some (name, v))
    (hread : read v = some a) : member? name read (.object members) = some a := by
  rw [member?, hmember, Option.bind_some, hread]

theorem text?_string (s : String) : text? (.string s) = some s := rfl

theorem word?_integer (n : UInt64) : word? (.integer n.toNat) = some n := by
  have hrange : (0 : Int) ≤ n.toNat ∧ (n.toNat : Int) < 2 ^ 64 := by
    have := n.toNat_lt
    omega
  rw [word?, if_pos hrange, Int.toNat_natCast, UInt64.ofNat_toNat]

theorem byte?_integer (n : UInt8) : byte? (.integer n.toNat) = some n := by
  have hrange : (0 : Int) ≤ n.toNat ∧ (n.toNat : Int) < 2 ^ 8 := by
    have := n.toNat_lt
    omega
  rw [byte?, if_pos hrange, Int.toNat_natCast, UInt8.ofNat_toNat]

theorem list?_map {α : Type} {read : Value → Option α} {write : α → Value}
    (h : ∀ a, read (write a) = some a) (l : List α) :
    list? read (.array (l.map write)) = some l := by
  rw [list?]
  induction l with
  | nil => rfl
  | cons a l ih => rw [List.map_cons, List.mapM_cons, h, ih]; rfl

end Json.Value

open Json.Value

namespace MatchString

def ofJson? (v : Json.Value) : Option MatchString := do
  let name ← member? "name" text? v
  let base ← member? "base" word? v
  let offset ← member? "offset" word? v
  let data ← member? "data" (list? byte?) v
  some { name, base, offset, data }

theorem ofJson?_toJson (s : MatchString) : ofJson? s.toJson = some s := by
  have hname : member? "name" text? s.toJson = some s.name :=
    member?_object (by simp) (text?_string s.name)
  have hbase : member? "base" word? s.toJson = some s.base :=
    member?_object (by simp) (word?_integer s.base)
  have hoffset : member? "offset" word? s.toJson = some s.offset :=
    member?_object (by simp) (word?_integer s.offset)
  have hdata : member? "data" (list? byte?) s.toJson = some s.data :=
    member?_object (by simp) (list?_map byte?_integer s.data)
  rw [ofJson?, hname, hbase, hoffset, hdata]
  rfl

theorem toJson_exact (s : MatchString) : Json.Exact 2 s.toJson := by
  refine .object fun m hm => ?_
  simp only [List.mem_cons, List.not_mem_nil, or_false] at hm
  rcases hm with rfl | rfl | rfl | rfl
  · exact .string _ _
  · exact .integer _ _ (by omega) (by have := s.base.toNat_lt; omega)
  · exact .integer _ _ (by omega) (by have := s.offset.toNat_lt; omega)
  · refine .array fun v hv => ?_
    obtain ⟨b, _, rfl⟩ := List.mem_map.mp hv
    exact .integer _ _ (by omega) (by have := b.toNat_lt; omega)

end MatchString

namespace MetaValue

theorem ofJson?_toJson (v : MetaValue) : ofJson? v.toJson = some v := by
  cases v with
  | integer n =>
    have hrange : Int64.minValue.toInt ≤ n.toInt ∧ n.toInt ≤ Int64.maxValue.toInt :=
      ⟨n.minValue_le_toInt, n.toInt_le⟩
    rw [toJson, ofJson?, if_pos hrange, Int64.ofInt_toInt]
  | boolean b => rfl
  | string s => rfl

theorem toJson_exact (v : MetaValue) (d : Nat) : Json.Exact d v.toJson := by
  cases v with
  | integer n =>
    refine .integer _ _ n.le_toInt ?_
    have := n.toInt_lt
    omega
  | boolean b => exact .boolean _ _
  | string s => exact .string _ _

end MetaValue

namespace MetaMap

/-- Of members with one name, the last one stays. -/
def ofJson? : Json.Value → Option MetaMap
  | .object members =>
    (members.mapM fun m => (MetaValue.ofJson? m.2).map (m.1, ·)).map MetaMap.ofList
  | _ => none

theorem ofJson?_entries (m : MetaMap) :
    ofJson? (.object (m.entries.map fun e => (e.1, e.2.toJson))) = some m := by
  have hentries : ∀ es : List (String × MetaValue), (es.map fun e => (e.1, e.2.toJson)).mapM
      (fun m => (MetaValue.ofJson? m.2).map (m.1, ·)) = some es := by
    intro es
    induction es with
    | nil => rfl
    | cons e es ih =>
      rw [List.map_cons, List.mapM_cons, ih, MetaValue.ofJson?_toJson]
      rfl
  rw [ofJson?, hentries, Option.map_some, ofList_entries]

end MetaMap

namespace MatchRecord

def ofJson? (v : Json.Value) : Option MatchRecord := do
  let rule ← member? "rule" text? v
  let ns ← member? "namespace" text? v
  let tags ← member? "tags" (list? text?) v
  let metadata ← member? "meta" MetaMap.ofJson? v
  let strings ← member? "strings" (list? MatchString.ofJson?) v
  some { rule, ns, tags, metadata, strings }

theorem ofJson?_toJson (r : MatchRecord) : ofJson? r.toJson = some r := by
  have hrule : member? "rule" text? r.toJson = some r.rule :=
    member?_object (by simp) (text?_string r.rule)
  have hns : member? "namespace" text? r.toJson = some r.ns :=
    member?_object (by simp) (text?_string r.ns)
  have htags : member? "tags" (list? text?) r.toJson = some r.tags :=
    member?_object (by simp) (list?_map text?_string r.tags)
  have hmeta : member? "meta" MetaMap.ofJson? r.toJson = some r.metadata :=
    member?_object (by simp) r.metadata.ofJson?_entries
  have hstrings : member? "strings" (list? MatchString.ofJson?) r.toJson = some r.strings :=
    member?_object (by simp) (list?_map MatchString.ofJson?_toJson r.strings)
  rw [ofJson?, hrule, hns, htags, hmeta, hstrings]
  rfl

theorem toJson_exact (r : MatchRecord) : Json.Exact 4 r.toJson := by
  refine .object fun m hm => ?_
  simp only [List.mem_cons, List.not_mem_nil, or_false] at hm
  rcases hm with rfl | rfl | rfl | rfl | rfl
  · exact .string _ _
  · exact .string _ _
  · refine .array fun v hv => ?_
    obtain ⟨tag, _, rfl⟩ := List.mem_map.mp hv
    exact .string _ _
  · refine .object fun e he => ?_
    obtain ⟨entry, _, rfl⟩ := List.mem_map.mp he
    exact entry.2.toJson_exact _
  · refine .array fun v hv => ?_
    obtain ⟨s, _, rfl⟩ := List.mem_map.mp hv
    exact s.toJson_exact

def listToJson (rs : List MatchRecord) : Json.Value := .array (rs.map toJson)

theorem listToJson_exact (rs : List MatchRecord) : Json.Exact 5 (listToJson rs) := by
  refine .array fun v hv => ?_
  obtain ⟨r, _, rfl⟩ := List.mem_map.mp hv
  exact r.toJson_exact

theorem renderItems_separated (rs : List MatchRecord) :
    (separated rs).flatMap Piece.text = Json.renderItems (rs.map toJson) := by
  cases rs with
  | nil => rfl
  | cons r rs =>
    rw [separated, List.flatMap_cons]
    induction rs generalizing r with
    | nil => simp [piece, Json.renderItems]
    | cons s rs ih =>
      have hrest := ih s
      simp only [List.map_cons] at hrest ⊢
      rw [Json.renderItems, ← hrest]
      rfl

/-- The pieces make up the text of one array. -/
theorem text_eq_render (rs : List MatchRecord) :
    text rs = String.ofList (listToJson rs).render := by
  rw [text, pieces, List.flatMap_append, List.flatMap_cons, renderItems_separated]
  rfl

theorem writePieces_of_le {limit : Nat} {ps : List Piece}
    (h : (ps.flatMap Piece.bytes).length ≤ limit) :
    writePieces limit ps = ⟨ps.flatMap Piece.bytes, none⟩ := by
  induction ps generalizing limit with
  | nil => rfl
  | cons p ps ih =>
    rw [List.flatMap_cons, List.length_append] at h
    rw [writePieces, if_pos (by omega), ih (by omega), List.flatMap_cons]

theorem bytes_pieces (rs : List MatchRecord) :
    (pieces rs).flatMap Piece.bytes = Text.encode (text rs) := by
  rw [Text.encode, text, String.toList_ofList, List.flatMap_assoc]
  rfl

theorem parse_text (rs : List MatchRecord) : Json.parse (text rs) = .ok (listToJson rs) := by
  rw [text_eq_render]
  exact Json.parse_render (by decide) (listToJson_exact rs)

/-- The records in bytes that are the text of a JSON array of records. -/
def read? (bytes : Bytes) : Option (List MatchRecord) := do
  let text ← Text.decode? bytes
  let value ← (Json.parse text).toOption
  list? ofJson? value

theorem read?_encode (rs : List MatchRecord) : read? (Text.encode (text rs)) = some rs := by
  have hlist := list?_map ofJson?_toJson rs
  simp [read?, Text.decode?_encode, parse_text, Except.toOption, listToJson, hlist]

/-- Writing records loses nothing. What a writer with room enough receives is the text of one JSON
array with a value for each record in order, from which the records are read back, so that no two
lists of records are written alike. -/
theorem written_records_read_back (rs : List MatchRecord) {limit : Nat}
    (hroom : (Text.encode (text rs)).length ≤ limit) :
    (write rs limit).refused = none ∧
      (write rs limit).accepted = Text.encode (text rs) ∧
      Text.decode? (write rs limit).accepted = some (text rs) ∧
      Json.parse (text rs) = .ok (.array (rs.map toJson)) ∧
      read? (write rs limit).accepted = some rs ∧
      ∀ (rs' : List MatchRecord) (limit' : Nat),
        (Text.encode (text rs')).length ≤ limit' →
        (write rs' limit').accepted = (write rs limit).accepted → rs' = rs := by
  have hwrite : ∀ (rs : List MatchRecord) (limit : Nat),
      (Text.encode (text rs)).length ≤ limit → write rs limit = ⟨Text.encode (text rs), none⟩ := by
    intro rs limit hroom
    rw [← bytes_pieces] at hroom ⊢
    exact writePieces_of_le hroom
  rw [hwrite rs limit hroom]
  refine ⟨rfl, rfl, Text.decode?_encode _, parse_text rs, read?_encode rs, ?_⟩
  intro rs' limit' hroom' hsame
  rw [hwrite rs' limit' hroom'] at hsame
  have hread := congrArg read? hsame
  rw [read?_encode, read?_encode] at hread
  exact Option.some.inj hread

/-- Two records, one with text that needs escaping and with values at the bounds of their types. -/
def odd : List MatchRecord :=
  [{ rule := "a\"\\\n\x01\u00e9", ns := "", tags := ["", ","]
     metadata := .ofList [("n", .integer (-9223372036854775808)), ("", .string "true"),
       ("b", .boolean true), ("b", .boolean false)]
     strings := [⟨"$a", 0, 18446744073709551615, [0, 255]⟩, ⟨"[", 1, 2, []⟩] },
    { rule := "", ns := "default", tags := [], metadata := .empty, strings := [] }]

theorem written_records_read_back_odd :
    let room := (Text.encode (text odd)).length
    (Text.encode (text odd)).length ≤ room ∧ (write odd room).refused = none ∧
      read? (write odd room).accepted = some odd := by
  intro room
  have hroom : (Text.encode (text odd)).length ≤ room := Nat.le_refl _
  obtain ⟨hrefused, _, _, _, hread, _⟩ := written_records_read_back odd hroom
  exact ⟨hroom, hrefused, hread⟩

end MatchRecord

end ScanBridge
