import Mathlib.Data.List.Forall2
import ScanBridge.Proofs.RuleLayout
import ScanBridge.Proofs.Utf8
import ScanBridge.Script.Document

namespace ScanBridge

open Toml (Value lookup?)

/-- What stands for a field that may be left out where it is dispensable. -/
inductive Stated (written : Value → Prop) (dispensable : Prop) : Option Value → Prop
  | value {v : Value} (h : written v) : Stated written dispensable (some v)
  | nothing (h : dispensable) : Stated written dispensable none

inductive ListStated {α : Type} (written : α → Value → Prop) (xs : List α) : Value → Prop
  | array {vs : List Value} (h : List.Forall₂ written xs vs) : ListStated written xs (.array vs)

/-- A kind is written by its name, a bare code as a number. -/
def KindSpec.toToml : KindSpec → Value
  | .named kind => .string kind.name
  | .raw code => .integer code.toInt64

def MetaValue.toToml : MetaValue → Value
  | .integer n => .integer n
  | .boolean b => .boolean b
  | .string s => .string s

/-- The entries of a map, in any order. -/
inductive MetaMap.StatedAs (m : MetaMap) : Value → Prop
  | table {es : List (String × MetaValue)} (h : es.Perm m.entries) :
      StatedAs m (.table (es.map fun e => (e.1, e.2.toToml)))

structure MatchSpec.StatedIn (m : MatchSpec) (entries : List (String × Value)) : Prop where
  base : Stated (· = .integer m.base) (m.base = 0) (lookup? entries "base")
  offset : lookup? entries "offset" = some (.integer m.offset)
  data : Stated (· = .string m.data) (m.data = "") (lookup? entries "data")
  length : Stated (fun v => ∃ n, m.length = some n ∧ v = .integer n.toInt64) (m.length = none)
    (lookup? entries "length")

inductive MatchSpec.StatedAs (m : MatchSpec) : Value → Prop
  | table {entries : List (String × Value)} (h : m.StatedIn entries) : StatedAs m (.table entries)

structure StringSpec.StatedIn (s : StringSpec) (entries : List (String × Value)) : Prop where
  name : lookup? entries "name" = some (.string s.name)
  hits : Stated (ListStated MatchSpec.StatedAs s.hits) (s.hits = []) (lookup? entries "matches")

inductive StringSpec.StatedAs (s : StringSpec) : Value → Prop
  | table {entries : List (String × Value)} (h : s.StatedIn entries) : StatedAs s (.table entries)

structure EventSpec.StatedIn (e : EventSpec) (entries : List (String × Value)) : Prop where
  kind : lookup? entries "kind" = some e.kind.toToml
  rule : Stated (· = .string e.rule) (e.rule = "") (lookup? entries "rule")
  ns : Stated (· = .string e.ns) (e.ns = "default") (lookup? entries "namespace")
  tags : Stated (ListStated (fun tag v => v = .string tag) e.tags) (e.tags = [])
    (lookup? entries "tags")
  metadata : Stated e.metadata.StatedAs (e.metadata = .empty) (lookup? entries "meta")
  strings : Stated (ListStated StringSpec.StatedAs e.strings) (e.strings = [])
    (lookup? entries "strings")
  module : Stated (· = .string e.module) (e.module = "") (lookup? entries "module")
  objectType : Stated (fun v => ∃ n, e.objectType = some n ∧ v = .integer n.toInt64)
    (e.objectType = none) (lookup? entries "object_type")

inductive EventSpec.StatedAs (e : EventSpec) : Value → Prop
  | table {entries : List (String × Value)} (h : e.StatedIn entries) : StatedAs e (.table entries)

/-- A document of a script. Other entries may stand in it, and in any of its tables. -/
def Script.StatedIn (s : Script) (doc : List (String × Value)) : Prop :=
  Stated (ListStated EventSpec.StatedAs s.events) (s.events = []) (lookup? doc "event")

/-- What a value gives for a field of a record: a table by the name of the field, an array by its
place. -/
inductive Gives (names : List String) (key : String) : Value → Option Value → Prop
  | byName (entries : List (String × Value)) :
      Gives names key (.table entries) (lookup? entries key)
  | byPlace (items : List Value) {i : Nat} (place : names.idxOf? key = some i) :
      Gives names key (.array items) items[i]?
  | ofDate (text : String) : Gives names key (.datetime text) none

def Beyond (bits : Nat) (n : Int64) : Prop :=
  n.toInt < -2 ^ (bits - 1) ∨ 2 ^ (bits - 1) ≤ n.toInt

def matchFields : List String := ["base", "offset", "data", "length"]

def stringFields : List String := ["name", "matches"]

def eventFields : List String :=
  ["kind", "rule", "namespace", "tags", "meta", "strings", "module", "object_type"]

inductive MatchSpec.Defect (v : Value) : Prop
  | noOffset (h : Gives matchFields "offset" v none)
  | length {n : Int64} (h : Gives matchFields "length" v (some (.integer n))) (beyond : Beyond 32 n)

inductive StringSpec.Defect (v : Value) : Prop
  | noName (h : Gives stringFields "name" v none)
  | ofMatch {items : List Value} {m : Value}
      (h : Gives stringFields "matches" v (some (.array items))) (hm : m ∈ items)
      (defect : MatchSpec.Defect m)

inductive EventSpec.Defect (v : Value) : Prop
  | noKind (h : Gives eventFields "kind" v none)
  | kindUnknown {name : String} (h : Gives eventFields "kind" v (some (.string name)))
      (unknown : ∀ kind : EventKind, kind.name ≠ name)
  | kind {n : Int64} (h : Gives eventFields "kind" v (some (.integer n))) (beyond : Beyond 32 n)
  | metaOfOtherType {entries : List (String × Value)} {entry : String × Value}
      (h : Gives eventFields "meta" v (some (.table entries))) (hentry : entry ∈ entries)
      (other : ∀ value : MetaValue, entry.2 ≠ value.toToml)
  | objectType {n : Int64} (h : Gives eventFields "object_type" v (some (.integer n)))
      (beyond : Beyond 8 n)
  | ofString {items : List Value} {s : Value}
      (h : Gives eventFields "strings" v (some (.array items))) (hs : s ∈ items)
      (defect : StringSpec.Defect s)

inductive Script.Defect (doc : List (String × Value)) : Prop
  | ofEvent {items : List Value} {v : Value} (h : lookup? doc "event" = some (.array items))
      (hv : v ∈ items) (defect : EventSpec.Defect v)

theorem fieldOr_stated {α : Type} {read : Value → Option α} {default x : α}
    {written : Value → Prop} {found : Option Value} (h : Stated written (x = default) found)
    (hread : ∀ v, written v → read v = some x) : fieldOr read default found = some x := by
  cases h with
  | value h => exact hread _ h
  | nothing h => rw [h, fieldOr]

section Lists

variable {α β : Type} {read : β → Option α} {vs : List β}

theorem mapM_eq_some_iff {xs : List α} :
    vs.mapM read = some xs ↔ List.Forall₂ (fun x v => read v = some x) xs vs := by
  induction vs generalizing xs with
  | nil => cases xs <;> simp
  | cons v vs ih =>
    rw [List.mapM_cons]
    cases hv : read v with
    | none => cases xs <;> simp [hv]
    | some x =>
      cases hvs : vs.mapM read with
      | none => cases xs <;> simp [← ih, hvs]
      | some ys => cases xs <;> simp [← ih, hvs, hv]

theorem mapM_eq_none {v : β} (hv : v ∈ vs) (h : read v = none) : vs.mapM read = none := by
  induction vs with
  | nil => cases hv
  | cons w vs ih =>
    rw [List.mapM_cons]
    rcases List.mem_cons.mp hv with rfl | hv
    · simp [h]
    · cases read w <;> simp [ih hv]

end Lists

theorem readList_stated {α : Type} {read : Value → Option α} {written : α → Value → Prop}
    {xs : List α} {v : Value} (h : ListStated written xs v)
    (hread : ∀ x v, written x v → read v = some x) : readList read v = some xs := by
  obtain ⟨h⟩ := h
  exact mapM_eq_some_iff.mpr (h.imp hread)

theorem Gives.eq {names : List String} {key : String} {v : Value} {found : Option Value}
    (h : Gives names key v found) {field : String → Option Value}
    (hfield : fieldsOf names v = some field) : field key = found := by
  cases h with
  | byName entries => rw [← Option.some.inj hfield]
  | byPlace items place =>
    rw [← Option.some.inj hfield]
    simp [place]
  | ofDate text => rw [← Option.some.inj hfield]

theorem readInt32_toInt64 (n : Int32) : readInt32 (.integer n.toInt64) = some n := by
  have hrange : Int32.minValue.toInt ≤ n.toInt ∧ n.toInt ≤ Int32.maxValue.toInt :=
    ⟨n.minValue_le_toInt, n.toInt_le⟩
  rw [readInt32, Int32.toInt_toInt64, if_pos hrange, Int32.ofInt_toInt]

theorem readInt8_toInt64 (n : Int8) : readInt8 (.integer n.toInt64) = some n := by
  have hrange : Int8.minValue.toInt ≤ n.toInt ∧ n.toInt ≤ Int8.maxValue.toInt :=
    ⟨n.minValue_le_toInt, n.toInt_le⟩
  rw [readInt8, Int8.toInt_toInt64, if_pos hrange, Int8.ofInt_toInt]

theorem readInt32_beyond {n : Int64} (h : Beyond 32 n) : readInt32 (.integer n) = none := by
  have hleast : Int32.minValue.toInt = -2 ^ 31 := rfl
  have hgreatest : Int32.maxValue.toInt = 2 ^ 31 - 1 := rfl
  rw [Beyond] at h
  rw [readInt32, if_neg (by omega)]

theorem readInt8_beyond {n : Int64} (h : Beyond 8 n) : readInt8 (.integer n) = none := by
  have hleast : Int8.minValue.toInt = -2 ^ 7 := rfl
  have hgreatest : Int8.maxValue.toInt = 2 ^ 7 - 1 := rfl
  rw [Beyond] at h
  rw [readInt8, if_neg (by omega)]

theorem readKind_toToml (kind : KindSpec) : readKind kind.toToml = some kind := by
  cases kind with
  | named kind => simp [KindSpec.toToml, readKind]
  | raw code => simp [KindSpec.toToml, readKind, readInt32_toInt64]

theorem readKind_unknown {name : String} (h : ∀ kind : EventKind, kind.name ≠ name) :
    readKind (.string name) = none := by
  simp [readKind, EventKind.ofName?, h]

theorem readMetaValue_toToml (value : MetaValue) : readMetaValue value.toToml = some value := by
  cases value <;> rfl

theorem readMetaValue_eq_none {v : Value} (h : ∀ value : MetaValue, v ≠ value.toToml) :
    readMetaValue v = none := by
  cases v with
  | string s => exact absurd rfl (h (.string s))
  | integer n => exact absurd rfl (h (.integer n))
  | boolean b => exact absurd rfl (h (.boolean b))
  | float => rfl
  | datetime text => rfl
  | array items => rfl
  | table entries => rfl

theorem insertEntry_perm {name : String} (value : MetaValue) {es : List (String × MetaValue)}
    (h : ∀ e ∈ es, e.1 ≠ name) : (insertEntry name value es).Perm ((name, value) :: es) := by
  induction es with
  | nil => exact .refl _
  | cons e es ih =>
    obtain ⟨hne, hes⟩ := List.forall_mem_cons.mp h
    unfold insertEntry
    split
    · exact .refl _
    · rename_i hge
      split
      · exact ((ih hes).cons e).trans (.swap _ _ _)
      · rename_i hle
        exact absurd (String.le_antisymm (String.not_lt.mp hge) (String.not_lt.mp hle)) hne

namespace MetaMap

theorem entries_foldl_perm (m : MetaMap) {es : List (String × MetaValue)}
    (h : ((es ++ m.entries).map Prod.fst).Nodup) :
    (es.foldl (fun m e => m.insert e.1 e.2) m).entries.Perm (es ++ m.entries) := by
  induction es generalizing m with
  | nil => exact .refl _
  | cons e es ih =>
    rw [List.cons_append, List.map_cons, List.nodup_cons] at h
    have hfresh : ∀ f ∈ m.entries, f.1 ≠ e.1 := by
      intro f hf he
      exact h.1 (he ▸ List.mem_map_of_mem (List.mem_append_right es hf))
    have hput : (es ++ (m.insert e.1 e.2).entries).Perm (e :: (es ++ m.entries)) :=
      ((insertEntry_perm e.2 hfresh).append_left es).trans List.perm_middle
    have hnodup : ((es ++ (m.insert e.1 e.2).entries).map Prod.fst).Nodup :=
      (hput.map Prod.fst).nodup_iff.mpr (List.nodup_cons.mpr h)
    exact (ih (m.insert e.1 e.2) hnodup).trans hput

/-- The order in which a map's entries are put in does not matter. -/
theorem ofList_perm {m : MetaMap} {es : List (String × MetaValue)} (h : es.Perm m.entries) :
    ofList es = m := by
  have hnodup : (m.entries.map Prod.fst).Nodup := by
    rw [List.Nodup, List.pairwise_map]
    refine m.ordered.imp fun {a b} hlt he => ?_
    exact String.lt_irrefl a.1 (he ▸ hlt)
  have hperm : (ofList es).entries.Perm m.entries := by
    refine (entries_foldl_perm empty ?_).trans ?_
    · rw [empty, List.append_nil]
      exact (h.map Prod.fst).nodup_iff.mpr hnodup
    · rw [empty, List.append_nil]
      exact h
  have hentries : (ofList es).entries = m.entries :=
    hperm.eq_of_pairwise (fun a b _ _ hab hba => absurd (String.lt_trans hab hba)
      (String.lt_irrefl _)) (ofList es).ordered m.ordered
  cases hl : ofList es
  cases m
  simpa [hl] using hentries

end MetaMap

theorem readMetadata_stated {m : MetaMap} {v : Value} (h : m.StatedAs v) :
    readMetadata v = some m := by
  obtain @⟨es, h⟩ := h
  have hentries : (es.map fun e => (e.1, e.2.toToml)).mapM
      (fun e => (readMetaValue e.2).map fun v => (e.1, v)) = some es := by
    rw [mapM_eq_some_iff, List.forall₂_map_right_iff, List.forall₂_same]
    intro e _
    simp [readMetaValue_toToml]
  rw [readMetadata, hentries]
  simp [MetaMap.ofList_perm h]

theorem readMetadata_eq_none {entries : List (String × Value)} {entry : String × Value}
    (hentry : entry ∈ entries) (h : ∀ value : MetaValue, entry.2 ≠ value.toToml) :
    readMetadata (.table entries) = none := by
  have hspoilt : entries.mapM
      (fun e => (readMetaValue e.2).map fun v => (e.1, v)) = none :=
    mapM_eq_none hentry (by simp [readMetaValue_eq_none h])
  rw [readMetadata, hspoilt]
  rfl

theorem readMatch_eq_some_iff {v : Value} {m : MatchSpec} :
    readMatch v = some m ↔ ∃ field, fieldsOf matchFields v = some field ∧
      fieldOr readInt64 0 (field "base") = some m.base ∧
      (field "offset").bind readInt64 = some m.offset ∧
      fieldOr readString "" (field "data") = some m.data ∧
      fieldOr (fun v => (readInt32 v).map some) none (field "length") = some m.length := by
  cases m with
  | mk base offset data length =>
    simp only [readMatch, matchFields, Option.bind_eq_bind, Option.bind_eq_some_iff,
      Option.some.injEq, MatchSpec.mk.injEq]
    constructor
    · rintro ⟨field, hfield, _, hbase, _, hoffset, _, hdata, _, hlength, rfl, rfl, rfl, rfl⟩
      exact ⟨field, hfield, hbase, hoffset, hdata, hlength⟩
    · rintro ⟨field, hfield, hbase, hoffset, hdata, hlength⟩
      exact ⟨field, hfield, _, hbase, _, hoffset, _, hdata, _, hlength, rfl, rfl, rfl, rfl⟩

theorem readMatch_stated {m : MatchSpec} {v : Value} (h : m.StatedAs v) : readMatch v = some m := by
  obtain ⟨h⟩ := h
  refine readMatch_eq_some_iff.mpr ⟨_, rfl, ?_, ?_, ?_, ?_⟩
  · exact fieldOr_stated h.base (by rintro _ rfl; rfl)
  · rw [h.offset]
    rfl
  · exact fieldOr_stated h.data (by rintro _ rfl; rfl)
  · refine fieldOr_stated h.length ?_
    rintro _ ⟨n, hn, rfl⟩
    rw [readInt32_toInt64, hn, Option.map_some]

theorem readMatch_defect {v : Value} (h : MatchSpec.Defect v) : readMatch v = none := by
  rw [Option.eq_none_iff_forall_ne_some]
  intro m hm
  obtain ⟨field, hfield, -, hoffset, -, hlength⟩ := readMatch_eq_some_iff.mp hm
  cases h with
  | noOffset h =>
    rw [h.eq hfield] at hoffset
    cases hoffset
  | length h beyond =>
    rw [h.eq hfield, fieldOr, readInt32_beyond beyond] at hlength
    cases hlength

theorem readStringSpec_eq_some_iff {v : Value} {s : StringSpec} :
    readStringSpec v = some s ↔ ∃ field, fieldsOf stringFields v = some field ∧
      (field "name").bind readString = some s.name ∧
      fieldOr (readList readMatch) [] (field "matches") = some s.hits := by
  cases s with
  | mk name hits =>
    simp only [readStringSpec, stringFields, Option.bind_eq_bind, Option.bind_eq_some_iff,
      Option.some.injEq, StringSpec.mk.injEq]
    constructor
    · rintro ⟨field, hfield, _, hname, _, hhits, rfl, rfl⟩
      exact ⟨field, hfield, hname, hhits⟩
    · rintro ⟨field, hfield, hname, hhits⟩
      exact ⟨field, hfield, _, hname, _, hhits, rfl, rfl⟩

theorem readStringSpec_stated {s : StringSpec} {v : Value} (h : s.StatedAs v) :
    readStringSpec v = some s := by
  obtain ⟨h⟩ := h
  refine readStringSpec_eq_some_iff.mpr ⟨_, rfl, ?_, ?_⟩
  · rw [h.name]
    rfl
  · exact fieldOr_stated h.hits fun v hv => readList_stated hv fun _ _ => readMatch_stated

theorem readStringSpec_defect {v : Value} (h : StringSpec.Defect v) : readStringSpec v = none := by
  rw [Option.eq_none_iff_forall_ne_some]
  intro s hs
  obtain ⟨field, hfield, hname, hhits⟩ := readStringSpec_eq_some_iff.mp hs
  cases h with
  | noName h =>
    rw [h.eq hfield] at hname
    cases hname
  | ofMatch h hm defect =>
    rw [h.eq hfield, fieldOr, readList, mapM_eq_none hm (readMatch_defect defect)] at hhits
    cases hhits

theorem readEvent_eq_some_iff {v : Value} {e : EventSpec} :
    readEvent v = some e ↔ ∃ field, fieldsOf eventFields v = some field ∧
      (field "kind").bind readKind = some e.kind ∧
      fieldOr readString "" (field "rule") = some e.rule ∧
      fieldOr readString "default" (field "namespace") = some e.ns ∧
      fieldOr (readList readString) [] (field "tags") = some e.tags ∧
      fieldOr readMetadata .empty (field "meta") = some e.metadata ∧
      fieldOr (readList readStringSpec) [] (field "strings") = some e.strings ∧
      fieldOr readString "" (field "module") = some e.module ∧
      fieldOr (fun v => (readInt8 v).map some) none (field "object_type") = some e.objectType := by
  cases e with
  | mk kind rule ns tags metadata strings module objectType =>
    simp only [readEvent, eventFields, Option.bind_eq_bind, Option.bind_eq_some_iff,
      Option.some.injEq, EventSpec.mk.injEq]
    constructor
    · rintro ⟨field, hfield, _, hkind, _, hrule, _, hns, _, htags, _, hmetadata, _, hstrings, _,
        hmodule, _, htype, rfl, rfl, rfl, rfl, rfl, rfl, rfl, rfl⟩
      exact ⟨field, hfield, hkind, hrule, hns, htags, hmetadata, hstrings, hmodule, htype⟩
    · rintro ⟨field, hfield, hkind, hrule, hns, htags, hmetadata, hstrings, hmodule, htype⟩
      exact ⟨field, hfield, _, hkind, _, hrule, _, hns, _, htags, _, hmetadata, _, hstrings, _,
        hmodule, _, htype, rfl, rfl, rfl, rfl, rfl, rfl, rfl, rfl⟩

theorem readEvent_stated {e : EventSpec} {v : Value} (h : e.StatedAs v) : readEvent v = some e := by
  obtain ⟨h⟩ := h
  have htext : ∀ s v, v = Value.string s → readString v = some s := by
    rintro s _ rfl
    rfl
  refine readEvent_eq_some_iff.mpr ⟨_, rfl, ?_, ?_, ?_, ?_, ?_, ?_, ?_, ?_⟩
  · rw [h.kind]
    exact readKind_toToml e.kind
  · exact fieldOr_stated h.rule (htext e.rule)
  · exact fieldOr_stated h.ns (htext e.ns)
  · exact fieldOr_stated h.tags fun v hv => readList_stated hv htext
  · exact fieldOr_stated h.metadata fun v => readMetadata_stated
  · exact fieldOr_stated h.strings fun v hv => readList_stated hv fun _ _ => readStringSpec_stated
  · exact fieldOr_stated h.module (htext e.module)
  · refine fieldOr_stated h.objectType ?_
    rintro _ ⟨n, hn, rfl⟩
    rw [readInt8_toInt64, hn, Option.map_some]

theorem readEvent_defect {v : Value} (h : EventSpec.Defect v) : readEvent v = none := by
  rw [Option.eq_none_iff_forall_ne_some]
  intro e he
  obtain ⟨field, hfield, hkind, -, -, -, hmetadata, hstrings, -, htype⟩ :=
    readEvent_eq_some_iff.mp he
  cases h with
  | noKind h =>
    rw [h.eq hfield] at hkind
    cases hkind
  | kindUnknown h unknown =>
    rw [h.eq hfield, Option.bind_some, readKind_unknown unknown] at hkind
    cases hkind
  | kind h beyond =>
    rw [h.eq hfield, Option.bind_some, readKind, readInt32_beyond beyond] at hkind
    · cases hkind
    · nofun
  | metaOfOtherType h hentry other =>
    rw [h.eq hfield, fieldOr, readMetadata_eq_none hentry other] at hmetadata
    cases hmetadata
  | objectType h beyond =>
    rw [h.eq hfield, fieldOr, readInt8_beyond beyond] at htype
    cases htype
  | ofString h hs defect =>
    rw [h.eq hfield, fieldOr, readList, mapM_eq_none hs (readStringSpec_defect defect)] at hstrings
    cases hstrings

namespace Script

theorem ofEntries_stated {s : Script} {doc : List (String × Value)} (h : s.StatedIn doc) :
    ofEntries doc = some s := by
  have hevents : fieldOr (readList readEvent) [] (lookup? doc "event") = some s.events :=
    fieldOr_stated h fun v hv => readList_stated hv fun _ _ => readEvent_stated
  rw [ofEntries, hevents]
  rfl

theorem ofDocument_stated {s : Script} {doc : List (String × Value)} (h : s.StatedIn doc)
    (hvalid : s.fault? = none) : ofDocument doc = .ok s := by
  simp [ofDocument, ofEntries_stated h, hvalid]

theorem ofDocument_defect {doc : List (String × Value)} (h : Script.Defect doc) :
    ofDocument doc = .error .toml := by
  obtain ⟨h, hv, defect⟩ := h
  have hevents : fieldOr (readList readEvent) [] (lookup? doc "event") = none := by
    rw [h, fieldOr, readList, mapM_eq_none hv (readEvent_defect defect)]
  simp [ofDocument, ofEntries, hevents]

theorem ofDocument_valid {s : Script} {doc : List (String × Value)} (h : ofDocument doc = .ok s) :
    s.fault? = none := by
  unfold ofDocument at h
  split at h
  · cases h
  · split at h
    · cases h
    · rename_i hvalid
      exact Except.ok.inj h ▸ hvalid

theorem load_encode (text : String) : load (some (Text.encode text)) = ofToml text := by
  simp [load, Text.decode?_encode]

/-- A valid script is read back from every document of it, whichever of the fields that have their
defaults are left out. What is read from any text is valid, and a document with a defect is refused,
wherever in it the defect is. -/
theorem documents_read_back :
    (∀ (s : Script) (doc : List (String × Value)), s.fault? = none → s.StatedIn doc →
      ofDocument doc = .ok s ∧ ∀ text, Toml.parse? text = some doc →
        ofToml text = .ok s ∧ load (some (Text.encode text)) = .ok s) ∧
      (∀ (text : String) (s : Script), ofToml text = .ok s → s.fault? = none) ∧
      ∀ doc : List (String × Value), Script.Defect doc →
        ofDocument doc = .error .toml ∧ ∀ text, Toml.parse? text = some doc →
          ofToml text = .error .toml ∧ load (some (Text.encode text)) = .error .toml := by
  refine ⟨fun s doc hvalid h => ?_, fun text s h => ?_, fun doc h => ?_⟩
  · have hread := ofDocument_stated h hvalid
    refine ⟨hread, fun text htext => ?_⟩
    rw [load_encode, ofToml, htext]
    exact ⟨hread, hread⟩
  · unfold ofToml at h
    split at h
    · cases h
    · exact ofDocument_valid h
  · have hread := ofDocument_defect h
    refine ⟨hread, fun text htext => ?_⟩
    rw [load_encode, ofToml, htext]
    exact ⟨hread, hread⟩

def mixed : Script where
  events := [.raw 1,
    (EventSpec.scanFinished.withMeta "a" (.integer 1)).withMeta "b" (.boolean true)]

def mixedText : String :=
  "[[event]]\nkind = 1\n[[event]]\nkind = \"scan-finished\"\nmeta = {b = true, a = 1}\n"

def mixedDocument : List (String × Value) :=
  [("event", .array [.table [("kind", .integer 1)],
    .table [("kind", .string "scan-finished"),
      ("meta", .table [("b", .boolean true), ("a", .integer 1)])]])]

theorem mixed_statedIn : mixed.StatedIn mixedDocument := by
  refine .value (.array (.cons (.table ?_) (.cons (.table ?_) .nil)))
  · exact ⟨rfl, .nothing rfl, .nothing rfl, .nothing rfl, .nothing rfl, .nothing rfl, .nothing rfl,
      .nothing rfl⟩
  · refine ⟨rfl, .nothing rfl, .nothing rfl, .nothing rfl, ?_, .nothing rfl, .nothing rfl,
      .nothing rfl⟩
    exact .value (@MetaMap.StatedAs.table _ [("b", .boolean true), ("a", .integer 1)] (.swap _ _ _))

/-- The events of `mixed` read from a text, and a code of 33 bits. -/
theorem documents_read_back_mixed :
    (ofToml mixedText = .ok mixed ∧ mixed.fault? = none) ∧
      ofToml "[[event]]\nkind = 2147483648\n" = .error .toml := by
  have hmixed : Toml.parse? mixedText = some mixedDocument := by decide +kernel
  have hread : ofToml mixedText = .ok mixed :=
    ((documents_read_back.1 mixed _ (by decide) mixed_statedIn).2 _ hmixed).1
  have hlarge : Toml.parse? "[[event]]\nkind = 2147483648\n" =
      some [("event", .array [.table [("kind", .integer 2147483648)]])] := by decide +kernel
  have hdefect : Script.Defect [("event", .array [.table [("kind", .integer 2147483648)]])] :=
    .ofEvent rfl (List.mem_singleton.mpr rfl) (.kind (.byName _) (.inr (by decide)))
  exact ⟨⟨hread, documents_read_back.2.1 mixedText mixed hread⟩,
    ((documents_read_back.2.2 _ hdefect).2 _ hlarge).1⟩

end Script

end ScanBridge
