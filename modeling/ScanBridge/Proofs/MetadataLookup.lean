import ScanBridge.Proofs.RuleLayout
import ScanBridge.Proofs.TextOrder

namespace ScanBridge

theorem find?_insertEntry (name : String) (value : MetaValue) (es : List (String × MetaValue))
    (key : String) :
    (insertEntry name value es).find? (·.1 = key) =
      if name = key then some (name, value) else es.find? (·.1 = key) := by
  induction es with
  | nil => by_cases hk : name = key <;> simp [insertEntry, hk]
  | cons e es ih =>
    obtain ⟨n, v⟩ := e
    unfold insertEntry
    split
    · by_cases hk : name = key <;> simp [hk]
    split
    · rename_i hlt
      rw [List.find?_cons, List.find?_cons, ih]
      by_cases hk : name = key
      · have hne : n ≠ key := by
          rintro rfl
          exact String.lt_irrefl _ (hk ▸ hlt)
        simp [hk, hne]
      · simp [hk]
    · rename_i hge hle
      have hsame : n = name := String.le_antisymm (String.not_lt.mp hge) (String.not_lt.mp hle)
      by_cases hk : name = key <;> simp [hsame, hk]

namespace MetaMap

theorem get?_insert (m : MetaMap) (name : String) (value : MetaValue) (key : String) :
    (m.insert name value).get? key = if name = key then some value else m.get? key := by
  rw [get?, insert, find?_insertEntry]
  split <;> rfl

theorem get?_foldl_insert (es : List (String × MetaValue)) (m : MetaMap) (key : String) :
    (es.foldl (fun m e => m.insert e.1 e.2) m).get? key =
      ((es.reverse.find? (·.1 = key)).map (·.2)).or (m.get? key) := by
  induction es generalizing m with
  | nil => rfl
  | cons e es ih =>
    rw [List.foldl_cons, ih, get?_insert, List.reverse_cons, List.find?_append]
    cases es.reverse.find? (·.1 = key) with
    | some found => rfl
    | none => by_cases hk : e.1 = key <;> simp [hk]

theorem get?_ofList (es : List (String × MetaValue)) (key : String) :
    (ofList es).get? key = (es.reverse.find? (·.1 = key)).map (·.2) := by
  rw [ofList, get?_foldl_insert]
  exact Option.or_none

theorem isSome_get? (m : MetaMap) (key : String) :
    (m.get? key).isSome = true ↔ key ∈ m.entries.map Prod.fst := by
  rw [get?, Option.isSome_map, List.find?_isSome, List.mem_map]
  simp only [decide_eq_true_eq]

end MetaMap

namespace Layout

/-- The text that an address stands for. Bytes count up to the first NUL, and no address stands for
the empty text. -/
inductive Spells : Terminated → String → Prop
  | missing : Spells none ""
  | bytes (bs : Bytes) : Spells (some bs) (Text.decodeLossy (bs.takeWhile (· != 0)))

theorem spells_iff {t : Terminated} {text : String} :
    Spells t text ↔ Text.ofTerminated t = text := by
  constructor
  · rintro (_ | bs) <;> rfl
  · rintro rfl
    cases t with
    | none => exact .missing
    | some bs => exact .bytes bs

/-- What an entry says of a name, if it is of one of the three known types. -/
inductive Meta.States (m : Meta) (name : String) : MetaValue → Prop
  | integer (spelt : Spells m.identifier name) (kind : m.kind = 1) :
    States m name (.integer m.integer)
  | boolean {b : Bool} (spelt : Spells m.identifier name) (kind : m.kind = 3)
      (nonzero : b = true ↔ m.integer ≠ 0) : States m name (.boolean b)
  | string {text : String} (spelt : Spells m.identifier name) (kind : m.kind = 2)
      (content : Spells m.string text) : States m name (.string text)

theorem Meta.states_iff {m : Meta} {name : String} {value : MetaValue} :
    m.States name value ↔ m.name = name ∧ m.value = .ok value := by
  constructor
  · intro h
    cases h with
    | integer spelt kind => exact ⟨spells_iff.mp spelt, by simp [Meta.value, kind, integerKind]⟩
    | boolean spelt kind nonzero =>
      refine ⟨spells_iff.mp spelt, ?_⟩
      rw [← bne_iff_ne, ← Bool.eq_iff_iff] at nonzero
      simp [Meta.value, kind, integerKind, booleanKind, nonzero]
    | string spelt kind content =>
      refine ⟨spells_iff.mp spelt, ?_⟩
      simp [Meta.value, kind, integerKind, booleanKind, stringKind, spells_iff.mp content]
  · rintro ⟨rfl, hvalue⟩
    have hname : Spells m.identifier m.name := spells_iff.mpr rfl
    unfold Meta.value at hvalue
    split at hvalue
    · cases hvalue
      exact .integer hname ‹_›
    split at hvalue
    · cases hvalue
      exact .boolean hname ‹_› bne_iff_ne
    split at hvalue
    · cases hvalue
      exact .string hname ‹_› (spells_iff.mpr rfl)
    · cases hvalue

def Meta.stated? (name : String) (m : Meta) : Option MetaValue :=
  if m.name = name then m.value.toOption else none

theorem Meta.stated?_eq_some_iff {m : Meta} {name : String} {value : MetaValue} :
    m.stated? name = some value ↔ m.States name value := by
  rw [Meta.states_iff, stated?]
  split
  · rename_i hname
    cases m.value <;> simp [hname, Except.toOption]
  · rename_i hname
    simp [hname]

namespace Rule

variable {r : Rule}

theorem mem_metaEntries {e : String × MetaValue} :
    e ∈ r.metaEntries ↔ ∃ m ∈ r.metas.toList, m.States e.1 e.2 := by
  unfold metaEntries
  rw [List.mem_filterMap]
  refine exists_congr fun m => and_congr_right fun _ => ?_
  rw [Meta.states_iff]
  cases m.value <;> simp [Prod.ext_iff]

/-- The search from the end among the entries of known type is one among all entries, of which those
of unknown type state nothing. -/
theorem meta?_eq_findSome? (name : String) :
    r.meta? name = r.metas.toList.reverse.findSome? (Meta.stated? name) := by
  rw [meta?, metaEntries, ← List.filterMap_reverse]
  induction r.metas.toList.reverse with
  | nil => rfl
  | cons m ms ih =>
    rw [List.findSome?_cons, Meta.stated?, ← ih]
    cases hv : m.value with
    | error code => simp only [List.filterMap_cons, hv, Except.toOption, ite_self]
    | ok v =>
      simp only [List.filterMap_cons, hv, Except.toOption, List.find?_cons]
      by_cases hname : m.name = name <;> simp only [hname, decide_true, decide_false, if_true,
        if_false, Option.map_some]

theorem meta?_eq_some_iff {name : String} {value : MetaValue} :
    r.meta? name = some value ↔ ∃ pre m post, r.metas.toList = pre ++ m :: post ∧
      m.States name value ∧ ∀ l ∈ post, ∀ other, ¬l.States name other := by
  have hsilent : ∀ l : Meta, l.stated? name = none ↔ ∀ other, ¬l.States name other := by
    intro l
    simp only [Option.eq_none_iff_forall_ne_some, ne_eq, Meta.stated?_eq_some_iff]
  rw [meta?_eq_findSome?, List.findSome?_eq_some_iff]
  constructor
  · rintro ⟨post, m, pre, hsplit, hvalue, hpost⟩
    refine ⟨pre.reverse, m, post.reverse, ?_, Meta.stated?_eq_some_iff.mp hvalue, ?_⟩
    · simpa using congrArg List.reverse hsplit
    · intro l hl
      exact (hsilent l).mp (hpost l (List.mem_reverse.mp hl))
  · rintro ⟨pre, m, post, hsplit, hstates, hpost⟩
    refine ⟨post.reverse, m, pre.reverse, by simp [hsplit],
      Meta.stated?_eq_some_iff.mpr hstates, ?_⟩
    intro l hl
    exact (hsilent l).mpr (hpost l (List.mem_reverse.mp hl))

end Rule

end Layout

namespace MatchRecord

theorem mem_capture_names (ctx : Option Layout.Context) (r : Layout.Rule) (name : String) :
    name ∈ (capture ctx r).metadata.entries.map Prod.fst ↔
      ∃ m ∈ r.metas.toList, ∃ value, m.States name value := by
  rw [← MetaMap.isSome_get?, capture, MetaMap.get?_ofList, Option.isSome_map, List.find?_isSome]
  simp only [List.mem_reverse, decide_eq_true_eq, Layout.Rule.mem_metaEntries]
  constructor
  · rintro ⟨e, ⟨m, hm, hstates⟩, rfl⟩
    exact ⟨m, hm, e.2, hstates⟩
  · rintro ⟨m, hm, value, hstates⟩
    exact ⟨(name, value), ⟨m, hm, hstates⟩, rfl⟩

/-- Looking a name up in a rule and in a record of the rule comes to the same: the last entry of
known type that states the name. The record has each such name once, in the order of UTF-8. -/
theorem metadata_lookups_agree (ctx : Option Layout.Context) (r : Layout.Rule) :
    let captured := (capture ctx r).metadata
    (∀ name, captured.get? name = r.meta? name) ∧
      (∀ name value, r.meta? name = some value ↔
        ∃ pre m post, r.metas.toList = pre ++ m :: post ∧ m.States name value ∧
          ∀ l ∈ post, ∀ other, ¬l.States name other) ∧
      (∀ name, name ∈ captured.entries.map Prod.fst ↔
        ∃ m ∈ r.metas.toList, ∃ value, m.States name value) ∧
      (captured.entries.map fun e => Text.encode e.1).Pairwise (· < ·) := by
  refine ⟨?_, fun name value => Layout.Rule.meta?_eq_some_iff, mem_capture_names ctx r, ?_⟩
  · intro name
    exact MetaMap.get?_ofList r.metaEntries name
  · rw [List.pairwise_map]
    exact (capture ctx r).metadata.ordered.imp Text.encode_lt_encode

/-- An entry of unknown type between two of one name, and names that only look different. -/
example :
    let name (bs : Bytes) : Layout.Terminated := some bs
    let r : Layout.Rule := { metas := .ofList [
      { identifier := name [0xC3], kind := 1, integer := 2 ^ 40 },
      { identifier := name [0xE2, 0x82], kind := 3, integer := -1 },
      { identifier := name [0xEF, 0xBF, 0xBD], kind := 9, integer := 7 },
      { identifier := none, kind := 2 }] }
    (capture none r).metadata.entries = [("", .string ""), ("\uFFFD", .boolean true)] ∧
      r.meta? "\uFFFD" = some (.boolean true) := by
  decide

end MatchRecord

end ScanBridge
