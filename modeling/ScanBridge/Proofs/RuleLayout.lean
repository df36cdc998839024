import Mathlib.Data.List.Basic
import ScanBridge.Proofs.ScriptedRuns
import ScanBridge.Record.Basic

namespace ScanBridge

namespace MetaMap

theorem insertEntry_last {name : String} (value : MetaValue) {es : List (String × MetaValue)}
    (h : ∀ e ∈ es, e.1 < name) : insertEntry name value es = es ++ [(name, value)] := by
  induction es with
  | nil => rfl
  | cons e es ih =>
    have hlt : e.1 < name := h e (by simp)
    rw [insertEntry, if_neg (String.lt_asymm hlt), if_pos hlt,
      ih fun f hf => h f (List.mem_cons_of_mem _ hf), List.cons_append]

theorem entries_foldl_insert (m : MetaMap) {es : List (String × MetaValue)}
    (h : Ordered (m.entries ++ es)) :
    (es.foldl (fun m e => m.insert e.1 e.2) m).entries = m.entries ++ es := by
  induction es generalizing m with
  | nil => exact (List.append_nil _).symm
  | cons e es ih =>
    have hlast : ∀ f ∈ m.entries, f.1 < e.1 :=
      fun f hf => (List.pairwise_append.mp h).2.2 f hf e (by simp)
    have hentries : (m.insert e.1 e.2).entries = m.entries ++ [e] :=
      insertEntry_last e.2 hlast
    rw [List.foldl_cons, ih (m.insert e.1 e.2) (by simpa [hentries] using h), hentries,
      List.append_assoc, List.singleton_append]

theorem ofList_entries (m : MetaMap) : ofList m.entries = m := by
  have hentries : (ofList m.entries).entries = m.entries :=
    entries_foldl_insert empty m.ordered
  cases hl : ofList m.entries
  cases m
  simpa [hl] using hentries

end MetaMap

namespace MatchSpec

def laidOut (m : MatchSpec) : Layout.Match :=
  let data := Text.encode m.data
  let dataLength := Int32.ofNat data.length
  { base := m.base, offset := m.offset, matchLength := m.length.getD dataLength, data := some data,
    dataLength }

def named (name : String) (m : MatchSpec) : MatchString where
  name := name
  base := m.base.toUInt64
  offset := m.offset.toUInt64
  data := m.data.toUTF8.data.toList

theorem named_laidOut (name : String) {m : MatchSpec} (h : m.data.utf8ByteSize < 2 ^ 31) :
    Layout.Match.named name m.laidOut = m.named name := by
  have hlength : (Text.encode m.data).length = m.data.utf8ByteSize := by
    rw [Text.encode_eq_toUTF8]
    rfl
  have hread : (Int32.ofNat (Text.encode m.data).length).toInt.toNat =
      (Text.encode m.data).length := by
    rw [Int32.toInt_ofNat_of_lt (by omega), Int.toNat_natCast]
  simp only [Layout.Match.named, Layout.Match.bytes, laidOut, named, hread, List.take_length]
  rw [Text.encode_eq_toUTF8]

theorem layout_run {pool : List Bytes} {next : Nat} {m : MatchSpec}
    (h : pool[next]? = some (Text.encode m.data)) :
    (m.layout pool.toArray).run next = pure (m.laidOut, next + 1) := by
  simp [layout, laidOut, getModify, h]

end MatchSpec

namespace StringSpec

def data (s : StringSpec) : List Bytes := s.hits.map fun m => Text.encode m.data

end StringSpec

/-- Matches whose data comes next in the pool are laid out with their own data. -/
theorem hits_run {pool rest : List Bytes} {hits : List MatchSpec} {next : Nat}
    (h : pool.drop next = hits.map (fun m => Text.encode m.data) ++ rest) :
    (hits.mapM (MatchSpec.layout pool.toArray)).run next =
      pure (hits.map MatchSpec.laidOut, next + hits.length) := by
  induction hits generalizing next with
  | nil => rfl
  | cons m hits ih =>
    have hfirst : pool[next]? = some (Text.encode m.data) := by
      rw [← List.head?_drop, h]
      rfl
    have hrest : pool.drop (next + 1) = hits.map (fun m => Text.encode m.data) ++ rest := by
      rw [← List.tail_drop, h]
      rfl
    rw [List.mapM_cons, StateT.run_bind, MatchSpec.layout_run hfirst]
    simp [ih hrest, Nat.add_assoc, Nat.add_comm 1]

theorem layoutHits_run {pool rest : List Bytes} {strings : List StringSpec} {next : Nat}
    (h : pool.drop next = strings.flatMap StringSpec.data ++ rest) :
    ((layoutHits pool.toArray strings).run next).run.1 =
      strings.map fun s => s.hits.map MatchSpec.laidOut := by
  suffices hrun : ∃ after, (layoutHits pool.toArray strings).run next =
      pure (strings.map fun s => s.hits.map MatchSpec.laidOut, after) by
    obtain ⟨after, hrun⟩ := hrun
    rw [hrun]
    rfl
  unfold layoutHits
  induction strings generalizing next with
  | nil => exact ⟨next, rfl⟩
  | cons s strings ih =>
    rw [List.flatMap_cons, List.append_assoc] at h
    have hrest : pool.drop (next + s.hits.length) = strings.flatMap StringSpec.data ++ rest := by
      rw [← List.drop_drop, h, List.drop_left' (by simp [StringSpec.data])]
    obtain ⟨after, hafter⟩ := ih hrest
    refine ⟨after, ?_⟩
    rw [List.mapM_cons, StateT.run_bind, hits_run h]
    simp [hafter]

namespace EventSpec

/-- What the number types of the layout hold: an index for every string, and the length of the data
of every match. -/
structure Fits (e : EventSpec) : Prop where
  strings : e.strings.length ≤ 2 ^ 64
  data : ∀ s ∈ e.strings, ∀ m ∈ s.hits, m.data.utf8ByteSize < 2 ^ 31

instance (e : EventSpec) : Decidable e.Fits :=
  decidable_of_iff (e.strings.length ≤ 2 ^ 64 ∧
      ∀ s ∈ e.strings, ∀ m ∈ s.hits, m.data.utf8ByteSize < 2 ^ 31)
    ⟨fun h => ⟨h.1, h.2⟩, fun h => ⟨h.strings, h.data⟩⟩

def matchStrings (e : EventSpec) : List MatchString :=
  e.strings.flatMap fun s => s.hits.map (MatchSpec.named s.name)

/-- The record that an event's own fields amount to. -/
def record (e : EventSpec) : MatchRecord where
  rule := e.rule
  ns := e.ns
  tags := e.tags
  metadata := e.metadata
  strings := e.matchStrings

theorem toList_table (e : EventSpec) :
    e.layoutContext.table.toList =
      e.strings.map fun s => Layout.Span.ofList (s.hits.map MatchSpec.laidOut) := by
  have hpool : (e.strings.flatMap StringSpec.data).drop 0 =
      e.strings.flatMap StringSpec.data ++ [] := by simp
  rw [layoutContext, Layout.Span.toList_ofList]
  exact (congrArg _ (layoutHits_run hpool)).trans List.map_map

/-- The matches of a string stand at its position in the table, though others have its name. -/
theorem matchesAt_layout {e : EventSpec} (hfit : e.strings.length ≤ 2 ^ 64) {s : StringSpec}
    {i : Nat} (h : e.strings[i]? = some s) :
    Layout.Context.matchesAt (some e.layoutContext) (.ofNat i) =
      s.hits.map MatchSpec.laidOut := by
  have hi : (UInt64.ofNat i).toNat = i := by
    have := (List.getElem?_eq_some_iff.mp h).1
    exact UInt64.toNat_ofNat_of_lt' (Nat.lt_of_lt_of_le this hfit)
  simp only [Layout.Context.matchesAt, hi, toList_table, List.getElem?_map, h, Option.map_some,
    Layout.Span.toList_ofList]

theorem matchStrings_layout {e : EventSpec} (hfit : e.Fits)
    (hname : ∀ s ∈ e.strings, '\x00' ∉ s.name.toList) :
    e.layoutRule.matchStrings (some e.layoutContext) = e.matchStrings := by
  have hstring : ∀ p ∈ e.strings.zipIdx,
      (Layout.Context.matchesAt (some e.layoutContext) (.ofNat p.2)).map
          (Layout.Match.named (Text.ofTerminated (Layout.Terminated.ofString p.1.name))) =
        p.1.hits.map (MatchSpec.named p.1.name) := by
    intro p hp
    have hat : e.strings[p.2]? = some p.1 := List.mem_zipIdx_iff_getElem?.mp hp
    have hmem : p.1 ∈ e.strings := List.mem_of_getElem? hat
    rw [matchesAt_layout hfit.strings hat, Layout.Terminated.ofString,
      Text.ofTerminated_toTerminated (hname p.1 hmem), List.map_map]
    apply List.map_congr_left
    intro m hm
    exact MatchSpec.named_laidOut p.1.name (hfit.data p.1 hmem m hm)
  calc e.layoutRule.matchStrings (some e.layoutContext)
      = e.strings.zipIdx.flatMap fun p =>
          (Layout.Context.matchesAt (some e.layoutContext) (.ofNat p.2)).map
            (Layout.Match.named (Text.ofTerminated (Layout.Terminated.ofString p.1.name))) := by
        rw [Layout.Rule.matchStrings, layoutRule, Layout.Span.toList_ofList, List.flatMap_map]
    _ = e.strings.zipIdx.flatMap fun p => p.1.hits.map (MatchSpec.named p.1.name) :=
        List.flatMap_congr hstring
    _ = (e.strings.zipIdx.map Prod.fst).flatMap fun s => s.hits.map (MatchSpec.named s.name) := by
        rw [List.flatMap_map]
    _ = e.matchStrings := by rw [List.zipIdx_map_fst, matchStrings]

theorem read_layoutMeta {entry : String × MetaValue}
    (h : ∀ text ∈ metaTexts entry, '\x00' ∉ text.toList) :
    (layoutMeta entry).name = entry.1 ∧ (layoutMeta entry).value = .ok entry.2 := by
  obtain ⟨name, value⟩ := entry
  have hname : Text.ofTerminated (Layout.Terminated.ofString name) = name :=
    Text.ofTerminated_toTerminated (h name (by cases value <;> simp [metaTexts]))
  cases value with
  | integer n => exact ⟨hname, rfl⟩
  | boolean b => exact ⟨hname, by cases b <;> rfl⟩
  | string s =>
    have hs : Text.ofTerminated (Layout.Terminated.ofString s) = s :=
      Text.ofTerminated_toTerminated (h s (by simp [metaTexts]))
    exact ⟨hname, congrArg (Except.ok ∘ MetaValue.string) hs⟩

theorem read_metas {entries : List (String × MetaValue)}
    (h : ∀ text ∈ entries.flatMap metaTexts, '\x00' ∉ text.toList) :
    let rule : Layout.Rule := { metas := .ofList (entries.map layoutMeta) }
    rule.metaEntries = entries ∧ rule.unknownMetas = [] := by
  simp only [Layout.Rule.metaEntries, Layout.Rule.unknownMetas, Layout.Span.toList_ofList]
  induction entries with
  | nil => exact ⟨rfl, rfl⟩
  | cons entry entries ih =>
    simp only [List.flatMap_cons, List.mem_append, or_imp, forall_and] at h
    obtain ⟨hname, hvalue⟩ := read_layoutMeta h.1
    obtain ⟨hentries, hunknown⟩ := ih h.2
    simp only [List.map_cons, List.filterMap_cons, hname, hvalue, hentries, hunknown, and_self]

def namedHits (e : EventSpec) : List (String × Int64 × Int64 × String) :=
  e.strings.flatMap fun s => s.hits.map fun m => (s.name, m.base, m.offset, m.data)

theorem matchStrings_inj {e e' : EventSpec} :
    e.matchStrings = e'.matchStrings ↔ e.namedHits = e'.namedHits := by
  let read (h : String × Int64 × Int64 × String) : MatchString :=
    ⟨h.1, h.2.1.toUInt64, h.2.2.1.toUInt64, h.2.2.2.toUTF8.data.toList⟩
  have hread : ∀ e : EventSpec, e.matchStrings = e.namedHits.map read := by
    intro e
    simp only [matchStrings, namedHits, List.map_flatMap, List.map_map]
    rfl
  have hinj : Function.Injective read := by
    rintro ⟨name, ⟨base⟩, ⟨offset⟩, data⟩ ⟨name', ⟨base'⟩, ⟨offset'⟩, data'⟩ h
    simp only [read, MatchString.mk.injEq] at h
    obtain ⟨rfl, rfl, rfl, hdata⟩ := h
    have hbytes : data.toUTF8 = data'.toUTF8 := ByteArray.ext (Array.toList_inj.mp hdata)
    rw [String.toUTF8_eq_toByteArray, String.toUTF8_eq_toByteArray,
      String.toByteArray_inj] at hbytes
    rw [hbytes]
  rw [hread, hread, (List.map_injective_iff.mpr hinj).eq_iff]

/-- Reading the layout of an accepted event gives back what the script says of the rule. -/
structure ReadsBack (e : EventSpec) : Prop where
  name : e.layoutRule.name = e.rule
  ns : e.layoutRule.namespaceName = e.ns
  tags : e.layoutRule.tagNames = e.tags
  metadata : e.layoutRule.metaEntries = e.metadata.entries
  unknown : e.layoutRule.unknownMetas = []
  strings : e.layoutRule.matchStrings (some e.layoutContext) = e.matchStrings

theorem readsBack {s : Script} (hv : s.fault? = none) {e : EventSpec} (he : e ∈ s.events)
    (hfit : e.Fits) : e.ReadsBack := by
  have hclean := Script.texts_sans_nul hv he
  simp only [texts, List.mem_append, List.mem_cons, List.not_mem_nil, or_false, or_imp,
    forall_and, forall_eq, List.mem_map, forall_exists_index, and_imp,
    forall_apply_eq_imp_iff₂] at hclean
  obtain ⟨⟨⟨⟨hrule, hns, _⟩, htags⟩, hmetas⟩, hnames⟩ := hclean
  obtain ⟨hentries, hunknown⟩ := read_metas hmetas
  refine ⟨Text.ofTerminated_toTerminated hrule, Text.ofTerminated_toTerminated hns, ?_, hentries,
    hunknown, matchStrings_layout hfit hnames⟩
  rw [Layout.Rule.tagNames, layoutRule, Layout.Span.toList_ofList, List.map_map]
  exact (List.map_congr_left fun tag ht => Text.ofTerminated_toTerminated (htags tag ht)).trans
    (List.map_id _)

theorem ReadsBack.capture {e : EventSpec} (h : e.ReadsBack) :
    MatchRecord.capture (some e.layoutContext) e.layoutRule = e.record := by
  rw [MatchRecord.capture, h.name, h.ns, h.tags, h.metadata, h.strings, MetaMap.ofList_entries,
    record]

theorem record_inj {e e' : EventSpec} :
    e'.record = e.record ↔ e'.rule = e.rule ∧ e'.ns = e.ns ∧ e'.tags = e.tags ∧
      e'.metadata = e.metadata ∧ e'.namedHits = e.namedHits := by
  rw [record, record, MatchRecord.mk.injEq, matchStrings_inj]

theorem event_of_isRule (token : Token) {e : EventSpec}
    (h : e.kind.named?.any EventKind.isRule = true) :
    ScriptedEngine.event token e =
      { token, code := e.kind.code, ctx := some e.layoutContext, data := .rule e.layoutRule } := by
  cases hk : e.kind with
  | raw code => simp [hk, KindSpec.named?] at h
  | named kind =>
    cases kind with
    | ruleMatching | ruleNotMatching => simp [ScriptedEngine.event, hk, KindSpec.named?]
    | scanFinished | importModule | moduleImported =>
      simp [hk, KindSpec.named?, EventKind.isRule] at h

/-- A rule event of an accepted script is reported with memory from which everything that the script
says of the rule is read again. What is captured of it is therefore the same for two events only if
their rule, namespace, tags, metadata and matches are, each match with the name of its string. -/
theorem rule_data_survives {s : Script} (hv : s.fault? = none) {e : EventSpec} (he : e ∈ s.events)
    (hkind : e.kind.named?.any EventKind.isRule = true) (hfit : e.Fits) (token : Token) :
    let event := ScriptedEngine.event token e
    ∃ rule, event.data = .rule rule ∧
      rule.name = e.rule ∧
      rule.namespaceName = e.ns ∧
      rule.tagNames = e.tags ∧
      rule.metaEntries = e.metadata.entries ∧
      rule.unknownMetas = [] ∧
      rule.matchStrings event.ctx = (e.strings.flatMap fun s => s.hits.map fun m =>
        ⟨s.name, m.base.toUInt64, m.offset.toUInt64, m.data.toUTF8.data.toList⟩) ∧
      MatchRecord.capture event.ctx rule = e.record ∧
      ∀ {s' : Script}, s'.fault? = none → ∀ e' ∈ s'.events, e'.Fits →
        (MatchRecord.capture (some e'.layoutContext) e'.layoutRule =
            MatchRecord.capture event.ctx rule ↔
          e'.rule = e.rule ∧ e'.ns = e.ns ∧ e'.tags = e.tags ∧ e'.metadata = e.metadata ∧
            e'.namedHits = e.namedHits) := by
  have hback := readsBack hv he hfit
  rw [event_of_isRule token hkind]
  refine ⟨e.layoutRule, rfl, hback.name, hback.ns, hback.tags, hback.metadata, hback.unknown,
    hback.strings, hback.capture, ?_⟩
  intro s' hv' e' he' hfit'
  rw [hback.capture, (readsBack hv' he' hfit').capture]
  exact record_inj

/-- Two strings of one name with a string between them that has no match, data that is empty or
holds NUL, and a stated length that is not that of the data. -/
def packed : EventSpec where
  kind := .named .ruleNotMatching
  rule := "r"
  metadata := MetaMap.empty.insert "n" (.integer (-9223372036854775808))
  strings := [
    ⟨"$a", [{ offset := 10, data := "hé" }, { base := -1, offset := 30, length := some 9 }]⟩,
    ⟨"$b", []⟩,
    ⟨"$a", [{ offset := 2, data := "\x00y" }]⟩]

theorem rule_data_survives_packed :
    let s : Script := ⟨[packed]⟩
    s.fault? = none ∧ packed ∈ s.events ∧ packed.kind.named?.any EventKind.isRule = true ∧
      packed.Fits ∧ ∃ rule, (ScriptedEngine.event 1 packed).data = .rule rule ∧
        rule.metaEntries = [("n", .integer (-9223372036854775808))] ∧
        rule.matchStrings (ScriptedEngine.event 1 packed).ctx =
          [⟨"$a", 0, 10, [0x68, 0xC3, 0xA9]⟩, ⟨"$a", 0xFFFFFFFFFFFFFFFF, 30, []⟩,
            ⟨"$a", 0, 2, [0x00, 0x79]⟩] := by
  intro s
  have hv : s.fault? = none := by decide
  have he : packed ∈ s.events := List.mem_singleton.mpr rfl
  have hkind : packed.kind.named?.any EventKind.isRule = true := rfl
  have hfit : packed.Fits := by decide
  obtain ⟨rule, hdata, _, _, _, hmetas, _, hstrings, _⟩ := rule_data_survives hv he hkind hfit 1
  exact ⟨hv, he, hkind, hfit, rule, hdata, hmetas.trans (by decide), hstrings.trans (by decide)⟩

end EventSpec

end ScanBridge
