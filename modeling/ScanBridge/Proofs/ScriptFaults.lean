import Mathlib.Data.List.Forall2
import ScanBridge.Proofs.ScriptedRuns
import ScanBridge.Script.Document

namespace ScanBridge

/-- A place at which an event has a text. Tags, entries of the metadata and strings are counted. -/
inductive TextPlace
  | rule
  | ns
  | module
  | tag (i : Nat)
  | key (i : Nat)
  | value (i : Nat)
  | name (i : Nat)

namespace TextPlace

/-- Where a place stands: what sort of text is there comes first, then the count. A key comes right
before its value. -/
def rank : TextPlace → Nat × Nat
  | .rule => (0, 0)
  | .ns => (1, 0)
  | .module => (2, 0)
  | .tag i => (3, i)
  | .key i => (4, 2 * i)
  | .value i => (4, 2 * i + 1)
  | .name i => (5, i)

def Before (p q : TextPlace) : Prop :=
  p.rank.1 < q.rank.1 ∨ p.rank.1 = q.rank.1 ∧ p.rank.2 < q.rank.2

theorem Before.asymm {p q : TextPlace} (h : p.Before q) : ¬q.Before p := by
  unfold Before at h ⊢
  omega

end TextPlace

namespace EventSpec

/-- The text at a place, if the event has it. Metadata is in the order of its keys. -/
def textAt? (e : EventSpec) : TextPlace → Option String
  | .rule => some e.rule
  | .ns => some e.ns
  | .module => some e.module
  | .tag i => e.tags[i]?
  | .key i => e.metadata.entries[i]?.map Prod.fst
  | .value i => e.metadata.entries[i]?.bind fun entry => entry.2.asString?
  | .name i => e.strings[i]?.map StringSpec.name

def OfRule (e : EventSpec) : Prop :=
  e.kind = .named .ruleMatching ∨ e.kind = .named .ruleNotMatching

def OfModule (e : EventSpec) : Prop :=
  e.kind = .named .importModule ∨ e.kind = .named .moduleImported

instance (e : EventSpec) : Decidable e.OfRule := inferInstanceAs (Decidable (_ ∨ _))

instance (e : EventSpec) : Decidable e.OfModule := inferInstanceAs (Decidable (_ ∨ _))

structure Complete (e : EventSpec) : Prop where
  rule : e.OfRule → e.rule ≠ ""
  module : e.OfModule → e.module ≠ ""

/-- Nothing is missing, and no text has NUL in it. -/
structure Playable (e : EventSpec) : Prop extends e.Complete where
  sansNul : ∀ place text, e.textAt? place = some text → '\x00' ∉ text.toList

/-- What is wrong with an event: a name that is missing, else the first text with NUL in it. -/
inductive FaultyBy (e : EventSpec) : FaultCause → Prop
  | noRule (kind : e.OfRule) (missing : e.rule = "") : FaultyBy e .noRule
  | noModule (kind : e.OfModule) (missing : e.module = "") : FaultyBy e .noModule
  | nul (complete : e.Complete) {place : TextPlace} {text : String}
      (here : e.textAt? place = some text) (nul : '\x00' ∈ text.toList)
      (first : ∀ earlier other, e.textAt? earlier = some other → earlier.Before place →
        '\x00' ∉ other.toList) : FaultyBy e (.nulInText text)

def placedMeta (entry : (String × MetaValue) × Nat) : List (TextPlace × String) :=
  match entry with
  | ((key, .string s), i) => [(.key i, key), (.value i, s)]
  | ((key, _), i) => [(.key i, key)]

def placedNames (e : EventSpec) : List (TextPlace × String) :=
  [(.rule, e.rule), (.ns, e.ns), (.module, e.module)]

def placedTags (e : EventSpec) : List (TextPlace × String) :=
  e.tags.zipIdx.map fun (tag, i) => (.tag i, tag)

def placedMetas (e : EventSpec) : List (TextPlace × String) :=
  e.metadata.entries.zipIdx.flatMap placedMeta

def placedStrings (e : EventSpec) : List (TextPlace × String) :=
  e.strings.zipIdx.map fun (s, i) => (.name i, s.name)

def placed (e : EventSpec) : List (TextPlace × String) :=
  e.placedNames ++ e.placedTags ++ e.placedMetas ++ e.placedStrings

theorem mem_placedMeta {place : TextPlace} {text key : String} {value : MetaValue} {i : Nat} :
    (place, text) ∈ placedMeta ((key, value), i) ↔
      place = .key i ∧ text = key ∨ place = .value i ∧ value = .string text := by
  cases value <;> simp [placedMeta, eq_comm]

theorem mem_placed {e : EventSpec} {place : TextPlace} {text : String} :
    (place, text) ∈ e.placed ↔ e.textAt? place = some text := by
  have hstring : ∀ value : MetaValue, value.asString? = some text ↔ value = .string text := by
    intro value
    cases value <;> simp [MetaValue.asString?]
  unfold placed placedNames placedTags placedMetas placedStrings
  cases place with
  | value i =>
    simp [textAt?, mem_placedMeta, List.mem_zipIdx_iff_getElem?, Option.bind_eq_some_iff, hstring]
  | _ => simp [textAt?, mem_placedMeta, List.mem_zipIdx_iff_getElem?, eq_comm]

theorem map_snd_placed (e : EventSpec) : e.placed.map Prod.snd = e.texts := by
  have htags : e.placedTags.map Prod.snd = e.tags := by
    rw [placedTags, List.map_map]
    exact List.zipIdx_map_fst 0 e.tags
  have hmeta : ∀ entry, (placedMeta entry).map Prod.snd = metaTexts entry.1 := by
    rintro ⟨⟨key, value⟩, i⟩
    cases value <;> rfl
  have hmetas : e.placedMetas.map Prod.snd = e.metadata.entries.flatMap metaTexts := by
    simp only [placedMetas, List.map_flatMap, hmeta]
    rw [← List.flatMap_map, List.zipIdx_map_fst]
  have hstrings : e.placedStrings.map Prod.snd = e.strings.map StringSpec.name := by
    have hnames := congrArg (List.map StringSpec.name) (List.zipIdx_map_fst 0 e.strings)
    rw [List.map_map] at hnames
    rw [placedStrings, List.map_map]
    exact hnames
  rw [placed, List.map_append, List.map_append, List.map_append, htags, hmetas, hstrings]
  rfl

theorem pairwise_zipIdx {α : Type} (l : List α) : l.zipIdx.Pairwise fun x y => x.2 < y.2 := by
  apply List.pairwise_map.mp
  rw [List.zipIdx_map_snd]
  exact List.pairwise_lt_range'

/-- Texts of one sort, in the order of their places. -/
structure OfSort (sort : Nat) (ps : List (TextPlace × String)) : Prop where
  sort : ∀ p ∈ ps, p.1.rank.1 = sort
  counts : ps.Pairwise fun p q => p.1.rank.2 < q.1.rank.2

theorem ofSort_zipIdx {α : Type} {sort : Nat} {place : Nat → TextPlace}
    (hplace : ∀ i, (place i).rank = (sort, i)) (text : α → String) (l : List α) :
    OfSort sort (l.zipIdx.map fun (a, i) => (place i, text a)) where
  sort := by
    intro p hp
    obtain ⟨x, -, rfl⟩ := List.mem_map.mp hp
    exact congrArg Prod.fst (hplace x.2)
  counts := by
    refine List.pairwise_map.mpr ((pairwise_zipIdx l).imp fun hlt => ?_)
    simp only [hplace]
    exact hlt

theorem rank_placedMeta {entry : (String × MetaValue) × Nat} {p : TextPlace × String}
    (hp : p ∈ placedMeta entry) :
    p.1.rank.1 = 4 ∧ 2 * entry.2 ≤ p.1.rank.2 ∧ p.1.rank.2 ≤ 2 * entry.2 + 1 := by
  obtain ⟨place, text⟩ := p
  rcases mem_placedMeta.mp hp with ⟨rfl, -⟩ | ⟨rfl, -⟩ <;> simp [TextPlace.rank]

theorem ofSort_metas (e : EventSpec) : OfSort 4 e.placedMetas where
  sort := by
    intro p hp
    obtain ⟨entry, -, hentry⟩ := List.mem_flatMap.mp hp
    exact (rank_placedMeta hentry).1
  counts := by
    have hentry : ∀ entry, (placedMeta entry).Pairwise fun p q => p.1.rank.2 < q.1.rank.2 := by
      rintro ⟨⟨key, value⟩, i⟩
      cases value <;> simp [placedMeta, TextPlace.rank]
    refine List.pairwise_flatMap.mpr ⟨fun entry _ => hentry entry, ?_⟩
    refine (pairwise_zipIdx e.metadata.entries).imp fun hlt p hp q hq => ?_
    obtain ⟨-, -, hle⟩ := rank_placedMeta hp
    obtain ⟨-, hge, -⟩ := rank_placedMeta hq
    omega

structure BelowSort (sort : Nat) (ps : List (TextPlace × String)) : Prop where
  sorts : ∀ p ∈ ps, p.1.rank.1 < sort
  ordered : ps.Pairwise fun p q => p.1.Before q.1

theorem BelowSort.append {sort : Nat} {ps qs : List (TextPlace × String)} (h : BelowSort sort ps)
    (h' : OfSort sort qs) : BelowSort (sort + 1) (ps ++ qs) where
  sorts := by
    refine List.forall_mem_append.mpr ⟨fun p hp => ?_, fun q hq => ?_⟩
    · exact Nat.lt_succ_of_lt (h.sorts p hp)
    · rw [h'.sort q hq]
      exact Nat.lt_succ_self sort
  ordered := by
    refine List.pairwise_append.mpr ⟨h.ordered, ?_, fun p hp q hq => .inl ?_⟩
    · refine h'.counts.imp_of_mem fun hp hq hlt => .inr ⟨?_, hlt⟩
      rw [h'.sort _ hp, h'.sort _ hq]
    · rw [h'.sort q hq]
      exact h.sorts p hp

theorem belowSort_placed (e : EventSpec) : BelowSort 6 e.placed := by
  have hnames : BelowSort 3 e.placedNames := by
    constructor <;> simp [placedNames, TextPlace.Before, TextPlace.rank]
  have htags : OfSort 3 e.placedTags := ofSort_zipIdx (fun _ => rfl) id e.tags
  have hstrings : OfSort 5 e.placedStrings :=
    ofSort_zipIdx (fun _ => rfl) StringSpec.name e.strings
  exact ((hnames.append htags).append e.ofSort_metas).append hstrings

/-- In a list that is ordered, the first element with a property is the one that none with the
property comes before. -/
theorem find?_eq_some_iff_least {α : Type} {R : α → α → Prop} {p : α → Bool} {l : List α} {a : α}
    (hl : l.Pairwise R) (hasymm : ∀ {x y}, R x y → ¬R y x) :
    l.find? p = some a ↔ a ∈ l ∧ p a = true ∧ ∀ b ∈ l, R b a → p b = false := by
  rw [List.find?_eq_some_iff_append]
  constructor
  · rintro ⟨ha, pre, post, rfl, hpre⟩
    refine ⟨by simp, ha, ?_⟩
    intro b hb hba
    rcases List.mem_append.mp hb with hb | hb
    · simpa using hpre b hb
    -- What stands from the element on does not come before it.
    · obtain ⟨-, hafter, -⟩ := List.pairwise_append.mp hl
      rcases List.mem_cons.mp hb with rfl | hb
      · exact absurd hba (hasymm hba)
      · exact absurd hba (hasymm ((List.pairwise_cons.mp hafter).1 b hb))
  · rintro ⟨ha, hp, hleast⟩
    obtain ⟨pre, post, rfl⟩ := List.mem_iff_append.mp ha
    refine ⟨hp, pre, post, rfl, ?_⟩
    intro b hb
    have hba : R b a := (List.pairwise_append.mp hl).2.2 b hb a List.mem_cons_self
    simp [hleast b (by simp [hb]) hba]

theorem find?_nul {e : EventSpec} {text : String} :
    e.texts.find? (·.toList.contains '\x00') = some text ↔
      ∃ place, e.textAt? place = some text ∧ '\x00' ∈ text.toList ∧
        ∀ earlier other, e.textAt? earlier = some other → earlier.Before place →
          '\x00' ∉ other.toList := by
  rw [← map_snd_placed, List.find?_map, Option.map_eq_some_iff]
  simp [find?_eq_some_iff_least e.belowSort_placed.ordered TextPlace.Before.asymm, mem_placed]

theorem find?_nul_eq_none {e : EventSpec} :
    e.texts.find? (·.toList.contains '\x00') = none ↔
      ∀ place text, e.textAt? place = some text → '\x00' ∉ text.toList := by
  rw [← map_snd_placed, List.find?_map, Option.map_eq_none_iff, List.find?_eq_none]
  simp [mem_placed]

theorem ofRule_iff {e : EventSpec} : e.OfRule ↔ e.kind.named?.any EventKind.isRule = true := by
  unfold OfRule
  cases e.kind with
  | named kind => cases kind <;> simp [KindSpec.named?, EventKind.isRule]
  | raw code => simp [KindSpec.named?]

theorem ofModule_iff {e : EventSpec} :
    e.OfModule ↔ e.kind.named?.any EventKind.isModule = true := by
  unfold OfModule
  cases e.kind with
  | named kind => cases kind <;> simp [KindSpec.named?, EventKind.isModule]
  | raw code => simp [KindSpec.named?]

theorem faultCause?_eq (e : EventSpec) :
    e.faultCause? =
      if e.OfRule ∧ e.rule = "" then some .noRule
      else if e.OfModule ∧ e.module = "" then some .noModule
      else (e.texts.find? (·.toList.contains '\x00')).map .nulInText := by
  simp [faultCause?, ofRule_iff, ofModule_iff]

theorem complete_iff {e : EventSpec} :
    e.Complete ↔ ¬(e.OfRule ∧ e.rule = "") ∧ ¬(e.OfModule ∧ e.module = "") := by
  rw [not_and, not_and]
  exact ⟨fun h => ⟨h.rule, h.module⟩, fun ⟨hrule, hmodule⟩ => ⟨hrule, hmodule⟩⟩

theorem not_ofRule {e : EventSpec} (h : e.OfModule) : ¬e.OfRule := by
  rcases h with h | h <;> simp [OfRule, h]

theorem faultCause?_eq_some_iff {e : EventSpec} {cause : FaultCause} :
    e.faultCause? = some cause ↔ e.FaultyBy cause := by
  rw [faultCause?_eq]
  constructor
  · intro h
    split at h
    · rename_i hrule
      cases h
      exact .noRule hrule.1 hrule.2
    · rename_i hrule
      split at h
      · rename_i hmodule
        cases h
        exact .noModule hmodule.1 hmodule.2
      · rename_i hmodule
        obtain ⟨text, htext, rfl⟩ := Option.map_eq_some_iff.mp h
        obtain ⟨place, here, nul, first⟩ := find?_nul.mp htext
        exact .nul (complete_iff.mpr ⟨hrule, hmodule⟩) here nul first
  · intro h
    cases h with
    | noRule kind missing => rw [if_pos ⟨kind, missing⟩]
    | noModule kind missing =>
      rw [if_neg (fun h => not_ofRule kind h.1), if_pos ⟨kind, missing⟩]
    | nul complete here nul first =>
      obtain ⟨hrule, hmodule⟩ := complete_iff.mp complete
      rw [if_neg hrule, if_neg hmodule, find?_nul.mpr ⟨_, here, nul, first⟩]
      rfl

theorem faultCause?_eq_none_iff {e : EventSpec} : e.faultCause? = none ↔ e.Playable := by
  rw [faultCause?_eq]
  constructor
  · intro h
    split at h
    · cases h
    · rename_i hrule
      split at h
      · cases h
      · rename_i hmodule
        exact ⟨complete_iff.mpr ⟨hrule, hmodule⟩,
          find?_nul_eq_none.mp (Option.map_eq_none_iff.mp h)⟩
  · intro h
    obtain ⟨hrule, hmodule⟩ := complete_iff.mp h.toComplete
    rw [if_neg hrule, if_neg hmodule, find?_nul_eq_none.mpr h.sansNul]
    rfl

end EventSpec

theorem firstFault?_eq_some_iff {start index : Nat} {events : List EventSpec}
    {cause : FaultCause} :
    firstFault? start events = some ⟨index, cause⟩ ↔ ∃ pre e post, events = pre ++ e :: post ∧
      index = start + pre.length ∧ (∀ earlier ∈ pre, earlier.faultCause? = none) ∧
      e.faultCause? = some cause := by
  induction events generalizing start with
  | nil => simp [firstFault?]
  | cons e events ih =>
    rw [firstFault?]
    cases hcause : e.faultCause? with
    | some own =>
      constructor
      · intro h
        cases h
        exact ⟨[], e, events, rfl, rfl, by simp, hcause⟩
      · rintro ⟨pre, e', post, hevents, rfl, hpre, he'⟩
        cases pre with
        | nil =>
          obtain ⟨rfl, -⟩ := List.cons.inj hevents
          cases hcause.symm.trans he'
          rfl
        | cons first pre =>
          obtain ⟨rfl, -⟩ := List.cons.inj hevents
          cases hcause.symm.trans (hpre e List.mem_cons_self)
    | none =>
      dsimp only
      rw [ih]
      constructor
      · rintro ⟨pre, e', post, rfl, rfl, hpre, he'⟩
        refine ⟨e :: pre, e', post, rfl, ?_, List.forall_mem_cons.mpr ⟨hcause, hpre⟩, he'⟩
        rw [List.length_cons]
        omega
      · rintro ⟨pre, e', post, hevents, rfl, hpre, he'⟩
        cases pre with
        | nil =>
          obtain ⟨rfl, -⟩ := List.cons.inj hevents
          cases hcause.symm.trans he'
        | cons first pre =>
          obtain ⟨-, rfl⟩ := List.cons.inj hevents
          refine ⟨pre, e', post, rfl, ?_, (List.forall_mem_cons.mp hpre).2, he'⟩
          rw [List.length_cons]
          omega

theorem firstFault?_eq_none_iff {start : Nat} {events : List EventSpec} :
    firstFault? start events = none ↔ ∀ e ∈ events, e.faultCause? = none := by
  refine ⟨faultCause?_of_firstFault?, fun h => ?_⟩
  by_contra hfault
  obtain ⟨f, hf⟩ := Option.ne_none_iff_exists'.mp hfault
  obtain ⟨pre, e, post, rfl, -, -, he⟩ := firstFault?_eq_some_iff.mp hf
  cases (h e (by simp)).symm.trans he

/-- A text is handed out whole: its bytes have no NUL among them, so that all of it is read. -/
structure HandedWhole (t : Layout.Terminated) (text : String) : Prop where
  sansNul : '\x00' ∉ text.toList
  bytes : t = some (Text.encode text)
  ended : 0 ∉ Text.encode text
  read : Text.ofTerminated t = text

theorem handedWhole_ofString {text : String} (h : '\x00' ∉ text.toList) :
    HandedWhole (Layout.Terminated.ofString text) text where
  sansNul := h
  bytes := by simp [Layout.Terminated.ofString, Text.toTerminated, h]
  ended := Text.zero_notMem_encode h
  read := Text.ofTerminated_toTerminated h

structure MetaHanded (m : Layout.Meta) (entry : String × MetaValue) : Prop where
  key : HandedWhole m.identifier entry.1
  value : match entry.2 with
    | .string text => HandedWhole m.string text
    | _ => m.string = none

/-- The data of an event, with all texts that its kind has. -/
inductive EventSpec.Hands (e : EventSpec) : EventData → Prop
  | rule {r : Layout.Rule} (kind : e.OfRule)
      (name : HandedWhole r.identifier e.rule) (ns : HandedWhole r.ns e.ns)
      (tags : List.Forall₂ HandedWhole r.tags.toList e.tags)
      (metas : List.Forall₂ MetaHanded r.metas.toList e.metadata.entries)
      (strings : List.Forall₂ (fun (d : Layout.Declared) (s : StringSpec) =>
        HandedWhole d.identifier s.name) r.strings.toList e.strings) : Hands e (.rule r)
  | request {module : Layout.Terminated} (kind : e.kind = .named .importModule)
      (name : HandedWhole module e.module) : Hands e (.request module {})
  | object {o : Layout.Object} (kind : e.kind = .named .moduleImported)
      (name : HandedWhole o.identifier e.module) : Hands e (.object o)
  | nothing (kind : ¬e.OfRule ∧ ¬e.OfModule) : Hands e .null

theorem metaHanded_layoutMeta {entry : String × MetaValue}
    (h : ∀ text ∈ EventSpec.metaTexts entry, '\x00' ∉ text.toList) :
    MetaHanded (EventSpec.layoutMeta entry) entry := by
  obtain ⟨key, value⟩ := entry
  have hkey : HandedWhole (Layout.Terminated.ofString key) key := by
    refine handedWhole_ofString (h key ?_)
    cases value <;> simp [EventSpec.metaTexts]
  cases value with
  | integer n => exact ⟨hkey, rfl⟩
  | boolean b => exact ⟨hkey, rfl⟩
  | string text => exact ⟨hkey, handedWhole_ofString (h text (by simp [EventSpec.metaTexts]))⟩

namespace EventSpec

theorem Playable.sans_nul {e : EventSpec} (h : e.Playable) {text : String}
    (htext : text ∈ e.texts) : '\x00' ∉ text.toList := by
  rw [← map_snd_placed] at htext
  obtain ⟨⟨place, text⟩, hplaced, rfl⟩ := List.mem_map.mp htext
  exact h.sansNul place text (mem_placed.mp hplaced)

theorem Playable.rule_hands {e : EventSpec} (h : e.Playable) (kind : e.OfRule) :
    e.Hands (.rule e.layoutRule) := by
  refine .rule kind (handedWhole_ofString ?_) (handedWhole_ofString ?_) ?_ ?_ ?_
  · exact h.sans_nul (by simp [texts])
  · exact h.sans_nul (by simp [texts])
  · rw [layoutRule, Layout.Span.toList_ofList, List.forall₂_map_left_iff, List.forall₂_same]
    intro tag htag
    exact handedWhole_ofString (h.sans_nul (by simp [texts, htag]))
  · rw [layoutRule, Layout.Span.toList_ofList, List.forall₂_map_left_iff, List.forall₂_same]
    intro entry hentry
    apply metaHanded_layoutMeta
    intro text htext
    have hmem : text ∈ e.metadata.entries.flatMap metaTexts :=
      List.mem_flatMap.mpr ⟨entry, hentry, htext⟩
    exact h.sans_nul (by simp [texts, hmem])
  · have hstrings : List.Forall₂
        (fun (d : Layout.Declared) (s : StringSpec) => HandedWhole d.identifier s.name)
        e.layoutRule.strings.toList (e.strings.zipIdx.map Prod.fst) := by
      rw [layoutRule, Layout.Span.toList_ofList, List.forall₂_map_left_iff,
        List.forall₂_map_right_iff, List.forall₂_same]
      intro p hp
      have hat : e.strings[p.2]? = some p.1 := List.mem_zipIdx_iff_getElem?.mp hp
      have hname : p.1.name ∈ e.strings.map StringSpec.name :=
        List.mem_map_of_mem (List.mem_of_getElem? hat)
      have htext : p.1.name ∈ e.texts := List.mem_append_right _ hname
      exact handedWhole_ofString (h.sans_nul htext)
    rwa [List.zipIdx_map_fst] at hstrings

theorem Playable.hands {e : EventSpec} (h : e.Playable) (token : Token) :
    e.Hands (ScriptedEngine.event token e).data := by
  have hmodule : HandedWhole (Layout.Terminated.ofString e.module) e.module :=
    handedWhole_ofString (h.sans_nul (by simp [texts]))
  unfold ScriptedEngine.event
  cases hkind : e.kind with
  | raw code => exact .nothing (by simp [OfRule, OfModule, hkind])
  | named kind =>
    cases kind with
    | ruleMatching => exact h.rule_hands (.inl hkind)
    | ruleNotMatching => exact h.rule_hands (.inr hkind)
    | scanFinished => exact .nothing (by simp [OfRule, OfModule, hkind])
    | importModule => exact .request hkind hmodule
    | moduleImported => exact .object hkind hmodule

def sansHits (e : EventSpec) : EventSpec :=
  { e with strings := e.strings.map fun s => { s with hits := [] } }

theorem faultCause?_sansHits (e : EventSpec) : e.sansHits.faultCause? = e.faultCause? := by
  have htexts : e.sansHits.texts = e.texts := by
    simp [texts, sansHits, Function.comp_def]
  rw [faultCause?, htexts]
  rfl

end EventSpec

theorem firstFault?_sansHits (start : Nat) (events : List EventSpec) :
    firstFault? start (events.map EventSpec.sansHits) = firstFault? start events := by
  induction events generalizing start with
  | nil => rfl
  | cons e events ih =>
    rw [List.map_cons, firstFault?, firstFault?, EventSpec.faultCause?_sansHits, ih]

/-- A script that an engine was made for, or that was read of a text. -/
inductive Script.Accepted (s : Script) : Prop
  | engine {engine : ScriptedEngine} (made : ScriptedEngine.ofScript s = .ok engine)
  | document {text : String} (read : Script.ofToml text = .ok s)

namespace ScriptedEngine

theorem ofScript_eq_error_iff {s : Script} {f : ScriptFault} :
    ofScript s = .error f ↔ s.fault? = some f := by
  unfold ofScript
  split <;> simp_all

theorem script_of_ofScript {s : Script} {engine : ScriptedEngine} (h : ofScript s = .ok engine) :
    engine.script = s := by
  unfold ofScript at h
  split at h
  · cases h
  · cases h
    rfl

theorem exists_ofScript {s : Script} (h : s.fault? = none) : ∃ engine, ofScript s = .ok engine := by
  cases hmade : ofScript s with
  | ok engine => exact ⟨engine, rfl⟩
  | error f => cases h.symm.trans (ofScript_eq_error_iff.mp hmade)

end ScriptedEngine

namespace Script

theorem Accepted.valid {s : Script} (h : s.Accepted) : s.fault? = none := by
  cases h with
  | engine made =>
    rw [← ScriptedEngine.script_of_ofScript made]
    exact ScriptedEngine.valid _
  | document read =>
    unfold ofToml ofDocument at read
    repeat' first | split at read | cases read
    assumption

theorem fault?_eq_none_iff {s : Script} : s.fault? = none ↔ ∀ e ∈ s.events, e.Playable := by
  rw [fault?, firstFault?_eq_none_iff]
  simp only [EventSpec.faultCause?_eq_none_iff]

theorem fault?_eq_some_iff {s : Script} {f : ScriptFault} :
    s.fault? = some f ↔ ∃ pre e post, s.events = pre ++ e :: post ∧
      f.index = pre.length ∧ (∀ earlier ∈ pre, earlier.Playable) ∧ e.FaultyBy f.cause := by
  obtain ⟨index, cause⟩ := f
  rw [fault?, firstFault?_eq_some_iff]
  simp only [EventSpec.faultCause?_eq_none_iff, EventSpec.faultCause?_eq_some_iff, Nat.zero_add]

/-- What is wrong with a script is the first thing that is wrong with its first event at fault, and
nothing is wrong with it if each event has the names that its kind needs and no text with NUL in it,
whatever the data of matches. An engine is made of such a script and of no other. All texts that
are handed out of an accepted script are handed out whole. -/
theorem faults_exact (s : Script) :
    (s.fault? = none ↔ ∀ e ∈ s.events, e.Playable) ∧
      (∀ f, s.fault? = some f ↔ ∃ pre e post, s.events = pre ++ e :: post ∧
        f.index = pre.length ∧ (∀ earlier ∈ pre, earlier.Playable) ∧ e.FaultyBy f.cause) ∧
      (Script.mk (s.events.map EventSpec.sansHits)).fault? = s.fault? ∧
      (∀ f, ScriptedEngine.ofScript s = .error f ↔ s.fault? = some f) ∧
      (s.fault? = none → ∃ engine, ScriptedEngine.ofScript s = .ok engine ∧ engine.script = s) ∧
      (s.Accepted → s.fault? = none ∧
        ∀ e ∈ s.events, ∀ token, e.Hands (ScriptedEngine.event token e).data) := by
  refine ⟨fault?_eq_none_iff, fun f => fault?_eq_some_iff, firstFault?_sansHits 0 s.events,
    fun f => ScriptedEngine.ofScript_eq_error_iff, ?_, ?_⟩
  · intro hvalid
    obtain ⟨engine, hmade⟩ := ScriptedEngine.exists_ofScript hvalid
    exact ⟨engine, hmade, ScriptedEngine.script_of_ofScript hmade⟩
  · intro haccepted
    have hvalid := haccepted.valid
    exact ⟨hvalid, fun e he token => (fault?_eq_none_iff.mp hvalid e he).hands token⟩

def spotless : Script where
  events := [((EventSpec.ruleMatching "r").withMeta "k" (.string "é")).stringMatch "$a" 7 "x\x00",
    .raw 1, .importModule "m"]

/-- In the second event NUL in a tag, in a key and in a string, and no module for the third. -/
def spoilt : Script where
  events := [.ruleMatching "r",
    { kind := .raw 7
      tags := ["a", "b\x00"]
      metadata := .ofList [("k\x00", .boolean true)]
      strings := [⟨"\x00", []⟩] },
    .importModule ""]

theorem faults_exact_spoilt :
    spotless.Accepted ∧
      (∀ e ∈ spotless.events, ∀ token, e.Hands (ScriptedEngine.event token e).data) ∧
      spoilt.fault? = some ⟨1, .nulInText "b\x00"⟩ ∧
      ∃ e, spoilt.events[1]? = some e ∧ e.FaultyBy (.nulInText "b\x00") := by
  obtain ⟨_, _, _, _, hmade, hhands⟩ := faults_exact spotless
  obtain ⟨_, hfault, _⟩ := faults_exact spoilt
  obtain ⟨engine, hengine, _⟩ := hmade (by decide)
  have haccepted : spotless.Accepted := .engine hengine
  have hfirst : spoilt.fault? = some ⟨1, .nulInText "b\x00"⟩ := by decide
  obtain ⟨pre, e, post, hevents, hindex, _, hfaulty⟩ := (hfault _).mp hfirst
  have hindex : 1 = pre.length := hindex
  refine ⟨haccepted, (hhands haccepted).2, hfirst, e, ?_, hfaulty⟩
  rw [hevents, hindex]
  simp

end Script

end ScanBridge
