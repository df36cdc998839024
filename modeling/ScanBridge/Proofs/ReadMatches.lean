import Mathlib.Data.List.Forall2
import ScanBridge.Proofs.MetadataLookup

namespace ScanBridge

namespace Layout

/-- A list that is there has as many elements as are stated for it. -/
def Span.Backed {α : Type} (s : Span α) : Prop := ∀ items ∈ s.items, s.length ≤ items.length

instance {α : Type} (s : Span α) : Decidable s.Backed :=
  inferInstanceAs (Decidable (∀ items ∈ s.items, s.length ≤ items.length))

def Match.Backed (m : Match) : Prop := ∀ data ∈ m.data, m.dataLength.toInt ≤ data.length

instance (m : Match) : Decidable m.Backed :=
  inferInstanceAs (Decidable (∀ data ∈ m.data, m.dataLength.toInt ≤ data.length))

structure Context.Backed (c : Context) : Prop where
  table : c.table.Backed
  lists : ∀ list ∈ c.table.toList, list.Backed
  hits : ∀ list ∈ c.table.toList, ∀ m ∈ list.toList, m.Backed

instance (c : Context) : Decidable c.Backed :=
  decidable_of_iff (c.table.Backed ∧ (∀ list ∈ c.table.toList, list.Backed) ∧
      ∀ list ∈ c.table.toList, ∀ m ∈ list.toList, m.Backed)
    ⟨fun ⟨htable, hlists, hhits⟩ => ⟨htable, hlists, hhits⟩, fun h => ⟨h.table, h.lists, h.hits⟩⟩

/-- The elements that an address with a length gives: the first so many of those that are there. A
list that is stated longer than it is gives nothing at all, so a reading that goes beyond what is
there is one that nothing is related to. -/
inductive Span.Gives {α : Type} : Span α → List α → Prop
  | missing (length : Nat) : Gives ⟨none, length⟩ []
  | listed (xs rest : List α) : Gives ⟨some (xs ++ rest), xs.length⟩ xs

/-- The matches that a scan context gives for an index, whatever number that is. -/
inductive Context.Gives : Option Context → UInt64 → List Match → Prop
  | missing (index : UInt64) : Gives none index []
  | beyond {c : Context} {lists : List (Span Match)} {index : UInt64}
      (table : c.table.Gives lists) (outside : lists.length ≤ index.toNat) :
      Gives (some c) index []
  | found {c : Context} {lists : List (Span Match)} {index : UInt64} {list : Span Match}
      {ms : List Match} (table : c.table.Gives lists) (entry : lists[index.toNat]? = some list)
      (read : list.Gives ms) : Gives (some c) index ms

/-- The bytes that a match gives. Its own length is not asked. -/
inductive Match.Gives : Match → Bytes → Prop
  | missing {m : Match} (none : m.data = none) : Gives m []
  | empty {m : Match} (stated : m.dataLength ≤ 0) : Gives m []
  | bytes {m : Match} (bs rest : Bytes) (here : m.data = some (bs ++ rest))
      (stated : m.dataLength.toInt = bs.length) : Gives m bs

/-- A match on its own. Its positions are those of the match modulo 2^64. -/
structure Match.ReadAs (m : Match) (name : String) (e : MatchString) : Prop where
  name : e.name = name
  base : (e.base.toNat : Int) = m.base.toInt % 2 ^ 64
  offset : (e.offset.toNat : Int) = m.offset.toInt % 2 ^ 64
  data : m.Gives e.data

def Declared.ReadAs (ctx : Option Context) (s : Declared) (es : List MatchString) : Prop :=
  ∃ name ms, Spells s.identifier name ∧ Context.Gives ctx s.index ms ∧
    List.Forall₂ (fun m e => m.ReadAs name e) ms es

def Rule.ReadAs (r : Rule) (ctx : Option Context) (es : List MatchString) : Prop :=
  ∃ strings parts, r.strings.Gives strings ∧ List.Forall₂ (Declared.ReadAs ctx) strings parts ∧
    es = parts.flatten

theorem Span.gives_iff {α : Type} {s : Span α} (h : s.Backed) {xs : List α} :
    s.Gives xs ↔ s.toList = xs := by
  constructor
  · rintro (length | ⟨xs, rest⟩)
    · rfl
    · exact List.take_left' rfl
  · rintro rfl
    obtain ⟨items, length⟩ := s
    cases items with
    | none => exact .missing length
    | some items =>
      have hlength : (items.take length).length = length := List.length_take_of_le (h items rfl)
      have hgives := Gives.listed (items.take length) (items.drop length)
      rwa [List.take_append_drop, hlength] at hgives

theorem Context.gives_iff {ctx : Option Context} (h : ∀ c ∈ ctx, c.Backed) {index : UInt64}
    {ms : List Match} : Gives ctx index ms ↔ matchesAt ctx index = ms := by
  constructor
  · intro hgives
    cases hgives with
    | missing index => rfl
    | @beyond c lists _ table outside =>
      rw [Span.gives_iff (h c rfl).table] at table
      simp only [matchesAt, table, List.getElem?_eq_none outside]
    | @found c lists _ list _ table entry read =>
      have hc := h c rfl
      rw [Span.gives_iff hc.table] at table
      have hlist : list ∈ c.table.toList := table ▸ List.mem_of_getElem? entry
      rw [Span.gives_iff (hc.lists list hlist)] at read
      simp only [matchesAt, table, entry, read]
  · rintro rfl
    cases ctx with
    | none => exact .missing index
    | some c =>
      have hc := h c rfl
      have htable : c.table.Gives c.table.toList := (Span.gives_iff hc.table).mpr rfl
      cases hentry : c.table.toList[index.toNat]? with
      | none =>
        simp only [matchesAt, hentry]
        exact .beyond htable (List.getElem?_eq_none_iff.mp hentry)
      | some list =>
        have hlist := hc.lists list (List.mem_of_getElem? hentry)
        simp only [matchesAt, hentry]
        exact .found htable hentry ((Span.gives_iff hlist).mpr rfl)

theorem Match.gives_iff {m : Match} (h : m.Backed) {bs : Bytes} : m.Gives bs ↔ m.bytes = bs := by
  constructor
  · rintro (hnone | hstated | ⟨bs, rest, hhere, hstated⟩)
    · simp only [bytes, hnone]
    · have hzero : m.dataLength.toInt.toNat = 0 :=
        Int.toNat_of_nonpos (Int32.le_iff_toInt_le.mp hstated)
      cases hdata : m.data <;> simp [bytes, hdata, hzero]
    · simp only [bytes, hhere, hstated, Int.toNat_natCast, List.take_left']
  · rintro rfl
    cases hdata : m.data with
    | none =>
      simp only [bytes, hdata]
      exact .missing hdata
    | some data =>
      simp only [bytes, hdata]
      by_cases hstated : m.dataLength ≤ 0
      · rw [Int.toNat_of_nonpos (Int32.le_iff_toInt_le.mp hstated), List.take_zero]
        exact .empty hstated
      · rw [Int32.le_iff_toInt_le, Int32.toInt_zero] at hstated
        have hlength := h data hdata
        refine .bytes _ (data.drop m.dataLength.toInt.toNat) ?_ ?_
        · rw [hdata, List.take_append_drop]
        · rw [List.length_take_of_le (by omega)]
          omega

theorem toNat_toUInt64 (n : Int64) : (n.toUInt64.toNat : Int) = n.toInt % 2 ^ 64 := by
  have hbits : n.toInt = (n.toUInt64.toNat : Int).bmod (2 ^ 64) :=
    n.toBitVec.toInt_eq_toNat_bmod
  have hwrap : (n.toUInt64.toNat : Int).bmod (2 ^ 64) % (2 ^ 64 : Nat) =
      n.toUInt64.toNat % (2 ^ 64 : Nat) := Int.bmod_emod
  have hrange := n.toUInt64.toNat_lt
  rw [hbits]
  omega

theorem toUInt64_eq_iff {n : Int64} {u : UInt64} :
    (u.toNat : Int) = n.toInt % 2 ^ 64 ↔ n.toUInt64 = u := by
  rw [← toNat_toUInt64, Int.natCast_inj, UInt64.toNat_inj, eq_comm]

theorem Match.readAs_iff {m : Match} (h : m.Backed) {name : String} {e : MatchString} :
    m.ReadAs name e ↔ m.named name = e := by
  obtain ⟨name', base, offset, data⟩ := e
  rw [named, MatchString.mk.injEq, ← toUInt64_eq_iff, ← toUInt64_eq_iff, ← gives_iff h]
  constructor
  · intro hread
    exact ⟨hread.name.symm, hread.base, hread.offset, hread.data⟩
  · rintro ⟨hname, hbase, hoffset, hdata⟩
    exact ⟨hname.symm, hbase, hoffset, hdata⟩

theorem forall₂_iff_map {α β : Type} {R : α → β → Prop} {f : α → β} {xs : List α} {ys : List β}
    (h : ∀ x ∈ xs, ∀ y, R x y ↔ f x = y) : List.Forall₂ R xs ys ↔ xs.map f = ys := by
  induction xs generalizing ys with
  | nil => rw [List.forall₂_nil_left_iff, List.map_nil, eq_comm]
  | cons x xs ih =>
    obtain ⟨hx, hxs⟩ := List.forall_mem_cons.mp h
    rw [List.forall₂_cons_left_iff, List.map_cons]
    simp only [hx, ih hxs]
    constructor
    · rintro ⟨_, _, rfl, rfl, rfl⟩
      rfl
    · rintro rfl
      exact ⟨_, _, rfl, rfl, rfl⟩

theorem Context.Backed.matchesAt {ctx : Option Context} (h : ∀ c ∈ ctx, c.Backed)
    {index : UInt64} {m : Match} (hm : m ∈ matchesAt ctx index) : m.Backed := by
  unfold Context.matchesAt at hm
  split at hm
  · cases hm
  · rename_i c
    split at hm
    · cases hm
    · rename_i list hlist
      exact (h c rfl).hits list (List.mem_of_getElem? hlist) m hm

theorem Declared.readAs_iff {ctx : Option Context} (h : ∀ c ∈ ctx, c.Backed) {s : Declared}
    {es : List MatchString} :
    s.ReadAs ctx es ↔
      (Context.matchesAt ctx s.index).map (Match.named (Text.ofTerminated s.identifier)) = es := by
  have hentries : ∀ name, List.Forall₂ (fun (m : Match) e => m.ReadAs name e)
      (Context.matchesAt ctx s.index) es ↔
        (Context.matchesAt ctx s.index).map (Match.named name) = es :=
    fun name => forall₂_iff_map fun m hm e => Match.readAs_iff (Context.Backed.matchesAt h hm)
  simp only [ReadAs, spells_iff, Context.gives_iff h, exists_and_left, exists_eq_left', hentries]

theorem Rule.readAs_iff {r : Rule} (hr : r.strings.Backed) {ctx : Option Context}
    (h : ∀ c ∈ ctx, c.Backed) {es : List MatchString} :
    r.ReadAs ctx es ↔ es = r.matchStrings ctx := by
  have hparts : ∀ parts, List.Forall₂ (Declared.ReadAs ctx) r.strings.toList parts ↔
      r.strings.toList.map (fun s =>
        (Context.matchesAt ctx s.index).map (Match.named (Text.ofTerminated s.identifier))) =
          parts :=
    fun parts => forall₂_iff_map fun s _ part => Declared.readAs_iff h
  simp only [ReadAs, Span.gives_iff hr, exists_and_left, exists_eq_left', hparts]
  rw [matchStrings, List.flatMap_def]

def Span.map {α β : Type} (f : α → β) (s : Span α) : Span β := ⟨s.items.map (List.map f), s.length⟩

theorem Span.toList_map {α β : Type} (f : α → β) (s : Span α) :
    (s.map f).toList = s.toList.map f := by
  obtain ⟨items, length⟩ := s
  cases items with
  | none => rfl
  | some items => exact List.map_take.symm

def Match.sansLength (m : Match) : Match := { m with matchLength := 0 }

/-- A scan context without the lengths of its matches. The lengths of their data stay. -/
def Context.sansLengths (c : Context) : Context := ⟨c.table.map (Span.map Match.sansLength)⟩

theorem Context.matchesAt_sansLengths (ctx : Option Context) (index : UInt64) :
    matchesAt (ctx.map sansLengths) index = (matchesAt ctx index).map Match.sansLength := by
  cases ctx with
  | none => rfl
  | some c =>
    simp only [Option.map_some, matchesAt, sansLengths, Span.toList_map, List.getElem?_map]
    cases c.table.toList[index.toNat]? with
    | none => rfl
    | some list => exact Span.toList_map _ list

theorem Rule.matchStrings_sansLengths (r : Rule) (ctx : Option Context) :
    r.matchStrings (ctx.map Context.sansLengths) = r.matchStrings ctx := by
  refine List.flatMap_congr fun s _ => ?_
  rw [Context.matchesAt_sansLengths, List.map_map]
  rfl

/-- In memory that has what it states, the matches of a rule's strings are read without going beyond
anything that is there, and what is read is what the rule reports. Positions are told apart as the
signed numbers that they were, and the lengths of matches play no part. -/
theorem Rule.declared_matches_read {r : Rule} (hr : r.strings.Backed) {ctx : Option Context}
    (hctx : ∀ c ∈ ctx, c.Backed) :
    (∀ found, r.ReadAs ctx found ↔ found = r.matchStrings ctx) ∧
      (∀ (m m' : Match) (name name' : String) (e e' : MatchString),
        m.ReadAs name e → m'.ReadAs name' e' →
        (e.base = e'.base ↔ m.base = m'.base) ∧ (e.offset = e'.offset ↔ m.offset = m'.offset)) ∧
      ∀ ctx', ctx'.map Context.sansLengths = ctx.map Context.sansLengths →
        r.matchStrings ctx' = r.matchStrings ctx := by
  have hword : ∀ n n' : Int64, n.toUInt64 = n'.toUInt64 ↔ n = n' := by
    intro n n'
    rw [← UInt64.toBitVec_inj, Int64.toBitVec_toUInt64, Int64.toBitVec_toUInt64,
      Int64.toBitVec_inj]
  refine ⟨fun found => readAs_iff hr hctx, ?_, ?_⟩
  · intro m m' name name' e e' h h'
    rw [← toUInt64_eq_iff.mp h.base, ← toUInt64_eq_iff.mp h'.base,
      ← toUInt64_eq_iff.mp h.offset, ← toUInt64_eq_iff.mp h'.offset]
    exact ⟨hword _ _, hword _ _⟩
  · intro ctx' hsame
    rw [← matchStrings_sansLengths, hsame, matchStrings_sansLengths]

def Context.ragged : Context where
  table := .ofList [⟨none, 7⟩, .ofList [
    { base := -1, offset := 16, matchLength := 9, data := some [0x65, 0x76, 0x69],
      dataLength := 2 },
    { offset := -9223372036854775808, matchLength := 4, data := some [0x65], dataLength := -5 },
    { base := 2, matchLength := -1, data := none, dataLength := 3 }]]

def Rule.scattered : Rule where
  strings := .ofList [⟨some [0x61], 1⟩, ⟨some [0x62], 0⟩, ⟨some [0x63], 18446744073709551615⟩,
    ⟨none, 1⟩]

theorem Rule.declared_matches_read_scattered :
    scattered.strings.Backed ∧ (∀ c ∈ some Context.ragged, c.Backed) ∧
      scattered.ReadAs (some Context.ragged)
        [⟨"a", 18446744073709551615, 16, [0x65, 0x76]⟩, ⟨"a", 0, 9223372036854775808, []⟩,
          ⟨"a", 2, 0, []⟩, ⟨"", 18446744073709551615, 16, [0x65, 0x76]⟩,
          ⟨"", 0, 9223372036854775808, []⟩, ⟨"", 2, 0, []⟩] := by
  have hr : scattered.strings.Backed := by decide
  have hctx : ∀ c ∈ some Context.ragged, c.Backed := by decide
  obtain ⟨hread, _⟩ := declared_matches_read hr hctx
  exact ⟨hr, hctx, (hread _).mpr (by decide)⟩

end Layout

end ScanBridge
