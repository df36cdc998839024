import Mathlib.Data.List.Basic
import Mathlib.Data.List.Perm.Basic
import ScanBridge.Proofs.CollectedMatches
import ScanBridge.Proofs.MetadataLookup

namespace ScanBridge

structure StringHit where
  name : String
  offset : Int64
  data : String
  deriving DecidableEq, Repr

namespace StringHit

def spec (h : StringHit) : MatchSpec where
  base := 0
  offset := h.offset
  data := h.data
  length := none

def captured (h : StringHit) : MatchString where
  name := h.name
  base := 0
  offset := h.offset.toUInt64
  data := h.data.toUTF8.data.toList

theorem named_spec (h : StringHit) : h.spec.named h.name = h.captured := rfl

end StringHit

inductive Detail
  | inNamespace (text : String)
  | tag (text : String)
  | withMeta (key : String) (value : MetaValue)
  | stringMatch (added : StringHit)

namespace Detail

def ns? : Detail → Option String
  | .inNamespace text => some text
  | _ => none

def tag? : Detail → Option String
  | .tag text => some text
  | _ => none

def entry? : Detail → Option (String × MetaValue)
  | .withMeta key value => some (key, value)
  | _ => none

def hit? : Detail → Option StringHit
  | .stringMatch added => some added
  | _ => none

end Detail

namespace EventSpec

def adding (e : EventSpec) : Detail → EventSpec
  | .inNamespace text => e.inNamespace text
  | .tag text => e.tag text
  | .withMeta key value => e.withMeta key value
  | .stringMatch added => e.stringMatch added.name added.offset added.data

def built (e : EventSpec) (details : List Detail) : EventSpec := details.foldl adding e

inductive Fresh : EventSpec → Prop
  | ruleMatching (rule : String) : Fresh (.ruleMatching rule)
  | ruleNotMatching (rule : String) : Fresh (.ruleNotMatching rule)
  | scanFinished : Fresh .scanFinished
  | importModule (module : String) : Fresh (.importModule module)
  | moduleImported (module : String) : Fresh (.moduleImported module)
  | raw (code : Int32) : Fresh (.raw code)

end EventSpec

section Groups

variable {α β : Type} [DecidableEq β]

/-- Items under their keys: keys in the order of first use, the items of each in their own order. -/
def groups (key : α → β) (items : List α) : List (β × List α) :=
  (items.map key).eraseDups.map fun k => (k, items.filter (key · = k))

theorem eraseDups_concat (l : List β) (b : β) :
    (l ++ [b]).eraseDups = if b ∈ l then l.eraseDups else l.eraseDups ++ [b] := by
  rw [List.eraseDups_append]
  by_cases hb : b ∈ l <;> simp [List.removeAll, hb, List.eraseDups_cons]

theorem nodup_eraseDups (l : List β) : l.eraseDups.Nodup := by
  induction l using List.reverseRecOn with
  | nil => simp
  | append_singleton l b ih =>
    rw [eraseDups_concat]
    split
    · exact ih
    · rename_i hb
      rw [List.nodup_append_comm, List.singleton_append, List.nodup_cons]
      exact ⟨by rwa [List.mem_eraseDups], ih⟩

/-- An item joins the group of its key, or makes a group of its own at the end. -/
theorem groups_concat (key : α → β) (items : List α) (a : α) :
    groups key (items ++ [a]) =
      if key a ∈ items.map key then
        (groups key items).map fun g => if g.1 = key a then (g.1, g.2 ++ [a]) else g
      else groups key items ++ [(key a, [a])] := by
  unfold groups
  rw [List.map_append, List.map_singleton, eraseDups_concat]
  split
  · rw [List.map_map]
    apply List.map_congr_left
    intro k _
    by_cases hk : k = key a
    · simp [hk]
    · simp [hk, Ne.symm hk]
  · rename_i hnew
    rw [List.map_append, List.map_singleton]
    congr 1
    · apply List.map_congr_left
      intro k hk
      have hne : key a ≠ k := by
        rintro rfl
        exact hnew (List.mem_eraseDups.mp hk)
      simp [hne]
    · have hnone : items.filter (key · = key a) = [] := by
        rw [List.filter_eq_nil_iff]
        intro b hb
        simpa using fun he => hnew (List.mem_map.mpr ⟨b, hb, he⟩)
      simp [hnone]

end Groups

section Strings

variable {name : String} {m : MatchSpec} {strings : List StringSpec}

theorem addMatch_new (h : name ∉ strings.map StringSpec.name) :
    addMatch name m strings = strings ++ [⟨name, [m]⟩] := by
  induction strings with
  | nil => rfl
  | cons s strings ih =>
    simp only [List.map_cons, List.mem_cons, not_or] at h
    rw [addMatch, if_neg (Ne.symm h.1), ih h.2, List.cons_append]

theorem addMatch_known (hdistinct : (strings.map StringSpec.name).Nodup)
    (h : name ∈ strings.map StringSpec.name) :
    addMatch name m strings =
      strings.map fun s => if s.name = name then { s with hits := s.hits ++ [m] } else s := by
  induction strings with
  | nil => simp at h
  | cons s strings ih =>
    obtain ⟨hs, hdistinct⟩ := List.nodup_cons.mp hdistinct
    rw [addMatch, List.map_cons]
    by_cases hname : s.name = name
    · rw [if_pos hname, if_pos hname]
      have hothers : ∀ t ∈ strings,
          (if t.name = name then { t with hits := t.hits ++ [m] } else t) = t := by
        intro t ht
        have hne : t.name ≠ name := by
          rintro rfl
          exact hs (hname ▸ List.mem_map_of_mem ht)
        rw [if_neg hne]
      rw [List.map_congr_left hothers, List.map_id']
    · have hrest : name ∈ strings.map StringSpec.name :=
        (List.mem_cons.mp h).resolve_left (Ne.symm hname)
      rw [if_neg hname, if_neg hname, ih hdistinct hrest]

def StringSpec.listed (s : StringSpec) : List (String × MatchSpec) :=
  s.hits.map fun m => (s.name, m)

/-- An added match comes to those that are there, wherever it is put. -/
theorem listed_addMatch (name : String) (m : MatchSpec) (strings : List StringSpec) :
    ((addMatch name m strings).flatMap StringSpec.listed).Perm
      ((name, m) :: strings.flatMap StringSpec.listed) := by
  induction strings with
  | nil => exact .refl _
  | cons s strings ih =>
    rw [addMatch]
    split
    · rename_i hname
      simp only [List.flatMap_cons, StringSpec.listed, List.map_append, List.map_cons, List.map_nil,
        List.append_assoc, List.singleton_append, hname]
      exact List.perm_middle
    · rw [List.flatMap_cons, List.flatMap_cons]
      exact (ih.append_left _).trans List.perm_middle

end Strings

def gathered (hits : List StringHit) : List StringSpec :=
  (groups StringHit.name hits).map fun g => ⟨g.1, g.2.map StringHit.spec⟩

theorem names_gathered (hits : List StringHit) :
    (gathered hits).map StringSpec.name = (hits.map StringHit.name).eraseDups := by
  simp [gathered, groups, Function.comp_def]

theorem addMatch_gathered (hits : List StringHit) (h : StringHit) :
    addMatch h.name h.spec (gathered hits) = gathered (hits ++ [h]) := by
  have hdistinct : ((gathered hits).map StringSpec.name).Nodup := by
    rw [names_gathered]
    exact nodup_eraseDups _
  have hmem : h.name ∈ (gathered hits).map StringSpec.name ↔ h.name ∈ hits.map StringHit.name := by
    rw [names_gathered, List.mem_eraseDups]
  rw [gathered, gathered, groups_concat]
  by_cases hknown : h.name ∈ hits.map StringHit.name
  · rw [← gathered, addMatch_known hdistinct (hmem.mpr hknown), if_pos hknown, gathered,
      List.map_map, List.map_map]
    apply List.map_congr_left
    intro g _
    by_cases hg : g.1 = h.name <;> simp [hg]
  · rw [← gathered, addMatch_new (mt hmem.mp hknown), if_neg hknown, List.map_append]
    rfl

namespace EventSpec

theorem built_concat (e : EventSpec) (details : List Detail) (d : Detail) :
    e.built (details ++ [d]) = (e.built details).adding d := by
  simp [built]

theorem built_kept (e : EventSpec) (details : List Detail) :
    (e.built details).kind = e.kind ∧ (e.built details).rule = e.rule ∧
      (e.built details).module = e.module ∧ (e.built details).objectType = e.objectType := by
  induction details using List.reverseRecOn with
  | nil => exact ⟨rfl, rfl, rfl, rfl⟩
  | append_singleton details d ih =>
    rw [built_concat]
    cases d <;> exact ih

theorem ns_built (e : EventSpec) (details : List Detail) :
    (e.built details).ns = (details.filterMap Detail.ns?).getLast?.getD e.ns := by
  induction details using List.reverseRecOn with
  | nil => rfl
  | append_singleton details d ih =>
    rw [built_concat, List.filterMap_append]
    cases d <;> simp [adding, inNamespace, tag, withMeta, stringMatch, Detail.ns?, ih]

theorem tags_built (e : EventSpec) (details : List Detail) :
    (e.built details).tags = e.tags ++ details.filterMap Detail.tag? := by
  induction details using List.reverseRecOn with
  | nil => exact (List.append_nil _).symm
  | append_singleton details d ih =>
    rw [built_concat, List.filterMap_append]
    cases d <;> simp [adding, inNamespace, tag, withMeta, stringMatch, Detail.tag?, ih]

theorem metadata_built (e : EventSpec) (details : List Detail) :
    (e.built details).metadata =
      (details.filterMap Detail.entry?).foldl (fun m e => m.insert e.1 e.2) e.metadata := by
  induction details using List.reverseRecOn with
  | nil => rfl
  | append_singleton details d ih =>
    rw [built_concat, List.filterMap_append]
    cases d <;> simp [adding, inNamespace, tag, withMeta, stringMatch, List.filterMap_cons,
      Detail.entry?, ih]

theorem strings_built {e : EventSpec} (he : e.strings = []) (details : List Detail) :
    (e.built details).strings = gathered (details.filterMap Detail.hit?) := by
  induction details using List.reverseRecOn with
  | nil => exact he
  | append_singleton details d ih =>
    rw [built_concat, List.filterMap_append]
    cases d with
    | stringMatch added =>
      have hadded : (([Detail.stringMatch added]).filterMap Detail.hit?) = [added] := rfl
      rw [hadded, ← addMatch_gathered, ← ih]
      rfl
    | _ => simp [adding, inNamespace, tag, withMeta, List.filterMap_cons, Detail.hit?, ih]

/-- No match is lost and none comes twice. -/
theorem listed_built {e : EventSpec} (he : e.strings = []) (details : List Detail) :
    ((e.built details).strings.flatMap StringSpec.listed).Perm
      ((details.filterMap Detail.hit?).map fun h => (h.name, h.spec)) := by
  induction details using List.reverseRecOn with
  | nil => simp [built, he]
  | append_singleton details d ih =>
    rw [built_concat, List.filterMap_append]
    cases d with
    | stringMatch added =>
      have hadd := listed_addMatch added.name added.spec (e.built details).strings
      have hlast : (([Detail.stringMatch added]).filterMap Detail.hit?) = [added] := rfl
      rw [hlast, List.map_append, List.map_singleton]
      exact (hadd.trans (ih.cons _)).trans (List.perm_append_singleton _ _).symm
    | _ => simpa [adding, inNamespace, tag, withMeta, List.filterMap_cons, Detail.hit?] using ih

theorem Fresh.plain {e : EventSpec} (h : e.Fresh) :
    e.ns = "default" ∧ e.tags = [] ∧ e.metadata = .empty ∧ e.strings = [] := by
  cases h <;> exact ⟨rfl, rfl, rfl, rfl⟩

theorem matchStrings_gathered {b : EventSpec} {hits : List StringHit}
    (h : b.strings = gathered hits) :
    b.matchStrings = (groups StringHit.name hits).flatMap fun g => g.2.map StringHit.captured := by
  rw [matchStrings, h, gathered, List.flatMap_map]
  apply List.flatMap_congr
  intro g hg
  obtain ⟨name, -, rfl⟩ := List.mem_map.mp hg
  rw [List.map_map]
  apply List.map_congr_left
  intro hit hhit
  have hname : hit.name = name := by simpa using (List.mem_filter.mp hhit).2
  rw [Function.comp_apply, ← hname]
  exact hit.named_spec

theorem collected_record (engine : ScriptedEngine) (w : World) {pre post : List EventSpec}
    {b : EventSpec} (hevents : engine.script.events = pre ++ b :: post)
    (hkind : b.kind = .named .ruleMatching)
    (hscript : ∀ f ∈ engine.script.events, f.Fits ∧ f.kind ≠ .raw 1) :
    ∃ before after, (scanMatches engine w).1 = .records (before ++ b.record :: after) ∧
      before.length = (pre.filter (·.kind = .named .ruleMatching)).length := by
  rcases scanMatches_once engine w (fun f hf => (hscript f hf).1) with
    ⟨-, hrecords, -⟩ | ⟨first, e, rest, hbroken, -, hraw, -⟩
  · refine ⟨(pre.filter (·.kind = .named .ruleMatching)).map record,
      (post.filter (·.kind = .named .ruleMatching)).map record, ?_, List.length_map _⟩
    rw [hrecords, hevents]
    simp [hkind]
  · exact absurd hraw (hscript e (by simp [hbroken])).2

/-- Whatever steps build an event, in whatever order: each string that got a match is there once, in
the order of first use, and has the matches that were added under its name in their order, none lost
and none twice. Tags add up, of several values under one key and of several namespaces the last one
stays, and nothing else changes. A scan captures the matches of a matching rule grouped the same
way. -/
theorem built_matches_grouped {e : EventSpec} (he : e.Fresh) (details : List Detail) :
    let b := e.built details
    let hits := details.filterMap Detail.hit?
    let names := (hits.map StringHit.name).eraseDups
    names.Nodup ∧
      b.strings = (names.map fun name => ⟨name, (hits.filter (·.name = name)).map StringHit.spec⟩) ∧
      (b.strings.flatMap StringSpec.listed).Perm (hits.map fun h => (h.name, h.spec)) ∧
      b.ns = (details.filterMap Detail.ns?).getLast?.getD "default" ∧
      b.tags = details.filterMap Detail.tag? ∧
      (∀ key, b.metadata.get? key =
        ((details.filterMap Detail.entry?).reverse.find? (·.1 = key)).map (·.2)) ∧
      (b.kind = e.kind ∧ b.rule = e.rule ∧ b.module = e.module ∧ b.objectType = e.objectType) ∧
      (e.kind = .named .ruleMatching →
        ∀ (engine : ScriptedEngine) (w : World) (pre post : List EventSpec),
          engine.script.events = pre ++ b :: post →
          (∀ f ∈ engine.script.events, f.Fits ∧ f.kind ≠ .raw 1) →
          ∃ before captured after,
            (scanMatches engine w).1 = .records (before ++ captured :: after) ∧
              before.length = (pre.filter (·.kind = .named .ruleMatching)).length ∧
              captured.strings = names.flatMap fun name =>
                (hits.filter (·.name = name)).map StringHit.captured) := by
  obtain ⟨hns, htags, hmeta, hempty⟩ := he.plain
  have hstrings := strings_built hempty details
  have hkept := e.built_kept details
  intro b hits names
  refine ⟨nodup_eraseDups _, ?_, listed_built hempty details, ?_, ?_, ?_, hkept, ?_⟩
  · rw [hstrings, gathered, groups, List.map_map]
    rfl
  · rw [ns_built, hns]
  · rw [tags_built, htags, List.nil_append]
  · intro key
    rw [metadata_built, hmeta]
    exact MetaMap.get?_ofList _ key
  · intro hkind engine w pre post hevents hscript
    obtain ⟨before, after, hrecords, hbefore⟩ :=
      collected_record engine w hevents (hkept.1.trans hkind) hscript
    refine ⟨before, b.record, after, hrecords, hbefore, ?_⟩
    calc b.record.strings = b.matchStrings := rfl
      _ = (groups StringHit.name hits).flatMap fun g => g.2.map StringHit.captured :=
        matchStrings_gathered hstrings
      _ = names.flatMap fun name => (hits.filter (·.name = name)).map StringHit.captured := by
        rw [groups, List.flatMap_map]

def turns : List Detail :=
  [.stringMatch ⟨"$b", 9, "x"⟩, .tag "t", .stringMatch ⟨"$a", -1, ""⟩, .withMeta "k" (.integer 1),
    .inNamespace "m", .stringMatch ⟨"$b", 2, "é"⟩, .withMeta "k" (.string "v"), .tag "t",
    .inNamespace "n"]

def turning : ScriptedEngine where
  script := ⟨[.importModule "m", (EventSpec.ruleMatching "r").built turns]⟩
  valid := by decide

theorem built_matches_grouped_turns :
    (EventSpec.ruleMatching "r").Fresh ∧
      ((EventSpec.ruleMatching "r").built turns).strings =
        [⟨"$b", [{ offset := 9, data := "x" }, { offset := 2, data := "é" }]⟩,
          ⟨"$a", [{ offset := -1 }]⟩] ∧
      ∃ before captured after,
        (scanMatches turning {}).1 = .records (before ++ captured :: after) ∧
          before.length = 0 ∧
          captured.strings = [⟨"$b", 0, 9, [0x78]⟩, ⟨"$b", 0, 2, [0xC3, 0xA9]⟩,
            ⟨"$a", 0, 18446744073709551615, []⟩] := by
  have hfresh : (EventSpec.ruleMatching "r").Fresh := .ruleMatching "r"
  obtain ⟨_, hstrings, _, _, _, _, _, hscan⟩ := built_matches_grouped hfresh turns
  obtain ⟨before, captured, after, hrecords, hbefore, hcaptured⟩ :=
    hscan rfl turning {} [.importModule "m"] [] rfl (by decide)
  refine ⟨hfresh, hstrings.trans (by decide), before, captured, after, hrecords, hbefore, ?_⟩
  exact hcaptured.trans (by decide)

end EventSpec

end ScanBridge
