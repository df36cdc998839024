import Mathlib.Data.Option.Defs
import ScanBridge.Engine.Scripted
import ScanBridge.Proofs.HeapAccounts

namespace ScanBridge

/-- Addresses of one heap with those that stand for them in another. -/
abbrev Pairs := List (Nat × Nat)

/-- Heaps that hold the same bytes, or nothing, wherever addresses are paired. -/
structure Heap.Alike (pairs : Pairs) (h h' : Heap) : Prop where
  sound : h.Sound
  sound' : h'.Sound
  below : ∀ p ∈ pairs, p.1 < h.next ∧ p.2 < h'.next
  bytes : ∀ p ∈ pairs, (h.find? p.1).map Block.bytes = (h'.find? p.2).map Block.bytes

inductive Pointer.Alike (pairs : Pairs) : Pointer → Pointer → Prop
  | own (bytes : Bytes) : Alike pairs (.own bytes) (.own bytes)
  | heap {a a' : Nat} (paired : (a, a') ∈ pairs) : Alike pairs (.heap a) (.heap a')

structure Slot.Alike (pairs : Pairs) (s s' : Slot) : Prop where
  data : Option.Rel (Pointer.Alike pairs) s.data s'.data
  size : s'.size = s.size

inductive EventData.Alike (pairs : Pairs) : EventData → EventData → Prop
  | null : Alike pairs .null .null
  | rule (r : Layout.Rule) : Alike pairs (.rule r) (.rule r)
  | request (module : Layout.Terminated) {s s' : Slot} (slot : s.Alike pairs s') :
      Alike pairs (.request module s) (.request module s')
  | object (o : Layout.Object) : Alike pairs (.object o) (.object o)

/-- Events that differ in addresses, and in their tokens so far as each carries the token of its own
scan or both do not. -/
structure Event.Alike (t t' : Token) (pairs : Pairs) (e e' : Event) : Prop where
  token : e.token = t ↔ e'.token = t'
  code : e'.code = e.code
  ctx : e'.ctx = e.ctx
  data : e.data.Alike pairs e'.data

structure Reply.Alike (pairs : Pairs) (r r' : Reply) : Prop where
  verdict : r'.verdict = r.verdict
  slot : r.slot.Alike pairs r'.slot

/-- Runs of an engine that does the same in two worlds, where it is given the tokens `t` and `t'`
and knows the paired addresses. Looking at memory tells it nothing but what alike heaps share, and
pairs are added as module data is handed out. -/
inductive Run.Alike {α : Type} (t t' : Token) : Pairs → Run α → Run α → Prop
  | finish (pairs : Pairs) (status : Int32) (left : α) :
      Alike t t' pairs (.finish status left) (.finish status left)
  | panic (pairs : Pairs) (left : α) : Alike t t' pairs (.panic left) (.panic left)
  | notify {pairs : Pairs} (n : Notice) {run run' : Run α} (rest : Alike t t' pairs run run') :
      Alike t t' pairs (.notify n run) (.notify n run')
  | look {pairs : Pairs} {k k' : World → Run α}
      (seen : ∀ w w', w.heap.Alike pairs w'.heap → Alike t t' pairs (k w) (k' w')) :
      Alike t t' pairs (.look k) (.look k')
  | emit {pairs : Pairs} {e e' : Event} {k k' : Reply → Run α} (event : e.Alike t t' pairs e')
      (told : ∀ (more : Pairs) (r r' : Reply), pairs ⊆ more → r.Alike more r' →
        Alike t t' more (k r) (k' r')) :
      Alike t t' pairs (.emit e k) (.emit e' k')

theorem Pointer.Alike.mono {pairs more : Pairs} (hle : pairs ⊆ more) {p p' : Pointer}
    (h : p.Alike pairs p') : p.Alike more p' := by
  cases h with
  | own bytes => exact .own bytes
  | heap paired => exact .heap (hle paired)

theorem Slot.Alike.mono {pairs more : Pairs} (hle : pairs ⊆ more) {s s' : Slot}
    (h : s.Alike pairs s') : s.Alike more s' := by
  obtain ⟨data, size⟩ := s
  obtain ⟨data', size'⟩ := s'
  obtain ⟨hdata, hsize⟩ := h
  cases hdata with
  | some hpointer => exact ⟨.some (hpointer.mono hle), hsize⟩
  | none => exact ⟨.none, hsize⟩

theorem EventData.Alike.slot {pairs : Pairs} {d d' : EventData} (h : d.Alike pairs d') :
    d.slot.Alike pairs d'.slot := by
  cases h with
  | request module slot => exact slot
  | _ => exact ⟨.none, rfl⟩

theorem Heap.find?_alloc_of_lt {h : Heap} {a : Nat} (ha : a < h.next) (owner : Owner)
    (bytes : Bytes) : (h.alloc owner bytes).find? a = h.find? a := by
  have hne : h.next ≠ a := Nat.ne_of_gt ha
  simp [Heap.find?, Heap.alloc, List.find?_append, hne]

theorem Heap.Alike.alloc {pairs : Pairs} {h h' : Heap} (hh : h.Alike pairs h') (owner : Owner)
    (bytes : Bytes) :
    (h.alloc owner bytes).Alike ((h.next, h'.next) :: pairs) (h'.alloc owner bytes) := by
  refine ⟨hh.sound.alloc owner bytes, hh.sound'.alloc owner bytes, ?_, ?_⟩
  · intro p hp
    rcases List.mem_cons.mp hp with rfl | hp
    · exact ⟨Nat.lt_succ_self _, Nat.lt_succ_self _⟩
    · obtain ⟨hlt, hlt'⟩ := hh.below p hp
      exact ⟨Nat.lt_succ_of_lt hlt, Nat.lt_succ_of_lt hlt'⟩
  · intro p hp
    rcases List.mem_cons.mp hp with rfl | hp
    · rw [hh.sound.find?_alloc, hh.sound'.find?_alloc]
      rfl
    · obtain ⟨hlt, hlt'⟩ := hh.below p hp
      rw [find?_alloc_of_lt hlt, find?_alloc_of_lt hlt', hh.bytes p hp]

theorem Heap.Alike.read {pairs : Pairs} {h h' : Heap} (hh : h.Alike pairs h') {p p' : Pointer}
    (hp : p.Alike pairs p') (size : Nat) : h'.read p' size = h.read p size := by
  cases hp with
  | own bytes => rfl
  | @heap a a' paired =>
    have hread : ∀ (g : Heap) (a : Nat),
        g.read (.heap a) size = ((g.find? a).map Block.bytes).map (List.take size) := by
      intro g a
      rw [Option.map_map]
      rfl
    rw [hread, hread, hh.bytes _ paired]

namespace ScriptedEngine

def Kept.Alike (pairs : Pairs) (k k' : Kept) : Prop :=
  k.data.Alike pairs k'.data ∧ k'.size = k.size ∧ k'.copy = k.copy

structure Progress.Alike (pairs : Pairs) (p p' : Progress) : Prop where
  emissions : p'.emissions = p.emissions
  imports : p'.imports = p.imports
  kept : List.Forall₂ (Kept.Alike pairs) p.kept p'.kept

theorem Progress.Alike.mono {pairs more : Pairs} (hle : pairs ⊆ more) {p p' : Progress}
    (h : p.Alike pairs p') : p.Alike more p' :=
  ⟨h.emissions, h.imports, h.kept.imp fun _ _ hk => ⟨hk.1.mono hle, hk.2⟩⟩

theorem Progress.Alike.emitted {pairs : Pairs} {p p' : Progress} (h : p.Alike pairs p')
    (code : Int32) (verdict : Option Verdict) :
    (p.emitted code verdict).Alike pairs (p'.emitted code verdict) :=
  ⟨congrArg (· ++ _) h.emissions, h.imports, h.kept⟩

theorem Progress.Alike.takeImport {pairs : Pairs} {p p' : Progress} (h : p.Alike pairs p')
    (e : EventSpec) {slot slot' : Slot} (hslot : slot.Alike pairs slot') {w w' : World}
    (hheap : w.heap.Alike pairs w'.heap) :
    (p.takeImport e slot w).Alike pairs (p'.takeImport e slot' w') := by
  obtain ⟨data, size⟩ := slot
  obtain ⟨data', size'⟩ := slot'
  obtain ⟨hdata, hsize⟩ := hslot
  dsimp only at hdata hsize
  cases hdata with
  | none => simpa [Progress.takeImport] using h
  | @some pointer pointer' hpointer =>
    have hread := hheap.read hpointer size
    by_cases hk : e.kind.named? = some .importModule
    · simp only [Progress.takeImport, hk, hsize, hread]
      split
      · split
        · refine ⟨h.emissions, congrArg (· ++ _) h.imports, ?_⟩
          exact List.rel_append h.kept (.cons ⟨hpointer, rfl, rfl⟩ .nil)
        · exact h
      · exact h
    · simpa [Progress.takeImport, hk] using h

theorem Progress.Alike.intact {pairs : Pairs} {p p' : Progress} (h : p.Alike pairs p')
    {w w' : World} (hheap : w.heap.Alike pairs w'.heap) :
    (p'.kept.all fun k => w'.heap.read k.data k.size = some k.copy) =
      p.kept.all fun k => w.heap.read k.data k.size = some k.copy := by
  have hkept := h.kept
  generalize p.kept = kept, p'.kept = kept' at hkept ⊢
  induction hkept with
  | nil => rfl
  | cons hk _ ih =>
    obtain ⟨hdata, hsize, hcopy⟩ := hk
    rw [List.all_cons, List.all_cons, ih, hsize, hcopy, hheap.read hdata]

theorem close_alike (engine : ScriptedEngine) (t t' : Token) {pairs : Pairs} {p p' : Progress}
    (h : p.Alike pairs p') (status : Int32) :
    (engine.close p status).Alike t t' pairs (engine.close p' status) := by
  refine .look fun w w' hheap => ?_
  rw [h.emissions, h.imports, h.intact hheap]
  exact .finish _ _ _

theorem event_alike (t t' : Token) (pairs : Pairs) (e : EventSpec) :
    (event t e).Alike t t' pairs (event t' e) := by
  unfold event
  dsimp only
  split
  · exact ⟨by simp, rfl, rfl, .rule _⟩
  · exact ⟨by simp, rfl, rfl, .rule _⟩
  · exact ⟨by simp, rfl, rfl, .request _ ⟨.none, rfl⟩⟩
  · exact ⟨by simp, rfl, rfl, .object _⟩
  · exact ⟨by simp, rfl, rfl, .null⟩
  · exact ⟨by simp, rfl, rfl, .null⟩

/-- The engine that plays a script does the same in all worlds. -/
theorem play_alike (engine : ScriptedEngine) (t t' : Token) (script : List EventSpec)
    {pairs : Pairs} {p p' : Progress} (h : p.Alike pairs p') :
    (engine.play t p script).Alike t t' pairs (engine.play t' p' script) := by
  -- Every answer may add pairs, so the induction is for any pairs and for progress alike under
  -- them.
  induction script generalizing pairs p p' with
  | nil => exact close_alike engine t t' h succeeded
  | cons e script ih =>
    refine .emit (event_alike t t' pairs e) fun more r r' hle hreply => .look fun w w' hheap => ?_
    have hnext := ((h.mono hle).takeImport e hreply.slot hheap).emitted e.kind.code
      (Verdict.ofCode? r.verdict)
    rw [hreply.verdict]
    refine .notify _ ?_
    split
    · exact ih hnext
    · exact close_alike engine t t' hnext succeeded
    · exact close_alike engine t t' hnext callbackFailed
    · exact close_alike engine t t' hnext callbackFailed

theorem run_alike (engine : ScriptedEngine) (t t' : Token) (pairs : Pairs) :
    (Engine.run engine t).Alike t t' pairs (Engine.run engine t') :=
  play_alike engine t t' engine.script.events ⟨rfl, rfl, .nil⟩

end ScriptedEngine

end ScanBridge
