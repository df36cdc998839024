import Mathlib.Algebra.Ring.Nat
import Mathlib.Data.List.Nodup
import ScanBridge.Memory.Tracker

namespace ScanBridge

theorem find?_key_iff {α κ : Type} [DecidableEq κ] {key : α → κ} {l : List α}
    (hd : (l.map key).Nodup) {k : κ} {x : α} :
    l.find? (fun y => decide (key y = k)) = some x ↔ x ∈ l ∧ key x = k := by
  constructor
  · intro h
    exact ⟨List.mem_of_find?_eq_some h, by simpa using List.find?_some h⟩
  · rintro ⟨hx, rfl⟩
    obtain ⟨y, hy⟩ : ∃ y, l.find? (fun y => decide (key y = key x)) = some y :=
      Option.isSome_iff_exists.mp (List.find?_isSome.mpr ⟨x, hx, by simp⟩)
    have hkey : key y = key x := by simpa using List.find?_some hy
    rw [hy, List.inj_on_of_nodup_map hd (List.mem_of_find?_eq_some hy) hx hkey]

namespace Heap

def importBlocks (h : Heap) : List Block := h.blocks.filter (·.owner = .bundle)

/-- No address is taken twice, and none from `next` on is taken. -/
structure Sound (h : Heap) : Prop where
  distinct : (h.blocks.map Block.address).Nodup
  below : ∀ b ∈ h.blocks, b.address < h.next

/-- The import buffers of the heap are those at the given addresses, and no others, and so many are
counted as live. Buffers are never written after they are taken and addresses never come back, so it
is enough to keep count of addresses. -/
structure Accounts (h : Heap) (addresses : List Nat) : Prop where
  sound : h.Sound
  imports : (h.importBlocks.map Block.address).Perm addresses
  counted : h.importBuffers = addresses.length

/-- Every import buffer that is not new was there before, with the bytes it has now. -/
structure Later (h h' : Heap) : Prop where
  next : h.next ≤ h'.next
  old : ∀ b ∈ h'.importBlocks, b.address < h.next → b ∈ h.importBlocks

/-- Memory of others was taken, changed or given back. -/
def SameImports (h h' : Heap) : Prop :=
  h.Sound → h'.Sound ∧ h.next ≤ h'.next ∧ h'.importBlocks = h.importBlocks ∧
    h'.importBuffers = h.importBuffers

theorem Sound.alloc {h : Heap} (hs : h.Sound) (owner : Owner) (bytes : Bytes) :
    (h.alloc owner bytes).Sound := by
  refine ⟨?_, ?_⟩
  · simp only [Heap.alloc, List.map_append, List.map_cons, List.map_nil]
    apply List.nodup_append.mpr
    refine ⟨hs.distinct, by simp, ?_⟩
    intro a ha b hb he
    obtain ⟨blk, hblk, rfl⟩ := List.mem_map.mp ha
    have := hs.below blk hblk
    simp only [List.mem_singleton] at hb
    omega
  · intro b hb
    change b.address < h.next + 1
    rcases List.mem_append.mp hb with hb | hb
    · have := hs.below b hb; omega
    · rw [List.mem_singleton.mp hb]
      exact Nat.lt_succ_self _

theorem Sound.free {h : Heap} (hs : h.Sound) (owner : Owner) (a : Nat) : (h.free owner a).Sound :=
  ⟨hs.distinct.sublist (List.filter_sublist.map Block.address),
    fun b hb => hs.below b (List.mem_filter.mp hb).1⟩

theorem importBlocks_alloc (h : Heap) (bytes : Bytes) :
    (h.alloc .bundle bytes).importBlocks = h.importBlocks ++ [⟨h.next, .bundle, bytes⟩] := by
  simp [importBlocks, Heap.alloc]

theorem importBlocks_free (h : Heap) (owner : Owner) (a : Nat) :
    (h.free owner a).importBlocks = h.importBlocks.filter (·.address ≠ a) := by
  simp only [importBlocks, Heap.free, List.filter_filter, Bool.and_comm]

theorem Accounts.nodup {h : Heap} {as : List Nat} (ha : h.Accounts as) : as.Nodup :=
  ha.imports.nodup_iff.mp
    (ha.sound.distinct.sublist (List.filter_sublist.map Block.address))

theorem Accounts.perm {h : Heap} {as bs : List Nat} (ha : h.Accounts as) (hp : as.Perm bs) :
    h.Accounts bs :=
  ⟨ha.sound, ha.imports.trans hp, hp.length_eq ▸ ha.counted⟩

theorem Accounts.alloc {h : Heap} {as : List Nat} (ha : h.Accounts as) (bytes : Bytes) :
    (h.alloc .bundle bytes).Accounts (h.next :: as) := by
  refine ⟨ha.sound.alloc .bundle bytes, ?_, congrArg (· + 1) ha.counted⟩
  rw [importBlocks_alloc, List.map_append]
  exact (ha.imports.append_right _).trans List.perm_append_comm

theorem Accounts.free {h : Heap} {a : Nat} {as : List Nat} (ha : h.Accounts (a :: as)) :
    (h.free .bundle a).Accounts as := by
  have hnot : a ∉ as := (List.nodup_cons.mp ha.nodup).1
  -- The address stands there once, so nothing else is filtered out with it.
  have hrest : (a :: as).filter (· ≠ a) = as := by
    simp only [List.filter_cons, ne_eq, not_true_eq_false, decide_false, Bool.false_eq_true,
      if_false]
    apply List.filter_eq_self.mpr
    intro b hb
    exact decide_eq_true (fun he => hnot (he ▸ hb))
  have himports : (h.free .bundle a).importBlocks.map Block.address =
      (h.importBlocks.map Block.address).filter (· ≠ a) := by
    rw [importBlocks_free, List.filter_map]
    rfl
  have hcounted : h.importBuffers = as.length + 1 := ha.counted
  refine ⟨ha.sound.free .bundle a, ?_, Int.sub_eq_iff_eq_add.mpr hcounted⟩
  rw [himports, ← hrest]
  exact ha.imports.filter _

theorem Accounts.freeAll {h : Heap} {as bs : List Nat} (ha : h.Accounts (as ++ bs)) :
    (h.freeAll .bundle as).Accounts bs := by
  induction as generalizing h with
  | nil => exact ha
  | cons a as ih => exact ih ha.free

theorem Accounts.sameImports {h h' : Heap} {as : List Nat} (ha : h.Accounts as)
    (hh : h.SameImports h') : h'.Accounts as := by
  obtain ⟨hs, _, hi, hcount⟩ := hh ha.sound
  exact ⟨hs, hi ▸ ha.imports, hcount.trans ha.counted⟩

theorem mem_importBlocks {h : Heap} {b : Block} :
    b ∈ h.importBlocks ↔ b ∈ h.blocks ∧ b.owner = .bundle := by
  simp [importBlocks]

theorem Sound.find? {h : Heap} (hs : h.Sound) {b : Block} (hb : b ∈ h.blocks) :
    h.find? b.address = some b :=
  (find?_key_iff hs.distinct).mpr ⟨hb, rfl⟩

theorem Accounts.find? {h : Heap} {as : List Nat} (ha : h.Accounts as) {a : Nat} (hm : a ∈ as) :
    ∃ b ∈ h.importBlocks, b.address = a ∧ h.find? a = some b := by
  obtain ⟨b, hb, rfl⟩ := List.mem_map.mp (ha.imports.mem_iff.mpr hm)
  exact ⟨b, hb, rfl, ha.sound.find? (mem_importBlocks.mp hb).1⟩

theorem Later.refl (h : Heap) : h.Later h := ⟨Nat.le_refl _, fun _ hb _ => hb⟩

theorem Later.trans {h h' h'' : Heap} (h₁ : h.Later h') (h₂ : h'.Later h'') : h.Later h'' :=
  ⟨Nat.le_trans h₁.next h₂.next,
    fun b hb hlt => h₁.old b (h₂.old b hb (Nat.lt_of_lt_of_le hlt h₁.next)) hlt⟩

theorem Later.alloc (h : Heap) (bytes : Bytes) : h.Later (h.alloc .bundle bytes) := by
  refine ⟨Nat.le_succ _, ?_⟩
  intro b hb hlt
  rw [importBlocks_alloc] at hb
  rcases List.mem_append.mp hb with hb | hb
  · exact hb
  · rw [List.mem_singleton.mp hb] at hlt
    exact absurd hlt (Nat.lt_irrefl _)

theorem Later.freeAll (h : Heap) (owner : Owner) (as : List Nat) :
    h.Later (h.freeAll owner as) := by
  induction as generalizing h with
  | nil => exact .refl h
  | cons a as ih =>
    have hfree : h.Later (h.free owner a) := by
      refine ⟨Nat.le_refl _, ?_⟩
      intro b hb _
      rw [importBlocks_free] at hb
      exact (List.mem_filter.mp hb).1
    exact hfree.trans (ih (h.free owner a))

theorem SameImports.later {h h' : Heap} (hh : h.SameImports h') (hs : h.Sound) : h.Later h' := by
  obtain ⟨_, hn, hi, _⟩ := hh hs
  exact ⟨hn, fun _ hb _ => hi ▸ hb⟩

theorem Later.find? {h h' : Heap} {as bs : List Nat} (hl : h.Later h') (ha : h.Accounts as)
    (hb : h'.Accounts bs) {a : Nat} (hold : a < h.next) (hm : a ∈ bs) :
    h'.find? a = h.find? a := by
  obtain ⟨b, hmem, rfl, hf⟩ := hb.find? hm
  rw [hf, ha.sound.find? (mem_importBlocks.mp (hl.old b hmem hold)).1]

theorem Later.gone {h h' : Heap} {as bs : List Nat} (hl : h.Later h') (ha : h.Accounts as)
    (hb : h'.Accounts bs) {a : Nat} (hold : a < h.next) (hm : a ∉ as) : a ∉ bs := by
  intro hin
  obtain ⟨b, hmem, rfl, _⟩ := hb.find? hin
  exact hm (ha.imports.mem_iff.mp (List.mem_map_of_mem (hl.old b hmem hold)))

/-- What a heap with the import buffers `as` and a later one with `as'` have in common: buffers that
are still there have the bytes they had, and those that are gone do not come back. -/
structure Kept (h : Heap) (as : List Nat) (h' : Heap) (as' : List Nat) : Prop where
  accounts : h'.Accounts as'
  bytes : ∀ a ∈ as, a ∈ as' → h'.find? a = h.find? a
  gone : ∀ a, a < h.next → a ∉ as → a ∉ as'

theorem Accounts.lt_next {h : Heap} {as : List Nat} (ha : h.Accounts as) {a : Nat} (hm : a ∈ as) :
    a < h.next := by
  obtain ⟨b, hb, rfl, _⟩ := ha.find? hm
  exact ha.sound.below b (mem_importBlocks.mp hb).1

theorem Later.kept {h h' : Heap} {as bs : List Nat} (hl : h.Later h') (ha : h.Accounts as)
    (hb : h'.Accounts bs) : h.Kept as h' bs :=
  ⟨hb, fun _ hm hm' => hl.find? ha hb (ha.lt_next hm) hm', fun _ hold hm => hl.gone ha hb hold hm⟩

theorem accounts_new : ({} : Heap).Accounts [] :=
  ⟨⟨by simp, by simp⟩, by simp [importBlocks], rfl⟩

theorem read_of_find? {h : Heap} {a : Nat} {owner : Owner} {bytes : Bytes}
    (hf : h.find? a = some ⟨a, owner, bytes⟩) : h.read (.heap a) bytes.length = some bytes := by
  simp [read, hf]

theorem Sound.find?_alloc {h : Heap} (hs : h.Sound) (owner : Owner) (bytes : Bytes) :
    (h.alloc owner bytes).find? h.next = some ⟨h.next, owner, bytes⟩ :=
  (hs.alloc owner bytes).find? (b := ⟨h.next, owner, bytes⟩) (by simp [Heap.alloc])

theorem blocks_freeAll (h : Heap) (owner : Owner) (as : List Nat) :
    (h.freeAll owner as).blocks = h.blocks.filter (·.address ∉ as) := by
  induction as generalizing h with
  | nil => exact (List.filter_eq_self.mpr (by simp)).symm
  | cons a as ih =>
    apply (ih (h.free owner a)).trans
    simp only [free, List.filter_filter, List.mem_cons, not_or, Bool.decide_and]
    apply List.filter_congr
    intro b _
    rw [Bool.and_comm]

theorem find?_freeAll (h : Heap) (owner : Owner) {as : List Nat} {a : Nat} (hm : a ∈ as) :
    (h.freeAll owner as).find? a = none := by
  rw [find?, blocks_freeAll, List.find?_eq_none]
  intro b hb he
  have hnot := (List.mem_filter.mp hb).2
  simp only [decide_eq_true_eq] at he hnot
  exact hnot (he ▸ hm)

end Heap

end ScanBridge
