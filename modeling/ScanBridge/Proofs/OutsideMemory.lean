import ScanBridge.Engine.ReplyList
import ScanBridge.Proofs.Guests

namespace ScanBridge

variable {α : Type}

namespace Heap

/-- The import buffers are those of an earlier heap, and none of `apart` is one. -/
structure Beside (h : Heap) (apart : List Nat) (h' : Heap) : Prop where
  sound : h'.Sound
  next : h.next ≤ h'.next
  imports : h'.importBlocks = h.importBlocks
  counted : h'.importBuffers = h.importBuffers
  below : ∀ a ∈ apart, a < h'.next
  apart : ∀ b ∈ h'.importBlocks, b.address ∉ apart

theorem Beside.refl {h : Heap} (hs : h.Sound) : h.Beside [] h :=
  ⟨hs, Nat.le_refl _, rfl, rfl, by simp, by simp⟩

theorem Beside.alloc {h h' : Heap} {apart : List Nat} (hb : h.Beside apart h') (bytes : Bytes) :
    h.Beside (apart ++ [h'.next]) (h'.alloc .outside bytes) := by
  have himports : (h'.alloc .outside bytes).importBlocks = h'.importBlocks := by
    simp [importBlocks, Heap.alloc]
  refine ⟨hb.sound.alloc .outside bytes, Nat.le_succ_of_le hb.next, himports.trans hb.imports,
    (Int.add_zero _).trans hb.counted, ?_, ?_⟩
  · intro a ha
    change a < h'.next + 1
    rcases List.mem_append.mp ha with ha | ha
    · exact Nat.lt_succ_of_lt (hb.below a ha)
    · rw [List.mem_singleton.mp ha]
      exact Nat.lt_succ_self _
  · rw [himports]
    intro b hmem ha
    rcases List.mem_append.mp ha with ha | ha
    · exact hb.apart b hmem ha
    · have hlt := hb.sound.below b (mem_importBlocks.mp hmem).1
      rw [List.mem_singleton.mp ha] at hlt
      exact Nat.lt_irrefl _ hlt

theorem Beside.modify {h h' : Heap} {apart : List Nat} (hb : h.Beside apart h') {a : Nat}
    (ha : a ∈ apart) (f : Bytes → Bytes) : h.Beside apart (h'.modify a f) := by
  have haddress : ∀ b : Block,
      (if b.address = a then { b with bytes := f b.bytes } else b).address = b.address := by
    intro b
    split <;> rfl
  have howner : ∀ b : Block,
      (if b.address = a then { b with bytes := f b.bytes } else b).owner = b.owner := by
    intro b
    split <;> rfl
  have himports : (h'.modify a f).importBlocks = h'.importBlocks := by
    simp only [importBlocks, Heap.modify, List.filter_map, Function.comp_def, howner]
    refine (List.map_congr_left (g := id) fun b hmem => ?_).trans (List.map_id _)
    exact if_neg fun he : b.address = a => hb.apart b hmem (he ▸ ha)
  refine ⟨⟨?_, ?_⟩, hb.next, himports.trans hb.imports, hb.counted, hb.below,
    himports ▸ hb.apart⟩
  · have hmap : (h'.modify a f).blocks.map Block.address = h'.blocks.map Block.address := by
      simp only [Heap.modify, List.map_map]
      exact List.map_congr_left fun b _ => haddress b
    rw [hmap]
    exact hb.sound.distinct
  · intro b hmem
    obtain ⟨c, hc, rfl⟩ := List.mem_map.mp hmem
    rw [haddress c]
    exact hb.sound.below c hc

theorem Beside.free {h h' : Heap} {apart : List Nat} (hb : h.Beside apart h') {a : Nat}
    (ha : a ∈ apart) : h.Beside apart (h'.free .outside a) := by
  have himports : (h'.free .outside a).importBlocks = h'.importBlocks := by
    rw [importBlocks_free]
    refine List.filter_eq_self.mpr fun b hmem => decide_eq_true ?_
    intro he
    exact hb.apart b hmem (he ▸ ha)
  exact ⟨hb.sound.free .outside a, hb.next, himports.trans hb.imports,
    (Int.sub_zero _).trans hb.counted, hb.below, himports ▸ hb.apart⟩

theorem Beside.foldl {h h' : Heap} {apart : List Nat} (step : Heap → Nat → Heap)
    (hstep : ∀ {h' a}, h.Beside apart h' → a ∈ apart → h.Beside apart (step h' a))
    (hb : h.Beside apart h') {as : List Nat} (has : as ⊆ apart) :
    h.Beside apart (as.foldl step h') := by
  induction as generalizing h' with
  | nil => exact hb
  | cons a as ih =>
    obtain ⟨ha, has⟩ := List.cons_subset.mp has
    exact ih (hstep hb ha) has

end Heap

namespace ReplyList

/-- What answering from a list makes of a world: notices, and memory of its own. -/
def Apart (w : World) (r : ReplyList) (w' : World) : Prop :=
  ∃ (ns : List Notice) (heap : Heap), w' = { ns.foldl World.notify w with heap } ∧
    (w.heap.Sound → w.heap.Beside r.handedOut heap)

theorem Apart.notify {w w' : World} {r : ReplyList} (h : Apart w r w') (n : Notice) :
    Apart w r (w'.notify n) := by
  obtain ⟨ns, heap, rfl, hb⟩ := h
  exact ⟨ns ++ [n], heap, by rw [List.foldl_append]; rfl, hb⟩

theorem Apart.mutate {h heap : Heap} {r : ReplyList} (hb : h.Beside r.handedOut heap)
    (mutates : Bool) :
    h.Beside r.handedOut (if mutates then
      r.handedOut.foldl (fun h a => h.modify a invertFirst) heap else heap) := by
  split
  · exact hb.foldl _ (fun hb ha => hb.modify ha invertFirst) (List.Subset.refl _)
  · exact hb

theorem Apart.answer {w w' : World} {r : ReplyList} (h : Apart w r w') (e : Event) :
    Apart w (r.answer e w').state (r.answer e w').world := by
  obtain ⟨ns, heap, rfl, hb⟩ := h
  unfold ReplyList.answer
  dsimp only
  split
  · exact ⟨ns, _, rfl, fun hs => Apart.mutate
      (r := { r with handedOut := r.handedOut ++ [heap.next] }) ((hb hs).alloc _) _⟩
  · exact ⟨ns, _, rfl, fun hs => Apart.mutate (hb hs) _⟩
  · exact ⟨ns, _, rfl, fun hs => Apart.mutate (hb hs) _⟩

/-- A run against prepared replies, and the end of their buffers, is nothing to the owners of
bundles. -/
theorem conduct (run : Run α) (r : ReplyList) (hr : r.handedOut = []) (w : World) :
    Conduct [] w [] ((run.drive answer r w).state.discard (run.drive answer r w).world) := by
  have hstart : Apart w r w := ⟨[], w.heap, rfl, fun hs => hr ▸ .refl hs⟩
  obtain ⟨_, ns, heap, hworld, hb⟩ := (run.chain answer r w).invariant
    (P := Apart w) (fun _ _ n h => h.notify n) (fun e _ _ h => h.answer e) hstart
  rw [hworld]
  refine (Conduct.toldAll [] ns w).andThen (.elsewhere _ _ ?_)
  rw [World.heap_foldl_notify]
  intro hs
  have hfreed := (hb hs).foldl (·.free .outside) (fun hb ha => hb.free ha) (List.Subset.refl _)
  exact ⟨hfreed.sound, hfreed.next, hfreed.imports, hfreed.counted⟩

end ReplyList

end ScanBridge
