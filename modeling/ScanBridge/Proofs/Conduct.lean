import ScanBridge.Proofs.DealingLaws

namespace ScanBridge

/-- What code may do that owns bundles: make them, scan with them, close them and let go of them, in
any order and at any depth, with memory of its own besides. The owner of the bundles `hs` in one
world comes to own `hs'` in another. The callback of a bundle that is scanned owns bundles too,
those of `own`, and in a call it does with them what owners do. -/
inductive Conduct : List Holding → World → List Holding → World → Prop
  | rest (hs : List Holding) (w : World) : Conduct hs w hs w
  | andThen {hs hs₁ hs₂ : List Holding} {w w₁ w₂ : World} (first : Conduct hs w hs₁ w₁)
      (second : Conduct hs₁ w₁ hs₂ w₂) : Conduct hs w hs₂ w₂
  | frame (before after : List Holding) {hs hs' : List Holding} {w w' : World}
      (inner : Conduct hs w hs' w') : Conduct (before ++ hs ++ after) w (before ++ hs' ++ after) w'
  | reorder {hs hs' : List Holding} (w : World) (same : hs.Perm hs') : Conduct hs w hs' w
  | notify (n : Notice) (w : World) : Conduct [] w [] (w.notify n)
  | elsewhere (w : World) (heap : Heap) (same : w.heap.SameImports heap) :
      Conduct [] w [] { w with heap }
  | make {σ : Type} [ScanCallback σ] (callback : σ) (options : ScanOptions) (w : World) :
      Conduct [] w [(Bundle.new callback options w).1.holding] (Bundle.new callback options w).2
  | close {σ : Type} (b : Bundle σ) (w : World) :
      Conduct [b.holding] w [(b.close w).bundle.holding] (b.close w).world
  | discard {σ : Type} (b : Bundle σ) (w : World) : Conduct [b.holding] w [] (b.discard w)
  | scan {σ ε : Type} [ScanCallback σ] [Engine ε] (own : σ → List Holding) (good : σ → Prop)
      (offers_good : ∀ s k, good s → good (ScanCallback.offers s k).2)
      (offers_own : ∀ s k, good s → own (ScanCallback.offers s k).2 = own s)
      (call_good : ∀ s c w, good s → good (ScanCallback.call s c w).state)
      (call : ∀ s c w, good s →
        Conduct (own s) w (own (ScanCallback.call s c w).state) (ScanCallback.call s c w).world)
      (b : Bundle σ) (hb : good b.callback) (engine : ε) (w : World) :
      Conduct (b.holdings own) w ((b.scan engine w).bundle.holdings own) (b.scan engine w).world

namespace Conduct

/-- How a bundle works inside meets here with what its owners may do, and nowhere else. -/
theorem dealing {hs hs' : List Holding} {w w' : World} (h : Conduct hs w hs' w') :
    Dealing hs w hs' w' := by
  induction h with
  | rest hs w => exact .rest hs w
  | andThen _ _ ih₁ ih₂ => exact ih₁.andThen ih₂
  | frame before after _ ih => exact ih.frame before after
  | reorder w same => exact .reorder w same
  | notify n w => exact .notify n w
  | elsewhere w heap same => exact .elsewhere w heap same
  | make callback options w =>
    unfold Bundle.new
    dsimp only
    split
    · exact .andThen (.notify .incapable w) (.make _)
    · exact .make w
  | close b w => exact .close b.holding w
  | discard b w => exact .drop b.holding w
  | scan own good offers_good offers_own call_good call b hb engine w ih =>
    exact (Bundle.scan_dealing ⟨offers_good, offers_own, call_good, ih⟩ hb engine w).1

theorem within {hs hs' part part' : List Holding} {w w' : World} (rest : List Holding)
    (h : Conduct part w part' w') (hp : hs.Perm (part ++ rest)) (hp' : hs'.Perm (part' ++ rest)) :
    Conduct hs w hs' w' :=
  (reorder w hp).andThen ((frame [] rest h).andThen (reorder w' hp'.symm))

end Conduct

namespace Confined

variable {σ ε : Type} [ScanCallback σ] [Engine ε] {own : σ → List Holding} {good : σ → Prop}

theorem dealing (hc : Confined Conduct own good) : Confined Dealing own good where
  offers_good := hc.offers_good
  offers_own := hc.offers_own
  call_good := hc.call_good
  call s c w hs := (hc.call s c w hs).dealing

theorem scan (hc : Confined Conduct own good) (b : Bundle σ) (hb : good b.callback) (engine : ε)
    (w : World) :
    Conduct (b.holdings own) w ((b.scan engine w).bundle.holdings own) (b.scan engine w).world :=
  .scan own good hc.offers_good hc.offers_own hc.call_good hc.call b hb engine w

theorem scan_good (hc : Confined Conduct own good) (b : Bundle σ) (hb : good b.callback)
    (engine : ε) (w : World) : good (b.scan engine w).bundle.callback :=
  (Bundle.scan_dealing hc.dealing hb engine w).2

theorem probe_good (hc : Confined Conduct own good) {callback : σ} (hb : good callback) :
    good (probe callback).2 := by
  refine List.foldlRecOn (motive := fun p : Capabilities × σ => good p.2) EventKind.all _ hb ?_
  intro p hp k _
  exact hc.offers_good p.2 k hp

end Confined

end ScanBridge
