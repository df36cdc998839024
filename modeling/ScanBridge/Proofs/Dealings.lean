import ScanBridge.Proofs.HeapAccounts
import ScanBridge.Proofs.Transcript

namespace ScanBridge

variable {σ ε : Type}

/-- What the heap and the table of tokens know of a bundle. -/
structure Holding where
  id : BundleId
  tracker : Tracker
  deriving DecidableEq, Repr

def Holding.pending (x : Holding) : Nat := x.tracker.pending

def addresses (hs : List Holding) : List Nat := hs.flatMap (·.tracker.held)

def Bundle.holding (b : Bundle σ) : Holding := ⟨b.id, b.tracker⟩

/-- A bundle with the bundles that its callback owns. -/
def Bundle.holdings (own : σ → List Holding) (b : Bundle σ) : List Holding :=
  b.holding :: own b.callback

def World.enrolled (w : World) (id : BundleId) : World :=
  { w with registry := w.registry.register id }.notify .registered

/-- The owner of the bundles `hs` in one world comes to own `hs'` in another. Whatever the owner's
code does, on the heap and in the table of tokens it comes down to these steps: a bundle appears,
takes a buffer, is sealed or goes, and a token is live while a scan lasts. -/
inductive Dealing : List Holding → World → List Holding → World → Prop
  | rest (hs : List Holding) (w : World) : Dealing hs w hs w
  | andThen {hs hs₁ hs₂ : List Holding} {w w₁ w₂ : World} (first : Dealing hs w hs₁ w₁)
      (second : Dealing hs₁ w₁ hs₂ w₂) : Dealing hs w hs₂ w₂
  | frame (before after : List Holding) {hs hs' : List Holding} {w w' : World}
      (inner : Dealing hs w hs' w') : Dealing (before ++ hs ++ after) w (before ++ hs' ++ after) w'
  | reorder {hs hs' : List Holding} (w : World) (same : hs.Perm hs') : Dealing hs w hs' w
  | notify (n : Notice) (w : World) : Dealing [] w [] (w.notify n)
  | elsewhere (w : World) (heap : Heap) (same : w.heap.SameImports heap) :
      Dealing [] w [] { w with heap }
  | make (w : World) :
      Dealing [] w [⟨w.nextBundle, .active []⟩] { w with nextBundle := w.nextBundle + 1 }
  | keep (id : BundleId) (held : List Nat) (payload : Bytes) (w : World) :
      Dealing [⟨id, .active held⟩] w [⟨id, .active (held ++ [w.heap.next])⟩]
        { w with heap := w.heap.alloc .bundle payload }
  | close (x : Holding) (w : World) : Dealing [x] w [⟨x.id, .sealed⟩] (w.release x.tracker)
  | drop (x : Holding) (w : World) : Dealing [x] w [] (w.release x.tracker)
  | scan (id : BundleId) {hs hs' : List Holding} {w w' : World}
      (inner : Dealing hs (w.enrolled id) hs' w') :
      Dealing hs w hs' (Bundle.withdraw w.registry.nextToken w')

namespace Dealing

variable {hs hs' : List Holding} {w w' : World}

theorem cons (x : Holding) (h : Dealing hs w hs' w') : Dealing (x :: hs) w (x :: hs') w' := by
  simpa using frame [x] [] h

theorem append (after : List Holding) (h : Dealing hs w hs' w') :
    Dealing (hs ++ after) w (hs' ++ after) w' := by
  simpa using frame [] after h

theorem told (hs : List Holding) (n : Notice) (w : World) : Dealing hs w hs (w.notify n) := by
  simpa using (notify n w).append hs

theorem thenTold (h : Dealing hs w hs' w') (n : Notice) : Dealing hs w hs' (w'.notify n) :=
  h.andThen (told hs' n w')

end Dealing

/-- A callback whose calls deal with the world as the owner of the bundles `own` may, where `R` says
what such an owner may do. `good` is what all states of the callback have in common. -/
structure Confined [ScanCallback σ]
    (R : List Holding → World → List Holding → World → Prop) (own : σ → List Holding)
    (good : σ → Prop) : Prop where
  offers_good : ∀ s k, good s → good (ScanCallback.offers s k).2
  offers_own : ∀ s k, good s → own (ScanCallback.offers s k).2 = own s
  call_good : ∀ s c w, good s → good (ScanCallback.call s c w).state
  call : ∀ s c w, good s →
    R (own s) w (own (ScanCallback.call s c w).state) (ScanCallback.call s c w).world

structure Bundle.Fit (good : σ → Prop) (b : Bundle σ) : Prop where
  isOpen : b.isClosed = false
  callback : good b.callback

namespace Bundle

variable {own : σ → List Holding} {good : σ → Prop} {b : Bundle σ}

theorem inject_dealing (own : σ → List Holding) (hb : b.Fit good) (module : String)
    (payload : Bytes) (slot : Slot) (w : World) :
    Dealing (b.holdings own) w ((b.inject module payload slot w).bundle.holdings own)
        (b.inject module payload slot w).world ∧
      (b.inject module payload slot w).bundle.Fit good := by
  cases ha : b.admits payload with
  | true =>
    rw [inject_admitted module slot w ha]
    refine ⟨?_, rfl, hb.callback⟩
    cases ht : b.tracker with
    | sealed => simpa [isClosed, Tracker.isSealed, ht] using hb.isOpen
    | active held =>
      simp only [holdings, holding, ht]
      exact ((Dealing.keep b.id held payload w).append _).thenTold _
  | false =>
    obtain ⟨w', hi, hw⟩ := inject_refused module slot w hb.isOpen ha
    rw [hi]
    refine ⟨?_, hb⟩
    rcases hw with rfl | ⟨n, rfl⟩
    · exact .rest _ _
    · exact .told _ n w

theorem settle_dealing (own : σ → List Holding) (hb : b.Fit good)
    (outcome : Except BridgeError Control) (w : World) :
    Dealing (b.holdings own) w ((b.settle outcome w).1.holdings own) (b.settle outcome w).2 ∧
      (b.settle outcome w).1.Fit good := by
  rw [settle_eq]
  refine ⟨?_, hb.isOpen, hb.callback⟩
  rcases b.settle_world outcome w with hw | ⟨n, hw⟩
  · rw [hw]
    exact .rest _ _
  · rw [hw]
    exact .told _ n w

variable [ScanCallback σ]

theorem invoke_dealing (hc : Confined Dealing own good) (hb : b.Fit good) (call : Call)
    (slot : Slot) (w : World) :
    Dealing (b.holdings own) w ((b.invoke call slot w).bundle.holdings own)
        (b.invoke call slot w).world ∧
      (b.invoke call slot w).bundle.Fit good := by
  have hasked := hc.offers_good b.callback call.kind hb.callback
  have hown := hc.offers_own b.callback call.kind hb.callback
  cases ho : (ScanCallback.offers b.callback call.kind).1 with
  | false =>
    rw [invoke_unheard b call slot w ho]
    refine ⟨?_, hb.isOpen, hasked⟩
    simp only [holdings, hown]
    exact .rest _ _
  | true =>
    have hfit : (b.called call w).Fit good := ⟨hb.isOpen, hc.call_good _ call w hasked⟩
    have hcalled := hc.call _ call w hasked
    rw [hown] at hcalled
    have hfirst := hcalled.cons b.holding
    rw [invoke_heard b call slot w ho]
    dsimp only
    split
    · obtain ⟨hinject, hinjected⟩ := inject_dealing own hfit _ _ slot _
      exact ⟨hfirst.andThen hinject, hinjected⟩
    · exact ⟨hfirst, hfit⟩

theorem handle_dealing (hc : Confined Dealing own good) (hb : b.Fit good) (e : Event) (w : World) :
    Dealing (b.holdings own) w ((b.handle e w).state.holdings own) (b.handle e w).world ∧
      (b.handle e w).state.Fit good := by
  cases hf : e.fate b.capabilities with
  | unknown =>
    rw [handle_unknown w hf]
    exact ⟨.told _ _ w, hb.isOpen, hb.callback⟩
  | skipped =>
    rw [handle_skipped w hf]
    exact ⟨.rest _ w, hb.isOpen, hb.callback⟩
  | incomplete kind =>
    obtain ⟨hsettled, hfit⟩ := settle_dealing own hb (.error (.missingEventData kind)) w
    rw [handle_incomplete w hf]
    exact ⟨hsettled.thenTold _, hfit⟩
  | delivered kind =>
    obtain ⟨_, _, call, hcall, _⟩ := Event.fate_delivered hf
    obtain ⟨hinvoked, hfit⟩ := invoke_dealing hc hb call e.data.slot w
    obtain ⟨hsettled, hfit⟩ := settle_dealing own hfit
      (b.invoke call e.data.slot w).outcome (b.invoke call e.data.slot w).world
    rw [handle_delivered w hf hcall]
    exact ⟨(hinvoked.andThen hsettled).thenTold _, hfit⟩

theorem answer_dealing (hc : Confined Dealing own good) (hb : b.Fit good) (e : Event) (w : World) :
    Dealing (b.holdings own) w ((b.answer e w).state.holdings own) (b.answer e w).world ∧
      (b.answer e w).state.Fit good := by
  unfold answer
  split
  · exact ⟨.told _ _ w, hb⟩
  · split
    · exact handle_dealing hc hb e w
    · exact ⟨.rest _ w, hb⟩

theorem chain_dealing (hc : Confined Dealing own good) {b' : Bundle σ} {w w' : World}
    {xs : List (Exchange (Bundle σ))} (h : Chain answer b w xs b' w') (hb : b.Fit good) :
    Dealing (b.holdings own) w (b'.holdings own) w' ∧ b'.Fit good := by
  induction h with
  | done b w => exact ⟨.rest _ w, hb⟩
  | notice n rest ih =>
    obtain ⟨hrest, hfit⟩ := ih hb
    exact ⟨(Dealing.told _ n _).andThen hrest, hfit⟩
  | event e rest ih =>
    obtain ⟨hanswered, hfit⟩ := answer_dealing hc hb e _
    obtain ⟨hrest, hfit⟩ := ih hfit
    exact ⟨hanswered.andThen hrest, hfit⟩

/-- A scan is a dealing of its bundle as soon as the calls of its callback are dealings, however it
ends. -/
theorem scan_dealing [Engine ε] (hc : Confined Dealing own good) (hb : good b.callback)
    (engine : ε) (w : World) :
    Dealing (b.holdings own) w ((b.scan engine w).bundle.holdings own)
        (b.scan engine w).world ∧
      good (b.scan engine w).bundle.callback := by
  cases hopen : b.isClosed with
  | true =>
    rw [scan_closed engine w hopen]
    exact ⟨.rest _ w, hb⟩
  | false =>
    obtain ⟨hrun, hfit⟩ := chain_dealing hc (b.transcript_chain engine w) ⟨hopen, hb⟩
    obtain ⟨⟨error, hbundle⟩, hworld⟩ := scan_left engine w hopen
    have hscan : Dealing (b.holdings own) w ((b.driven engine w).state.holdings own)
        (withdraw w.registry.nextToken (b.driven engine w).world) := .scan b.id hrun
    rw [hbundle]
    refine ⟨?_, hfit.callback⟩
    rcases hworld with hw | ⟨n, hw⟩
    · rw [hw]
      exact hscan
    · rw [hw]
      exact hscan.thenTold n

end Bundle

end ScanBridge
