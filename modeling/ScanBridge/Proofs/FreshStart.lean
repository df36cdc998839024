import ScanBridge.Proofs.ScriptedScan
import ScanBridge.Proofs.SideBySide

namespace ScanBridge

variable {σ ε : Type} [ScanCallback σ]

namespace Bundle

variable {own : σ → List Holding} {good : σ → Prop}
  {alike : Pairs → σ → World → σ → World → Prop}

/-- What two scans start from, each in its world. The bundles have alike callbacks, and the same
capabilities and limits. Of the failures, accounts and buffers that earlier scans have left nothing
is said. -/
structure Rivals (good : σ → Prop) (alike : Pairs → σ → World → σ → World → Prop) (pairs : Pairs)
    (b : Bundle σ) (w : World) (b' : Bundle σ) (w' : World) : Prop where
  callback : alike pairs b.callback (b.enrol w) b'.callback (b'.enrol w')
  callback_good : good b.callback
  callback_good' : good b'.callback
  capabilities : b'.capabilities = b.capabilities
  options : b'.options = b.options
  is_open : b.isClosed = false
  is_open' : b'.isClosed = false
  in_order : w.InOrder
  in_order' : w'.InOrder
  /-- A bundle is not scanned while it is being scanned. -/
  idle : ∀ r ∈ w.registry.live, r.2 ≠ b.id
  idle' : ∀ r ∈ w'.registry.live, r.2 ≠ b'.id
  heaps : w.heap.Alike pairs w'.heap

variable [Engine ε] {b b' : Bundle σ} {w w' : World}

theorem registrations_scan_le (hc : Confined Dealing own good) (hb : good b.callback)
    (hopen : b.isClosed = false) (engine : ε) (w : World) :
    w.registrations + 1 ≤ (b.driven engine w).world.registrations := by
  have hle := registrations_drive_le hc (b := b.cleared) ⟨hopen, hb⟩
    (Engine.run engine w.registry.nextToken) (b.enrol w)
  rw [← World.registrations_enrolled w b.id]
  exact hle

omit [ScanCallback σ] in
/-- At its beginning a scan has cleared what would tell the bundles apart. -/
theorem Rivals.twins {pairs : Pairs} (h : Rivals good alike pairs b w b' w')
    (hroom : w.registrations < 2 ^ 64 - 2) (hroom' : w'.registrations < 2 ^ 64 - 2) :
    Twins good alike w.registry.nextToken w'.registry.nextToken w.registry.live w'.registry.live
      pairs b.cleared (b.enrol w) b'.cleared (b'.enrol w') where
  underway := .begin h.callback_good h.is_open h.in_order hroom h.idle
  underway' := .begin h.callback_good' h.is_open' h.in_order' hroom' h.idle'
  agrees := ⟨h.capabilities, h.options, h.is_open'.trans h.is_open.symm, rfl, rfl, rfl⟩
  callback := h.callback
  heaps := h.heaps

theorem Rivals.driven (hc : Confined Dealing own good) (hu : Unaware good alike) {pairs : Pairs}
    (h : Rivals good alike pairs b w b' w') {engine : ε}
    (halike : (Engine.run engine w.registry.nextToken).Alike w.registry.nextToken
      w'.registry.nextToken pairs (Engine.run engine w'.registry.nextToken))
    (hroom : (b.scan engine w).world.registrations < 2 ^ 64 - 1)
    (hroom' : (b'.scan engine w').world.registrations < 2 ^ 64 - 1) :
    (b'.driven engine w').ending = (b.driven engine w).ending ∧
      (b'.driven engine w').engine = (b.driven engine w).engine ∧
      (b'.transcript engine w').map Exchange.shown = (b.transcript engine w).map Exchange.shown ∧
      ∃ more, pairs ⊆ more ∧
        Twins good alike w.registry.nextToken w'.registry.nextToken w.registry.live
          w'.registry.live more (b.driven engine w).state (b.driven engine w).world
          (b'.driven engine w').state (b'.driven engine w').world := by
  have hdriven := Nat.lt_of_le_of_lt (registrations_driven_le engine w h.is_open) hroom
  have hdriven' := Nat.lt_of_le_of_lt (registrations_driven_le engine w' h.is_open') hroom'
  have hstart := registrations_scan_le hc h.callback_good h.is_open engine w
  have hstart' := registrations_scan_le hc h.callback_good' h.is_open' engine w'
  exact (h.twins (by omega) (by omega)).drive hc hu halike hdriven hdriven'

theorem pending_scan (hopen : b.isClosed = false) (engine : ε) (w : World) :
    (b.scan engine w).bundle.pending =
      b.pending + ((b.transcript engine w).map Exchange.shown).countP (·.supply.isSome) := by
  obtain ⟨more, htracker, hlength⟩ := chain_tracker (b.transcript_chain engine w) hopen
  have hcount : ((b.transcript engine w).map Exchange.shown).countP (·.supply.isSome) =
      more.length := by
    rw [List.countP_map, hlength]
    rfl
  rw [pending, scan_tracker hopen, htracker, hcount]
  exact List.length_append

theorem scan_onward (hopen : b.isClosed = false) (engine : ε) (w : World) :
    (b.driven engine w).world.Onward (b.scan engine w).world := by
  have hwithdrawn : (b.driven engine w).world.Onward
      (withdraw w.registry.nextToken (b.driven engine w).world) :=
    ⟨List.filter_sublist.subset, Nat.le_refl _⟩
  rcases (scan_left engine w hopen).2 with hw | ⟨n, hw⟩
  · rw [hw]
    exact hwithdrawn
  · rw [hw]
    exact ⟨hwithdrawn.live, hwithdrawn.nextBundle⟩

/-- No state carries over between scans. Two bundles with alike callbacks and the same capabilities
and limits are scanned with the same engine, which does the same whatever its token is and whatever
else memory holds. Then everything about the scans is the same, whatever the bundles have been
through. -/
theorem scan_starts_fresh (hc : Confined Conduct own good) (hu : Unaware good alike)
    {pairs : Pairs} (h : Rivals good alike pairs b w b' w') {engine : ε}
    (halike : (Engine.run engine w.registry.nextToken).Alike w.registry.nextToken
      w'.registry.nextToken pairs (Engine.run engine w'.registry.nextToken))
    (hroom : (b.scan engine w).world.registrations < 2 ^ 64 - 1)
    (hroom' : (b'.scan engine w').world.registrations < 2 ^ 64 - 1) :
    (b'.scan engine w').result = (b.scan engine w).result ∧
      (b'.scan engine w').engine = (b.scan engine w).engine ∧
      (b'.transcript engine w').map Exchange.shown =
        (b.transcript engine w).map Exchange.shown ∧
      (b'.scan engine w').bundle.pending + b.pending =
        (b.scan engine w).bundle.pending + b'.pending ∧
      ∃ more, pairs ⊆ more ∧
        alike more (b.scan engine w).bundle.callback (b.scan engine w).world
          (b'.scan engine w').bundle.callback (b'.scan engine w').world ∧
        (b.scan engine w).world.heap.Alike more (b'.scan engine w').world.heap := by
  obtain ⟨hending, hengine, hshown, more, hle, hend⟩ :=
    h.driven hc.dealing hu halike hroom hroom'
  refine ⟨?_, ?_, hshown, ?_, more, hle, ?_, ?_⟩
  · rw [scan_concluded h.is_open, scan_concluded h.is_open', hending, hend.agrees.error,
      hend.agrees.aborted, hend.agrees.stats]
  · rw [scan_engine engine w h.is_open, scan_engine engine w' h.is_open', hengine]
  · rw [pending_scan h.is_open, pending_scan h.is_open', hshown]
    omega
  · obtain ⟨⟨error, hbundle⟩, _⟩ := scan_left engine w h.is_open
    obtain ⟨⟨error', hbundle'⟩, _⟩ := scan_left engine w' h.is_open'
    rw [hbundle, hbundle']
    exact hu.onward hend.callback (List.Subset.refl _) (scan_onward h.is_open engine w)
      (scan_onward h.is_open' engine w')
  · rw [scan_heap h.is_open, scan_heap h.is_open']
    exact hend.heaps

end Bundle

structure Supplier where
  payload : Bytes
  calls : Nat := 0
  deriving DecidableEq

instance : ScanCallback Supplier where
  offers s k := (k = .importModule, s)
  call s _ w := ⟨.answer .continue s.payload, { s with calls := s.calls + 1 }, w⟩

namespace Supplier

theorem confined : Confined Conduct (fun _ : Supplier => []) fun _ => True where
  offers_good _ _ _ := trivial
  offers_own _ _ _ := rfl
  call_good _ _ _ _ := trivial
  call _ _ w _ := .rest [] w

theorem unaware : Unaware (fun _ : Supplier => True) fun _ s _ s' _ => s' = s where
  onward h _ _ _ := h
  offers _ h := by
    subst h
    exact ⟨rfl, rfl⟩
  call _ _ _ _ _ h hheaps _ _ := by
    subst h
    exact ⟨rfl, _, List.Subset.refl _, rfl, hheaps⟩

end Supplier

def Bundle.unscanned : Bundle Supplier where
  id := 0
  callback := { payload := [1, 2] }
  capabilities := .ofList [.importModule]

/-- Makes a bundle for every call, scans with it and keeps it, and answers with a byte for every
buffer that it keeps. -/
structure Hoarder where
  kept : List (Bundle Supplier) := []

namespace Hoarder

def scan (w : World) : Bundle.Scanned Supplier ScriptedEngine :=
  let made := Bundle.new { payload := [1, 2] } {} w
  made.1.scan ScriptedEngine.probing made.2

instance : ScanCallback Hoarder where
  offers s k := (k = .importModule, s)
  call s _ w :=
    let kept := (scan w).bundle :: s.kept
    ⟨.answer .continue (List.replicate (kept.map Bundle.pending).sum 7), ⟨kept⟩, (scan w).world⟩

def own (s : Hoarder) : List Holding := s.kept.map Bundle.holding

theorem scan_conduct (w : World) :
    Conduct [] w [(scan w).bundle.holding] (scan w).world :=
  (Conduct.make _ {} w).andThen (Supplier.confined.scan _ trivial ScriptedEngine.probing _)

theorem confined : Confined Conduct own fun _ => True where
  offers_good _ _ _ := trivial
  offers_own _ _ _ := rfl
  call_good _ _ _ _ := trivial
  call s _ w _ := (scan_conduct w).frame [] s.own

/-- The ids of bundles that are being scanned have been given out, so a new bundle is none of
them. -/
def Known (w : World) : Prop := ∀ r ∈ w.registry.live, r.2 < w.nextBundle

instance (w : World) : Decidable (Known w) :=
  inferInstanceAs (Decidable (∀ r ∈ w.registry.live, r.2 < w.nextBundle))

theorem Known.onward {w w' : World} (h : Known w) (hon : w.Onward w') : Known w' :=
  fun r hr => Nat.lt_of_lt_of_le (h r (hon.live hr)) hon.nextBundle

/-- The kept bundles hold as many buffers, under whatever ids and addresses. -/
structure Alike (s : Hoarder) (w : World) (s' : Hoarder) (w' : World) : Prop where
  known : Known w
  known' : Known w'
  pending : s'.kept.map Bundle.pending = s.kept.map Bundle.pending

theorem scan_known {w : World} (h : Known w) (hw : w.InOrder)
    (hroom : (scan w).world.registrations < 2 ^ 64 - 1) : Known (scan w).world := by
  have hdealing := (scan_conduct w).dealing
  have hlive := (hdealing.registry hw hroom).2
  exact h.onward ⟨hlive ▸ List.Subset.refl _, hdealing.nextBundle_le⟩

theorem rivals {pairs : Pairs} {w w' : World} (h : Known w) (h' : Known w') (hw : w.InOrder)
    (hw' : w'.InOrder) (hheaps : w.heap.Alike pairs w'.heap) :
    let made := Bundle.new ({ payload := [1, 2] } : Supplier) {} w
    let made' := Bundle.new ({ payload := [1, 2] } : Supplier) {} w'
    Bundle.Rivals (fun _ => True) (fun _ s _ s' _ => s' = s) pairs made.1 made.2 made'.1
      made'.2 where
  callback := rfl
  callback_good := trivial
  callback_good' := trivial
  capabilities := rfl
  options := rfl
  is_open := rfl
  is_open' := rfl
  in_order := hw.of_subset rfl (List.Subset.refl _) (Nat.le_refl _)
  in_order' := hw'.of_subset rfl (List.Subset.refl _) (Nat.le_refl _)
  idle r hr := Nat.ne_of_lt (h r hr)
  idle' r hr := Nat.ne_of_lt (h' r hr)
  heaps := hheaps

theorem scan_alike {pairs : Pairs} {w w' : World} (h : Known w) (h' : Known w') (hw : w.InOrder)
    (hw' : w'.InOrder) (hheaps : w.heap.Alike pairs w'.heap)
    (hroom : (scan w).world.registrations < 2 ^ 64 - 1)
    (hroom' : (scan w').world.registrations < 2 ^ 64 - 1) :
    (scan w').bundle.pending = (scan w).bundle.pending ∧
      ∃ more, pairs ⊆ more ∧ (scan w).world.heap.Alike more (scan w').world.heap := by
  have hrivals := rivals h h' hw hw' hheaps
  obtain ⟨_, _, hshown, more, hle, hend⟩ :=
    hrivals.driven Supplier.confined.dealing Supplier.unaware
      (ScriptedEngine.probing.run_alike _ _ pairs) hroom hroom'
  refine ⟨?_, more, hle, ?_⟩
  · unfold scan
    rw [Bundle.pending_scan hrivals.is_open, Bundle.pending_scan hrivals.is_open', hshown]
    rfl
  · unfold scan
    rw [Bundle.scan_heap hrivals.is_open, Bundle.scan_heap hrivals.is_open']
    exact hend.heaps

theorem unaware : Unaware (fun _ : Hoarder => True) fun _ => Alike where
  onward h _ hon hon' := ⟨h.known.onward hon, h.known'.onward hon', h.pending⟩
  offers _ h := ⟨rfl, h⟩
  call {pairs s s' w w'} call _ _ hw hw' h hheaps hroom hroom' := by
    -- The new bundles differ in their ids and in the addresses of their buffers, and the callback
    -- answers without regard to these.
    obtain ⟨hpending, more, hle, hleft⟩ :=
      scan_alike h.known h.known' hw hw' hheaps hroom hroom'
    have hkept : ((scan w').bundle :: s'.kept).map Bundle.pending =
        ((scan w).bundle :: s.kept).map Bundle.pending := by
      rw [List.map_cons, List.map_cons, hpending, h.pending]
    refine ⟨?_, more, hle, ?_, hleft⟩
    · exact congrArg (fun ns : List Nat => Outcome.answer .continue (List.replicate ns.sum 7))
        hkept
    · exact ⟨scan_known h.known hw hroom, scan_known h.known' hw' hroom', hkept⟩

def young : Bundle Hoarder where
  id := 0
  callback := { kept := [{ Bundle.unscanned with id := 1, tracker := .active [0] }] }
  capabilities := .ofList [.importModule]

def youngWorld : World where
  heap := Heap.alloc {} .bundle [3]
  nextBundle := 2

/-- A bundle whose last scan was aborted and failed besides. It still holds two buffers, and what
its callback keeps has another id and another address. -/
def worn : Bundle Hoarder where
  id := 7
  callback := { kept := [{ Bundle.unscanned with id := 5, tracker := .active [2] }] }
  capabilities := .ofList [.importModule]
  tracker := .active [0, 1]
  stats := { importsRequested := 2, skipped := 3, importBuffers := 2, importBytes := 6 }
  aborted := true
  error := some (.panicked .importModule)

def wornWorld : World where
  heap := ((Heap.alloc {} .bundle [5, 5, 5]).alloc .bundle [6, 6, 6]).alloc .bundle [3]
  registry := { counter := 3 }
  nextBundle := 8
  notices := #[.registered, .released, .registered, .released]

theorem rivals_worn :
    Bundle.Rivals (fun _ => True) (fun _ => Alike) [(0, 2)] young youngWorld worn wornWorld where
  callback := ⟨by decide, by decide, rfl⟩
  callback_good := trivial
  callback_good' := trivial
  capabilities := rfl
  options := rfl
  is_open := rfl
  is_open' := rfl
  in_order := ⟨by decide, by decide, nofun⟩
  in_order' := ⟨by decide, by decide, nofun⟩
  idle := nofun
  idle' := nofun
  heaps :=
    { sound := Heap.accounts_new.sound.alloc .bundle [3]
      sound' := ((Heap.accounts_new.sound.alloc .bundle [5, 5, 5]).alloc .bundle [6, 6, 6]).alloc
        .bundle [3]
      below := by decide
      bytes := by decide }

end Hoarder

theorem Bundle.scan_starts_fresh_hoarder :
    let first := Hoarder.young.scan ScriptedEngine.probing Hoarder.youngWorld
    let later := Hoarder.worn.scan ScriptedEngine.probing Hoarder.wornWorld
    first.world.registrations < 2 ^ 64 - 1 ∧ later.world.registrations < 2 ^ 64 - 1 ∧
      later.result = first.result ∧
      later.bundle.callback.kept.map Bundle.pending = [1, 1] ∧
      first.bundle.callback.kept.map Bundle.id = [2, 1] ∧
      later.bundle.callback.kept.map Bundle.id = [8, 5] ∧
      first.bundle.pending = 1 ∧ later.bundle.pending = 3 := by
  intro first later
  have hroom : first.world.registrations < 2 ^ 64 - 1 := by decide
  have hroom' : later.world.registrations < 2 ^ 64 - 1 := by decide
  have hkept : first.bundle.callback.kept.map Bundle.pending = [1, 1] := by decide
  have hpending : first.bundle.pending = 1 := by decide
  have halike := ScriptedEngine.probing.run_alike Hoarder.youngWorld.registry.nextToken
    Hoarder.wornWorld.registry.nextToken [(0, 2)]
  obtain ⟨hresult, _, _, hgrown, _, _, hcallback, _⟩ :=
    scan_starts_fresh Hoarder.confined Hoarder.unaware Hoarder.rivals_worn halike hroom hroom'
  have hgrown : later.bundle.pending + 0 = first.bundle.pending + 2 := hgrown
  exact ⟨hroom, hroom', hresult, hcallback.pending.trans hkept, by decide, by decide, hpending,
    by omega⟩

end ScanBridge
