import ScanBridge.Proofs.Guests
import ScanBridge.Proofs.RunAccount

namespace ScanBridge

variable {σ ε : Type} [ScanCallback σ]

def Stats.imports (s : Stats) : Nat × Nat := (s.importBuffers, s.importBytes)

@[simp] theorem Stats.imports_count (s : Stats) (kind : EventKind) :
    (s.count kind).imports = s.imports := by
  cases kind <;> rfl

namespace Bundle

/-- The module and the payload that the import request of an event is satisfied with, if it is. -/
def satisfied? (b : Bundle σ) (e : Event) (w : World) : Option (String × Bytes) :=
  (b.heard? e).bind fun call =>
    ((ScanCallback.call (ScanCallback.offers b.callback call.kind).2 call w).outcome.supply?
      call).filter fun supply => b.admits supply.2

omit [ScanCallback σ] in
theorem settle_heap (b : Bundle σ) (outcome : Except BridgeError Control) (w : World) :
    (b.settle outcome w).2.heap = w.heap := by
  rcases b.settle_world outcome w with hw | ⟨n, hw⟩
  · rw [hw]
  · rw [hw]
    rfl

theorem invoke_satisfied {b : Bundle σ} (hopen : b.isClosed = false) (call : Call) (slot : Slot)
    (w : World) (h : (ScanCallback.offers b.callback call.kind).1 = true) :
    let reaction := ScanCallback.call (ScanCallback.offers b.callback call.kind).2 call w
    let invoked := b.invoke call slot w
    match (reaction.outcome.supply? call).filter fun supply => b.admits supply.2 with
    | none =>
      invoked.bundle.tracker = b.tracker ∧ invoked.slot = slot ∧
        invoked.bundle.stats.imports = b.stats.imports
    | some (_, payload) =>
      invoked.bundle.tracker = .active (b.tracker.held ++ [reaction.world.heap.next]) ∧
        invoked.slot = ⟨some (.heap reaction.world.heap.next), payload.length⟩ ∧
        invoked.world.heap = reaction.world.heap.alloc .bundle payload ∧
        invoked.bundle.stats.imports =
          (b.stats.importBuffers + 1, b.stats.importBytes + payload.length) := by
  dsimp only
  have hcount : (b.called call w).stats.imports = b.stats.imports :=
    b.stats.imports_count call.kind
  rw [invoke_heard b call slot w h]
  cases hs : (ScanCallback.call (ScanCallback.offers b.callback call.kind).2
      call w).outcome.supply? call with
  | none => exact ⟨rfl, rfl, hcount⟩
  | some supply =>
    obtain ⟨module, payload⟩ := supply
    cases ha : b.admits payload with
    | true =>
      have ha' : (b.called call w).admits payload = true := ha
      simp only [Option.filter_some, ha, if_true, inject_admitted module slot _ ha']
      obtain ⟨hbuffers, hbytes⟩ := Prod.mk.inj hcount
      exact ⟨rfl, trivial, rfl, congrArg₂ _ (congrArg (· + 1) hbuffers) (congrArg (· + _) hbytes)⟩
    | false =>
      have ha' : (b.called call w).admits payload = false := ha
      have hopen' : (b.called call w).isClosed = false := hopen
      obtain ⟨w', hi, _⟩ := inject_refused module slot
        (ScanCallback.call (ScanCallback.offers b.callback call.kind).2 call w).world hopen' ha'
      simp only [Option.filter_some, ha, hi]
      exact ⟨rfl, trivial, hcount⟩

/-- The tracker, the request, the counters of import buffers and the heap as an event for the bundle
leaves them. -/
theorem handle_satisfied {b : Bundle σ} (hopen : b.isClosed = false) (e : Event) (w : World) :
    match b.satisfied? e w with
    | none =>
      (b.handle e w).state.tracker = b.tracker ∧ (b.handle e w).reply.slot = e.data.slot ∧
        (b.handle e w).state.stats.imports = b.stats.imports
    | some (_, payload) =>
      ∃ reaction, b.reaction? e w = some reaction ∧
        (b.handle e w).state.tracker = .active (b.tracker.held ++ [reaction.world.heap.next]) ∧
        (b.handle e w).reply.slot = ⟨some (.heap reaction.world.heap.next), payload.length⟩ ∧
        (b.handle e w).world.heap = reaction.world.heap.alloc .bundle payload ∧
        (b.handle e w).state.stats.imports =
          (b.stats.importBuffers + 1, b.stats.importBytes + payload.length) := by
  cases hf : e.fate b.capabilities with
  | unknown =>
    rw [handle_unknown w hf]
    simp [satisfied?, heard?, hf, Stats.tally, Stats.imports]
  | skipped =>
    rw [handle_skipped w hf]
    simp [satisfied?, heard?, hf, Stats.tally, Stats.imports]
  | incomplete kind =>
    rw [handle_incomplete w hf]
    simp only [satisfied?, heard?, hf, Option.bind_none]
    have hsettled := settle_eq b (.error (.missingEventData kind)) w
    have htracker := congrArg Bundle.tracker hsettled
    have himports := congrArg (·.stats.imports) hsettled
    exact ⟨htracker, trivial, himports⟩
  | delivered kind =>
    obtain ⟨_, _, call, hcall, rfl⟩ := Event.fate_delivered hf
    rw [handle_delivered w hf hcall]
    dsimp only
    rw [settle_eq]
    cases ho : (ScanCallback.offers b.callback call.kind).1 with
    | false =>
      rw [invoke_unheard b call e.data.slot w ho]
      simp [satisfied?, heard?, hf, ho]
    | true =>
      have hinvoked := invoke_satisfied hopen call e.data.slot w ho
      have hheard : b.heard? e = some call := by simp [heard?, hf, ho, hcall]
      simp only [satisfied?, hheard, Option.bind_some]
      dsimp only at hinvoked
      split at hinvoked
      · exact hinvoked
      · obtain ⟨htracker, hslot, hheap, himports⟩ := hinvoked
        refine ⟨_, by rw [reaction?, hheard]; rfl, htracker, hslot, ?_, himports⟩
        exact (settle_heap _ _ _).trans hheap

end Bundle

def Exchange.taken? (x : Exchange (Bundle σ)) : Option (String × Bytes) :=
  if x.routed then x.state.satisfied? x.event x.world else none

theorem Exchange.taken?_eq_some {x : Exchange (Bundle σ)} {supply : String × Bytes}
    (h : x.taken? = some supply) :
    x.world.registry.resolve x.event.token = some x.state.id ∧
      x.state.satisfied? x.event x.world = some supply := by
  unfold Exchange.taken? at h
  split at h
  · rename_i hr
    exact ⟨by simpa [Exchange.routed] using hr, h⟩
  · cases h

/-- No request was satisfied: the event left the tracker, the request and the counters as they
were. -/
structure Exchange.Unsupplied (x : Exchange (Bundle σ)) : Prop where
  tracker : x.answered.state.tracker = x.state.tracker
  slot : x.answered.reply.slot = x.event.data.slot
  imports : x.answered.state.stats.imports = x.state.stats.imports

/-- A request was satisfied: the bundle took one buffer more, at `a`, and the request is for it. -/
structure Exchange.Supplied (x : Exchange (Bundle σ)) (payload : Bytes) (a : Nat) : Prop where
  tracker : x.answered.state.tracker = .active (x.state.tracker.held ++ [a])
  slot : x.answered.reply.slot = ⟨some (.heap a), payload.length⟩
  bytes : x.answered.world.heap.find? a = some ⟨a, .bundle, payload⟩
  imports : x.answered.state.stats.imports =
    (x.state.stats.importBuffers + 1, x.state.stats.importBytes + payload.length)

namespace Bundle

variable {b b' : Bundle σ} {w w' : World} {xs : List (Exchange (Bundle σ))}
  {own : σ → List Holding} {good : σ → Prop}

theorem answer_untaken {x : Exchange (Bundle σ)} (hx : x.answered = x.state.answer x.event x.world)
    (hopen : x.state.isClosed = false) (h : x.taken? = none) : x.Unsupplied := by
  by_cases hr : x.world.registry.resolve x.event.token = some x.state.id
  · have hsatisfied := handle_satisfied hopen x.event x.world
    have hnone : x.state.satisfied? x.event x.world = none := by
      simpa [Exchange.taken?, Exchange.routed, hr] using h
    rw [hnone, ← answer_routed hr, ← hx] at hsatisfied
    exact ⟨hsatisfied.1, hsatisfied.2.1, hsatisfied.2.2⟩
  · obtain ⟨hreply, hstate⟩ := answer_unrouted (b := x.state) hr
    rw [← hx] at hreply hstate
    exact ⟨congrArg _ hstate, congrArg _ hreply, congrArg (·.stats.imports) hstate⟩

theorem answer_taken (hc : Confined Dealing own good) {x : Exchange (Bundle σ)}
    (hx : x.answered = x.state.answer x.event x.world) (hb : x.state.Fit good)
    {others : List Nat} (ha : x.world.heap.Accounts (addresses (x.state.holdings own) ++ others))
    {module : String} {payload : Bytes} (h : x.taken? = some (module, payload)) :
    ∃ a, x.Supplied payload a := by
  obtain ⟨hr, hsome⟩ := Exchange.taken?_eq_some h
  have hsatisfied := handle_satisfied hb.isOpen x.event x.world
  rw [hsome, ← answer_routed hr, ← hx] at hsatisfied
  obtain ⟨reaction, hreaction, htracker, hslot, hheap, himports⟩ := hsatisfied
  obtain ⟨call, _, rfl⟩ := Option.map_eq_some_iff.mp hreaction
  -- The heap that the call leaves is in order, so the new buffer is found in it.
  have hdealing := hc.call _ call x.world (hc.offers_good _ call.kind hb.callback)
  rw [hc.offers_own _ _ hb.callback] at hdealing
  have hsound := ((hdealing.cons x.state.holding).accounts others ha).1.sound
  exact ⟨_, htracker, hslot, hheap ▸ hsound.find?_alloc .bundle payload, himports⟩

omit [ScanCallback σ] in
theorem tracker_of_open {b : Bundle σ} (h : b.isClosed = false) :
    b.tracker = .active b.tracker.held := by
  cases ht : b.tracker with
  | active held => rfl
  | sealed => simp [isClosed, Tracker.isSealed, ht] at h

theorem answer_tracker {x : Exchange (Bundle σ)} (hx : x.answered = x.state.answer x.event x.world)
    (hopen : x.state.isClosed = false) :
    ∃ more, x.answered.state.tracker = .active (x.state.tracker.held ++ more) ∧
      more.length = if x.taken?.isSome then 1 else 0 := by
  cases h : x.taken? with
  | none =>
    refine ⟨[], ?_, rfl⟩
    rw [(answer_untaken hx hopen h).tracker, List.append_nil]
    exact tracker_of_open hopen
  | some supply =>
    obtain ⟨hr, hsome⟩ := Exchange.taken?_eq_some h
    have hsatisfied := handle_satisfied hopen x.event x.world
    rw [hsome] at hsatisfied
    obtain ⟨reaction, _, htracker, _⟩ := hsatisfied
    rw [hx, answer_routed hr]
    exact ⟨[reaction.world.heap.next], htracker, rfl⟩

theorem chain_tracker (h : Chain answer b w xs b' w') (hopen : b.isClosed = false) :
    ∃ more, b'.tracker = .active (b.tracker.held ++ more) ∧
      more.length = xs.countP (·.taken?.isSome) := by
  induction h with
  | done b w => exact ⟨[], by rw [List.append_nil]; exact tracker_of_open hopen, rfl⟩
  | notice n rest ih => exact ih hopen
  | @event e b b' w w' xs rest ih =>
    obtain ⟨first, htracker, hlength⟩ :=
      answer_tracker (x := ⟨e, b, w, b.answer e w⟩) rfl hopen
    have hopen' : (b.answer e w).state.isClosed = false := by
      rw [isClosed, htracker]
      rfl
    obtain ⟨more, htracker', hlength'⟩ := ih hopen'
    refine ⟨first ++ more, ?_, ?_⟩
    · rw [htracker', htracker, Tracker.held, List.append_assoc]
    · rw [List.length_append, hlength, hlength', List.countP_cons, Nat.add_comm]

theorem chain_find? (hc : Confined Dealing own good) (h : Chain answer b w xs b' w')
    (hb : b.Fit good) {others : List Nat}
    (ha : w.heap.Accounts (addresses (b.holdings own) ++ others)) {a : Nat}
    (hm : a ∈ b.tracker.held) : w'.heap.find? a = w.heap.find? a := by
  have hheld : ∀ c : Bundle σ, a ∈ c.tracker.held → a ∈ addresses (c.holdings own) ++ others := by
    intro c hc
    refine List.mem_append_left _ (List.mem_flatMap.mpr ⟨c.holding, List.mem_cons_self, hc⟩)
  obtain ⟨more, htracker, _⟩ := chain_tracker h hb.isOpen
  obtain ⟨ha', hl⟩ := (chain_dealing hc h hb).1.accounts others ha
  refine hl.find? ha ha' (ha.lt_next (hheld b hm)) (hheld b' ?_)
  rw [htracker]
  exact List.mem_append_left _ hm

end Bundle

/-- What a scan does with import buffers while the heap also holds those at `others`. -/
structure ScanBuffers [Engine ε] (own : σ → List Holding) (b : Bundle σ) (engine : ε) (w : World)
    (others : List Nat) : Prop where
  pending : (b.scan engine w).bundle.pending =
    b.pending + (b.transcript engine w).countP (·.taken?.isSome)
  untaken : ∀ x ∈ b.transcript engine w, x.taken? = none →
    x.answered.state.tracker = x.state.tracker ∧ x.answered.reply.slot = x.event.data.slot
  /-- A buffer is handed out with its bytes, and has them at every later event and at the end. -/
  taken : ∀ pre x post, b.transcript engine w = pre ++ x :: post →
    ∀ module payload, x.taken? = some (module, payload) →
      ∃ a, x.answered.state.tracker = .active (x.state.tracker.held ++ [a]) ∧
        x.answered.reply.slot = ⟨some (.heap a), payload.length⟩ ∧
        x.answered.world.heap.read (.heap a) payload.length = some payload ∧
        (∀ y ∈ post, y.world.heap.read (.heap a) payload.length = some payload) ∧
        (b.scan engine w).world.heap.read (.heap a) payload.length = some payload ∧
        a ∈ (b.scan engine w).bundle.tracker.held
  kept : ∀ x ∈ b.transcript engine w,
    w.heap.Kept (addresses (b.holdings own) ++ others)
      x.world.heap (addresses (x.state.holdings own) ++ others)

namespace Bundle

variable {b : Bundle σ} {w : World} [Engine ε] {own : σ → List Holding} {good : σ → Prop}

theorem scan_buffers (hc : Confined Dealing own good) (hb : good b.callback)
    (hopen : b.isClosed = false) (engine : ε) {others : List Nat}
    (ha : w.heap.Accounts (addresses (b.holdings own) ++ others)) :
    ScanBuffers own b engine w others := by
  have hchain := b.transcript_chain engine w
  have hfit : b.cleared.Fit good := ⟨hopen, hb⟩
  -- The bundle and the heap at each event of the scan.
  have hbefore : ∀ {pre x post}, b.transcript engine w = pre ++ x :: post →
      x.answered = x.state.answer x.event x.world ∧ x.state.Fit good ∧
        x.world.heap.Accounts (addresses (x.state.holdings own) ++ others) ∧
        w.heap.Later x.world.heap := by
    intro pre x post hxs
    obtain ⟨hpre, hx, _⟩ := hchain.split hxs
    obtain ⟨hdealing, hfitx⟩ := chain_dealing hc hpre hfit
    obtain ⟨hax, hlx⟩ := hdealing.accounts others ha
    exact ⟨hx, hfitx, hax, hlx⟩
  refine ⟨?_, ?_, ?_, ?_⟩
  · obtain ⟨more, htracker, hlength⟩ := chain_tracker hchain hopen
    rw [pending, scan_tracker hopen, htracker, ← hlength]
    exact List.length_append
  · intro x hx hnone
    obtain ⟨pre, post, hxs⟩ := List.mem_iff_append.mp hx
    obtain ⟨hanswered, hfitx, _, _⟩ := hbefore hxs
    have hnothing := answer_untaken hanswered hfitx.isOpen hnone
    exact ⟨hnothing.tracker, hnothing.slot⟩
  · intro pre x post hxs module payload hsome
    obtain ⟨hanswered, hfitx, hax, _⟩ := hbefore hxs
    obtain ⟨a, htracker, hslot, hfind, _⟩ := answer_taken hc hanswered hfitx hax hsome
    obtain ⟨_, _, hpost⟩ := hchain.split hxs
    obtain ⟨hanswer, hfit'⟩ := answer_dealing hc hfitx x.event x.world
    rw [← hanswered] at hanswer hfit'
    obtain ⟨ha', _⟩ := hanswer.accounts others hax
    have hheld : a ∈ x.answered.state.tracker.held := by simp [htracker, Tracker.held]
    refine ⟨a, htracker, hslot, Heap.read_of_find? hfind, ?_, ?_, ?_⟩
    · intro y hy
      obtain ⟨pre', post', hys⟩ := List.mem_iff_append.mp hy
      obtain ⟨hpre', _, _⟩ := hpost.split hys
      exact Heap.read_of_find? ((chain_find? hc hpre' hfit' ha' hheld).trans hfind)
    · rw [scan_heap hopen]
      exact Heap.read_of_find? ((chain_find? hc hpost hfit' ha' hheld).trans hfind)
    · obtain ⟨more, hmore, _⟩ := chain_tracker hpost hfit'.isOpen
      rw [scan_tracker hopen, hmore]
      exact List.mem_append_left _ hheld
  · intro x hx
    obtain ⟨pre, post, hxs⟩ := List.mem_iff_append.mp hx
    obtain ⟨_, _, hax, hlx⟩ := hbefore hxs
    exact hlx.kept ha hax

end Bundle

structure ReleaseBuffers (b : Bundle σ) (w : World) : Prop where
  live : (b.discard w).live.buffers + b.pending = w.live.buffers
  distinct : b.tracker.held.Nodup
  present : ∀ a ∈ b.tracker.held, ∃ payload, w.heap.find? a = some ⟨a, .bundle, payload⟩
  released : ∀ a ∈ b.tracker.held, (b.discard w).heap.find? a = none

omit [ScanCallback σ] in
theorem Bundle.discard_buffers {b : Bundle σ} {w : World} {others : List Nat}
    (ha : w.heap.Accounts (b.tracker.held ++ others)) : ReleaseBuffers b w := by
  have ha' := ha
  refine ⟨?_, (List.nodup_append.mp ha.nodup).1, ?_, ?_⟩
  · have hleft : (b.discard w).heap.Accounts others := by
      rw [discard, World.release_heap]
      exact ha'.freeAll
    simp only [World.live, hleft.counted, ha.counted, List.length_append, pending,
      Tracker.pending]
    omega
  · intro a hm
    obtain ⟨⟨address, owner, bytes⟩, hb, rfl, hf⟩ := ha.find? (List.mem_append_left others hm)
    obtain ⟨_, rfl⟩ := Heap.mem_importBlocks.mp hb
    exact ⟨bytes, hf⟩
  · intro a hm
    rw [discard, World.release_heap]
    exact Heap.find?_freeAll w.heap .bundle hm

/-- Import buffers are neither lost nor released early, whatever is done with bundles in whatever
order. After any history as many are live as the bundles hold, each held once and with its bytes; a
bundle takes exactly one per request satisfied and lets go of all of them together. -/
theorem import_buffers_conserved {hs hs₁ : List Holding} {others : List Nat} {w w₁ : World}
    (ha : w.heap.Accounts (addresses hs ++ others)) (history : Conduct hs w hs₁ w₁) :
    w₁.live.buffers + (hs.map Holding.pending).sum =
        w.live.buffers + (hs₁.map Holding.pending).sum ∧
      w.heap.Kept (addresses hs ++ others) w₁.heap (addresses hs₁ ++ others) ∧
      ((∀ x ∈ hs, x.id < w.nextBundle) → (hs.map Holding.id).Nodup →
        (hs₁.map Holding.id).Nodup) ∧
      (∀ x₁ ∈ hs₁, x₁.id < w.nextBundle →
        ∃ x ∈ hs, x.id = x₁.id ∧ x.tracker.Becomes x₁.tracker) ∧
      (∀ {τ ε : Type} [ScanCallback τ] [Engine ε] {own : τ → List Holding} {good : τ → Prop}
        (b : Bundle τ) (engine : ε) (rest : List Holding), Confined Conduct own good →
        good b.callback → b.isClosed = false → hs₁.Perm (b.holdings own ++ rest) →
        ScanBuffers own b engine w₁ (addresses rest ++ others)) ∧
      (∀ {τ : Type} (b : Bundle τ) (rest : List Holding), hs₁.Perm (b.holding :: rest) →
        ReleaseBuffers b w₁ ∧ (b.close w₁).world = b.discard w₁ ∧
          (b.close w₁).released = b.pending ∧ (b.close w₁).bundle.pending = 0) ∧
      ∀ (s : Scope) (name : String) (b : Bundle Guest), getNamed? name s.bundles = some b →
        (s.close w₁ name).world = b.discard w₁ ∧
          (s.close w₁ name).answer = .closed b.pending ⟨b.capabilities, 0, true⟩ := by
  obtain ⟨ha₁, hl⟩ := history.dealing.accounts others ha
  refine ⟨history.dealing.buffers others ha, hl.kept ha ha₁,
    fun hold hd => (history.dealing.distinct hold hd).2, fun x₁ hx => history.dealing.becomes hx,
    ?_, ?_, ?_⟩
  · intro τ ε _ _ own good b engine rest hc hb hopen hp
    refine Bundle.scan_buffers hc.dealing hb hopen engine (ha₁.perm ?_)
    rw [← List.append_assoc, ← addresses_append]
    exact (hp.flatMap_right _).append_right others
  · intro τ b rest hp
    have hheld : w₁.heap.Accounts (b.tracker.held ++ (addresses rest ++ others)) := by
      apply ha₁.perm
      rw [← List.append_assoc]
      exact (hp.flatMap_right _).append_right others
    exact ⟨Bundle.discard_buffers hheld, rfl, rfl, rfl⟩
  · intro s name b hnamed
    simp only [Scope.close, Scope.withBundle, hnamed]
    exact ⟨rfl, rfl⟩

def Guest.giver : Guest :=
  .journal { directives := [{ event := .importModule, payload := some [1, 2, 3] }] }

theorem Guest.giver_good : giver.Good := by
  intro d hd plan hplan
  rw [List.mem_singleton.mp hd] at hplan
  cases hplan

def ListedEngine.asking : ListedEngine where
  events := [{ code := 4, data := .request none {} }, { code := 4, data := .request none {} }]

theorem import_buffers_conserved_giver :
    let made := Bundle.new Guest.giver {} {}
    let left := made.1.scan ListedEngine.asking made.2
    ({} : World).heap.Accounts (addresses [] ++ []) ∧
      Conduct [] {} [left.bundle.holding] left.world ∧ left.world.live.buffers = 2 ∧
      (left.bundle.discard left.world).live.buffers = 0 := by
  intro made left
  have hmade : Conduct [] {} [made.1.holding] made.2 := .make Guest.giver {} {}
  have history : Conduct [] {} [left.bundle.holding] left.world :=
    hmade.andThen (Guest.confined.scan made.1 Guest.giver_good ListedEngine.asking made.2)
  have hnone : ({} : World).heap.Accounts (addresses [] ++ []) := Heap.accounts_new
  obtain ⟨hlive, _, _, _, _, hrelease, _⟩ := import_buffers_conserved hnone history
  have hgone := (hrelease left.bundle [] (.refl _)).1.live
  have hpending : left.bundle.pending = 2 := by decide
  have hheld : left.bundle.holding.pending = 2 := hpending
  have hstart : ({} : World).live.buffers = 0 := by decide
  simp only [List.map_cons, List.map_nil, List.sum_cons, List.sum_nil] at hlive
  exact ⟨hnone, history, by omega, by omega⟩

end ScanBridge
