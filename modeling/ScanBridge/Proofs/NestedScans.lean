import ScanBridge.Proofs.Agreement
import ScanBridge.Proofs.TokenTable

namespace ScanBridge

open Registry (Sound)

/-- Where code can be that had control in the world `w₀` and owned the bundles `hs₀` there. The
scans `running` have been begun since then and not ended, the innermost first, and control is inside
a call of the innermost one's callback, or about to be. The code in control owns the bundles `hs`.
The bundles that are being scanned, and all others that are owned further out, are `outer`. -/
inductive Nest (hs₀ : List Holding) (w₀ : World) :
    List (Token × BundleId) → List Holding → List Holding → World → Prop
  | start : Nest hs₀ w₀ [] hs₀ [] w₀
  | conduct {running : List (Token × BundleId)} {hs hs' outer : List Holding} {w w' : World}
      (before : Nest hs₀ w₀ running hs outer w) (done : Conduct hs w hs' w') :
      Nest hs₀ w₀ running hs' outer w'
  | event {σ ε : Type} [ScanCallback σ] [Engine ε] {own : σ → List Holding} {good : σ → Prop}
      {running : List (Token × BundleId)} {hs outer : List Holding} {w : World}
      (before : Nest hs₀ w₀ running hs outer w) (confined : Confined Conduct own good)
      (b : Bundle σ) (callback_good : good b.callback) (is_open : b.isClosed = false)
      (rest : List Holding) (owned : hs.Perm (b.holdings own ++ rest)) (engine : ε)
      (x : Exchange (Bundle σ)) (hx : x ∈ b.transcript engine w) :
      Nest hs₀ w₀ ((w.registry.nextToken, b.id) :: running) (own x.state.callback)
        (x.state.holding :: rest ++ outer) x.world

theorem Heap.Accounts.owned {σ : Type} {own : σ → List Holding} {h : Heap} {b : Bundle σ}
    {hs rest : List Holding} {others : List Nat} (ha : h.Accounts (addresses hs ++ others))
    (owned : hs.Perm (b.holdings own ++ rest)) :
    h.Accounts (addresses (b.holdings own) ++ (addresses rest ++ others)) := by
  apply ha.perm
  rw [← List.append_assoc, ← addresses_append]
  exact (owned.flatMap_right _).append_right others

theorem Registry.Sound.cons {w : World} (hw : w.InOrder) (hs : w.registry.Sound) {id : BundleId}
    {r : Registry BundleId} (hlive : r.live = (w.registry.nextToken, id) :: w.registry.live) :
    r.Sound := by
  refine ⟨?_, ?_⟩
  · rw [hlive]
    refine List.nodup_cons.mpr ⟨?_, hs.distinct⟩
    intro hm
    obtain ⟨y, hy, he⟩ := List.mem_map.mp hm
    have hlt := (hw.below y hy).2
    rw [he, hw.nextToken] at hlt
    exact Nat.lt_irrefl _ hlt
  · rw [hlive]
    intro y hy
    rcases List.mem_cons.mp hy with rfl | hy
    · exact Registry.nextToken_ne_zero _
    · exact hs.nonzero y hy

namespace Nest

variable {hs₀ hs outer : List Holding} {w₀ w : World} {running : List (Token × BundleId)}

/-- The table of tokens is what it was, with one token more for each scan that runs. -/
theorem registry (h : Nest hs₀ w₀ running hs outer w) (hw : w₀.InOrder)
    (hs : w₀.registry.Sound) (hroom : w.registrations < 2 ^ 64 - 1) :
    w.InOrder ∧ w.registry.Sound ∧ w.registry.live = running ++ w₀.registry.live := by
  induction h with
  | start => exact ⟨hw, hs, rfl⟩
  | conduct before done ih =>
    obtain ⟨hw₁, hs₁, hlive₁⟩ := ih (Nat.lt_of_le_of_lt done.dealing.registrations_le hroom)
    obtain ⟨hw₂, hlive₂⟩ := done.dealing.registry hw₁ hroom
    refine ⟨hw₂, ⟨?_, ?_⟩, hlive₂.trans hlive₁⟩
    · rw [hlive₂]
      exact hs₁.distinct
    · rw [hlive₂]
      exact hs₁.nonzero
  | event before confined b callback_good is_open rest owned engine x hx ih =>
    obtain ⟨hbefore, _, _⟩ := Bundle.transcript_before confined.dealing callback_good is_open hx
    have hle := hbefore.registrations_le
    rw [World.registrations_enrolled] at hle
    obtain ⟨hw₁, hs₁, hlive₁⟩ := ih (by omega)
    obtain ⟨hw₂, hlive₂⟩ :=
      Bundle.event_live confined.dealing callback_good is_open hw₁ hx hroom
    exact ⟨hw₂, hs₁.cons hw₁ hlive₂, by rw [hlive₂, hlive₁, List.cons_append]⟩

theorem heap (h : Nest hs₀ w₀ running hs outer w) {others : List Nat}
    (ha : w₀.heap.Accounts (addresses hs₀ ++ others)) :
    w.heap.Accounts (addresses hs ++ (addresses outer ++ others)) ∧ w₀.heap.Later w.heap := by
  induction h with
  | start => exact ⟨ha, .refl _⟩
  | conduct before done ih =>
    obtain ⟨ha₁, hl₁⟩ := ih
    obtain ⟨ha₂, hl₂⟩ := done.dealing.accounts _ ha₁
    exact ⟨ha₂, hl₁.trans hl₂⟩
  | @event σ ε _ _ own good running hs outer w before confined b callback_good is_open rest owned
      engine x hx ih =>
    obtain ⟨ha₁, hl₁⟩ := ih
    obtain ⟨hbefore, _, _⟩ := Bundle.transcript_before confined.dealing callback_good is_open hx
    have hstart : (w.enrolled b.id).heap.Accounts
        (addresses (b.holdings own) ++ (addresses rest ++ (addresses outer ++ others))) :=
      ha₁.owned owned
    obtain ⟨ha₂, hl₂⟩ := hbefore.accounts _ hstart
    -- While it is scanned, the bundle is out of reach of the code in control and counts as outer.
    refine ⟨ha₂.perm ?_, hl₁.trans hl₂⟩
    simp only [Bundle.holdings, addresses, List.flatMap_cons, List.flatMap_append,
      List.perm_iff_count, List.count_append, List.cons_append]
    intro a
    omega

end Nest

/-- What holds wherever control can be. -/
structure Balanced (hs₀ : List Holding) (w₀ : World) (others : List Nat)
    (running : List (Token × BundleId)) (hs outer : List Holding) (w : World) : Prop where
  registrations : w.live.registrations = w₀.live.registrations + running.length
  live : w.registry.live = running ++ w₀.registry.live
  resolves : ∀ token id, w.registry.resolve token = some id ↔
    (token, id) ∈ running ∨ w₀.registry.resolve token = some id
  kept : w₀.heap.Kept (addresses hs₀ ++ others) w.heap (addresses hs ++ (addresses outer ++ others))

theorem Nest.balanced {hs₀ hs outer : List Holding} {w₀ w : World}
    {running : List (Token × BundleId)} {others : List Nat}
    (h : Nest hs₀ w₀ running hs outer w) (hw : w₀.InOrder) (hsound : w₀.registry.Sound)
    (ha : w₀.heap.Accounts (addresses hs₀ ++ others)) (hroom : w.registrations < 2 ^ 64 - 1) :
    Balanced hs₀ w₀ others running hs outer w := by
  obtain ⟨_, hs₁, hlive⟩ := h.registry hw hsound hroom
  obtain ⟨ha₁, hl⟩ := h.heap ha
  refine ⟨?_, hlive, ?_, hl.kept ha ha₁⟩
  · rw [World.live, World.live, Registry.size, Registry.size, hlive, List.length_append,
      Nat.add_comm]
  · intro token id
    rw [hs₁.resolve_eq_some_iff, hsound.resolve_eq_some_iff, hlive, List.mem_append]

variable {σ ε : Type} [ScanCallback σ]

/-- What a bundle, the code around it and the table of tokens get to know of all that goes on while
an event of its scan is answered. `others` are the buffers that it does not own. -/
structure Undisturbed (token : Token) (others : List Nat) (x : Exchange (Bundle σ)) : Prop where
  buffers : ∀ a ∈ x.state.tracker.held ++ others,
    x.answered.world.heap.find? a = x.world.heap.find? a
  live : x.answered.world.registrations < 2 ^ 64 - 1 →
    x.answered.world.registry.live = x.world.registry.live
  alike : x.state.Alike x.answered.state
  refused : x.world.registry.resolve x.event.token = none →
    x.answered.reply = ⟨Verdict.error.code, x.event.data.slot⟩ ∧ x.answered.state = x.state
  unsupplied : x.taken? = none → x.Unsupplied
  supplied : ∀ module payload, x.taken? = some (module, payload) → ∃ a, x.Supplied payload a
  /-- Another bundle with the same account makes the same of the event, whatever its callback is
  and does in whatever world, if only it returns the same. -/
  returned : x.event.token = token → ∀ {τ : Type} [ScanCallback τ] (b' : Bundle τ) (w' : World),
    x.state.Agrees b' → w'.registry.resolve x.event.token = some b'.id →
    b'.returned? x.event w' = x.state.returned? x.event x.world →
    (b'.answer x.event w').reply.verdict = x.answered.reply.verdict ∧
      x.answered.state.Agrees (b'.answer x.event w').state ∧
      b'.satisfied? x.event w' = x.taken? ∧
      (b'.answer x.event w').state.pending + x.state.pending =
        x.answered.state.pending + b'.pending

namespace Bundle

variable {own : σ → List Holding} {good : σ → Prop} {b : Bundle σ} {w : World} [Engine ε]

theorem answer_keeps (hc : Confined Dealing own good) {x : Exchange (Bundle σ)}
    (hanswered : x.answered = x.state.answer x.event x.world) (hfit : x.state.Fit good)
    {others : List Nat}
    (ha : x.world.heap.Accounts (addresses (x.state.holdings own) ++ others)) :
    ∀ a ∈ x.state.tracker.held ++ others,
      x.answered.world.heap.find? a = x.world.heap.find? a := by
  obtain ⟨hanswer, _⟩ := answer_dealing hc hfit x.event x.world
  rw [← hanswered] at hanswer
  obtain ⟨ha', hl⟩ := hanswer.accounts others ha
  obtain ⟨more, htracker, _⟩ := answer_tracker hanswered hfit.isOpen
  have hmem : ∀ (c : Bundle σ) (a : Nat), a ∈ c.tracker.held ++ others →
      a ∈ addresses (c.holdings own) ++ others := by
    intro c a hm
    rcases List.mem_append.mp hm with hm | hm
    · exact List.mem_append_left _ (List.mem_flatMap.mpr ⟨c.holding, List.mem_cons_self, hm⟩)
    · exact List.mem_append_right _ hm
  intro a hm
  refine (hl.kept ha ha').bytes a (hmem x.state a hm) (hmem x.answered.state a ?_)
  rw [htracker, Tracker.held, List.append_assoc]
  rcases List.mem_append.mp hm with hm | hm
  · exact List.mem_append_left _ hm
  · exact List.mem_append_right _ (List.mem_append_right _ hm)

theorem event_undisturbed (hc : Confined Conduct own good) (hb : good b.callback)
    (hopen : b.isClosed = false) {engine : ε} (hw : w.InOrder) {others : List Nat}
    (ha : w.heap.Accounts (addresses (b.holdings own) ++ others)) {x : Exchange (Bundle σ)}
    (hx : x ∈ b.transcript engine w) (hroom : x.world.registrations < 2 ^ 64 - 1) :
    Undisturbed w.registry.nextToken others x := by
  obtain ⟨hbefore, hfit, hanswered⟩ := transcript_before hc.dealing hb hopen hx
  obtain ⟨hinOrder, _⟩ := event_live hc.dealing hb hopen hw hx hroom
  have hown := event_resolve hc.dealing hb hopen hw hx hroom
  obtain ⟨haccounts, _⟩ := hbefore.accounts others ha
  obtain ⟨hanswer, _⟩ := answer_dealing hc.dealing hfit x.event x.world
  rw [← hanswered] at hanswer
  refine ⟨answer_keeps hc.dealing hanswered hfit haccounts, ?_, ?_, ?_,
    answer_untaken hanswered hfit.isOpen, ?_, ?_⟩
  · intro hroom'
    exact (hanswer.registry hinOrder hroom').2
  · rw [hanswered]
    exact answer_alike x.state x.event x.world
  · intro hnone
    have hunrouted : x.world.registry.resolve x.event.token ≠ some x.state.id := by
      rw [hnone]
      exact (Option.some_ne_none _).symm
    rw [hanswered]
    exact answer_unrouted hunrouted
  · intro module payload htaken
    exact answer_taken hc.dealing hanswered hfit haccounts htaken
  · intro htoken τ _ b' w' hagrees hrouted' hreturned
    have hrouted : x.world.registry.resolve x.event.token = some x.state.id := htoken ▸ hown
    have htaken : x.taken? = x.state.satisfied? x.event x.world := by
      simp [Exchange.taken?, Exchange.routed, hrouted]
    obtain ⟨hverdict, hstate, hpending⟩ :=
      answer_agrees hagrees hfit.isOpen (.refl _) hrouted hrouted' hreturned
    rw [hanswered, htaken]
    exact ⟨hverdict, hstate, hagrees.satisfied? (.refl _) hreturned, hpending⟩

end Bundle

/-- Nested scans are balanced and leave each other alone. Wherever control can be, as many tokens
are live as there were before and as there are scans running, and no memory of anyone outside has
changed. A scan that is begun there leaves the table of tokens and the buffers of all others as they
were, however it ends. At each of its events one more token is live, and of all that happens until
the event is answered its bundle gets to know what its callback returns. -/
theorem nested_scans_balanced {hs₀ hs outer : List Holding} {w₀ w : World}
    {running : List (Token × BundleId)} {others : List Nat} (hw : w₀.InOrder)
    (hsound : w₀.registry.Sound) (ha : w₀.heap.Accounts (addresses hs₀ ++ others))
    (nest : Nest hs₀ w₀ running hs outer w) (hroom : w.registrations < 2 ^ 64 - 1) :
    Balanced hs₀ w₀ others running hs outer w ∧
      ∀ {σ ε : Type} [ScanCallback σ] [Engine ε] {own : σ → List Holding} {good : σ → Prop},
        Confined Conduct own good → ∀ (b : Bundle σ), good b.callback → ∀ (engine : ε)
          (rest : List Holding), hs.Perm (b.holdings own ++ rest) →
        (∀ a ∈ addresses rest ++ (addresses outer ++ others),
          (b.scan engine w).world.heap.find? a = w.heap.find? a) ∧
        ((b.scan engine w).world.registrations < 2 ^ 64 - 1 →
          Balanced hs₀ w₀ others running ((b.scan engine w).bundle.holdings own ++ rest) outer
              (b.scan engine w).world ∧
            (b.scan engine w).world.live.registrations = w.live.registrations) ∧
        (b.isClosed = false → ∀ x ∈ b.transcript engine w,
          x.world.registrations < 2 ^ 64 - 1 →
          Balanced hs₀ w₀ others ((w.registry.nextToken, b.id) :: running)
              (own x.state.callback) (x.state.holding :: rest ++ outer) x.world ∧
            Undisturbed w.registry.nextToken (addresses rest ++ (addresses outer ++ others)) x) := by
  have hbalanced := nest.balanced hw hsound ha hroom
  refine ⟨hbalanced, ?_⟩
  intro σ ε _ _ own good hc b hb engine rest howned
  obtain ⟨haccounts, _⟩ := nest.heap ha
  refine ⟨?_, ?_, ?_⟩
  · intro a hm
    have hstart := haccounts.owned howned
    obtain ⟨hend, hl⟩ := (hc.scan b hb engine w).dealing.accounts _ hstart
    exact (hl.kept hstart hend).bytes a (List.mem_append_right _ hm) (List.mem_append_right _ hm)
  · intro hroom'
    have hscan : Conduct hs w ((b.scan engine w).bundle.holdings own ++ rest)
        (b.scan engine w).world := (hc.scan b hb engine w).within rest howned (.refl _)
    have hafter := (nest.conduct hscan).balanced hw hsound ha hroom'
    exact ⟨hafter, hafter.registrations.trans hbalanced.registrations.symm⟩
  · intro hopen x hx hroom'
    obtain ⟨hinOrder, _, _⟩ := nest.registry hw hsound hroom
    exact ⟨(nest.event hc b hb hopen rest howned engine x hx).balanced hw hsound ha hroom',
      Bundle.event_undisturbed hc hb hopen hinOrder (haccounts.owned howned) hx hroom'⟩

theorem nested_scans_balanced_giver :
    let outer := Bundle.new Guest.giver {} {}
    ∃ x ∈ outer.1.transcript ListedEngine.asking outer.2,
      let inner := Bundle.new Guest.giver {} x.world
      ∃ y ∈ inner.1.transcript ListedEngine.asking inner.2,
        ({} : World).InOrder ∧ ({} : World).registry.Sound ∧
          ({} : World).heap.Accounts (addresses [] ++ []) ∧
          y.world.registrations < 2 ^ 64 - 1 ∧ y.world.live.registrations = 2 ∧
          (inner.1.scan ListedEngine.asking inner.2).world.live.registrations = 1 := by
  intro outer
  let x := (outer.1.transcript ListedEngine.asking outer.2).get ⟨1, by decide⟩
  have hx : x ∈ outer.1.transcript ListedEngine.asking outer.2 := List.get_mem ..
  refine ⟨x, hx, ?_⟩
  intro inner
  let y := (inner.1.transcript ListedEngine.asking inner.2).get ⟨1, by decide⟩
  have hy : y ∈ inner.1.transcript ListedEngine.asking inner.2 := List.get_mem ..
  have hsound : ({} : World).registry.Sound := ⟨List.nodup_nil, by simp⟩
  have hnone : ({} : World).heap.Accounts (addresses [] ++ []) := Heap.accounts_new
  have hroom : inner.2.registrations < 2 ^ 64 - 1 := by decide
  have hevent : y.world.registrations < 2 ^ 64 - 1 := by decide
  have hscan : (inner.1.scan ListedEngine.asking inner.2).world.registrations < 2 ^ 64 - 1 := by
    decide
  have nest : Nest [] {} [(1, 0)] [inner.1.holding] [x.state.holding] inner.2 :=
    ((Nest.start.conduct (.make Guest.giver {} {})).event Guest.confined outer.1 Guest.giver_good
      rfl [] (.refl _) ListedEngine.asking x hx).conduct (.make Guest.giver {} x.world)
  obtain ⟨⟨hlive, _, _, _⟩, hinner⟩ :=
    nested_scans_balanced World.inOrder_new hsound hnone nest hroom
  obtain ⟨_, hafter, hduring⟩ :=
    hinner Guest.confined inner.1 Guest.giver_good ListedEngine.asking [] (.refl _)
  obtain ⟨hnested, _⟩ := hduring rfl y hy hevent
  have htwo : y.world.live.registrations = 2 := hnested.registrations
  have hone : (inner.1.scan ListedEngine.asking inner.2).world.live.registrations = 1 :=
    (hafter hscan).2.trans hlive
  exact ⟨y, hy, World.inOrder_new, hsound, hnone, hevent, htwo, hone⟩

end ScanBridge
