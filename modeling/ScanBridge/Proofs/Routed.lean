import ScanBridge.Proofs.Conduct

namespace ScanBridge

variable {σ ε : Type}

def Exchange.routed (x : Exchange (Bundle σ)) : Bool :=
  x.world.registry.resolve x.event.token = some x.state.id

namespace Bundle

/-- What no event changes of a bundle. -/
structure Alike (b b' : Bundle σ) : Prop where
  id : b'.id = b.id
  capabilities : b'.capabilities = b.capabilities
  options : b'.options = b.options

theorem Alike.trans {b₁ b₂ b₃ : Bundle σ} (h : b₁.Alike b₂) (h' : b₂.Alike b₃) : b₁.Alike b₃ :=
  ⟨h'.id.trans h.id, h'.capabilities.trans h.capabilities, h'.options.trans h.options⟩

variable [ScanCallback σ] {b b' : Bundle σ} {e : Event} {w w' : World}

theorem answer_routed (h : w.registry.resolve e.token = some b.id) :
    b.answer e w = b.handle e w := by
  simp [answer, h]

/-- An event that is not for the bundle is refused, and the bundle does not see it. -/
theorem answer_unrouted (h : w.registry.resolve e.token ≠ some b.id) :
    (b.answer e w).reply = ⟨Verdict.error.code, e.data.slot⟩ ∧ (b.answer e w).state = b := by
  unfold answer
  split
  · exact ⟨rfl, rfl⟩
  · rename_i id hid
    have hne : id ≠ b.id := fun he => h (he ▸ hid)
    rw [if_neg hne]
    exact ⟨rfl, rfl⟩

theorem answer_alike (b : Bundle σ) (e : Event) (w : World) : b.Alike (b.answer e w).state := by
  by_cases h : w.registry.resolve e.token = some b.id
  · have hs := (handle_account b e w).2
    rw [answer_routed h]
    have hid := congrArg Bundle.id hs
    have hcapabilities := congrArg Bundle.capabilities hs
    have hoptions := congrArg Bundle.options hs
    exact ⟨hid, hcapabilities, hoptions⟩
  · rw [(answer_unrouted h).2]
    exact ⟨rfl, rfl, rfl⟩

theorem chain_alike {xs : List (Exchange (Bundle σ))} (h : Chain answer b w xs b' w') :
    (∀ x ∈ xs, b.Alike x.state) ∧ b.Alike b' :=
  h.invariant (P := fun c _ => b.Alike c) (fun _ _ _ hc => hc)
    (fun e c w hc => hc.trans (answer_alike c e w)) ⟨rfl, rfl, rfl⟩

variable [Engine ε] {own : σ → List Holding} {good : σ → Prop}

theorem registrations_driven_le (engine : ε) (w : World) (h : b.isClosed = false) :
    (b.driven engine w).world.registrations ≤ (b.scan engine w).world.registrations := by
  have hleft := World.registrations_withdraw (b.driven engine w).world w.registry.nextToken
  rcases (scan_left engine w h).2 with hw | ⟨n, hw⟩
  · rw [hw]
    exact Nat.le_of_eq hleft.symm
  · rw [hw]
    exact Nat.le_trans (Nat.le_of_eq hleft.symm) (World.registrations_le_notify _ n)

theorem transcript_before (hc : Confined Dealing own good) (hb : good b.callback)
    (hopen : b.isClosed = false) {engine : ε} {w : World} {x : Exchange (Bundle σ)}
    (hx : x ∈ b.transcript engine w) :
    Dealing (b.holdings own) (w.enrolled b.id) (x.state.holdings own) x.world ∧
      x.state.Fit good ∧ x.answered = x.state.answer x.event x.world := by
  obtain ⟨pre, post, hxs⟩ := List.mem_iff_append.mp hx
  obtain ⟨hpre, ha, _⟩ := (b.transcript_chain engine w).split hxs
  obtain ⟨hbefore, hfit⟩ := chain_dealing hc hpre ⟨hopen, hb⟩
  exact ⟨hbefore, hfit, ha⟩

theorem registrations_event_le (hc : Confined Dealing own good) (hb : good b.callback)
    (hopen : b.isClosed = false) {engine : ε} {w : World} {x : Exchange (Bundle σ)}
    (hx : x ∈ b.transcript engine w) :
    x.world.registrations ≤ (b.scan engine w).world.registrations := by
  obtain ⟨pre, post, hxs⟩ := List.mem_iff_append.mp hx
  obtain ⟨hpre, ha, hpost⟩ := (b.transcript_chain engine w).split hxs
  obtain ⟨_, hfit⟩ := chain_dealing hc hpre ⟨hopen, hb⟩
  obtain ⟨hanswer, hfit⟩ := answer_dealing hc hfit x.event x.world
  rw [← ha] at hanswer hfit
  obtain ⟨hafter, _⟩ := chain_dealing hc hpost hfit
  exact Nat.le_trans hanswer.registrations_le
    (Nat.le_trans hafter.registrations_le (registrations_driven_le engine w hopen))

/-- At an event of a scan, the live tokens are those from before it and the token of the scan, which
stands for the bundle. -/
theorem event_live (hc : Confined Dealing own good) (hb : good b.callback)
    (hopen : b.isClosed = false) {engine : ε} (hw : w.InOrder) {x : Exchange (Bundle σ)}
    (hx : x ∈ b.transcript engine w) (hroom : x.world.registrations < 2 ^ 64 - 1) :
    x.world.InOrder ∧
      x.world.registry.live = (w.registry.nextToken, b.id) :: w.registry.live := by
  obtain ⟨hbefore, _, _⟩ := transcript_before hc hb hopen hx
  have hfirst : w.registrations + 1 ≤ x.world.registrations := by
    rw [← World.registrations_enrolled w b.id]
    exact hbefore.registrations_le
  obtain ⟨henrolled, hlive⟩ := hw.enrolled b.id (by omega)
  obtain ⟨hin, hl⟩ := hbefore.registry henrolled hroom
  exact ⟨hin, hl.trans hlive⟩

theorem event_resolve (hc : Confined Dealing own good) (hb : good b.callback)
    (hopen : b.isClosed = false) {engine : ε} (hw : w.InOrder) {x : Exchange (Bundle σ)}
    (hx : x ∈ b.transcript engine w) (hroom : x.world.registrations < 2 ^ 64 - 1) :
    x.world.registry.resolve w.registry.nextToken = some x.state.id := by
  obtain ⟨_, hlive⟩ := event_live hc hb hopen hw hx hroom
  have hid : x.state.id = b.id := ((chain_alike (b.transcript_chain engine w)).1 x hx).id
  have hne : w.registry.nextToken ≠ 0 := by
    rw [hw.nextToken]
    exact hw.counter_ne_zero
  simp [Registry.resolve, hne, hlive, hid]

/-- The token of a scan stands for its bundle at every event, however many scans its callback runs
meanwhile. -/
theorem transcript_resolve (hc : Confined Dealing own good) (hb : good b.callback)
    (hopen : b.isClosed = false) (engine : ε) (hw : w.InOrder)
    (hroom : (b.scan engine w).world.registrations < 2 ^ 64 - 1) :
    ∀ x ∈ b.transcript engine w,
      x.world.registry.resolve w.registry.nextToken = some x.state.id := by
  intro x hx
  have hle := registrations_event_le hc hb hopen hx
  exact event_resolve hc hb hopen hw hx (Nat.lt_of_le_of_lt hle hroom)

end Bundle

end ScanBridge
