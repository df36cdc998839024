import ScanBridge.Proofs.Fate

namespace ScanBridge.Bundle

variable {σ ε : Type} [ScanCallback σ] [Engine ε]

def driven (b : Bundle σ) (engine : ε) (w : World) : Driven ε (Bundle σ) :=
  (Engine.run engine w.registry.nextToken).drive answer b.cleared (b.enrol w)

/-- What passes between the engine and the bundle during a scan. -/
def transcript (b : Bundle σ) (engine : ε) (w : World) : List (Exchange (Bundle σ)) :=
  (Engine.run engine w.registry.nextToken).exchanges answer b.cleared (b.enrol w)

theorem transcript_chain (b : Bundle σ) (engine : ε) (w : World) :
    Chain answer b.cleared (b.enrol w) (b.transcript engine w) (b.driven engine w).state
      (b.driven engine w).world :=
  Run.chain ..

theorem scan_open {b : Bundle σ} (engine : ε) (w : World) (h : b.isClosed = false) :
    b.scan engine w =
      let driven := b.driven engine w
      let left := withdraw w.registry.nextToken driven.world
      match driven.ending with
      | .panicked => ⟨.enginePanicked, driven.state, driven.engine, left⟩
      | .status code =>
        let concluded := driven.state.conclude code left
        ⟨concluded.1, concluded.2.1, driven.engine, concluded.2.2⟩ := by
  unfold scan
  simp only [h, Bool.false_eq_true, if_false]
  rfl

theorem scan_closed {b : Bundle σ} (engine : ε) (w : World) (h : b.isClosed = true) :
    b.scan engine w = ⟨.failed .closed, b, engine, w⟩ := by
  simp [scan, h]

/-- A scan leaves the bundle of its run behind, but for the failure that it hands out, and the world
of its run without the token. -/
theorem scan_left {b : Bundle σ} (engine : ε) (w : World) (h : b.isClosed = false) :
    (∃ error, (b.scan engine w).bundle = { (b.driven engine w).state with error }) ∧
      ((b.scan engine w).world = withdraw w.registry.nextToken (b.driven engine w).world ∨
        ∃ n, (b.scan engine w).world =
          (withdraw w.registry.nextToken (b.driven engine w).world).notify n) := by
  rw [scan_open engine w h]
  dsimp only
  split
  · exact ⟨⟨_, rfl⟩, .inl rfl⟩
  · unfold conclude
    split
    · exact ⟨⟨_, rfl⟩, .inl rfl⟩
    · split
      · exact ⟨⟨_, rfl⟩, .inr ⟨_, rfl⟩⟩
      · exact ⟨⟨_, rfl⟩, .inl rfl⟩

theorem scan_tracker {b : Bundle σ} (h : b.isClosed = false) (engine : ε) (w : World) :
    (b.scan engine w).bundle.tracker = (b.driven engine w).state.tracker := by
  obtain ⟨⟨error, hbundle⟩, _⟩ := scan_left engine w h
  rw [hbundle]

theorem scan_heap {b : Bundle σ} (h : b.isClosed = false) (engine : ε) (w : World) :
    (b.scan engine w).world.heap = (b.driven engine w).world.heap := by
  rcases (scan_left engine w h).2 with hw | ⟨n, hw⟩
  · rw [hw]
    rfl
  · rw [hw]
    rfl

theorem scan_registry {b : Bundle σ} (h : b.isClosed = false) (engine : ε) (w : World) :
    (b.scan engine w).world.registry =
      (b.driven engine w).world.registry.release w.registry.nextToken := by
  rcases (scan_left engine w h).2 with hw | ⟨n, hw⟩
  · rw [hw]
    rfl
  · rw [hw]
    rfl

theorem scan_engine {b : Bundle σ} (engine : ε) (w : World) (h : b.isClosed = false) :
    (b.scan engine w).engine = (b.driven engine w).engine := by
  rw [scan_open engine w h]
  dsimp only
  split <;> rfl

end ScanBridge.Bundle
