import ScanBridge.Proofs.ImportBuffers
import ScanBridge.Proofs.ScriptedScan

namespace ScanBridge

/-- What is done with a bundle by whoever holds it, and what happens elsewhere meanwhile. -/
inductive Deed (σ : Type) : Type 1
  | close
  | scan {ε : Type} [Engine ε] (engine : ε)
  | change (f : σ → σ)
  | elsewhere (f : World → World)

variable {σ ε : Type} [ScanCallback σ]

namespace Bundle

def does (b : Bundle σ) (w : World) : Deed σ → Bundle σ × World
  | .close => ((b.close w).bundle, (b.close w).world)
  | @Deed.scan _ _ _ engine => ((b.scan engine w).bundle, (b.scan engine w).world)
  | .change f => ({ b with callback := f b.callback }, w)
  | .elsewhere f => (b, f w)

def after (b : Bundle σ) (w : World) : List (Deed σ) → Bundle σ × World
  | [] => (b, w)
  | d :: deeds => (b.does w d).1.after (b.does w d).2 deeds

variable {b : Bundle σ} {w : World} [Engine ε]

theorem isClosed_new (callback : σ) (options : ScanOptions) (w : World) :
    (Bundle.new callback options w).1.isClosed = false := rfl

/-- No scan closes its bundle, and none opens it again. -/
theorem isClosed_scan (b : Bundle σ) (engine : ε) (w : World) :
    (b.scan engine w).bundle.isClosed = b.isClosed := by
  cases hopen : b.isClosed with
  | true =>
    rw [scan_closed engine w hopen]
    exact hopen
  | false =>
    obtain ⟨more, htracker, _⟩ := chain_tracker (b.transcript_chain engine w) hopen
    rw [isClosed, scan_tracker hopen, htracker]
    rfl

theorem isClosed_does (b : Bundle σ) (w : World) (d : Deed σ) :
    (b.does w d).1.isClosed = true ↔ b.isClosed = true ∨ .close = d := by
  cases d with
  | close => exact iff_of_true rfl (.inr rfl)
  | scan engine => simp [does, isClosed_scan]
  | change f => simp [does, isClosed]
  | elsewhere f => simp [does]

theorem isClosed_after (deeds : List (Deed σ)) (b : Bundle σ) (w : World) :
    (b.after w deeds).1.isClosed = true ↔ b.isClosed = true ∨ .close ∈ deeds := by
  induction deeds generalizing b w with
  | nil => simp [after]
  | cons d deeds ih =>
    rw [after, ih, isClosed_does, List.mem_cons, or_assoc]

/-- With a closed bundle nothing can be done any more, wherever and whenever it is tried. -/
structure Final (b : Bundle σ) : Prop where
  pending : b.pending = 0
  close : ∀ w, b.close w = ⟨0, b, w⟩
  discard : ∀ w, b.discard w = w
  scan : ∀ {ε : Type} [Engine ε] (engine : ε) (w : World),
    b.scan engine w = ⟨.failed .closed, b, engine, w⟩

omit [ScanCallback σ] in
theorem tracker_of_closed (h : b.isClosed = true) : b.tracker = .sealed := by
  cases ht : b.tracker with
  | active held => simp [isClosed, Tracker.isSealed, ht] at h
  | sealed => rfl

theorem final_of_closed (h : b.isClosed = true) : b.Final := by
  have htracker := tracker_of_closed h
  refine ⟨?_, ?_, ?_, fun engine w => scan_closed engine w h⟩
  · rw [pending, htracker]
    rfl
  · intro w
    have hsame : { b with tracker := .sealed } = b := by rw [← htracker]
    have hclosed : b.close w = ⟨0, { b with tracker := .sealed }, w⟩ := by
      rw [close, htracker]
      rfl
    rw [hclosed, hsame]
  · intro w
    rw [discard, htracker]
    rfl

/-- Why a scan of an open bundle fails, if it does. -/
structure OwnFailures (b : Bundle σ) (engine : ε) (w : World) : Prop where
  not_closed : (b.scan engine w).result ≠ .failed .closed
  source : ∀ e, (b.scan engine w).result = .failed e →
    (∃ x ∈ b.transcript engine w, x.routed = true ∧ x.ruling = .error e ∧
      ((∃ why, e = .callback why) ∨ (∃ kind, e = .panicked kind) ∨
        ∃ kind, e = .missingEventData kind)) ∨
    ∃ code, code ≠ 0 ∧ e = .engine code
  /-- Whatever the callback fails with first, also the failure of a scan that it ran itself, is
  reported as a failure of the callback. -/
  first : ∀ pre x post, b.transcript engine w = pre ++ x :: post →
    (∀ y ∈ pre, y.routed = true → raised? y.ruling = none) → x.routed = true →
    ∀ reaction why, x.state.reaction? x.event x.world = some reaction →
      reaction.outcome = .failed why → (b.driven engine w).ending ≠ .panicked →
      (b.scan engine w).result = .failed (.callback why)

theorem ruling_of_reaction {e : Event} {reaction : Reaction σ}
    (h : b.reaction? e w = some reaction) :
    ∃ kind, b.ruling e w = reaction.outcome.ruling kind := by
  cases hf : e.fate b.capabilities with
  | delivered kind => exact ⟨kind, by simp [ruling, hf, h]⟩
  | _ => simp [reaction?, heard?, hf] at h

theorem scan_failed (hopen : b.isClosed = false) {engine : ε} {e : BridgeError}
    (h : (b.scan engine w).result = .failed e) :
    (∃ x ∈ b.transcript engine w, x.routed = true ∧ x.ruling = .error e) ∨
      ∃ code, code ≠ 0 ∧ e = .engine code ∧ (b.driven engine w).ending = .status code := by
  have herror := b.driven_error engine w
  rw [scan_concluded hopen] at h
  split at h
  · cases h
  · rename_i code hending
    split at h
    · rename_i e' he
      cases h
      rw [he] at herror
      obtain ⟨x, hx, hraised⟩ := List.exists_of_findSome?_eq_some herror.symm
      obtain ⟨hx, hr⟩ := List.mem_filter.mp hx
      refine .inl ⟨x, hx, hr, ?_⟩
      cases hruling : x.ruling with
      | ok control => simp [raised?, hruling] at hraised
      | error e' => simpa [raised?, hruling] using hraised
    · split at h
      · cases h
      · rename_i hcode
        cases h
        exact .inr ⟨code, hcode, rfl, hending⟩

theorem ownFailures (hopen : b.isClosed = false) (engine : ε) (w : World) :
    b.OwnFailures engine w := by
  have hsource : ∀ e, (b.scan engine w).result = .failed e →
      (∃ x ∈ b.transcript engine w, x.routed = true ∧ x.ruling = .error e ∧
        ((∃ why, e = .callback why) ∨ (∃ kind, e = .panicked kind) ∨
          ∃ kind, e = .missingEventData kind)) ∨
      ∃ code, code ≠ 0 ∧ e = .engine code := by
    intro e he
    rcases scan_failed hopen he with ⟨x, hx, hr, hruling⟩ | ⟨code, hcode, hengine, _⟩
    · exact .inl ⟨x, hx, hr, hruling, ruling_error hruling⟩
    · exact .inr ⟨code, hcode, hengine⟩
  refine ⟨?_, hsource, ?_⟩
  · intro hclosed
    rcases hsource _ hclosed with ⟨x, _, _, _, ⟨_, h⟩ | ⟨_, h⟩ | ⟨_, h⟩⟩ | ⟨code, _, h⟩
    all_goals cases h
  · intro pre x post hxs hbefore hr reaction why hreaction houtcome hending
    obtain ⟨kind, hruling⟩ := ruling_of_reaction hreaction
    rw [houtcome] at hruling
    have herror : (b.driven engine w).state.error = some (.callback why) := by
      have hnone : (pre.filter (·.routed)).findSome? (fun x => raised? x.ruling) = none := by
        rw [List.findSome?_eq_none_iff]
        intro y hy
        obtain ⟨hy, hry⟩ := List.mem_filter.mp hy
        exact hbefore y hy hry
      rw [driven_error, hxs, List.filter_append, List.findSome?_append, hnone,
        List.filter_cons_of_pos hr, List.findSome?_cons, Exchange.ruling, hruling]
      rfl
    rw [scan_concluded hopen, herror]
    cases he : (b.driven engine w).ending with
    | panicked => exact absurd he hending
    | status code => rfl

end Bundle

namespace Scope

variable {s : Scope} {w : World} {name : String} {b : Bundle Guest}

theorem close_closed (hb : getNamed? name s.bundles = some b) (h : b.isClosed = true) :
    s.close w name = ⟨.closed 0 b.state, s.putBundle name b, w⟩ := by
  have hfinal := Bundle.final_of_closed h
  simp only [close, withBundle, hb, hfinal.close]

theorem scan_closed {engine : String} {e : AnyEngine} (hb : getNamed? name s.bundles = some b)
    (he : getNamed? engine s.engines = some e) (h : b.isClosed = true) :
    (s.scan w name engine).answer =
        .scanned (.failed .closed) b.callback.takeCalls.1 e.view b.state ∧
      (s.scan w name engine).world = w := by
  simp only [scan, withBundle, withEngine, hb, he, Bundle.scan_closed e w h, and_true]
  rfl

end Scope

/-- A bundle is closed exactly if it was closed at some time in its life. From then on nothing can
be done with it, and before no scan of it fails for being closed. -/
theorem close_is_final (callback : σ) (options : ScanOptions) (w : World)
    (deeds : List (Deed σ)) :
    let made := Bundle.new callback options w
    let b := (made.1.after made.2 deeds).1
    (b.isClosed = true ↔ .close ∈ deeds) ∧
      (.close ∈ deeds → b.Final) ∧
      (.close ∉ deeds → ∀ {ε : Type} [Engine ε] (engine : ε) (w : World),
        b.OwnFailures engine w) ∧
      ∀ (s : Scope) (name : String) (g : Bundle Guest) (w : World),
        getNamed? name s.bundles = some g → g.isClosed = true →
        s.close w name = ⟨.closed 0 g.state, s.putBundle name g, w⟩ ∧
          ∀ (engine : String) (e : AnyEngine), getNamed? engine s.engines = some e →
            (s.scan w name engine).answer =
                .scanned (.failed .closed) g.callback.takeCalls.1 e.view g.state ∧
              (s.scan w name engine).world = w := by
  intro made b
  have hclosed : b.isClosed = true ↔ .close ∈ deeds := by
    rw [Bundle.isClosed_after, Bundle.isClosed_new]
    simp
  refine ⟨hclosed, fun h => Bundle.final_of_closed (hclosed.mpr h), ?_, ?_⟩
  · intro h ε _ engine w
    refine Bundle.ownFailures ?_ engine w
    rw [← Bool.not_eq_true, hclosed]
    exact h
  · intro s name g w hg h
    exact ⟨Scope.close_closed hg h, fun engine e he => Scope.scan_closed hg he h⟩

example : (runSession
    [.bundle "outer" .journal none {} [{ event := .scanFinished, nested := some (.mk
        [.bundle "inner" .inert none {} [], .close "inner", .engine "e" (.listed { events := [] }),
          .scan "inner" "e"] true none) }],
      .engine "e" (.listed { events := [{ code := 3 }] }), .scan "outer" "e"]).reports.map
        (·.answer.error?) = [none, none, some (.callback (.bridge .closed))] := by
  decide

end ScanBridge
