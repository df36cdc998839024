import ScanBridge.Bundle.Scan
import ScanBridge.Proofs.Exchanges

namespace ScanBridge

variable {σ : Type}

/-- Whether event data is of the shape that events of a kind need. The end of a scan needs none. -/
def EventData.suits : EventData → EventKind → Bool
  | _, .scanFinished => true
  | .rule _, .ruleMatching | .rule _, .ruleNotMatching => true
  | .request .., .importModule => true
  | .object _, .moduleImported => true
  | _, _ => false

/-- What becomes of an event that is for a bundle. It depends on the event and on the capabilities
that were probed, not on what the callback offers by now. -/
inductive Fate
  | unknown
  | skipped
  | incomplete (kind : EventKind)
  | delivered (kind : EventKind)
  deriving DecidableEq, Repr

def Event.fate (e : Event) (probed : Capabilities) : Fate :=
  match EventKind.ofCode? e.code with
  | none => .unknown
  | some kind =>
    if probed.has kind then if e.data.suits kind then .delivered kind else .incomplete kind
    else .skipped

theorem EventKind.ofCode?_eq_some_iff {code : Int32} {kind : EventKind} :
    EventKind.ofCode? code = some kind ↔ code = kind.code := by
  constructor
  · intro h
    simpa [eq_comm] using List.find?_some h
  · rintro rfl
    exact ofCode?_code kind

theorem Event.isSome_call? (e : Event) (kind : EventKind) :
    (e.call? kind).isSome = e.data.suits kind := by
  cases kind <;> cases h : e.data <;> simp [Event.call?, EventData.suits, h]

theorem Event.kind_of_call? {e : Event} {kind : EventKind} {call : Call}
    (h : e.call? kind = some call) : call.kind = kind := by
  cases kind <;> cases hd : e.data <;> simp [Event.call?, hd] at h <;> subst h <;> rfl

theorem EventData.suits_null (kind : EventKind) :
    EventData.null.suits kind = decide (kind = .scanFinished) := by
  cases kind <;> rfl

theorem Event.fate_unknown {e : Event} {probed : Capabilities}
    (h : e.fate probed = .unknown) : EventKind.ofCode? e.code = none := by
  unfold Event.fate at h
  repeat' first | split at h | cases h
  assumption

theorem Event.fate_skipped {e : Event} {probed : Capabilities} (h : e.fate probed = .skipped) :
    ∃ kind, EventKind.ofCode? e.code = some kind ∧ probed.has kind = false := by
  unfold Event.fate at h
  repeat' first | split at h | cases h
  rename_i kind hk hp
  exact ⟨kind, hk, by simpa using hp⟩

theorem Event.fate_incomplete {e : Event} {probed : Capabilities} {kind : EventKind}
    (h : e.fate probed = .incomplete kind) :
    EventKind.ofCode? e.code = some kind ∧ probed.has kind = true ∧ e.call? kind = none := by
  unfold Event.fate at h
  repeat' first | split at h | cases h
  rename_i hk hp hs
  refine ⟨hk, hp, Option.isNone_iff_eq_none.mp ?_⟩
  rw [← Option.not_isSome, Event.isSome_call?]
  simpa using hs

theorem Event.fate_delivered {e : Event} {probed : Capabilities} {kind : EventKind}
    (h : e.fate probed = .delivered kind) :
    EventKind.ofCode? e.code = some kind ∧ probed.has kind = true ∧
      ∃ call, e.call? kind = some call ∧ call.kind = kind := by
  unfold Event.fate at h
  repeat' first | split at h | cases h
  rename_i hk hp hs
  obtain ⟨call, hc⟩ := Option.isSome_iff_exists.mp ((Event.isSome_call? e kind).trans hs)
  exact ⟨hk, hp, call, hc, Event.kind_of_call? hc⟩

namespace Bundle

variable [ScanCallback σ]

def heard? (b : Bundle σ) (e : Event) : Option Call :=
  match e.fate b.capabilities with
  | .delivered kind =>
    if (ScanCallback.offers b.callback kind).1 then e.call? kind else none
  | _ => none

def reaction? (b : Bundle σ) (e : Event) (w : World) : Option (Reaction σ) :=
  (b.heard? e).map fun call =>
    ScanCallback.call (ScanCallback.offers b.callback call.kind).2 call w

end Bundle

/-- What the end of a call for an event of a kind means for the scan. -/
def Outcome.ruling (kind : EventKind) : Outcome → Except BridgeError Control
  | .answer control _ => .ok control
  | .failed why => .error (.callback why)
  | .panicked => .error (.panicked kind)

def Outcome.supply? : Outcome → Call → Option (String × Bytes)
  | .answer _ payload, .importModule _ module => some (module, payload)
  | _, _ => none

def Bundle.ruling [ScanCallback σ] (b : Bundle σ) (e : Event) (w : World) :
    Except BridgeError Control :=
  match e.fate b.capabilities, b.reaction? e w with
  | .incomplete kind, _ => .error (.missingEventData kind)
  | .delivered kind, some reaction => reaction.outcome.ruling kind
  | _, _ => .ok .continue

def raised? : Except BridgeError Control → Option BridgeError
  | .error e => some e
  | .ok _ => none

namespace Stats

def ofEvents (s : Stats) : Stats := { s with importBuffers := 0, importBytes := 0 }

def tally (s : Stats) : Fate → Stats
  | .unknown => { s with unknown := s.unknown + 1 }
  | .skipped => { s with skipped := s.skipped + 1 }
  | .incomplete _ => s
  | .delivered kind => s.count kind

def of (s : Stats) : EventKind → Nat
  | .ruleMatching => s.rulesMatching
  | .ruleNotMatching => s.rulesNotMatching
  | .scanFinished => s.scansFinished
  | .importModule => s.importsRequested
  | .moduleImported => s.modulesImported

end Stats

namespace Bundle

/-- The bundle without its import buffers and their counters. -/
def sansImports (b : Bundle σ) : Bundle σ :=
  { b with tracker := .sealed, stats := b.stats.ofEvents }

theorem inject_sansImports (b : Bundle σ) (module : String) (payload : Bytes) (slot : Slot)
    (w : World) : (b.inject module payload slot w).bundle.sansImports = b.sansImports := by
  unfold inject
  dsimp only
  split
  · rfl
  · rfl
  · split <;> rfl

def admits (b : Bundle σ) (payload : Bytes) : Bool :=
  !payload.isEmpty && b.options.maxModuleData.all (payload.length ≤ ·) && !b.isClosed

theorem inject_admitted {b : Bundle σ} {payload : Bytes} (module : String) (slot : Slot)
    (w : World) (h : b.admits payload = true) : b.inject module payload slot w =
      { bundle := { b with
          tracker := .active (b.tracker.held ++ [w.heap.next])
          stats := { b.stats with
            importBuffers := b.stats.importBuffers + 1
            importBytes := b.stats.importBytes + payload.length } }
        slot := ⟨some (.heap w.heap.next), payload.length⟩
        world := { w with heap := w.heap.alloc .bundle payload }.notify
          (.injected module payload.length) } := by
  simp only [admits, Bool.and_eq_true, Bool.not_eq_true', List.isEmpty_eq_false_iff] at h
  obtain ⟨⟨hne, hlimit⟩, hopen⟩ := h
  obtain ⟨byte, bytes, rfl⟩ := List.exists_cons_of_ne_nil hne
  have hfit : b.options.maxModuleData.filter (· < (byte :: bytes).length) = none := by
    cases hm : b.options.maxModuleData with
    | none => rfl
    | some limit =>
      have : (byte :: bytes).length ≤ limit := by simpa [hm] using hlimit
      simp only [Option.filter_some, decide_eq_true_eq, ite_eq_right_iff, reduceCtorEq, imp_false]
      omega
  cases ht : b.tracker with
  | sealed => simp [isClosed, Tracker.isSealed, ht] at hopen
  | active held => simp only [inject, hfit, ht, Tracker.track, Tracker.held, if_true]

theorem inject_refused {b : Bundle σ} {payload : Bytes} (module : String) (slot : Slot)
    (w : World) (hopen : b.isClosed = false) (h : b.admits payload = false) :
    ∃ w', b.inject module payload slot w = ⟨b, slot, w'⟩ ∧ (w' = w ∨ ∃ n, w' = w.notify n) := by
  cases payload with
  | nil => exact ⟨w, rfl, .inl rfl⟩
  | cons byte bytes =>
    cases hm : b.options.maxModuleData with
    | none => simp [admits, hm, hopen] at h
    | some limit =>
      have hlimit : limit < (byte :: bytes).length := by simpa [admits, hm, hopen] using h
      refine ⟨w.notify (.tooLarge module (byte :: bytes).length limit), ?_, .inr ⟨_, rfl⟩⟩
      simp only [inject, hm, Option.filter_some, hlimit, decide_true, if_true]

theorem settle_eq (b : Bundle σ) (outcome : Except BridgeError Control) (w : World) :
    (b.settle outcome w).1 = { b with
      error := b.error.or (raised? outcome)
      aborted := b.aborted || Verdict.ofOutcome outcome = .abort } := by
  rcases outcome with e | c
  · obtain ⟨id, callback, capabilities, tracker, options, stats, aborted, error⟩ := b
    cases error <;> simp [settle, recordError, raised?, Verdict.ofOutcome]
  · cases c <;> simp [settle, raised?, Verdict.ofOutcome]

/-- Of a failure that is not the first there is only a notice. -/
theorem settle_world (b : Bundle σ) (outcome : Except BridgeError Control) (w : World) :
    (b.settle outcome w).2 = w ∨ ∃ n, (b.settle outcome w).2 = w.notify n := by
  unfold settle recordError
  split
  · split
    · exact .inl rfl
    · exact .inr ⟨_, rfl⟩
  · exact .inl rfl
  · exact .inl rfl

variable [ScanCallback σ]

def called (b : Bundle σ) (call : Call) (w : World) : Bundle σ :=
  { b with
    stats := b.stats.count call.kind
    callback := (ScanCallback.call (ScanCallback.offers b.callback call.kind).2 call w).state }

def account (b : Bundle σ) (e : Event) (w : World) : Bundle σ :=
  { b with
    callback := match e.fate b.capabilities, b.reaction? e w with
      | .delivered _, some reaction => reaction.state
      | .delivered kind, none => (ScanCallback.offers b.callback kind).2
      | _, _ => b.callback
    stats := b.stats.tally (e.fate b.capabilities)
    error := b.error.or (raised? (b.ruling e w))
    aborted := b.aborted || Verdict.ofOutcome (b.ruling e w) = .abort }

theorem invoke_heard (b : Bundle σ) (call : Call) (slot : Slot) (w : World)
    (h : (ScanCallback.offers b.callback call.kind).1 = true) :
    let reaction := ScanCallback.call (ScanCallback.offers b.callback call.kind).2 call w
    b.invoke call slot w =
      match reaction.outcome.supply? call with
      | some (module, payload) =>
        let injected := (b.called call w).inject module payload slot reaction.world
        ⟨reaction.outcome.ruling call.kind, injected.bundle, injected.slot, injected.world⟩
      | none => ⟨reaction.outcome.ruling call.kind, b.called call w, slot, reaction.world⟩ := by
  cases ho : (ScanCallback.call (ScanCallback.offers b.callback call.kind).2 call w).outcome with
  | answer control payload =>
    cases call <;> simp [invoke, h, ho, Outcome.ruling, Outcome.supply?, called]
  | failed why => simp [invoke, h, ho, Outcome.ruling, Outcome.supply?, called]
  | panicked => simp [invoke, h, ho, Outcome.ruling, Outcome.supply?, called]

/-- A delivered event is counted once, whether or not the callback still wants it. Its outcome and
the callback it leaves behind are those of the one reaction, if there is one. -/
theorem invoke_heard_account (b : Bundle σ) (call : Call) (slot : Slot) (w : World)
    (h : (ScanCallback.offers b.callback call.kind).1 = true) :
    (b.invoke call slot w).outcome =
        (ScanCallback.call (ScanCallback.offers b.callback call.kind).2 call w).outcome.ruling
          call.kind ∧
      (b.invoke call slot w).bundle.sansImports = (b.called call w).sansImports := by
  rw [invoke_heard b call slot w h]
  dsimp only
  split
  · exact ⟨rfl, inject_sansImports ..⟩
  · exact ⟨rfl, rfl⟩

theorem invoke_unheard (b : Bundle σ) (call : Call) (slot : Slot) (w : World)
    (h : (ScanCallback.offers b.callback call.kind).1 = false) :
    b.invoke call slot w = ⟨.ok .continue,
      { b with
        callback := (ScanCallback.offers b.callback call.kind).2
        stats := b.stats.count call.kind }, slot, w⟩ := by
  simp [invoke, h]

theorem handle_unknown {b : Bundle σ} {e : Event} (w : World)
    (h : e.fate b.capabilities = .unknown) :
    b.handle e w = ⟨⟨Verdict.continue.code, e.data.slot⟩,
      { b with stats := b.stats.tally .unknown }, w.notify (.unknownEvent e.code)⟩ := by
  simp [handle, Event.fate_unknown h, Stats.tally]

theorem handle_skipped {b : Bundle σ} {e : Event} (w : World)
    (h : e.fate b.capabilities = .skipped) :
    b.handle e w = ⟨⟨Verdict.continue.code, e.data.slot⟩,
      { b with stats := b.stats.tally .skipped }, w⟩ := by
  obtain ⟨kind, hk, hp⟩ := Event.fate_skipped h
  simp [handle, hk, hp, Stats.tally]

theorem handle_incomplete {b : Bundle σ} {e : Event} {kind : EventKind} (w : World)
    (h : e.fate b.capabilities = .incomplete kind) :
    let settled := b.recordError (.missingEventData kind) w
    b.handle e w = ⟨⟨Verdict.error.code, e.data.slot⟩, settled.1,
      settled.2.notify (.dispatched kind .error)⟩ := by
  obtain ⟨hk, hp, hc⟩ := Event.fate_incomplete h
  simp [handle, hk, hp, deliver, hc, settle, Verdict.ofOutcome]

theorem handle_delivered {b : Bundle σ} {e : Event} {kind : EventKind} {call : Call} (w : World)
    (h : e.fate b.capabilities = .delivered kind) (hc : e.call? kind = some call) :
    let delivered := b.invoke call e.data.slot w
    let verdict := Verdict.ofOutcome delivered.outcome
    let settled := delivered.bundle.settle delivered.outcome delivered.world
    b.handle e w = ⟨⟨verdict.code, delivered.slot⟩, settled.1,
      settled.2.notify (.dispatched kind verdict)⟩ := by
  obtain ⟨hk, hp, _⟩ := Event.fate_delivered h
  simp [handle, hk, hp, deliver, hc]

/-- What a bundle answers to an event of its own, and the account it keeps of it. -/
theorem handle_account (b : Bundle σ) (e : Event) (w : World) :
    (b.handle e w).reply.verdict = (Verdict.ofOutcome (b.ruling e w)).code ∧
      (b.handle e w).state.sansImports = (b.account e w).sansImports := by
  cases hf : e.fate b.capabilities with
  | unknown =>
    rw [handle_unknown w hf]
    simp [account, ruling, hf, raised?, Verdict.ofOutcome]
  | skipped =>
    rw [handle_skipped w hf]
    simp [account, ruling, hf, raised?, Verdict.ofOutcome]
  | incomplete kind =>
    have hs := settle_eq b (.error (.missingEventData kind)) w
    rw [handle_incomplete w hf]
    simp only [settle] at hs
    simp [account, ruling, hf, hs, Stats.tally, Verdict.ofOutcome]
  | delivered kind =>
    obtain ⟨_, _, call, hc, rfl⟩ := Event.fate_delivered hf
    rw [handle_delivered w hf hc]
    simp only [settle_eq]
    cases ho : (ScanCallback.offers b.callback call.kind).1 with
    | false =>
      have hr : b.reaction? e w = none := by simp [reaction?, heard?, hf, ho]
      rw [invoke_unheard b call e.data.slot w ho]
      simp [account, ruling, hf, hr, Stats.tally]
    | true =>
      obtain ⟨houtcome, hbundle⟩ := invoke_heard_account b call e.data.slot w ho
      have hr : b.reaction? e w = some
          (ScanCallback.call (ScanCallback.offers b.callback call.kind).2 call w) := by
        simp [reaction?, heard?, hf, ho, hc]
      have hsettled : ∀ (c : Bundle σ) (err : Option BridgeError) (abort : Bool),
          sansImports { c with error := c.error.or err, aborted := c.aborted || abort } =
            { c.sansImports with
              error := c.sansImports.error.or err
              aborted := c.sansImports.aborted || abort } := fun _ _ _ => rfl
      have hruling : b.ruling e w = (b.invoke call e.data.slot w).outcome := by
        simp [ruling, hf, hr, houtcome]
      refine ⟨by rw [hruling], ?_⟩
      rw [hsettled, hbundle, ← hruling]
      simp [account, called, hf, hr, sansImports, Stats.tally]

end Bundle

end ScanBridge
