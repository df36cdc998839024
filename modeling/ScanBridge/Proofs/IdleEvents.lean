import ScanBridge.Proofs.FreshStart

namespace ScanBridge

def World.unnoticed (w : World) : World := { w with notices := #[] }

theorem World.exists_notices {w w' : World} (h : w'.unnoticed = w.unnoticed) :
    ∃ notices, w' = { w with notices } := by
  obtain ⟨heap, registry, nextBundle, notices⟩ := w
  obtain ⟨heap', registry', nextBundle', notices'⟩ := w'
  cases h
  exact ⟨notices', rfl⟩

theorem World.unnoticed_registry {w w' : World} (h : w'.unnoticed = w.unnoticed) :
    w'.registry = w.registry := by
  obtain ⟨notices, rfl⟩ := exists_notices h
  rfl

theorem World.unnoticed_withdraw {w w' : World} (h : w'.unnoticed = w.unnoticed) (token : Token) :
    (Bundle.withdraw token w').unnoticed = (Bundle.withdraw token w).unnoticed := by
  obtain ⟨notices, rfl⟩ := exists_notices h
  rfl

variable {σ : Type}

/-- Calls of a callback do the same whatever notices were given before. Notices are for whoever
reads a log, and callbacks do not. -/
def Heedless [ScanCallback σ] (good : σ → Prop) : Prop :=
  ∀ (s : σ) (call : Call) (w w' : World), good s → w'.unnoticed = w.unnoticed →
    (ScanCallback.call s call w').outcome = (ScanCallback.call s call w).outcome ∧
      (ScanCallback.call s call w').state = (ScanCallback.call s call w).state ∧
      (ScanCallback.call s call w').world.unnoticed =
        (ScanCallback.call s call w).world.unnoticed

theorem World.unnoticed_notifyUnknownMetas (w : World) (r : Layout.Rule) :
    (w.notifyUnknownMetas r).unnoticed = w.unnoticed :=
  List.foldlRecOn (motive := fun w' : World => w'.unnoticed = w.unnoticed) r.unknownMetas _ rfl
    fun _ h _ _ => h

theorem MatchRecorder.heedless : Heedless fun _ : MatchRecorder => True := by
  intro r call w w' _ h
  cases call with
  | ruleMatching ctx rule =>
    refine ⟨rfl, rfl, ?_⟩
    have hw := World.unnoticed_notifyUnknownMetas w rule
    have hw' := World.unnoticed_notifyUnknownMetas w' rule
    exact (hw'.trans h).trans hw.symm
  | _ => exact ⟨rfl, rfl, h⟩

namespace Stats

def more (unknown skipped : Nat) (s : Stats) : Stats :=
  { s with unknown := s.unknown + unknown, skipped := s.skipped + skipped }

theorem tally_more (unknown skipped : Nat) (s : Stats) (fate : Fate) :
    (s.more unknown skipped).tally fate = (s.tally fate).more unknown skipped := by
  cases fate with
  | unknown => simp only [tally, more, Nat.add_right_comm]
  | skipped => simp only [tally, more, Nat.add_right_comm]
  | incomplete kind => rfl
  | delivered kind => cases kind <;> rfl

end Stats

def ScanResult.more (unknown skipped : Nat) : ScanResult → ScanResult
  | .completed summary => .completed { summary with stats := summary.stats.more unknown skipped }
  | .failed error => .failed error
  | .enginePanicked => .enginePanicked

namespace Bundle

def more (unknown skipped : Nat) (b : Bundle σ) : Bundle σ :=
  { b with stats := b.stats.more unknown skipped }

theorem more_more (b : Bundle σ) (unknown skipped unknown' skipped' : Nat) :
    (b.more unknown skipped).more unknown' skipped' =
      b.more (unknown + unknown') (skipped + skipped') := by
  simp only [more, Stats.more, Nat.add_assoc]

structure Parallel (unknown skipped : Nat) (a a' : Answered (Bundle σ)) : Prop where
  reply : a'.reply = a.reply
  state : a'.state = a.state.more unknown skipped
  world : a'.world.unnoticed = a.world.unnoticed

theorem inject_more {b : Bundle σ} (hopen : b.isClosed = false) (unknown skipped : Nat)
    (module : String) (payload : Bytes) (slot : Slot) {w w' : World}
    (h : w'.unnoticed = w.unnoticed) :
    let plain := b.inject module payload slot w
    let padded := (b.more unknown skipped).inject module payload slot w'
    padded.bundle = plain.bundle.more unknown skipped ∧ padded.slot = plain.slot ∧
      padded.world.unnoticed = plain.world.unnoticed := by
  dsimp only
  obtain ⟨notices, rfl⟩ := World.exists_notices h
  cases ha : b.admits payload with
  | true =>
    have ha' : (b.more unknown skipped).admits payload = true := ha
    rw [inject_admitted module slot w ha, inject_admitted module slot _ ha']
    exact ⟨rfl, rfl, rfl⟩
  | false =>
    have ha' : (b.more unknown skipped).admits payload = false := ha
    obtain ⟨w₁, h₁, hw₁⟩ := inject_refused module slot w hopen ha
    have hopen' : (b.more unknown skipped).isClosed = false := hopen
    obtain ⟨w₂, h₂, hw₂⟩ := inject_refused module slot { w with notices } hopen' ha'
    rw [h₁, h₂]
    refine ⟨rfl, rfl, ?_⟩
    rcases hw₁ with rfl | ⟨n₁, rfl⟩ <;> rcases hw₂ with rfl | ⟨n₂, rfl⟩ <;> rfl

theorem settle_more (b : Bundle σ) (unknown skipped : Nat) (outcome : Except BridgeError Control)
    {w w' : World} (h : w'.unnoticed = w.unnoticed) :
    ((b.more unknown skipped).settle outcome w').1 = (b.settle outcome w).1.more unknown skipped ∧
      ((b.more unknown skipped).settle outcome w').2.unnoticed =
        (b.settle outcome w).2.unnoticed := by
  have hworld : ∀ (b : Bundle σ) (w : World), (b.settle outcome w).2.unnoticed = w.unnoticed := by
    intro b w
    rcases b.settle_world outcome w with hw | ⟨n, hw⟩ <;> rw [hw]
    rfl
  refine ⟨?_, ?_⟩
  · rw [settle_eq, settle_eq]
    rfl
  · rw [hworld, hworld, h]

theorem conclude_more (b : Bundle σ) (unknown skipped : Nat) (status : Int32) {w w' : World}
    (h : w'.unnoticed = w.unnoticed) :
    ((b.more unknown skipped).conclude status w').1 =
        (b.conclude status w).1.more unknown skipped ∧
      ((b.more unknown skipped).conclude status w').2.1 =
        (b.conclude status w).2.1.more unknown skipped ∧
      ((b.more unknown skipped).conclude status w').2.2.unnoticed =
        (b.conclude status w).2.2.unnoticed := by
  obtain ⟨notices, rfl⟩ := World.exists_notices h
  obtain ⟨id, callback, capabilities, tracker, options, stats, aborted, error⟩ := b
  cases error with
  | some e => exact ⟨rfl, rfl, rfl⟩
  | none =>
    by_cases hstatus : status = 0
    · subst hstatus
      exact ⟨rfl, rfl, rfl⟩
    · simp [conclude, more, hstatus, ScanResult.more, World.unnoticed]

variable [ScanCallback σ] {good : σ → Prop}

theorem invoke_more (hh : Heedless good) {b : Bundle σ} (hopen : b.isClosed = false)
    (hasked : ∀ k, good (ScanCallback.offers b.callback k).2) (unknown skipped : Nat) (call : Call)
    (slot : Slot) {w w' : World} (h : w'.unnoticed = w.unnoticed) :
    let plain := b.invoke call slot w
    let padded := (b.more unknown skipped).invoke call slot w'
    padded.outcome = plain.outcome ∧ padded.bundle = plain.bundle.more unknown skipped ∧
      padded.slot = plain.slot ∧ padded.world.unnoticed = plain.world.unnoticed := by
  dsimp only
  have hcount : (b.stats.more unknown skipped).count call.kind =
      (b.stats.count call.kind).more unknown skipped :=
    b.stats.tally_more unknown skipped (.delivered call.kind)
  cases ho : (ScanCallback.offers b.callback call.kind).1 with
  | false =>
    have ho' : (ScanCallback.offers (b.more unknown skipped).callback call.kind).1 = false := ho
    rw [invoke_unheard b call slot w ho, invoke_unheard _ call slot w' ho']
    have hbundle := congrArg (fun stats => ({ b with
      callback := (ScanCallback.offers b.callback call.kind).2, stats } : Bundle σ)) hcount
    exact ⟨rfl, hbundle, rfl, h⟩
  | true =>
    have ho' : (ScanCallback.offers (b.more unknown skipped).callback call.kind).1 = true := ho
    obtain ⟨houtcome, hstate, hworld⟩ := hh _ call w w' (hasked call.kind) h
    have hcalled : (b.more unknown skipped).called call w' =
        (b.called call w).more unknown skipped := by
      unfold called more
      simp only [hstate, hcount]
    have hclosed : (b.called call w).isClosed = false := hopen
    have hcallback : (b.more unknown skipped).callback = b.callback := rfl
    rw [invoke_heard b call slot w ho, invoke_heard _ call slot w' ho', hcalled]
    dsimp only
    rw [hcallback, houtcome]
    split
    · exact ⟨rfl, inject_more hclosed unknown skipped _ _ slot hworld⟩
    · exact ⟨rfl, rfl, rfl, hworld⟩

/-- Counters and notices of events that nobody handles make no difference to any other event. -/
theorem handle_more (hh : Heedless good) {b : Bundle σ} (hopen : b.isClosed = false)
    (hasked : ∀ k, good (ScanCallback.offers b.callback k).2) (unknown skipped : Nat) (e : Event)
    {w w' : World} (h : w'.unnoticed = w.unnoticed) :
    Parallel unknown skipped (b.handle e w) ((b.more unknown skipped).handle e w') := by
  cases hf : e.fate b.capabilities with
  | unknown =>
    have hf' : e.fate (b.more unknown skipped).capabilities = .unknown := hf
    rw [handle_unknown w hf, handle_unknown w' hf']
    refine ⟨rfl, ?_, h⟩
    exact congrArg (fun stats => { b with stats }) (b.stats.tally_more unknown skipped .unknown)
  | skipped =>
    have hf' : e.fate (b.more unknown skipped).capabilities = .skipped := hf
    rw [handle_skipped w hf, handle_skipped w' hf']
    refine ⟨rfl, ?_, h⟩
    exact congrArg (fun stats => { b with stats }) (b.stats.tally_more unknown skipped .skipped)
  | incomplete kind =>
    have hf' : e.fate (b.more unknown skipped).capabilities = .incomplete kind := hf
    obtain ⟨hstate, hworld⟩ :=
      settle_more b unknown skipped (.error (.missingEventData kind)) h
    rw [handle_incomplete w hf, handle_incomplete w' hf']
    exact ⟨rfl, hstate, hworld⟩
  | delivered kind =>
    have hf' : e.fate (b.more unknown skipped).capabilities = .delivered kind := hf
    obtain ⟨_, _, call, hcall, _⟩ := Event.fate_delivered hf
    obtain ⟨houtcome, hbundle, hslot, hworld⟩ :=
      invoke_more hh hopen hasked unknown skipped call e.data.slot h
    rw [handle_delivered w hf hcall, handle_delivered w' hf' hcall, houtcome, hbundle, hslot]
    obtain ⟨hstate, hworld⟩ := settle_more (b.invoke call e.data.slot w).bundle unknown skipped
      (b.invoke call e.data.slot w).outcome hworld
    exact ⟨rfl, hstate, hworld⟩

theorem unnoticed_answer_unrouted {b : Bundle σ} {e : Event} {w : World}
    (h : w.registry.resolve e.token ≠ some b.id) :
    (b.answer e w).world.unnoticed = w.unnoticed := by
  unfold answer
  split
  · rfl
  · rename_i id hid
    have hne : id ≠ b.id := fun he => h (he ▸ hid)
    rw [if_neg hne]
    rfl

theorem answer_more (hh : Heedless good) {b : Bundle σ} (hopen : b.isClosed = false)
    (hasked : ∀ k, good (ScanCallback.offers b.callback k).2) (unknown skipped : Nat) (e : Event)
    {w w' : World} (h : w'.unnoticed = w.unnoticed) :
    Parallel unknown skipped (b.answer e w) ((b.more unknown skipped).answer e w') := by
  have hregistry := World.unnoticed_registry h
  by_cases hrouted : w.registry.resolve e.token = some b.id
  · have hrouted' : w'.registry.resolve e.token = some (b.more unknown skipped).id := by
      rw [hregistry]
      exact hrouted
    rw [answer_routed hrouted, answer_routed hrouted']
    exact handle_more hh hopen hasked unknown skipped e h
  · have hrouted' : w'.registry.resolve e.token ≠ some (b.more unknown skipped).id := by
      rw [hregistry]
      exact hrouted
    obtain ⟨hreply, hstate⟩ := answer_unrouted hrouted
    obtain ⟨hreply', hstate'⟩ := answer_unrouted hrouted'
    refine ⟨hreply'.trans hreply.symm, ?_, ?_⟩
    · rw [hstate, hstate']
    · rw [unnoticed_answer_unrouted hrouted, unnoticed_answer_unrouted hrouted', h]

end Bundle

namespace ListedEvent

def report (given : Token) (e : ListedEvent) : Event := ⟨e.token.token given, e.code, e.ctx, e.data⟩

/-- An event of no known kind, or of a kind that was not offered. -/
def Idle (probed : Capabilities) (e : ListedEvent) : Prop :=
  ∀ kind, EventKind.ofCode? e.code = some kind → probed.has kind = false

theorem Idle.fate {probed : Capabilities} {e : ListedEvent} (h : e.Idle probed) (given : Token) :
    (e.report given).fate probed =
      if (EventKind.ofCode? e.code).isNone then .unknown else .skipped := by
  unfold Event.fate report
  dsimp only
  cases hk : EventKind.ofCode? e.code with
  | none => rfl
  | some kind => simp [h kind hk]

end ListedEvent

/-- An event in a list, and whether it was added to the list. -/
structure Placed where
  event : ListedEvent
  added : Bool

namespace Placed

def originals (ps : List Placed) : List ListedEvent := (ps.filter (!·.added)).map Placed.event

def unknowns (ps : List Placed) : Nat :=
  ps.countP fun q => q.added && (EventKind.ofCode? q.event.code).isNone

def skips (ps : List Placed) : Nat :=
  ps.countP fun q => q.added && (EventKind.ofCode? q.event.code).isSome

variable {q : Placed} (ps : List Placed)

theorem originals_added (h : q.added = true) : originals (q :: ps) = originals ps := by
  simp [originals, h]

theorem originals_original (h : q.added = false) :
    originals (q :: ps) = q.event :: originals ps := by
  simp [originals, h]

theorem counts_added (h : q.added = true) :
    unknowns (q :: ps) =
        (if (EventKind.ofCode? q.event.code).isNone then 1 else 0) + unknowns ps ∧
      skips (q :: ps) =
        (if (EventKind.ofCode? q.event.code).isSome then 1 else 0) + skips ps := by
  simp only [unknowns, skips, List.countP_cons, h, Bool.true_and]
  exact ⟨Nat.add_comm .., Nat.add_comm ..⟩

theorem counts_original (h : q.added = false) :
    unknowns (q :: ps) = unknowns ps ∧ skips (q :: ps) = skips ps := by
  simp [unknowns, skips, h]

end Placed

namespace ListedEngine

def Progress.failed (p : Progress) : Bool := p.sightings.any (·.verdict = Verdict.error.code)

theorem Progress.failed_sight (p : Progress) (e : ListedEvent) (reply : Reply) (w : World) :
    (p.sight e reply w).failed = (p.failed || reply.verdict = Verdict.error.code) := by
  unfold failed sight
  dsimp only
  split <;> simp

def endsWith (engine : ListedEngine) (failed : Bool) : Ending :=
  if engine.panics then .panicked
  else .status (engine.status.getD (if failed then callbackFailed else 0))

def next (engine : ListedEngine) (given : Token) (p : Progress) (rest : List ListedEvent)
    (verdict : Int32) : Run ListedEngine :=
  if verdict = 0 || engine.persistent then engine.play given p rest else engine.close p

theorem next_on {engine : ListedEngine} {verdict : Int32}
    (h : verdict = 0 ∨ engine.persistent = true) (given : Token) (p : Progress)
    (rest : List ListedEvent) :
    engine.next given p rest verdict = engine.play given p rest :=
  if_pos (by simpa using h)

theorem next_off {engine : ListedEngine} {verdict : Int32}
    (h : ¬(verdict = 0 ∨ engine.persistent = true)) (given : Token) (p : Progress)
    (rest : List ListedEvent) : engine.next given p rest verdict = engine.close p :=
  if_neg (by simpa using h)

variable (answer : Event → σ → World → Answered σ)

theorem drive_close (engine : ListedEngine) (p : Progress) (s : σ) (w : World) :
    ((engine.close p).drive answer s w).ending = engine.endsWith p.failed ∧
      ((engine.close p).drive answer s w).state = s ∧
      ((engine.close p).drive answer s w).world = w ∧
      (engine.close p).exchanges answer s w = [] := by
  unfold close endsWith Progress.failed
  simp only [Run.drive, Run.exchanges]
  split <;> exact ⟨rfl, rfl, rfl, rfl⟩

theorem drive_play_cons (engine : ListedEngine) (given : Token) (p : Progress) (e : ListedEvent)
    (rest : List ListedEvent) (s : σ) (w : World) :
    let a := answer (e.report given) s w
    (engine.play given p (e :: rest)).drive answer s w =
      (engine.next given (p.sight e a.reply a.world) rest a.reply.verdict).drive answer a.state
        a.world :=
  rfl

theorem exchanges_play_cons (engine : ListedEngine) (given : Token) (p : Progress)
    (e : ListedEvent) (rest : List ListedEvent) (s : σ) (w : World) :
    let a := answer (e.report given) s w
    (engine.play given p (e :: rest)).exchanges answer s w =
      ⟨e.report given, s, w, a⟩ ::
        (engine.next given (p.sight e a.reply a.world) rest a.reply.verdict).exchanges answer
          a.state a.world :=
  rfl

end ListedEngine

variable [ScanCallback σ]

/-- The same event in two runs. It finds the same state of affairs, counters of events that nobody
handles apart, the callback hears the same of it, and the engine gets the same reply. -/
structure Exchange.Matches (e : Event) (x y : Exchange (Bundle σ)) : Prop where
  event : x.event = e
  event' : y.event = e
  state : ∃ unknown skipped, y.state = x.state.more unknown skipped
  world : y.world.unnoticed = x.world.unnoticed
  heard : y.heard? = x.heard?
  reply : y.answered.reply = x.answered.reply

structure Exchange.Passes (e : Event) (y : Exchange (Bundle σ)) : Prop where
  event : y.event = e
  heard : y.heard? = none
  reply : y.answered.reply = ⟨0, e.data.slot⟩
  state : ∃ unknown skipped, y.answered.state = y.state.more unknown skipped
  world : y.answered.world.unnoticed = y.world.unnoticed

/-- The exchanges of two runs side by side, the second with all events of a list and the first with
those that were not added. Both runs stop at the same event, if they stop at all: at the first that
is answered with another verdict than `continue`, unless the engine is persistent. -/
inductive Abreast (persistent : Bool) (given : Token) :
    List Placed → List (Exchange (Bundle σ)) → List (Exchange (Bundle σ)) → Prop
  | finished : Abreast persistent given [] [] []
  | added {q : Placed} {ps : List Placed} {xs ys : List (Exchange (Bundle σ))}
      {y : Exchange (Bundle σ)} (added : q.added = true) (passes : y.Passes (q.event.report given))
      (more : Abreast persistent given ps xs ys) : Abreast persistent given (q :: ps) xs (y :: ys)
  | original {q : Placed} {ps : List Placed} {xs ys : List (Exchange (Bundle σ))}
      {x y : Exchange (Bundle σ)} (original : q.added = false)
      (pair : x.Matches (q.event.report given) y)
      (on : x.answered.reply.verdict = 0 ∨ persistent = true)
      (more : Abreast persistent given ps xs ys) :
      Abreast persistent given (q :: ps) (x :: xs) (y :: ys)
  | stopped {q : Placed} (ps : List Placed) {x y : Exchange (Bundle σ)}
      (original : q.added = false) (pair : x.Matches (q.event.report given) y)
      (nonzero : x.answered.reply.verdict ≠ 0) (weak : persistent = false) :
      Abreast persistent given (q :: ps) [x] [y]

theorem Abreast.heard {persistent : Bool} {given : Token} {ps : List Placed}
    {xs ys : List (Exchange (Bundle σ))} (h : Abreast persistent given ps xs ys) :
    ys.filterMap Exchange.heard? = xs.filterMap Exchange.heard? := by
  induction h with
  | finished => rfl
  | added _ passes _ ih => rw [List.filterMap_cons, passes.heard, ih]
  | original _ pair _ _ ih => rw [List.filterMap_cons, List.filterMap_cons, pair.heard, ih]
  | stopped _ _ pair => rw [List.filterMap_cons, List.filterMap_cons, pair.heard]

structure Outlasts (unknown skipped : Nat) (d d' : Driven ListedEngine (Bundle σ)) : Prop where
  ending : d'.ending = d.ending
  state : d'.state = d.state.more unknown skipped
  world : d'.world.unnoticed = d.world.unnoticed

namespace Bundle

variable {own : σ → List Holding} {good : σ → Prop} {b : Bundle σ} {w w' : World}

theorem answer_idle {e : ListedEvent} {given : Token} (hidle : e.Idle b.capabilities)
    (hr : w.registry.resolve (e.report given).token = some b.id) :
    (Exchange.mk (e.report given) b w (b.answer (e.report given) w)).Passes (e.report given) ∧
      (b.answer (e.report given) w).state =
        b.more (if (EventKind.ofCode? e.code).isNone then 1 else 0)
          (if (EventKind.ofCode? e.code).isSome then 1 else 0) := by
  have hfate := hidle.fate given
  rw [answer_routed hr]
  cases hk : EventKind.ofCode? e.code with
  | none =>
    rw [hk] at hfate
    rw [handle_unknown w hfate]
    exact ⟨⟨rfl, by simp [Exchange.heard?, heard?, hfate], rfl, ⟨1, 0, rfl⟩, rfl⟩, rfl⟩
  | some kind =>
    rw [hk] at hfate
    rw [handle_skipped w hfate]
    exact ⟨⟨rfl, by simp [Exchange.heard?, heard?, hfate], rfl, ⟨0, 1, rfl⟩, rfl⟩, rfl⟩

/-- A bundle, a world and an engine's progress in a run with the original events, and the world and
the progress in the other run. -/
structure Level (good : σ → Prop) (probed : Capabilities) (b : Bundle σ) (w w' : World)
    (p p' : ListedEngine.Progress) : Prop where
  fit : b.Fit good
  capabilities : b.capabilities = probed
  world : w'.unnoticed = w.unnoticed
  failed : p'.failed = p.failed

variable {plain full : ListedEngine} {given : Token} {probed : Capabilities}
  {p p' : ListedEngine.Progress}

theorem Level.close (h : Level good probed b w w' p p')
    (hends : ∀ failed, full.endsWith failed = plain.endsWith failed) (unknown skipped : Nat) :
    (plain.close p).exchanges answer b w = [] ∧
      (full.close p').exchanges answer (b.more unknown skipped) w' = [] ∧
      Outlasts unknown skipped ((plain.close p).drive answer b w)
        ((full.close p').drive answer (b.more unknown skipped) w') := by
  obtain ⟨hending, hstate, hworld, hxs⟩ := plain.drive_close answer p b w
  obtain ⟨hending', hstate', hworld', hys⟩ :=
    full.drive_close answer p' (b.more unknown skipped) w'
  refine ⟨hxs, hys, ?_, ?_, ?_⟩
  · rw [hending, hending', h.failed, hends]
  · rw [hstate, hstate']
  · rw [hworld, hworld', h.world]

theorem Level.added (h : Level good probed b w w' p p') {e : ListedEvent}
    {y : Exchange (Bundle σ)} (hy : y.Passes (e.report given)) (hw : y.world = w') :
    Level good probed b w y.answered.world p
      (p'.sight e y.answered.reply y.answered.world) where
  fit := h.fit
  capabilities := h.capabilities
  world := (hy.world.trans (congrArg World.unnoticed hw)).trans h.world
  failed := by
    rw [ListedEngine.Progress.failed_sight, hy.reply, h.failed]
    exact Bool.or_false _

theorem Level.original (hc : Confined Dealing own good) (h : Level good probed b w w' p p')
    (e : ListedEvent) {unknown skipped : Nat} {a' : Answered (Bundle σ)}
    (ha : Parallel unknown skipped (b.answer (e.report given) w) a') :
    let a := b.answer (e.report given) w
    Level good probed a.state a.world a'.world (p.sight e a.reply a.world)
      (p'.sight e a.reply a'.world) where
  fit := (answer_dealing hc h.fit _ w).2
  capabilities := (answer_alike b _ w).capabilities.trans h.capabilities
  world := ha.world
  failed := by
    rw [ListedEngine.Progress.failed_sight, ListedEngine.Progress.failed_sight, h.failed]

theorem play_abreast (hc : Confined Dealing own good) (hh : Heedless good)
    (hpersistent : full.persistent = plain.persistent)
    (hends : ∀ failed, full.endsWith failed = plain.endsWith failed) {ps : List Placed}
    (unknown skipped : Nat) (h : Level good probed b w w' p p')
    (hidle : ∀ q ∈ ps, q.added = true → q.event.token = .given ∧ q.event.Idle probed)
    (hrouted : ∀ y ∈ (full.play given p' (ps.map Placed.event)).exchanges answer
      (b.more unknown skipped) w', y.world.registry.resolve given = some y.state.id) :
    let alone := plain.play given p (Placed.originals ps)
    let padded := full.play given p' (ps.map Placed.event)
    let xs := alone.exchanges answer b w
    let ys := padded.exchanges answer (b.more unknown skipped) w'
    Abreast plain.persistent given ps xs ys ∧
      Outlasts (unknown + Placed.unknowns (ps.take ys.length))
        (skipped + Placed.skips (ps.take ys.length)) (alone.drive answer b w)
        (padded.drive answer (b.more unknown skipped) w') := by
  dsimp only
  -- The bundles stay equal but for the two counters, which start from any numbers here: each event
  -- that was added takes the second bundle to higher ones.
  induction ps generalizing b w w' p p' unknown skipped with
  | nil =>
    obtain ⟨hxs, hys, hout⟩ := h.close hends unknown skipped
    have hplain : plain.play given p (Placed.originals []) = plain.close p := rfl
    have hfull : full.play given p' ([].map Placed.event) = full.close p' := rfl
    rw [hplain, hfull, hxs, hys]
    exact ⟨.finished, hout⟩
  | cons q ps ih =>
    have hidle' := fun r hr => hidle r (List.mem_cons_of_mem _ hr)
    rw [List.map_cons, ListedEngine.exchanges_play_cons] at hrouted
    obtain ⟨hfirst, hrest⟩ := List.forall_mem_cons.mp hrouted
    rw [List.map_cons, ListedEngine.exchanges_play_cons, ListedEngine.drive_play_cons]
    cases hq : q.added with
    | true =>
      obtain ⟨htoken, hi⟩ := hidle q List.mem_cons_self hq
      rw [← h.capabilities] at hi
      have hr : w'.registry.resolve (q.event.report given).token = some b.id := by
        rw [ListedEvent.report, htoken]
        exact hfirst
      obtain ⟨hpasses, hstate⟩ := answer_idle (b := b.more unknown skipped) hi hr
      have hon : ((b.more unknown skipped).answer (q.event.report given) w').reply.verdict = 0 ∨
          full.persistent = true := .inl (congrArg Reply.verdict hpasses.reply)
      rw [ListedEngine.next_on hon, hstate, more_more] at hrest
      obtain ⟨habreast, hout⟩ := ih _ _ (h.added hpasses rfl) hidle' hrest
      rw [Placed.originals_added ps hq, ListedEngine.next_on hon, hstate, more_more,
        List.length_cons, List.take_succ_cons, (Placed.counts_added _ hq).1,
        (Placed.counts_added _ hq).2, ← Nat.add_assoc, ← Nat.add_assoc]
      exact ⟨.added hq hpasses habreast, hout⟩
    | false =>
      have hasked := fun k => hc.offers_good b.callback k h.fit.callback
      have ha := answer_more hh h.fit.isOpen hasked unknown skipped (q.event.report given) h.world
      have hpair : Exchange.Matches (q.event.report given)
          ⟨q.event.report given, b, w, answer (q.event.report given) b w⟩
          ⟨q.event.report given, b.more unknown skipped, w',
            answer (q.event.report given) (b.more unknown skipped) w'⟩ :=
        ⟨rfl, rfl, ⟨unknown, skipped, rfl⟩, h.world, rfl, ha.reply⟩
      have hlevel := h.original hc q.event ha
      rw [Placed.originals_original ps hq, ListedEngine.exchanges_play_cons,
        ListedEngine.drive_play_cons, List.length_cons, List.take_succ_cons,
        (Placed.counts_original _ hq).1, (Placed.counts_original _ hq).2]
      rw [ha.reply, ha.state] at hrest ⊢
      by_cases hon : (b.answer (q.event.report given) w).reply.verdict = 0 ∨
          plain.persistent = true
      · rw [ListedEngine.next_on (by rwa [hpersistent])] at hrest
        rw [ListedEngine.next_on hon, ListedEngine.next_on (by rwa [hpersistent])]
        obtain ⟨habreast, hout⟩ := ih unknown skipped hlevel hidle' hrest
        exact ⟨.original hq hpair hon habreast, hout⟩
      · obtain ⟨hxs, hys, hout⟩ := hlevel.close hends unknown skipped
        rw [ListedEngine.next_off hon, ListedEngine.next_off (by rwa [hpersistent]), hxs, hys]
        rw [not_or, Bool.not_eq_true] at hon
        exact ⟨.stopped ps hq hpair hon.1 hon.2, hout⟩

theorem scan_outlasts (hopen : b.isClosed = false) {plain full : ListedEngine}
    {unknown skipped : Nat} (h : Outlasts unknown skipped (b.driven plain w) (b.driven full w)) :
    (b.scan full w).result = (b.scan plain w).result.more unknown skipped ∧
      (b.scan full w).bundle = (b.scan plain w).bundle.more unknown skipped ∧
      (b.scan full w).world.unnoticed = (b.scan plain w).world.unnoticed := by
  have hworld := World.unnoticed_withdraw h.world w.registry.nextToken
  rw [scan_open full w hopen, scan_open plain w hopen]
  dsimp only
  rw [h.ending, h.state]
  cases (b.driven plain w).ending with
  | panicked => exact ⟨rfl, rfl, hworld⟩
  | status code => exact conclude_more (b.driven plain w).state unknown skipped code hworld

/-- Events that nobody handles are invisible. A scan in which any number of them stand among the
others makes the same calls, gives the same replies, stops at the same event and leaves the same
result, bundle and memory as the scan without them; only the counters of such events grow, by as
many as were reported. -/
theorem idle_events_invisible (hc : Confined Conduct own good) (hh : Heedless good)
    (hb : good b.callback) (hopen : b.isClosed = false) (hw : w.InOrder) (engine : ListedEngine)
    {ps : List Placed}
    (hidle : ∀ q ∈ ps, q.added = true → q.event.token = .given ∧ q.event.Idle b.capabilities)
    (hroom : (b.scan { engine with events := ps.map Placed.event } w).world.registrations <
      2 ^ 64 - 1) :
    let plain : ListedEngine := { engine with events := Placed.originals ps }
    let full : ListedEngine := { engine with events := ps.map Placed.event }
    let xs := b.transcript plain w
    let ys := b.transcript full w
    let unknown := Placed.unknowns (ps.take ys.length)
    let skipped := Placed.skips (ps.take ys.length)
    Abreast engine.persistent w.registry.nextToken ps xs ys ∧
      ys.filterMap Exchange.heard? = xs.filterMap Exchange.heard? ∧
      (b.scan full w).result = (b.scan plain w).result.more unknown skipped ∧
      (b.scan full w).bundle = (b.scan plain w).bundle.more unknown skipped ∧
      (b.scan full w).world.unnoticed = (b.scan plain w).world.unnoticed := by
  intro plain full xs ys unknown skipped
  have hstart : Level good b.capabilities b.cleared (b.enrol w) (b.enrol w) {} {} :=
    ⟨⟨hopen, hb⟩, rfl, rfl, rfl⟩
  have hrouted := transcript_resolve hc.dealing hb hopen full hw hroom
  have hpersistent : ({ full with lastToken := w.registry.nextToken } : ListedEngine).persistent =
      ({ plain with lastToken := w.registry.nextToken } : ListedEngine).persistent := rfl
  obtain ⟨habreast, hout⟩ := play_abreast hc.dealing hh hpersistent (fun _ => rfl) 0 0 hstart
    hidle hrouted
  rw [Nat.zero_add, Nat.zero_add] at hout
  exact ⟨habreast, habreast.heard, scan_outlasts hopen hout⟩

end Bundle

theorem Supplier.heedless : Heedless fun _ : Supplier => True := fun _ _ _ _ _ h => ⟨rfl, rfl, h⟩

/-- Two requests, the second without its data, among events that no supplier handles. The last of
these is not reported any more. -/
def Placed.mixed : List Placed :=
  [⟨{ code := 99 }, true⟩, ⟨{ code := 4, data := .request none {} }, false⟩, ⟨{ code := 1 }, true⟩,
    ⟨{ code := 4 }, false⟩, ⟨{ code := 3 }, true⟩]

theorem Placed.mixed_idle : ∀ q ∈ mixed, q.added = true →
    q.event.token = .given ∧ q.event.Idle Bundle.unscanned.capabilities := by
  intro q hq hadded
  simp only [mixed, List.mem_cons, List.not_mem_nil, or_false] at hq
  rcases hq with rfl | rfl | rfl | rfl | rfl
  · exact ⟨rfl, nofun⟩
  · cases hadded
  · refine ⟨rfl, fun kind hkind => ?_⟩
    cases hkind
    rfl
  · cases hadded
  · refine ⟨rfl, fun kind hkind => ?_⟩
    cases hkind
    rfl

theorem Bundle.idle_events_invisible_supplier :
    let engine : ListedEngine := { events := Placed.mixed.map Placed.event }
    (unscanned.scan engine {}).world.registrations < 2 ^ 64 - 1 ∧
      (unscanned.scan engine {}).result = .failed (.missingEventData .importModule) ∧
      (unscanned.scan engine {}).bundle.callback = ⟨[1, 2], 1⟩ ∧
      (unscanned.scan engine {}).bundle.stats =
        { importsRequested := 1, unknown := 1, skipped := 1, importBuffers := 1,
          importBytes := 2 } := by
  intro engine
  have hroom : (unscanned.scan engine {}).world.registrations < 2 ^ 64 - 1 := by decide
  obtain ⟨_, _, hresult, hbundle, _⟩ := idle_events_invisible (w := {}) Supplier.confined
    Supplier.heedless trivial rfl World.inOrder_new { events := [] }
    Placed.mixed_idle hroom
  refine ⟨hroom, ?_, ?_, ?_⟩
  · exact hresult.trans (by decide)
  · exact (congrArg Bundle.callback hbundle).trans (by decide)
  · exact (congrArg Bundle.stats hbundle).trans (by decide)

end ScanBridge
