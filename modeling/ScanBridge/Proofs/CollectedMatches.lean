import ScanBridge.Proofs.RuleLayout
import ScanBridge.Proofs.ScriptedScan
import ScanBridge.Proofs.TokenTable

namespace ScanBridge

variable {σ ε : Type}

namespace World

/-- Nothing but notices was added to a world. -/
structure Told (w w' : World) : Prop where
  heap : w'.heap = w.heap
  registry : w'.registry = w.registry

namespace Told

variable {w w' w'' : World}

theorem refl (w : World) : w.Told w := ⟨rfl, rfl⟩

theorem trans (h : w.Told w') (h' : w'.Told w'') : w.Told w'' :=
  ⟨h'.heap.trans h.heap, h'.registry.trans h.registry⟩

theorem notify (h : w.Told w') (n : Notice) : w.Told (w'.notify n) := ⟨h.heap, h.registry⟩

theorem metas (w : World) (r : Layout.Rule) : w.Told (w.notifyUnknownMetas r) :=
  List.foldlRecOn (motive := w.Told) r.unknownMetas _ (refl w) fun _ h m _ =>
    h.notify (.unknownMeta m.1 m.2)

end Told

end World

/-- Calls of the callback leave the world as it is, but for notices. -/
def Watches (σ : Type) [ScanCallback σ] : Prop :=
  ∀ (s : σ) (call : Call) (w : World), w.Told (ScanCallback.call s call w).world

namespace Bundle

variable [ScanCallback σ] {b b' : Bundle σ} {w w' : World} {xs : List (Exchange (Bundle σ))}

omit [ScanCallback σ] in
theorem settle_told (b : Bundle σ) (outcome : Except BridgeError Control) (w : World) :
    w.Told (b.settle outcome w).2 := by
  rcases b.settle_world outcome w with hw | ⟨n, hw⟩
  · rw [hw]
    exact .refl w
  · rw [hw]
    exact (World.Told.refl w).notify n

theorem invoke_told (hcall : Watches σ) (b : Bundle σ) {call : Call}
    (hkind : call.kind ≠ .importModule) (slot : Slot) (w : World) :
    w.Told (b.invoke call slot w).world ∧ (b.invoke call slot w).bundle.tracker = b.tracker ∧
      (b.invoke call slot w).slot = slot := by
  cases ho : (ScanCallback.offers b.callback call.kind).1 with
  | false =>
    rw [invoke_unheard b call slot w ho]
    exact ⟨.refl w, rfl, rfl⟩
  | true =>
    have hsupply : ∀ outcome : Outcome, outcome.supply? call = none := by
      intro outcome
      cases outcome <;> cases call <;> first | rfl | exact absurd rfl hkind
    rw [invoke_heard b call slot w ho]
    simp only [hsupply]
    exact ⟨hcall _ call w, rfl, trivial⟩

theorem handle_told (hcall : Watches σ) (hprobed : b.capabilities.importModule = false) (e : Event)
    (w : World) :
    w.Told (b.handle e w).world ∧ (b.handle e w).state.tracker = b.tracker ∧
      (b.handle e w).reply.slot = e.data.slot := by
  cases hf : e.fate b.capabilities with
  | unknown =>
    rw [handle_unknown w hf]
    exact ⟨(World.Told.refl w).notify _, rfl, rfl⟩
  | skipped =>
    rw [handle_skipped w hf]
    exact ⟨.refl w, rfl, rfl⟩
  | incomplete kind =>
    have htracker := congrArg Bundle.tracker (settle_eq b (.error (.missingEventData kind)) w)
    rw [handle_incomplete w hf]
    exact ⟨(settle_told b (.error (.missingEventData kind)) w).notify _, htracker, rfl⟩
  | delivered kind =>
    obtain ⟨_, hhas, call, hc, rfl⟩ := Event.fate_delivered hf
    have hkind : call.kind ≠ .importModule := by
      intro hk
      rw [hk] at hhas
      exact Bool.false_ne_true (hprobed.symm.trans hhas)
    obtain ⟨htold, htracker, hslot⟩ := invoke_told hcall b hkind e.data.slot w
    rw [handle_delivered w hf hc]
    refine ⟨(htold.trans (settle_told ..)).notify _, ?_, hslot⟩
    exact (congrArg Bundle.tracker (settle_eq ..)).trans htracker

theorem answer_told (hcall : Watches σ) (hprobed : b.capabilities.importModule = false) (e : Event)
    (w : World) :
    w.Told (b.answer e w).world ∧ (b.answer e w).state.tracker = b.tracker ∧
      (b.answer e w).reply.slot = e.data.slot := by
  unfold answer
  split
  · exact ⟨(World.Told.refl w).notify _, rfl, rfl⟩
  · split
    · exact handle_told hcall hprobed e w
    · exact ⟨.refl w, rfl, rfl⟩

theorem chain_told (hcall : Watches σ) (hprobed : b.capabilities.importModule = false)
    (h : Chain answer b w xs b' w') :
    (∀ x ∈ xs, w.Told x.world ∧ x.answered.reply.slot = x.event.data.slot) ∧
      w.Told w' ∧ b'.tracker = b.tracker := by
  obtain ⟨hxs, _, hend⟩ := h.invariant
    (P := fun c v => b.Alike c ∧ w.Told v ∧ c.tracker = b.tracker)
    (fun _ _ n hc => ⟨hc.1, hc.2.1.notify n, hc.2.2⟩)
    (fun e c v hc => by
      have hprobed' : c.capabilities.importModule = false := by rw [hc.1.capabilities, hprobed]
      obtain ⟨htold, htracker, _⟩ := answer_told hcall hprobed' e v
      exact ⟨hc.1.trans (answer_alike c e v), hc.2.1.trans htold, htracker.trans hc.2.2⟩)
    ⟨⟨rfl, rfl, rfl⟩, .refl w, rfl⟩
  refine ⟨?_, hend⟩
  intro x hx
  obtain ⟨halike, htold, _⟩ := hxs x hx
  have hprobed' : x.state.capabilities.importModule = false := by
    rw [halike.capabilities, hprobed]
  rw [h.answered hx]
  exact ⟨htold, (answer_told hcall hprobed' x.event x.world).2.2⟩

theorem scan_told [Engine ε] (hcall : Watches σ) (hprobed : b.capabilities.importModule = false)
    (engine : ε) (w : World) :
    (∀ x ∈ b.transcript engine w, (b.enrol w).Told x.world ∧
        x.answered.reply.slot = x.event.data.slot) ∧
      (b.enrol w).Told (b.driven engine w).world ∧
      (b.driven engine w).state.tracker = b.tracker :=
  chain_told (b := b.cleared) hcall hprobed (b.transcript_chain engine w)

theorem watching_routed (hcall : Watches σ) (hprobed : b.capabilities.importModule = false)
    (engine : ScriptedEngine) (w : World) :
    (b.transcript engine w).filter (·.routed) = b.transcript engine w := by
  apply List.filter_eq_self.mpr
  intro x hx
  have hregistry := ((scan_told hcall hprobed engine w).1 x hx).1.registry
  have hid : x.state.id = b.id := ((chain_alike (b.transcript_chain engine w)).1 x hx).id
  obtain ⟨e, _, he⟩ := scripted_event hx
  have hresolve : x.world.registry.resolve x.event.token = some x.state.id := by
    rw [hregistry, he, ScriptedEngine.event_token, hid]
    exact w.registry.resolve_register b.id
  exact decide_eq_true hresolve

end Bundle

namespace ScriptedEngine

theorem suits_event (token : Token) {e : EventSpec} {kind : EventKind} (h : e.kind = .named kind) :
    (event token e).data.suits kind = true := by
  cases kind <;> simp [event, h, KindSpec.named?, EventData.suits]

theorem fate_named (token : Token) {e : EventSpec} {kind : EventKind} (h : e.kind = .named kind)
    (probed : Capabilities) :
    (event token e).fate probed = if probed.has kind then .delivered kind else .skipped := by
  simp [Event.fate, suits_event token h, event_code, h, KindSpec.code]

theorem fate_raw (token : Token) {e : EventSpec} {code : Int32} (h : e.kind = .raw code)
    (probed : Capabilities) :
    (event token e).fate probed =
      match EventKind.ofCode? code with
      | none => .unknown
      | some kind =>
        if probed.has kind then
          if kind = .scanFinished then .delivered kind else .incomplete kind
        else .skipped := by
  have hdata : (event token e).data = .null := by simp [event, h, KindSpec.named?]
  cases hcode : EventKind.ofCode? code <;>
    simp [Event.fate, event_code, h, KindSpec.code, hcode, hdata, EventData.suits_null]

end ScriptedEngine

namespace MatchRecorder

def probed : Capabilities := .ofList [.ruleMatching]

theorem watches : Watches MatchRecorder := by
  intro r call w
  cases call with
  | ruleMatching ctx rule => exact .metas w rule
  | _ => exact .refl w

variable {b : Bundle MatchRecorder} {w : World}

theorem ruling_eq (b : Bundle MatchRecorder) (e : Event) (w : World) :
    b.ruling e w =
      match e.fate b.capabilities with
      | .incomplete kind => .error (.missingEventData kind)
      | _ => .ok .continue := by
  have houtcome : ∀ (r : MatchRecorder) (call : Call) (w : World),
      (ScanCallback.call r call w).outcome = .answer .continue [] := by
    intro r call w
    cases call <;> rfl
  unfold Bundle.ruling
  cases e.fate b.capabilities with
  | delivered kind =>
    cases hr : b.reaction? e w with
    | none => rfl
    | some reaction =>
      obtain ⟨call, _, rfl⟩ := Option.map_eq_some_iff.mp hr
      simp only [houtcome, Outcome.ruling]
  | _ => rfl

theorem ruling_event (hb : b.capabilities = probed) (token : Token) (e : EventSpec) (w : World) :
    b.ruling (ScriptedEngine.event token e) w =
      if e.kind = .raw 1 then .error (.missingEventData .ruleMatching) else .ok .continue := by
  rw [ruling_eq, hb]
  cases hk : e.kind with
  | named kind =>
    rw [ScriptedEngine.fate_named token hk]
    cases kind <;> rfl
  | raw code =>
    rw [ScriptedEngine.fate_raw token hk]
    cases hcode : EventKind.ofCode? code with
    | none =>
      have hne : code ≠ 1 := by
        rintro rfl
        cases hcode.symm.trans (EventKind.ofCode?_code .ruleMatching)
      simp [hne]
    | some kind =>
      rw [EventKind.ofCode?_eq_some_iff] at hcode
      subst hcode
      cases kind <;> decide

theorem heard_event (hb : b.capabilities = probed) (token : Token) (e : EventSpec) :
    b.heard? (ScriptedEngine.event token e) =
      if e.kind = .named .ruleMatching then
        some (.ruleMatching (some e.layoutContext) e.layoutRule)
      else none := by
  unfold Bundle.heard?
  rw [hb]
  cases hk : e.kind with
  | named kind =>
    rw [ScriptedEngine.fate_named token hk]
    cases kind with
    | ruleMatching =>
      simp [probed, Capabilities.ofList, ScanCallback.offers, Event.call?, ScriptedEngine.event, hk,
        KindSpec.named?]
    | _ => rfl
  | raw code =>
    rw [ScriptedEngine.fate_raw token hk]
    cases hcode : EventKind.ofCode? code with
    | none => rfl
    | some kind => cases kind <;> rfl

def note : Call → List MatchRecord
  | .ruleMatching ctx rule => [MatchRecord.capture ctx rule]
  | _ => []

theorem call_records (r : MatchRecorder) (call : Call) (w : World) :
    (ScanCallback.call r call w).state.records = r.records ++ note call := by
  cases call <;> simp [ScanCallback.call, note]

theorem notes_events (hb : b.capabilities = probed) (token : Token) {events : List EventSpec}
    (hback : ∀ e ∈ events, e.ReadsBack) :
    (events.filterMap fun e => b.heard? (ScriptedEngine.event token e)).flatMap note =
      (events.filter (·.kind = .named .ruleMatching)).map EventSpec.record := by
  induction events with
  | nil => rfl
  | cons e events ih =>
    have hrest := ih fun f hf => hback f (List.mem_cons_of_mem _ hf)
    have hrecord := (hback e List.mem_cons_self).capture
    have hheard := heard_event hb token e
    by_cases hk : e.kind = .named .ruleMatching
    · simp [hheard, hk, hrest, note, hrecord]
    · simp [hheard, hk, hrest]

/-- A run leaves one record for each matching rule, in the order of the events. -/
theorem records_chain {b' : Bundle MatchRecorder} {w' : World}
    {xs : List (Exchange (Bundle MatchRecorder))} (hb : b.capabilities = probed)
    (h : Chain Bundle.answer b w xs b' w') (hrouted : xs.filter (·.routed) = xs) {token : Token}
    {events : List EventSpec} (hback : ∀ e ∈ events, e.ReadsBack)
    (hevents : xs.map Exchange.event = events.map (ScriptedEngine.event token)) :
    b'.callback.records = b.callback.records ++
      (events.filter (·.kind = .named .ruleMatching)).map EventSpec.record := by
  have hheard : xs.filterMap Exchange.heard? = (xs.map Exchange.event).filterMap b.heard? := by
    rw [List.filterMap_map]
    apply List.filterMap_congr
    intro x hx
    have hcapabilities := ((Bundle.chain_alike h).1 x hx).capabilities
    simp only [Exchange.heard?, Bundle.heard?, Function.comp_apply, hcapabilities]
    rfl
  rw [Bundle.chain_notes MatchRecorder.records note (fun _ _ => rfl) call_records h, hrouted,
    hheard, hevents, List.filterMap_map]
  exact congrArg _ (notes_events hb token hback)

end MatchRecorder

def collector (w : World) : Bundle MatchRecorder where
  id := w.nextBundle
  callback := {}
  capabilities := MatchRecorder.probed

def World.collecting (w : World) : World := { w with nextBundle := w.nextBundle + 1 }

theorem new_collector (w : World) :
    Bundle.new ({} : MatchRecorder) {} w = (collector w, w.collecting) := rfl

section Collecting

variable (engine : ScriptedEngine) (w : World)

theorem collector_routed :
    ((collector w).transcript engine w.collecting).filter (·.routed) =
      (collector w).transcript engine w.collecting :=
  Bundle.watching_routed MatchRecorder.watches rfl engine w.collecting

theorem collector_ruling {x : Exchange (Bundle MatchRecorder)}
    (hx : x ∈ (collector w).transcript engine w.collecting) {token : Token} {e : EventSpec}
    (he : x.event = ScriptedEngine.event token e) :
    x.ruling =
      if e.kind = .raw 1 then .error (.missingEventData .ruleMatching) else .ok .continue := by
  have hcapabilities := ((Bundle.chain_alike
    ((collector w).transcript_chain engine w.collecting)).1 x hx).capabilities
  rw [Exchange.ruling, he]
  exact MatchRecorder.ruling_event hcapabilities token e x.world

theorem collector_engine :
    ((collector w).scan engine w.collecting).engine = { engine with
      emissions := ((collector w).transcript engine w.collecting).map Exchange.emission
      imports := []
      intact := true } := by
  have hkept : ((collector w).transcript engine w.collecting).filterMap Exchange.kept? = [] := by
    rw [List.filterMap_eq_nil_iff]
    intro x hx
    have hslot := ((Bundle.scan_told MatchRecorder.watches rfl engine w.collecting).1 x hx).2
    obtain ⟨e, _, he⟩ := Bundle.scripted_event hx
    rw [he, ScriptedEngine.event_slot] at hslot
    exact x.kept?_eq_none (by rw [hslot])
  rw [Bundle.scan_engine engine w.collecting rfl, (Bundle.scripted_run ..).2]
  simp [ScriptedEngine.account, ScriptedEngine.Progress.after, hkept]

theorem collector_passed {xs : List (Exchange (Bundle MatchRecorder))}
    (hsub : xs ⊆ (collector w).transcript engine w.collecting)
    (hpassed : ∀ x ∈ xs, x.ruling = .ok .continue) {token : Token} {events : List EventSpec}
    (hevents : xs.map Exchange.event = events.map (ScriptedEngine.event token)) :
    (∀ e ∈ events, e.kind ≠ .raw 1) ∧
      xs.map Exchange.emission = events.map fun e => ⟨e.kind.code, some .continue⟩ := by
  refine ⟨?_, ?_⟩
  · intro e he hk
    have hmem : ScriptedEngine.event token e ∈ xs.map Exchange.event := by
      rw [hevents]
      exact List.mem_map_of_mem he
    obtain ⟨x, hx, heq⟩ := List.mem_map.mp hmem
    have hruling := hpassed x hx
    rw [collector_ruling engine w (hsub hx) heq, if_pos hk] at hruling
    cases hruling
  · rw [Bundle.routed_passed (collector_routed engine w) hpassed hsub, hevents]
    simp

/-- A script is played to its end, or to the first event that is to be a matching rule but comes
without data. -/
theorem collector_cases :
    let scanned := (collector w).scan engine w.collecting
    ((∀ e ∈ engine.script.events, e.kind ≠ .raw 1) ∧
        ((collector w).transcript engine w.collecting).map Exchange.event =
          engine.script.events.map (ScriptedEngine.event w.registry.nextToken) ∧
        scanned.engine.emissions =
          (engine.script.events.map fun e => ⟨e.kind.code, some .continue⟩) ∧
        ∃ stats, scanned.result = .completed ⟨false, stats⟩) ∨
      ∃ pre e post, engine.script.events = pre ++ e :: post ∧ (∀ f ∈ pre, f.kind ≠ .raw 1) ∧
        e.kind = .raw 1 ∧
        scanned.engine.emissions =
          (pre.map fun f => ⟨f.kind.code, some .continue⟩) ++ [⟨1, some .error⟩] ∧
        scanned.result = .failed (.missingEventData .ruleMatching) := by
  have hrouted := collector_routed engine w
  have hplayed := (Bundle.scripted_run (collector w) engine w.collecting).1
  obtain ⟨xs, hpassed, hcases⟩ := Bundle.routed_cases rfl hrouted
  dsimp only
  rw [collector_engine]
  rcases hcases with ⟨hxs, hevents, hresult⟩ | ⟨x, hxs, hx, _⟩ | ⟨x, why, hxs, hx, hresult⟩
  · obtain ⟨hkinds, hemissions⟩ :=
      collector_passed engine w (hxs ▸ List.Subset.refl _) hpassed hevents
    exact .inl ⟨hkinds, hxs ▸ hevents, hxs ▸ hemissions, _, hresult⟩
  -- The last event cannot have been an abort: a recorder goes on, or it fails.
  · rw [hxs] at hplayed
    obtain ⟨_, e, _, _, _, he⟩ := hplayed.last
    rw [collector_ruling engine w (by simp [hxs]) he] at hx
    split at hx <;> cases hx
  · rw [hxs] at hplayed
    obtain ⟨pre, e, post, hscript, hevents, he⟩ := hplayed.last
    obtain ⟨hkinds, hemissions⟩ := collector_passed engine w (by simp [hxs]) hpassed hevents
    have hruling := collector_ruling engine w (by simp [hxs]) he
    have hk : e.kind = .raw 1 := by
      by_contra hne
      rw [if_neg hne, hx] at hruling
      cases hruling
    rw [if_pos hk, hx] at hruling
    refine .inr ⟨pre, e, post, hscript, hkinds, hk, ?_, ?_⟩
    · have hlast := Bundle.routed_emission hrouted x (by simp [hxs])
      rw [hxs, List.map_append, hemissions, List.map_singleton, hlast, hx, he]
      simp [hk, KindSpec.code, Verdict.ofOutcome]
    · rw [hresult, ← Except.error.inj hruling]

/-- The collector adds nothing to the heap, and no token stays live for it. -/
theorem collector_left :
    let scanned := (collector w).scan engine w.collecting
    let left := scanned.bundle.discard scanned.world
    left.heap = w.heap ∧
      left.registry.live = w.registry.live.filter (·.1 ≠ w.registry.nextToken) := by
  obtain ⟨_, htold, htracker⟩ :=
    Bundle.scan_told (b := collector w) MatchRecorder.watches rfl engine w.collecting
  dsimp only
  rw [Bundle.discard, World.release_heap, World.release_registry, Bundle.scan_tracker rfl,
    htracker, Bundle.scan_heap rfl, htold.heap, Bundle.scan_registry rfl, htold.registry]
  exact ⟨rfl, w.registry.live_release_register _⟩

theorem scanMatches_engine :
    (scanMatches engine w).2.1 = { engine with
      emissions := ((collector w).transcript engine w.collecting).map Exchange.emission
      imports := []
      intact := true } := by
  rw [← collector_engine]
  unfold scanMatches
  rw [new_collector]
  dsimp only
  split <;> rfl

theorem scanMatches_world :
    let left := (scanMatches engine w).2.2
    left.heap = w.heap ∧
      left.registry.live = w.registry.live.filter (·.1 ≠ w.registry.nextToken) := by
  have hleft := collector_left engine w
  unfold scanMatches
  rw [new_collector]
  dsimp only
  split <;> exact hleft

theorem scanMatches_once (hfit : ∀ e ∈ engine.script.events, e.Fits) :
    let collected := scanMatches engine w
    ((∀ e ∈ engine.script.events, e.kind ≠ .raw 1) ∧
        collected.1 = .records ((engine.script.events.filter
          (·.kind = .named .ruleMatching)).map EventSpec.record) ∧
        collected.2.1 = { engine with
          emissions := engine.script.events.map fun e => ⟨e.kind.code, some .continue⟩
          imports := []
          intact := true }) ∨
      ∃ pre e post, engine.script.events = pre ++ e :: post ∧ (∀ f ∈ pre, f.kind ≠ .raw 1) ∧
        e.kind = .raw 1 ∧ collected.1 = .failed (.missingEventData .ruleMatching) ∧
        collected.2.1 = { engine with
          emissions := (pre.map fun f => ⟨f.kind.code, some .continue⟩) ++ [⟨1, some .error⟩]
          imports := []
          intact := true } := by
  have hopen : (collector w).isClosed = false := rfl
  have hengine := collector_engine engine w
  unfold scanMatches
  rw [new_collector]
  dsimp only
  rcases collector_cases engine w with ⟨hkinds, hevents, hemissions, stats, hresult⟩ |
    ⟨pre, e, post, hscript, hkinds, hk, hemissions, hresult⟩
  · have hback : ∀ e ∈ engine.script.events, e.ReadsBack :=
      fun e he => EventSpec.readsBack engine.valid he (hfit e he)
    have hrecords := MatchRecorder.records_chain rfl
      ((collector w).transcript_chain engine w.collecting) (collector_routed engine w) hback hevents
    obtain ⟨⟨error, hbundle⟩, _⟩ := Bundle.scan_left engine w.collecting hopen
    rw [hengine] at hemissions
    rw [hresult, hbundle, hengine, hrecords]
    dsimp only at hemissions ⊢
    rw [hemissions]
    exact .inl ⟨hkinds, rfl, rfl⟩
  · rw [hengine] at hemissions
    rw [hresult, hengine]
    dsimp only at hemissions ⊢
    rw [hemissions]
    exact .inr ⟨pre, e, post, hscript, hkinds, hk, rfl, rfl⟩

end Collecting

theorem first_unique {α : Type} {p : α → Prop} {pre pre' post post' : List α} {a a' : α}
    (h : pre ++ a :: post = pre' ++ a' :: post') (hpre : ∀ x ∈ pre, ¬p x)
    (hpre' : ∀ x ∈ pre', ¬p x) (ha : p a) (ha' : p a') : pre = pre' := by
  classical
  have hfirst : ∀ {l m : List α} {b : α}, (∀ x ∈ l, ¬p x) → p b →
      (l ++ b :: m).takeWhile (fun x => ¬p x) = l := by
    intro l m b hl hb
    rw [List.takeWhile_append_of_pos (by simpa using hl),
      List.takeWhile_cons_of_neg (by simpa using hb), List.append_nil]
  rw [← hfirst hpre ha, h, hfirst hpre' ha']

/-- Collects the matches of an engine so many times, each time with the engine and the world that
the time before left. -/
def collectedAgain (n : Nat) (engine : ScriptedEngine) (w : World) : ScriptedEngine × World :=
  (fun p => (scanMatches p.1 p.2).2)^[n] (engine, w)

theorem collectedAgain_succ (n : Nat) (engine : ScriptedEngine) (w : World) :
    collectedAgain (n + 1) engine w =
      (scanMatches (collectedAgain n engine w).1 (collectedAgain n engine w).2).2 :=
  Function.iterate_succ_apply' ..

theorem collectedAgain_keeps (n : Nat) (engine : ScriptedEngine) (w : World) :
    let left := collectedAgain n engine w
    left.1.script = engine.script ∧ left.2.heap = w.heap ∧
      left.2.registry.live ⊆ w.registry.live := by
  induction n with
  | zero => exact ⟨rfl, rfl, List.Subset.refl _⟩
  | succ n ih =>
    obtain ⟨hscript, hheap, hlive⟩ := ih
    obtain ⟨hheap', hlive'⟩ :=
      scanMatches_world (collectedAgain n engine w).1 (collectedAgain n engine w).2
    dsimp only
    rw [collectedAgain_succ, hheap', hlive', scanMatches_engine]
    exact ⟨hscript, hheap, List.Subset.trans List.filter_sublist.subset hlive⟩

/-- Collecting the matches of a script comes to the same however often it is done: one record for
each matching rule, or a failure at the first event that is to be one but comes without data. The
engine shows the events up to there, and nothing is left behind. -/
theorem scanMatches_exact (engine : ScriptedEngine)
    (hfit : ∀ e ∈ engine.script.events, e.Fits) (w : World) (n : Nat) :
    let before := collectedAgain n engine w
    let collected := scanMatches before.1 before.2
    (∀ pre e post, engine.script.events = pre ++ e :: post → (∀ f ∈ pre, f.kind ≠ .raw 1) →
        e.kind = .raw 1 →
        collected.1 = .failed (.missingEventData .ruleMatching) ∧
        collected.2.1 = { engine with
          emissions := (pre.map fun f => ⟨f.kind.code, some .continue⟩) ++ [⟨1, some .error⟩]
          imports := []
          intact := true }) ∧
      ((∀ e ∈ engine.script.events, e.kind ≠ .raw 1) →
        collected.1 = .records ((engine.script.events.filter
          (·.kind = .named .ruleMatching)).map EventSpec.record) ∧
        collected.2.1 = { engine with
          emissions := engine.script.events.map fun e => ⟨e.kind.code, some .continue⟩
          imports := []
          intact := true }) ∧
      collected.2.2.heap = w.heap ∧ collected.2.2.registry.live ⊆ w.registry.live ∧
      (before.2.InOrder → collected.2.2.live = before.2.live) := by
  obtain ⟨hscript, hheap, hlive⟩ := collectedAgain_keeps n engine w
  dsimp only
  generalize collectedAgain n engine w = before at hscript hheap hlive ⊢
  obtain ⟨hheap', hlive'⟩ := scanMatches_world before.1 before.2
  have honce := scanMatches_once before.1 before.2 (hscript ▸ hfit)
  simp only [hscript] at honce
  refine ⟨?_, ?_, hheap'.trans hheap, ?_, ?_⟩
  · intro pre e post hevents hkinds hk
    rcases honce with ⟨hnone, _⟩ | ⟨pre', e', post', hevents', hkinds', hk', hresult, hengine⟩
    · exact absurd hk (hnone e (by simp [hevents]))
    · have hpre : pre = pre' :=
        first_unique (p := fun f => f.kind = .raw 1) (hevents.symm.trans hevents') hkinds hkinds'
          hk hk'
      subst hpre
      exact ⟨hresult, hengine⟩
  · intro hkinds
    rcases honce with ⟨_, hresult, hengine⟩ | ⟨pre, e, post, hevents, _, hk, _⟩
    · exact ⟨hresult, hengine⟩
    · exact absurd hk (hkinds e (by simp [hevents]))
  · rw [hlive']
    exact List.Subset.trans List.filter_sublist.subset hlive
  · intro horder
    rw [horder.live_without_next] at hlive'
    simp only [World.live, Registry.size, hlive', hheap']

def ScriptedEngine.mixed : ScriptedEngine where
  script := ⟨[(EventSpec.ruleMatching "r").stringMatch "$a" 7 "x", .raw 2, .importModule "m",
    .ruleNotMatching "q", .raw 99, .scanFinished, .ruleMatching "r"]⟩
  valid := by decide

/-- In the middle stands an event that is to be a matching rule but comes without data. -/
def ScriptedEngine.broken : ScriptedEngine where
  script := ⟨[.ruleMatching "r", .raw 5, .raw 1, .ruleMatching "r"]⟩
  valid := by decide

theorem scanMatches_exact_thrice :
    (∀ e ∈ ScriptedEngine.mixed.script.events, e.Fits) ∧
      (∀ e ∈ ScriptedEngine.broken.script.events, e.Fits) ∧
      (let left := collectedAgain 2 ScriptedEngine.mixed {}
      (scanMatches left.1 left.2).1 =
        .records [⟨"r", "default", [], .empty, [⟨"$a", 0, 7, [0x78]⟩]⟩,
          ⟨"r", "default", [], .empty, []⟩]) ∧
      let left := collectedAgain 2 ScriptedEngine.broken {}
      (scanMatches left.1 left.2).1 = .failed (.missingEventData .ruleMatching) ∧
        (scanMatches left.1 left.2).2.1.emissions =
          [⟨1, some .continue⟩, ⟨5, some .continue⟩, ⟨1, some .error⟩] := by
  have hmixed : ∀ e ∈ ScriptedEngine.mixed.script.events, e.Fits := by decide
  have hbroken : ∀ e ∈ ScriptedEngine.broken.script.events, e.Fits := by decide
  obtain ⟨_, hrecords, _⟩ := scanMatches_exact ScriptedEngine.mixed hmixed {} 2
  obtain ⟨hfailed, _⟩ := scanMatches_exact ScriptedEngine.broken hbroken {} 2
  obtain ⟨hresult, hengine⟩ := hfailed [.ruleMatching "r", .raw 5] (.raw 1) [.ruleMatching "r"]
    rfl (by decide) rfl
  exact ⟨hmixed, hbroken, (hrecords (by decide)).1.trans (by decide), hresult,
    congrArg ScriptedEngine.emissions hengine⟩

end ScanBridge
