import Mathlib.Data.List.Basic
import ScanBridge.Proofs.ScanResult

namespace ScanBridge

variable {σ ε : Type} [ScanCallback σ]

def Fate.isIncomplete : Fate → Bool
  | .incomplete _ => true
  | _ => false

theorem Fate.isIncomplete_iff {fate : Fate} :
    fate.isIncomplete = true ↔ ∃ kind, fate = .incomplete kind := by
  cases fate <;> simp [Fate.isIncomplete]

/-- What answering an event for the bundle does, by what becomes of the event. A delivered event
moves one counter, those of import buffers apart, and leads to one call if the callback still offers
to take it. -/
def Exchange.FollowsFate (x : Exchange (Bundle σ)) : Fate → Prop
  | .unknown =>
    x.answered.reply.verdict = Verdict.continue.code ∧
      x.answered.state = { x.state with
        stats := { x.state.stats with unknown := x.state.stats.unknown + 1 } }
  | .skipped =>
    x.answered.reply.verdict = Verdict.continue.code ∧
      x.answered.state = { x.state with
        stats := { x.state.stats with skipped := x.state.stats.skipped + 1 } } ∧
      x.answered.world = x.world ∧
      ∀ data, x.state.answer { x.event with data } x.world =
        { x.answered with reply := ⟨Verdict.continue.code, data.slot⟩ }
  | .incomplete kind =>
    x.answered.reply.verdict = Verdict.error.code ∧
      x.answered.state = { x.state with
        error := x.state.error.or (some (.missingEventData kind)) }
  | .delivered kind =>
    ∃ call, x.event.call? kind = some call ∧ call.kind = kind ∧
      x.answered.state.stats.ofEvents = (x.state.stats.count kind).ofEvents ∧
      match ScanCallback.offers x.state.callback kind with
      | (true, asked) =>
        let reaction := ScanCallback.call asked call x.world
        let ruling := reaction.outcome.ruling kind
        x.answered.state.callback = reaction.state ∧
          x.answered.reply.verdict = (Verdict.ofOutcome ruling).code ∧
          x.answered.state.error = x.state.error.or (raised? ruling)
      | (false, asked) =>
        x.answered.state.callback = asked ∧
          x.answered.reply.verdict = Verdict.continue.code ∧
          x.answered.state.error = x.state.error

namespace Bundle

variable {b b' : Bundle σ} {w w' : World} {xs : List (Exchange (Bundle σ))}

theorem chain_followsFate (h : Chain answer b w xs b' w') {x : Exchange (Bundle σ)} (hx : x ∈ xs)
    (hr : x.routed = true) : x.FollowsFate x.fate := by
  have hown : x.world.registry.resolve x.event.token = some x.state.id := by
    simpa [Exchange.routed] using hr
  have hanswered := h.answered hx
  rw [answer_routed hown] at hanswered
  obtain ⟨hverdict, hstate⟩ := handle_account x.state x.event x.world
  rw [← hanswered] at hverdict hstate
  have hcallback := congrArg Bundle.callback hstate
  have hstats := congrArg Bundle.stats hstate
  have herror : x.answered.state.error =
      x.state.error.or (raised? (x.state.ruling x.event x.world)) := congrArg Bundle.error hstate
  cases hf : x.fate with
  | unknown =>
    simp only [Exchange.FollowsFate, hanswered, handle_unknown x.world hf, Stats.tally, and_self]
  | skipped =>
    refine ⟨?_, ?_, ?_, ?_⟩
    · rw [hanswered, handle_skipped x.world hf]
    · rw [hanswered, handle_skipped x.world hf]
      rfl
    · rw [hanswered, handle_skipped x.world hf]
    · intro data
      -- The data of a skipped event is not looked at, so any other makes no difference.
      have hf' : ({ x.event with data } : Event).fate x.state.capabilities = .skipped := by
        obtain ⟨kind, hk, hp⟩ := Event.fate_skipped hf
        simp [Event.fate, hk, hp]
      have hanswer := answer_routed (e := { x.event with data }) hown
      rw [hanswer, handle_skipped x.world hf', hanswered, handle_skipped x.world hf]
  | incomplete kind =>
    refine ⟨?_, ?_⟩
    · rw [hanswered, handle_incomplete x.world hf]
    · rw [hanswered, handle_incomplete x.world hf]
      simpa [settle, raised?, Verdict.ofOutcome] using
        settle_eq x.state (.error (.missingEventData kind)) x.world
  | delivered kind =>
    obtain ⟨_, _, call, hcall, hkind⟩ := Event.fate_delivered hf
    have hf' : x.event.fate x.state.capabilities = .delivered kind := hf
    refine ⟨call, hcall, hkind, ?_, ?_⟩
    · simpa [account, hf', Stats.tally, sansImports] using hstats
    · cases ho : ScanCallback.offers x.state.callback kind with
      | mk offered asked =>
        cases offered with
        | true =>
          have hreaction : x.state.reaction? x.event x.world =
              some (ScanCallback.call asked call x.world) := by
            simp [reaction?, heard?, hf', ho, hcall, hkind]
          have hruling : x.state.ruling x.event x.world =
              (ScanCallback.call asked call x.world).outcome.ruling kind := by
            simp [ruling, hf', hreaction]
          have hleft : (x.state.account x.event x.world).callback =
              (ScanCallback.call asked call x.world).state := by
            simp [account, hf', hreaction]
          rw [hruling] at hverdict herror
          exact ⟨hcallback.trans hleft, hverdict, herror⟩
        | false =>
          have hreaction : x.state.reaction? x.event x.world = none := by
            simp [reaction?, heard?, hf', ho]
          have hruling : x.state.ruling x.event x.world = .ok .continue := by
            simp [ruling, hf', hreaction]
          have hleft : (x.state.account x.event x.world).callback = asked := by
            simp [account, hf', hreaction, ho]
          rw [hruling] at hverdict herror
          exact ⟨hcallback.trans hleft, hverdict, herror.trans (Option.or_none ..)⟩

theorem handle_notes {ν : Type} (notes : σ → List ν) (note : Call → List ν)
    (hoffers : ∀ s kind, notes (ScanCallback.offers s kind).2 = notes s)
    (hcall : ∀ s call w, notes (ScanCallback.call s call w).state = notes s ++ note call)
    (b : Bundle σ) (e : Event) (w : World) :
    notes (b.handle e w).state.callback =
      notes b.callback ++ (b.heard? e).toList.flatMap note := by
  have hstate := congrArg Bundle.callback (handle_account b e w).2
  change (b.handle e w).state.callback = (b.account e w).callback at hstate
  rw [hstate]
  cases hf : e.fate b.capabilities with
  | delivered kind =>
    cases hh : b.heard? e with
    | some call => simp [account, hf, reaction?, hh, hcall, hoffers]
    | none => simp [account, hf, reaction?, hh, hoffers]
  | _ => simp [account, hf, heard?]

theorem chain_notes {ν : Type} (notes : σ → List ν) (note : Call → List ν)
    (hoffers : ∀ s kind, notes (ScanCallback.offers s kind).2 = notes s)
    (hcall : ∀ s call w, notes (ScanCallback.call s call w).state = notes s ++ note call)
    (h : Chain answer b w xs b' w') :
    notes b'.callback =
      notes b.callback ++ ((xs.filter (·.routed)).filterMap Exchange.heard?).flatMap note := by
  rw [chain_fold (fun b => notes b.callback) (fun ns x => ns ++ x.heard?.toList.flatMap note) ?_ h]
  · rw [List.foldl_append_eq_append, List.filterMap_eq_flatMap_toList, List.flatMap_assoc,
      List.flatMap_def]
  · intro e b w a
    exact handle_notes notes note hoffers hcall b e w

theorem chain_log (log : σ → List Call)
    (hoffers : ∀ s kind, log (ScanCallback.offers s kind).2 = log s)
    (hcall : ∀ s call w, log (ScanCallback.call s call w).state = log s ++ [call])
    (h : Chain answer b w xs b' w') :
    log b'.callback = log b.callback ++ (xs.filter (·.routed)).filterMap Exchange.heard? := by
  rw [chain_notes log (fun call => [call]) hoffers hcall h, List.flatMap_singleton']

omit [ScanCallback σ] in
theorem countP_fates (xs : List (Exchange (Bundle σ))) :
    (EventKind.all.map fun kind => xs.countP (·.fate = .delivered kind)).sum +
        xs.countP (·.fate = .skipped) + xs.countP (·.fate = .unknown) +
        xs.countP (·.fate.isIncomplete) = xs.length := by
  induction xs with
  | nil => rfl
  | cons x xs ih =>
    simp only [EventKind.all, List.map_cons, List.map_nil, List.sum_cons, List.sum_nil,
      List.countP_cons, List.length_cons] at ih ⊢
    cases x.fate with
    | delivered kind =>
      cases kind <;> simp [Fate.isIncomplete_iff] <;> omega
    | _ =>
      simp [Fate.isIncomplete_iff]
      omega

theorem chain_conservation (h : Chain answer b.cleared w xs b' w') :
    b'.stats.delivered + b'.stats.skipped + b'.stats.unknown +
        (xs.filter (·.routed)).countP (·.fate.isIncomplete) =
      (xs.filter (·.routed)).length := by
  have hof : ∀ kind, b'.stats.of kind =
      (xs.filter (·.routed)).countP (·.fate = .delivered kind) := by
    intro kind
    rw [chain_of h kind]
    cases kind <;> exact Nat.zero_add _
  have hskipped := chain_skipped h
  have hunknown := chain_unknown h
  simp only [cleared, Nat.zero_add] at hskipped hunknown
  rw [← countP_fates, Stats.delivered_eq_sum, funext hof, hskipped, hunknown]

variable [Engine ε] {own : σ → List Holding} {good : σ → Prop}

/-- An event is of no known kind, or of a kind that was not probed, or lacks its data, or is
delivered, and so it is answered; over a whole scan the counters and the events without data add up
to the events. -/
theorem scan_classes (hc : Confined Conduct own good) (hb : good b.callback)
    (hopen : b.isClosed = false) {engine : ε} (hw : w.InOrder)
    (hroom : (b.scan engine w).world.registrations < 2 ^ 64 - 1)
    (htokens : b.KeepsToken engine w) :
    let told := b.told engine w
    let left := (b.scan engine w).bundle
    (∀ x ∈ told, x.state.capabilities = b.capabilities ∧
        x.FollowsFate (x.event.fate b.capabilities)) ∧
      (∀ kind, left.stats.of kind =
        told.countP (·.event.fate b.capabilities = .delivered kind)) ∧
      left.stats.skipped = told.countP (·.event.fate b.capabilities = .skipped) ∧
      left.stats.unknown = told.countP (·.event.fate b.capabilities = .unknown) ∧
      left.stats.delivered + left.stats.skipped + left.stats.unknown +
        told.countP (fun x => (x.event.fate b.capabilities).isIncomplete) = told.length ∧
      ∀ log : σ → List Call, (∀ s kind, log (ScanCallback.offers s kind).2 = log s) →
        (∀ s call w, log (ScanCallback.call s call w).state = log s ++ [call]) →
        log left.callback = log b.callback ++ told.filterMap Exchange.heard? := by
  have hchain := b.transcript_chain engine w
  have htold := told_eq_routed hc.dealing hb hopen hw hroom htokens
  obtain ⟨⟨error, hleft⟩, _⟩ := scan_left engine w hopen
  have hprobed : ∀ x ∈ b.told engine w, x.state.capabilities = b.capabilities := by
    intro x hx
    exact ((chain_alike hchain).1 x (List.mem_filter.mp hx).1).capabilities
  have hfate : ∀ x ∈ b.told engine w, x.fate = x.event.fate b.capabilities := by
    intro x hx
    rw [Exchange.fate, hprobed x hx]
  have hcount : ∀ p : Fate → Bool, (b.told engine w).countP (fun x => p x.fate) =
      (b.told engine w).countP fun x => p (x.event.fate b.capabilities) := by
    intro p
    apply List.countP_congr
    intro x hx
    rw [hfate x hx]
  have hsum := chain_conservation hchain
  rw [htold] at hsum
  dsimp only
  rw [hleft]
  refine ⟨?_, ?_, ?_, ?_, ?_, ?_⟩
  · intro x hx
    have hr : x ∈ (b.transcript engine w).filter (·.routed) := htold ▸ hx
    obtain ⟨hmem, hr⟩ := List.mem_filter.mp hr
    exact ⟨hprobed x hx, hfate x hx ▸ chain_followsFate hchain hmem hr⟩
  · intro kind
    rw [← hcount fun fate => fate = .delivered kind]
    rw [chain_of hchain kind, htold]
    cases kind <;> exact Nat.zero_add _
  · rw [← hcount fun fate => fate = .skipped]
    rw [chain_skipped hchain, htold]
    exact Nat.zero_add _
  · rw [← hcount fun fate => fate = .unknown]
    rw [chain_unknown hchain, htold]
    exact Nat.zero_add _
  · rw [← hcount Fate.isIncomplete]
    exact hsum
  · intro log hoffers hcall
    have hlog := chain_log log hoffers hcall hchain
    rw [htold] at hlog
    exact hlog

end Bundle

/-- Offers everything by now, but offered two kinds only when it was asked. -/
def Bundle.choosy : Bundle Guest where
  id := 0
  callback := .journal { directives := [{ event := .scanFinished, panics := true }] }
  capabilities := .ofList [.scanFinished, .importModule]

def ListedEngine.medley : ListedEngine where
  events := [{ code := 3 }, { code := 99 }, { code := 1, data := .rule {} }, { code := 4 },
    { code := 3, token := .null }]
  persistent := true

theorem Bundle.choosy_good : choosy.callback.Good := by
  intro d hd plan hplan
  rw [List.mem_singleton.mp hd] at hplan
  cases hplan

theorem Bundle.scan_classes_choosy :
    choosy.callback.Good ∧ choosy.isClosed = false ∧ ({} : World).InOrder ∧
      (choosy.scan ListedEngine.medley {}).world.registrations < 2 ^ 64 - 1 ∧
      choosy.KeepsToken ListedEngine.medley {} ∧
      let left := (choosy.scan ListedEngine.medley {}).bundle
      left.stats.of .scanFinished = 1 ∧ left.stats.skipped = 1 ∧ left.stats.unknown = 1 ∧
        left.stats.delivered + left.stats.skipped + left.stats.unknown + 1 = 4 := by
  have hroom : (choosy.scan ListedEngine.medley {}).world.registrations < 2 ^ 64 - 1 := by
    decide
  have htokens : choosy.KeepsToken ListedEngine.medley {} := by decide
  obtain ⟨_, hof, hskipped, hunknown, hsum, _⟩ :=
    scan_classes Guest.confined choosy_good rfl World.inOrder_new hroom htokens
  refine ⟨choosy_good, rfl, World.inOrder_new, hroom, htokens, ?_, ?_, ?_, ?_⟩
  · exact (hof .scanFinished).trans (by decide)
  · exact hskipped.trans (by decide)
  · exact hunknown.trans (by decide)
  · exact (congrArg _ (by decide)).trans (hsum.trans (by decide))

end ScanBridge
