import ScanBridge.Proofs.Guests
import ScanBridge.Proofs.RunAccount

namespace ScanBridge

theorem Verdict.code_inj {v v' : Verdict} : v.code = v'.code ↔ v = v' := by
  cases v <;> cases v' <;> decide

variable {σ ε : Type} [ScanCallback σ] [Engine ε]

namespace Bundle

variable {own : σ → List Holding} {good : σ → Prop} {b : Bundle σ} {w : World}

/-- The exchanges of a scan whose event carries the token of the scan. -/
def told (b : Bundle σ) (engine : ε) (w : World) : List (Exchange (Bundle σ)) :=
  (b.transcript engine w).filter (·.event.token = w.registry.nextToken)

/-- Every event of a scan carries the token of the scan, or one that nothing is registered under. -/
def KeepsToken (b : Bundle σ) (engine : ε) (w : World) : Prop :=
  ∀ x ∈ b.transcript engine w,
    x.event.token = w.registry.nextToken ∨ x.world.registry.resolve x.event.token = none

theorem told_eq_routed (hc : Confined Dealing own good) (hb : good b.callback)
    (hopen : b.isClosed = false) {engine : ε} (hw : w.InOrder)
    (hroom : (b.scan engine w).world.registrations < 2 ^ 64 - 1)
    (htokens : b.KeepsToken engine w) :
    (b.transcript engine w).filter (·.routed) = b.told engine w := by
  apply List.filter_congr
  intro x hx
  have hown := transcript_resolve hc hb hopen engine hw hroom x hx
  rcases htokens x hx with ht | ht
  · simp [Exchange.routed, ht, hown]
  · have hne : x.event.token ≠ w.registry.nextToken := by
      intro he
      rw [he, hown] at ht
      cases ht
    simp [Exchange.routed, ht, hne]

theorem driven_error (engine : ε) (w : World) :
    (b.driven engine w).state.error =
      ((b.transcript engine w).filter (·.routed)).findSome? fun x => raised? x.ruling :=
  chain_error (b.transcript_chain engine w)

theorem driven_aborted (engine : ε) (w : World) :
    (b.driven engine w).state.aborted =
      ((b.transcript engine w).filter (·.routed)).any
        fun x => Verdict.ofOutcome x.ruling = .abort :=
  (chain_aborted (b.transcript_chain engine w)).trans (Bool.false_or _)

theorem scan_concluded (hopen : b.isClosed = false) (engine : ε) (w : World) :
    (b.scan engine w).result =
      match (b.driven engine w).ending with
      | .panicked => .enginePanicked
      | .status code =>
        match (b.driven engine w).state.error with
        | some e => .failed e
        | none =>
          if code = 0 then
            .completed ⟨(b.driven engine w).state.aborted, (b.driven engine w).state.stats⟩
          else .failed (.engine code) := by
  rw [scan_open engine w hopen]
  dsimp only
  cases (b.driven engine w).ending with
  | panicked => rfl
  | status code =>
    dsimp only
    unfold conclude
    cases (b.driven engine w).state.error with
    | some e => rfl
    | none => by_cases hcode : code = 0 <;> simp [hcode]

/-- What a scan returns, whatever the engine and the callback do. The first failure in the order of
the events goes first, then the status of the engine, and only then is an abort worth mentioning. -/
theorem scan_result (hc : Confined Conduct own good) (hb : good b.callback)
    (hopen : b.isClosed = false) {engine : ε} (hw : w.InOrder)
    (hroom : (b.scan engine w).world.registrations < 2 ^ 64 - 1)
    (htokens : b.KeepsToken engine w) :
    (b.scan engine w).result =
        (match (b.driven engine w).ending with
        | .panicked => .enginePanicked
        | .status code =>
          match (b.told engine w).findSome? fun x => raised? x.ruling with
          | some e => .failed e
          | none =>
            if code = 0 then
              .completed
                { aborted := (b.told engine w).any (·.answered.reply.verdict = Verdict.abort.code)
                  stats := (b.driven engine w).state.stats }
            else .failed (.engine code)) ∧
      (∀ x ∈ b.told engine w, x.answered.reply.verdict = (Verdict.ofOutcome x.ruling).code) ∧
      ∀ x ∈ b.transcript engine w, x.event.token ≠ w.registry.nextToken →
        x.answered.reply.verdict = Verdict.error.code ∧ x.answered.state = x.state := by
  have htold := told_eq_routed hc.dealing hb hopen hw hroom htokens
  have hverdict : ∀ x ∈ b.told engine w,
      x.answered.reply.verdict = (Verdict.ofOutcome x.ruling).code := by
    intro x hx
    rw [← htold] at hx
    obtain ⟨hx, hr⟩ := List.mem_filter.mp hx
    exact chain_verdict (b.transcript_chain engine w) hx hr
  have haborted : (b.driven engine w).state.aborted =
      (b.told engine w).any (·.answered.reply.verdict = Verdict.abort.code) := by
    rw [driven_aborted, htold, Bool.eq_iff_iff, List.any_eq_true, List.any_eq_true]
    refine exists_congr fun x => and_congr_right fun hx => ?_
    rw [hverdict x hx]
    simp only [decide_eq_true_eq, Verdict.code_inj]
  refine ⟨?_, hverdict, ?_⟩
  · rw [scan_concluded hopen, driven_error, htold, haborted]
  · intro x hx hne
    have hnone := (htokens x hx).resolve_left hne
    rw [(b.transcript_chain engine w).answered hx]
    obtain ⟨hreply, hstate⟩ := answer_unrouted (b := x.state) (e := x.event) (w := x.world)
      (by rw [hnone]; exact nofun)
    exact ⟨congrArg Reply.verdict hreply, hstate⟩

end Bundle

def Bundle.fickle : Bundle Guest where
  id := 0
  callback := .journal { directives :=
    [{ event := .scanFinished, nth := some 1, aborts := true },
      { event := .scanFinished, nth := some 2, fails := some ["no"] },
      { event := .scanFinished, nth := some 3, panics := true }] }
  capabilities := .every

/-- Goes on whatever it is told, also after an event that is for nobody, and fails at the end. -/
def ListedEngine.stubborn : ListedEngine where
  events := [{ code := 3 }, { code := 3, token := .greatest }, { code := 3 }, { code := 4 },
    { code := 3 }]
  persistent := true
  status := some 9

theorem Bundle.fickle_good : fickle.callback.Good := by
  intro d hd plan hplan
  simp only [List.mem_cons, List.not_mem_nil, or_false] at hd
  rcases hd with rfl | rfl | rfl <;> cases hplan

instance {b : Bundle σ} {engine : ε} {w : World} : Decidable (b.KeepsToken engine w) :=
  inferInstanceAs (Decidable (∀ x ∈ b.transcript engine w,
    x.event.token = w.registry.nextToken ∨ x.world.registry.resolve x.event.token = none))

theorem Bundle.scan_result_fickle :
    fickle.callback.Good ∧ fickle.isClosed = false ∧ ({} : World).InOrder ∧
      (fickle.scan ListedEngine.stubborn {}).world.registrations < 2 ^ 64 - 1 ∧
      fickle.KeepsToken ListedEngine.stubborn {} ∧
      (fickle.scan ListedEngine.stubborn {}).result = .failed (.callback (.message "no")) := by
  have hroom : (fickle.scan ListedEngine.stubborn {}).world.registrations < 2 ^ 64 - 1 := by
    decide
  have htokens : fickle.KeepsToken ListedEngine.stubborn {} := by decide
  obtain ⟨hresult, _⟩ :=
    scan_result Guest.confined fickle_good rfl World.inOrder_new hroom htokens
  exact ⟨fickle_good, rfl, World.inOrder_new, hroom, htokens, hresult.trans (by decide)⟩

end ScanBridge
