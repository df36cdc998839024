import ScanBridge.Proofs.EventClasses
import ScanBridge.Proofs.ScriptedRuns
import ScanBridge.Proofs.Sessions

namespace ScanBridge

namespace Verdict

theorem ofOutcome_eq_continue {ruling : Except BridgeError Control} :
    ofOutcome ruling = .continue ↔ ruling = .ok .continue := by
  rcases ruling with e | c
  · simp [ofOutcome]
  · cases c <;> simp [ofOutcome]

theorem ofOutcome_eq_abort {ruling : Except BridgeError Control} :
    ofOutcome ruling = .abort ↔ ruling = .ok .abort := by
  rcases ruling with e | c
  · simp [ofOutcome]
  · cases c <;> simp [ofOutcome]

theorem ofOutcome_eq_error {ruling : Except BridgeError Control} :
    ofOutcome ruling = .error ↔ ∃ e, ruling = .error e := by
  rcases ruling with e | c
  · simp [ofOutcome]
  · cases c <;> simp [ofOutcome]

end Verdict

/-- A result that the verdict on the last event decides. -/
inductive Decides (last : Option Verdict) : ScanResult → Prop
  | passed (stats : Stats) (none_but : ∀ v, last = some v → v = .continue) :
    Decides last (.completed ⟨false, stats⟩)
  | aborted (stats : Stats) (by_last : last = some .abort) : Decides last (.completed ⟨true, stats⟩)
  | failed (e : BridgeError) (by_last : last = some .error) : Decides last (.failed e)

namespace Decides

variable {last : Option Verdict} {result : ScanResult}

theorem failed_iff (h : Decides last result) :
    (∃ e, result = .failed e) ↔ last = some .error := by
  cases h with
  | passed stats none_but =>
    apply iff_of_false (by simp)
    intro hlast
    cases none_but _ hlast
  | aborted stats by_last => simp [by_last]
  | failed e by_last => simp [by_last]

theorem aborted_iff (h : Decides last result) :
    (∃ stats, result = .completed ⟨true, stats⟩) ↔ last = some .abort := by
  cases h with
  | passed stats none_but =>
    apply iff_of_false (by simp)
    intro hlast
    cases none_but _ hlast
  | aborted stats by_last => simp [by_last]
  | failed e by_last => simp [by_last]

theorem passed_of (h : Decides last result) (none_but : ∀ v, last = some v → v = .continue) :
    ∃ stats, result = .completed ⟨false, stats⟩ := by
  cases h with
  | passed stats _ => exact ⟨stats, rfl⟩
  | aborted stats by_last => cases none_but _ by_last
  | failed e by_last => cases none_but _ by_last

theorem not_panicked (h : Decides last result) : result ≠ .enginePanicked := by
  cases h <;> simp

end Decides

variable {σ : Type} [ScanCallback σ]

namespace Bundle

theorem ruling_error {b : Bundle σ} {e : Event} {w : World} {error : BridgeError}
    (h : b.ruling e w = .error error) :
    (∃ why, error = .callback why) ∨ (∃ kind, error = .panicked kind) ∨
      ∃ kind, error = .missingEventData kind := by
  unfold ruling at h
  split at h
  · cases h
    exact .inr (.inr ⟨_, rfl⟩)
  · rename_i reaction _ _
    cases ho : reaction.outcome with
    | answer control payload => simp [Outcome.ruling, ho] at h
    | failed why =>
      rw [ho] at h
      cases h
      exact .inl ⟨why, rfl⟩
    | panicked =>
      rw [ho] at h
      cases h
      exact .inr (.inl ⟨_, rfl⟩)
  · cases h

theorem not_isIncomplete {b : Bundle σ} {e : Event} {w : World} {control : Control}
    (h : b.ruling e w = .ok control) : (e.fate b.capabilities).isIncomplete = false := by
  cases hf : e.fate b.capabilities with
  | incomplete kind => simp [ruling, hf] at h
  | _ => rfl

end Bundle

namespace ScriptedEngine

theorem Played.rulings {token : Token} {script : List EventSpec}
    {xs : List (Exchange (Bundle σ))} {ending : Ending} (h : Played token script xs ending)
    (hverdict : ∀ x ∈ xs, x.verdict? = some (Verdict.ofOutcome x.ruling)) :
    ∃ pre : List (Exchange (Bundle σ)), (∀ x ∈ pre, x.ruling = .ok .continue) ∧
      ((xs = pre ∧ xs.map Exchange.event = script.map (event token) ∧
          ending = .status succeeded) ∨
        (∃ x, xs = pre ++ [x] ∧ x.ruling = .ok .abort ∧ ending = .status succeeded) ∨
        ∃ x e, xs = pre ++ [x] ∧ x.ruling = .error e ∧ ending = .status callbackFailed) := by
  induction h with
  | through => exact ⟨[], by simp, .inl ⟨rfl, rfl, rfl⟩⟩
  | continued e x event verdict more ih =>
    rw [hverdict x (by simp), Option.some.injEq, Verdict.ofOutcome_eq_continue] at verdict
    obtain ⟨pre, hpre, hlast⟩ := ih fun y hy => hverdict y (List.mem_cons_of_mem _ hy)
    refine ⟨x :: pre, by simpa [verdict] using hpre, ?_⟩
    rcases hlast with ⟨rfl, hevents, hending⟩ | ⟨y, rfl, hy⟩ | ⟨y, why, rfl, hy⟩
    · exact .inl ⟨rfl, by simp [event, hevents], hending⟩
    · exact .inr (.inl ⟨y, rfl, hy⟩)
    · exact .inr (.inr ⟨y, why, rfl, hy⟩)
  | aborted e x rest event verdict =>
    rw [hverdict x (by simp), Option.some.injEq, Verdict.ofOutcome_eq_abort] at verdict
    exact ⟨[], by simp, .inr (.inl ⟨x, rfl, verdict, rfl⟩)⟩
  | failed e x rest event verdict =>
    rw [hverdict x (by simp), or_iff_left nofun, Option.some.injEq,
      Verdict.ofOutcome_eq_error] at verdict
    obtain ⟨why, hwhy⟩ := verdict
    exact ⟨[], by simp, .inr (.inr ⟨x, why, rfl, hwhy, rfl⟩)⟩

end ScriptedEngine

namespace Bundle

variable {own : σ → List Holding} {good : σ → Prop} {b : Bundle σ} {engine : ScriptedEngine}
  {w : World}

theorem scripted_run (b : Bundle σ) (engine : ScriptedEngine) (w : World) :
    ScriptedEngine.Played w.registry.nextToken engine.script.events (b.transcript engine w)
        (b.driven engine w).ending ∧
      (b.driven engine w).engine =
        engine.account (ScriptedEngine.Progress.after {} (b.transcript engine w))
          (b.driven engine w).world :=
  ScriptedEngine.play_played engine _ answer {} engine.modules_sans_nul b.cleared (b.enrol w)

theorem scripted_event {x : Exchange (Bundle σ)} (hx : x ∈ b.transcript engine w) :
    ∃ e ∈ engine.script.events, x.event = ScriptedEngine.event w.registry.nextToken e := by
  have hmem := (scripted_run b engine w).1.prefix_events.subset
    (List.mem_map_of_mem (f := Exchange.event) hx)
  obtain ⟨e, he, heq⟩ := List.mem_map.mp hmem
  exact ⟨e, he, heq.symm⟩

theorem scripted_told (b : Bundle σ) (engine : ScriptedEngine) (w : World) :
    b.told engine w = b.transcript engine w := by
  apply List.filter_eq_self.mpr
  intro x hx
  obtain ⟨e, _, he⟩ := scripted_event hx
  simp [he]

theorem scripted_keepsToken (b : Bundle σ) (engine : ScriptedEngine) (w : World) :
    b.KeepsToken engine w := by
  intro x hx
  rw [← scripted_told] at hx
  exact .inl (by simpa using (List.mem_filter.mp hx).2)

theorem scripted_emissions (hopen : b.isClosed = false) (engine : ScriptedEngine) (w : World) :
    (b.scan engine w).engine.emissions = (b.transcript engine w).map Exchange.emission := by
  rw [scan_engine engine w hopen, (scripted_run b engine w).2]
  exact List.nil_append _

theorem last_emission {xs pre : List (Exchange (Bundle σ))} {x : Exchange (Bundle σ)}
    (hxs : xs = pre ++ [x])
    (h : ∀ x ∈ xs, x.emission = ⟨x.event.code, some (Verdict.ofOutcome x.ruling)⟩) :
    (xs.map Exchange.emission).getLast?.bind Emission.verdict =
      some (Verdict.ofOutcome x.ruling) := by
  subst hxs
  simp [h x (by simp)]

theorem last_of_script {script : List EventSpec} {v : Verdict}
    (h : (script.map fun e => Emission.mk e.kind.code (some .continue)).getLast?.bind
      Emission.verdict = some v) : v = .continue := by
  obtain ⟨m, hm, hv⟩ := Option.bind_eq_some_iff.mp h
  obtain ⟨e, _, rfl⟩ := List.mem_map.mp (List.mem_of_getLast? hm)
  exact (Option.some.inj hv).symm

section Routed

variable (hopen : b.isClosed = false)
  (hrouted : (b.transcript engine w).filter (·.routed) = b.transcript engine w)
include hrouted

theorem routed_verdict :
    ∀ x ∈ b.transcript engine w, x.verdict? = some (Verdict.ofOutcome x.ruling) := by
  intro x hx
  rw [← hrouted] at hx
  obtain ⟨hx, hr⟩ := List.mem_filter.mp hx
  rw [Exchange.verdict?, chain_verdict (b.transcript_chain engine w) hx hr, Verdict.ofCode?_code]

theorem routed_emission :
    ∀ x ∈ b.transcript engine w,
      x.emission = ⟨x.event.code, some (Verdict.ofOutcome x.ruling)⟩ := by
  intro x hx
  rw [Exchange.emission, routed_verdict hrouted x hx]

theorem routed_passed {pre : List (Exchange (Bundle σ))}
    (hpre : ∀ x ∈ pre, x.ruling = .ok .continue) (hsub : pre ⊆ b.transcript engine w) :
    pre.map Exchange.emission =
      (pre.map Exchange.event).map fun e => ⟨e.code, some .continue⟩ := by
  rw [List.map_map]
  apply List.map_congr_left
  intro x hx
  rw [routed_emission hrouted x (hsub hx), hpre x hx]
  rfl

include hopen

/-- The three ways in which a scripted scan can end whose events all reach the bundle. -/
theorem routed_cases :
    ∃ pre : List (Exchange (Bundle σ)), (∀ x ∈ pre, x.ruling = .ok .continue) ∧
      ((b.transcript engine w = pre ∧
          pre.map Exchange.event =
            engine.script.events.map (ScriptedEngine.event w.registry.nextToken) ∧
          (b.scan engine w).result = .completed ⟨false, (b.driven engine w).state.stats⟩) ∨
        (∃ x, b.transcript engine w = pre ++ [x] ∧ x.ruling = .ok .abort ∧
          (b.scan engine w).result = .completed ⟨true, (b.driven engine w).state.stats⟩) ∨
        ∃ x e, b.transcript engine w = pre ++ [x] ∧ x.ruling = .error e ∧
          (b.scan engine w).result = .failed e) := by
  obtain ⟨pre, hpre, hlast⟩ := (scripted_run b engine w).1.rulings (routed_verdict hrouted)
  refine ⟨pre, hpre, ?_⟩
  have hnone : pre.findSome? (fun x => raised? x.ruling) = none := by
    rw [List.findSome?_eq_none_iff]
    intro x hx
    rw [hpre x hx]
    rfl
  have hany : pre.any (fun x => Verdict.ofOutcome x.ruling = .abort) = false := by
    rw [List.any_eq_false]
    intro x hx
    rw [hpre x hx]
    decide
  rw [scan_concluded hopen, driven_error, driven_aborted, hrouted]
  rcases hlast with ⟨hxs, hevents, hending⟩ | ⟨x, hxs, hx, hending⟩ | ⟨x, e, hxs, hx, hending⟩
  · refine .inl ⟨hxs, hxs ▸ hevents, ?_⟩
    rw [hending, hxs, hnone, hany]
    rfl
  · refine .inr (.inl ⟨x, hxs, hx, ?_⟩)
    rw [hending, hxs, List.findSome?_append, hnone, List.any_append, hany]
    simp [hx, raised?, Verdict.ofOutcome, ScriptedEngine.succeeded]
  · refine .inr (.inr ⟨x, e, hxs, hx, ?_⟩)
    rw [hending, hxs, List.findSome?_append, hnone]
    simp [hx, raised?]

end Routed

section Open

variable (hc : Confined Dealing own good) (hb : good b.callback) (hopen : b.isClosed = false)
  (hw : w.InOrder) (hroom : (b.scan engine w).world.registrations < 2 ^ 64 - 1)
include hc hb hopen hw hroom

theorem scripted_routed :
    (b.transcript engine w).filter (·.routed) = b.transcript engine w := by
  rw [told_eq_routed hc hb hopen hw hroom (scripted_keepsToken b engine w), scripted_told]

theorem scripted_emission :
    ∀ x ∈ b.transcript engine w,
      x.emission = ⟨x.event.code, some (Verdict.ofOutcome x.ruling)⟩ :=
  routed_emission (scripted_routed hc hb hopen hw hroom)

theorem scripted_dropLast :
    ∀ m ∈ ((b.transcript engine w).map Exchange.emission).dropLast,
      m.verdict = some .continue := by
  intro m hm
  rw [← List.map_dropLast] at hm
  obtain ⟨x, hx, rfl⟩ := List.mem_map.mp hm
  obtain ⟨pre, hpre, hcases⟩ := routed_cases hopen (scripted_routed hc hb hopen hw hroom)
  have hmem : x ∈ pre := by
    rcases hcases with ⟨hxs, _⟩ | ⟨y, hxs, _⟩ | ⟨y, e, hxs, _⟩
    · exact hxs ▸ List.dropLast_subset _ hx
    · simpa [hxs] using hx
    · simpa [hxs] using hx
  rw [scripted_emission hc hb hopen hw hroom x (List.dropLast_subset _ hx), hpre x hmem]
  rfl

theorem scripted_decides :
    Decides (((b.transcript engine w).map Exchange.emission).getLast?.bind Emission.verdict)
      (b.scan engine w).result := by
  have hemission := scripted_emission hc hb hopen hw hroom
  obtain ⟨pre, hpre, hcases⟩ := routed_cases hopen (scripted_routed hc hb hopen hw hroom)
  rcases hcases with ⟨hxs, _, hresult⟩ | ⟨x, hxs, hx, hresult⟩ | ⟨x, e, hxs, hx, hresult⟩
  · rw [hresult]
    refine .passed _ fun v hv => ?_
    obtain ⟨m, hm, hverdict⟩ := Option.bind_eq_some_iff.mp hv
    obtain ⟨x, hx, rfl⟩ := List.mem_map.mp (List.mem_of_getLast? hm)
    rw [hemission x hx, hpre x (hxs ▸ hx)] at hverdict
    exact (Option.some.inj hverdict).symm
  · rw [hresult]
    exact .aborted _ (by rw [last_emission hxs hemission, hx]; rfl)
  · rw [hresult]
    exact .failed e (by rw [last_emission hxs hemission, hx]; rfl)

theorem scripted_failure {e : BridgeError} (he : (b.scan engine w).result = .failed e) :
    ∃ x, (b.transcript engine w).getLast? = some x ∧ x.ruling = .error e := by
  obtain ⟨pre, hpre, hcases⟩ := routed_cases hopen (scripted_routed hc hb hopen hw hroom)
  rcases hcases with ⟨_, _, hresult⟩ | ⟨x, _, _, hresult⟩ | ⟨x, e', hxs, hx, hresult⟩
  · cases hresult.symm.trans he
  · cases hresult.symm.trans he
  · cases hresult.symm.trans he
    exact ⟨x, by rw [hxs]; simp, hx⟩

theorem scripted_through_iff :
    (∃ stats, (b.scan engine w).result = .completed ⟨false, stats⟩) ↔
      (b.transcript engine w).map Exchange.emission =
        engine.script.events.map fun e => ⟨e.kind.code, some .continue⟩ := by
  constructor
  · rintro ⟨stats, he⟩
    obtain ⟨pre, hpre, hcases⟩ := routed_cases hopen (scripted_routed hc hb hopen hw hroom)
    rcases hcases with ⟨hxs, hevents, _⟩ | ⟨x, _, _, hresult⟩ | ⟨x, e, _, _, hresult⟩
    · have hpassed := routed_passed (scripted_routed hc hb hopen hw hroom) hpre
        (hxs ▸ List.Subset.refl _)
      rw [hxs, hpassed, hevents]
      simp
    · cases hresult.symm.trans he
    · cases hresult.symm.trans he
  · intro hemissions
    apply (scripted_decides hc hb hopen hw hroom).passed_of
    intro v hv
    rw [hemissions] at hv
    exact last_of_script hv

theorem scripted_counts {summary : Summary} (hs : (b.scan engine w).result = .completed summary) :
    summary.stats.delivered + summary.stats.skipped + summary.stats.unknown =
      (b.transcript engine w).length := by
  obtain ⟨pre, hpre, hcases⟩ := routed_cases hopen (scripted_routed hc hb hopen hw hroom)
  have hpassed : summary.stats = (b.driven engine w).state.stats ∧
      ∀ x ∈ b.transcript engine w, ∃ control, x.ruling = .ok control := by
    rcases hcases with ⟨hxs, _, hresult⟩ | ⟨x, hxs, hx, hresult⟩ | ⟨x, e, _, _, hresult⟩
    · cases hresult.symm.trans hs
      exact ⟨rfl, fun y hy => ⟨_, hpre y (hxs ▸ hy)⟩⟩
    · cases hresult.symm.trans hs
      refine ⟨rfl, fun y hy => ?_⟩
      rw [hxs] at hy
      rcases List.mem_append.mp hy with hy | hy
      · exact ⟨_, hpre y hy⟩
      · exact ⟨_, List.mem_singleton.mp hy ▸ hx⟩
    · cases hresult.symm.trans hs
  obtain ⟨hstats, hpassed⟩ := hpassed
  have hsum := chain_conservation (b.transcript_chain engine w)
  rw [scripted_routed hc hb hopen hw hroom] at hsum
  have hzero : (b.transcript engine w).countP (·.fate.isIncomplete) = 0 := by
    rw [List.countP_eq_zero]
    intro x hx
    obtain ⟨control, hr⟩ := hpassed x hx
    simp [Exchange.fate, not_isIncomplete hr]
  rw [hstats]
  omega

end Open

/-- Engine and bundle keep an account of the run each, one of verdicts and one of failures and
aborts, and the two say the same of a scripted scan. -/
theorem scripted_scan_agrees (hc : Confined Conduct own good) (hb : good b.callback)
    (hopen : b.isClosed = false) (hw : w.InOrder)
    (hroom : (b.scan engine w).world.registrations < 2 ^ 64 - 1) :
    let left := b.scan engine w
    let emissions := left.engine.emissions
    let last := emissions.getLast?.bind Emission.verdict
    emissions = (b.told engine w).map Exchange.emission ∧
      ((∃ e, left.result = .failed e) ↔ last = some .error) ∧
      (∀ e, left.result = .failed e →
        (∃ x, (b.told engine w).getLast? = some x ∧ x.ruling = .error e) ∧
          ((∃ why, e = .callback why) ∨ (∃ kind, e = .panicked kind) ∨
            ∃ kind, e = .missingEventData kind)) ∧
      ((∃ stats, left.result = .completed ⟨true, stats⟩) ↔ last = some .abort) ∧
      ((∃ stats, left.result = .completed ⟨false, stats⟩) ↔
        emissions = engine.script.events.map fun e => ⟨e.kind.code, some .continue⟩) ∧
      left.result ≠ .enginePanicked ∧
      (∀ m ∈ emissions, m.verdict ≠ none) ∧
      (∀ m ∈ emissions.dropLast, m.verdict = some .continue) ∧
      ∀ summary, left.result = .completed summary →
        summary.stats.delivered + summary.stats.skipped + summary.stats.unknown =
          emissions.length := by
  have hc := hc.dealing
  have hdecides := scripted_decides hc hb hopen hw hroom
  dsimp only
  rw [scripted_emissions hopen, scripted_told]
  refine ⟨rfl, hdecides.failed_iff, ?_, hdecides.aborted_iff,
    scripted_through_iff hc hb hopen hw hroom, hdecides.not_panicked, ?_,
    scripted_dropLast hc hb hopen hw hroom, ?_⟩
  · intro e he
    obtain ⟨x, hlast, hx⟩ := scripted_failure hc hb hopen hw hroom he
    exact ⟨⟨x, hlast, hx⟩, ruling_error hx⟩
  · intro m hm
    obtain ⟨x, hx, rfl⟩ := List.mem_map.mp hm
    rw [scripted_emission hc hb hopen hw hroom x hx]
    exact Option.some_ne_none _
  · intro summary hs
    rw [List.length_map]
    exact scripted_counts hc hb hopen hw hroom hs

end Bundle

/-- Answers an import with a scan of its own, in which an event comes without its data. -/
def Guest.nesting : Guest := .journal { directives := [{
  event := .importModule
  nested := some (Plan.mk [.bundle "inner" .recorder none {} [],
    .engine "inner" (.script ⟨[.scanFinished, .raw 1]⟩), .scan "inner" "inner"] true none).run }] }

def ScriptedEngine.probing : ScriptedEngine where
  script := ⟨[.raw 99, .importModule "m", .scanFinished]⟩
  valid := by decide

theorem Guest.nesting_good : nesting.Good := by
  intro d hd plan hplan w
  rw [List.mem_singleton.mp hd] at hplan
  cases hplan
  exact Plan.run_conduct _ w

theorem Bundle.scripted_scan_agrees_nesting :
    let made := Bundle.new Guest.nesting {} {}
    made.1.callback.Good ∧ made.1.isClosed = false ∧ made.2.InOrder ∧
      (made.1.scan ScriptedEngine.probing made.2).world.registrations < 2 ^ 64 - 1 ∧
      ∃ e, (made.1.scan ScriptedEngine.probing made.2).result = .failed e ∧
        ∃ x, (made.1.told ScriptedEngine.probing made.2).getLast? = some x ∧
          x.ruling = .error e := by
  intro made
  have hgood : made.1.callback.Good := Guest.confined.probe_good Guest.nesting_good
  have hmade := (Conduct.make Guest.nesting {} {}).dealing
  have horder : made.2.InOrder := (hmade.registry World.inOrder_new (by decide)).1
  have hroom : (made.1.scan ScriptedEngine.probing made.2).world.registrations < 2 ^ 64 - 1 := by
    decide
  obtain ⟨_, hfailed, herror, _⟩ := scripted_scan_agrees Guest.confined hgood rfl horder hroom
  obtain ⟨e, he⟩ := hfailed.mpr (by decide)
  exact ⟨hgood, rfl, horder, hroom, e, he, (herror e he).1⟩

end ScanBridge
