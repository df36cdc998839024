import ScanBridge.Proofs.Agreement
import ScanBridge.Proofs.Closing

namespace ScanBridge

variable {σ ε : Type} [ScanCallback σ] [Engine ε]

namespace Exchange

def returned? (x : Exchange (Bundle σ)) : Option Outcome := x.state.returned? x.event x.world

theorem ruling_error_cases {x : Exchange (Bundle σ)} {e : BridgeError} (h : x.ruling = .error e) :
    (∃ kind, e = .missingEventData kind ∧ x.fate = .incomplete kind) ∨
      (∃ why, e = .callback why ∧ x.returned? = some (.failed why)) ∨
      ∃ kind, e = .panicked kind ∧ x.fate = .delivered kind ∧ x.returned? = some .panicked := by
  rw [ruling, Bundle.ruling_of_returned] at h
  split at h
  · rename_i kind hfate
    cases h
    exact .inl ⟨kind, rfl, hfate⟩
  · rename_i kind outcome hfate hreturned
    cases outcome with
    | answer control payload => cases h
    | failed why =>
      cases h
      exact .inr (.inl ⟨why, rfl, hreturned⟩)
    | panicked =>
      cases h
      exact .inr (.inr ⟨kind, rfl, hfate, hreturned⟩)
  · cases h

end Exchange

namespace Bundle

variable {b : Bundle σ} {engine : ε} {w : World}

/-- What a scan reports an error for. A failure that a call returns is reported as a failed
callback, whatever it is the failure of; all other errors are for what became of the scan's own
events, or for its own engine. -/
inductive Cause (b : Bundle σ) (engine : ε) (w : World) : BridgeError → Prop
  | returned (x : Exchange (Bundle σ)) (mem : x ∈ b.transcript engine w)
      (routed : x.routed = true) (why : Failure) (failed : x.returned? = some (.failed why)) :
      Cause b engine w (.callback why)
  | panicked (x : Exchange (Bundle σ)) (mem : x ∈ b.transcript engine w)
      (routed : x.routed = true) (kind : EventKind) (fate : x.fate = .delivered kind)
      (broke : x.returned? = some .panicked) : Cause b engine w (.panicked kind)
  | missing (x : Exchange (Bundle σ)) (mem : x ∈ b.transcript engine w)
      (routed : x.routed = true) (kind : EventKind) (fate : x.fate = .incomplete kind) :
      Cause b engine w (.missingEventData kind)
  | engine (code : Int32) (nonzero : code ≠ 0)
      (ended : (b.driven engine w).ending = .status code) : Cause b engine w (.engine code)

theorem scan_cause (hopen : b.isClosed = false) {e : BridgeError}
    (h : (b.scan engine w).result = .failed e) : b.Cause engine w e := by
  rcases scan_failed hopen h with ⟨x, hx, hr, hruling⟩ | ⟨code, hne, rfl, hending⟩
  · rcases x.ruling_error_cases hruling with ⟨kind, rfl, hfate⟩ | ⟨why, rfl, hreturned⟩ |
      ⟨kind, rfl, hfate, hreturned⟩
    · exact .missing x hx hr kind hfate
    · exact .returned x hx hr why hreturned
    · exact .panicked x hx hr kind hfate hreturned
  · exact .engine code hne hending

/-- Among the events of a scan, a call returned a failure before anything else went wrong, and the
engine did not break off. -/
def ReturnsFirst (b : Bundle σ) (engine : ε) (w : World) (why : Failure) : Prop :=
  (b.driven engine w).ending ≠ .panicked ∧
    ∃ pre x post, b.transcript engine w = pre ++ x :: post ∧
      (∀ y ∈ pre, y.routed = true → raised? y.ruling = none) ∧ x.routed = true ∧
      x.returned? = some (.failed why)

theorem ReturnsFirst.result (hopen : b.isClosed = false) {why : Failure}
    (h : b.ReturnsFirst engine w why) : (b.scan engine w).result = .failed (.callback why) := by
  obtain ⟨hending, pre, x, post, hxs, hbefore, hr, hreturned⟩ := h
  obtain ⟨reaction, hreaction, houtcome⟩ := Option.map_eq_some_iff.mp hreturned
  exact (ownFailures hopen engine w).first pre x post hxs hbefore hr reaction why hreaction
    houtcome hending

end Bundle

/-- An error on its way out of a call: the error of the scan that the call ran, and the text that
the call laid around it, if it did. -/
structure Passage where
  context : Option String
  below : BridgeError

/-- An error `e` comes to be reported as another through scans that ran inside of calls, the
outermost first: at each level a call returned the error of the scan below. -/
inductive PassedOn (e : BridgeError) : List Passage → BridgeError → Prop
  | raised {σ ε : Type} [ScanCallback σ] [Engine ε] (b : Bundle σ) (engine : ε) (w : World)
      (failed : (b.scan engine w).result = .failed e) : PassedOn e [] e
  | level {σ ε : Type} [ScanCallback σ] [Engine ε] (p : Passage) {levels : List Passage}
      (inner : PassedOn e levels p.below) (b : Bundle σ) (opened : b.isClosed = false) (engine : ε)
      (w : World) (returns : b.ReturnsFirst engine w (.within p.context (.bridge p.below)))
      {error : BridgeError} (failed : (b.scan engine w).result = .failed error) :
      PassedOn e (p :: levels) error

namespace BridgeError

/-- The error that an error of a callback comes from, if it comes from one. -/
def inner? : BridgeError → Option BridgeError
  | .callback why => why.inner?
  | _ => none

def below? : Nat → BridgeError → Option BridgeError
  | 0, e => some e
  | n + 1, e => e.inner?.bind (below? n)

theorem inner?_within (context : Option String) (e : BridgeError) :
    (callback (.within context (.bridge e))).inner? = some e := by
  cases context <;> rfl

theorem message_within (context : Option String) (e : BridgeError) :
    (callback (.within context (.bridge e))).message =
      "scan callback failed: " ++ context.elim "" (· ++ ": ") ++ e.message := by
  cases context with
  | none => exact congrArg (· ++ e.message) String.append_empty.symm
  | some text => exact (String.append_assoc ..).symm

end BridgeError

def Passage.prefixed (p : Passage) (text : String) : String :=
  "scan callback failed: " ++ p.context.elim "" (· ++ ": ") ++ text

theorem PassedOn.report {e error : BridgeError} {levels : List Passage}
    (h : PassedOn e levels error) :
    error.message = levels.foldr Passage.prefixed e.message ∧
      (∀ n p, levels[n]? = some p → error.below? (n + 1) = some p.below) ∧
      error.below? levels.length = some e := by
  induction h with
  | raised b engine w failed => exact ⟨rfl, nofun, rfl⟩
  | level p inner b opened engine w returns failed ih =>
    obtain ⟨hmessage, hbelow, hlast⟩ := ih
    cases (returns.result opened).symm.trans failed
    have hstep : ∀ n, (BridgeError.callback (.within p.context (.bridge p.below))).below? (n + 1) =
        p.below.below? n := by
      intro n
      rw [BridgeError.below?, BridgeError.inner?_within, Option.bind_some]
    refine ⟨?_, ?_, ?_⟩
    · rw [BridgeError.message_within, hmessage]
      rfl
    · intro n q hq
      rw [hstep]
      cases n with
      | zero =>
        cases hq
        rfl
      | succ n => exact hbelow n q hq
    · exact (hstep _).trans hlast

namespace Bundle

/-- What a call fails with is reported as the failure of a callback, whatever it is, and nothing
else is. Through any number of scans inside of calls the message grows by a prefix for each level,
and looking the errors up one below the other finds that of every level and in the end the
first. -/
theorem callback_failures_stay {b : Bundle σ} (hopen : b.isClosed = false) (engine : ε)
    (w : World) :
    (∀ why, b.ReturnsFirst engine w why →
      (b.scan engine w).result = .failed (.callback why)) ∧
    (∀ error, (b.scan engine w).result = .failed error → b.Cause engine w error) ∧
    ∀ e levels error, PassedOn e levels error →
      error.message = levels.foldr Passage.prefixed e.message ∧
        (∀ n p, levels[n]? = some p → error.below? (n + 1) = some p.below) ∧
        error.below? levels.length = some e :=
  ⟨fun _ => ReturnsFirst.result hopen, fun _ => scan_cause hopen, fun _ _ _ => PassedOn.report⟩

def shutScan : Plan :=
  .mk [.bundle "shut" .inert none {} [], .close "shut", .engine "idle" (.listed { events := [] }),
    .scan "shut" "idle"] true none

def careless : Bundle Guest where
  id := 0
  callback := .journal { directives := [{ event := .scanFinished, nested := some shutScan.run }] }
  capabilities := .ofList [.scanFinished]

def explaining : Bundle Guest where
  id := 0
  callback := .journal { directives := [{
    event := .scanFinished
    nested := some (Plan.mk [
      .bundle "careless" .journal none {} [{ event := .scanFinished, nested := some shutScan }],
      .engine "finishing" (.listed { events := [{ code := 3 }] }),
      .scan "careless" "finishing"] true (some "unpacking")).run }] }
  capabilities := .ofList [.scanFinished]

def finishing : ListedEngine := { events := [{ code := 3 }] }

theorem returnsFirst_single {b : Bundle σ} {engine : ε} {w : World} {why : Failure}
    (hending : (b.driven engine w).ending ≠ .panicked)
    (hreturned : (b.transcript engine w).map (fun x => (x.routed, x.returned?)) =
      [(true, some (.failed why))]) : b.ReturnsFirst engine w why := by
  obtain ⟨x, hxs, hx⟩ := List.map_eq_singleton_iff.mp hreturned
  obtain ⟨hr, hfailed⟩ := Prod.mk.inj hx
  exact ⟨hending, [], x, [], hxs, fun _ hy => absurd hy List.not_mem_nil, hr, hfailed⟩

/-- The error of the closed bundle, two scans further out. -/
theorem callback_failures_stay_explaining :
    explaining.isClosed = false ∧
      explaining.ReturnsFirst finishing {}
        (.context "unpacking" (.bridge (.callback (.bridge .closed)))) ∧
      ∃ error, PassedOn .closed
          [⟨some "unpacking", .callback (.bridge .closed)⟩, ⟨none, .closed⟩] error ∧
        (explaining.scan finishing {}).result = .failed error ∧
        error.message =
          "scan callback failed: unpacking: scan callback failed: callback bundle is closed" ∧
        error.below? 1 = some (.callback (.bridge .closed)) ∧
        error.below? 2 = some .closed := by
  have hcareless : careless.ReturnsFirst finishing {} (.bridge .closed) :=
    returnsFirst_single (by decide) rfl
  have hexplaining : explaining.ReturnsFirst finishing {}
      (.context "unpacking" (.bridge (.callback (.bridge .closed)))) :=
    returnsFirst_single (by decide) rfl
  obtain ⟨hreport, -, hpassed⟩ := callback_failures_stay (b := explaining) rfl finishing {}
  have hresult := hreport _ hexplaining
  have hshut : PassedOn .closed [] .closed := .raised (careless.close {}).bundle finishing {} rfl
  have hinner : PassedOn .closed [⟨none, .closed⟩] (.callback (.bridge .closed)) :=
    .level ⟨none, .closed⟩ hshut careless rfl finishing {} hcareless (hcareless.result rfl)
  have h : PassedOn .closed [⟨some "unpacking", .callback (.bridge .closed)⟩, ⟨none, .closed⟩]
      (.callback (.context "unpacking" (.bridge (.callback (.bridge .closed))))) :=
    .level ⟨some "unpacking", _⟩ hinner explaining rfl finishing {} hexplaining hresult
  obtain ⟨hmessage, hbelow, hlast⟩ := hpassed _ _ _ h
  exact ⟨rfl, hexplaining, _, h, hresult, hmessage, hbelow 0 _ rfl, hlast⟩

end Bundle

end ScanBridge
