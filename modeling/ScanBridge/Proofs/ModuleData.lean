import ScanBridge.Proofs.ImportBuffers
import ScanBridge.Proofs.ScriptedScan

namespace ScanBridge

variable {σ ε : Type} [ScanCallback σ]

/-- The data that the end of a call hands out under a limit: that of an answer, if it has any and
not more than the limit. -/
def Outcome.data? (limit : Option Nat) : Outcome → Option Bytes
  | .answer _ payload =>
    if payload ≠ [] ∧ ∀ n ∈ limit, payload.length ≤ n then some payload else none
  | .failed _ | .panicked => none

/-- The verdict on an import request by how the call for it ends. A request that the callback is not
asked about passes. -/
def importVerdict : Option Outcome → Verdict
  | none | some (.answer .continue _) => .continue
  | some (.answer .abort _) => .abort
  | some (.failed _) | some .panicked => .error

omit [ScanCallback σ] in
theorem Bundle.data?_answer {b : Bundle σ} (hopen : b.isClosed = false) (control : Control)
    (payload : Bytes) :
    (Outcome.answer control payload).data? b.options.maxModuleData =
      if b.admits payload then some payload else none := by
  refine if_congr ?_ rfl rfl
  cases hm : b.options.maxModuleData <;> simp [admits, hopen, hm]

namespace Exchange

omit [ScanCallback σ] in
/-- The event of an exchange is an import request that is handed to the bundle. -/
structure Requests (x : Exchange (Bundle σ)) (module : Layout.Terminated) : Prop where
  routed : x.routed = true
  code : x.event.code = EventKind.importModule.code
  data : ∃ slot, x.event.data = .request module slot
  probed : x.state.capabilities.importModule = true

def importOutcome? (x : Exchange (Bundle σ)) (name : String) : Option Outcome :=
  let asked := ScanCallback.offers x.state.callback .importModule
  if asked.1 then
    some (ScanCallback.call asked.2 (.importModule x.event.ctx name) x.world).outcome
  else none

variable {x : Exchange (Bundle σ)} {module : Layout.Terminated}

omit [ScanCallback σ] in
theorem Requests.fate (h : x.Requests module) :
    x.event.fate x.state.capabilities = .delivered .importModule ∧
      x.event.call? .importModule =
        some (.importModule x.event.ctx (Text.ofTerminated module)) := by
  obtain ⟨_, hcode, ⟨slot, hdata⟩, hprobed⟩ := h
  refine ⟨?_, by simp [Event.call?, hdata]⟩
  simp [Event.fate, hcode, Capabilities.has, hprobed, hdata, EventData.suits]

theorem Requests.reaction (h : x.Requests module) :
    (x.state.reaction? x.event x.world).map Reaction.outcome =
      x.importOutcome? (Text.ofTerminated module) := by
  obtain ⟨hfate, hcall⟩ := h.fate
  unfold Bundle.reaction? Bundle.heard? importOutcome?
  simp only [hfate, hcall]
  split <;> rfl

theorem Requests.taken (h : x.Requests module) (hopen : x.state.isClosed = false) :
    x.taken? = ((x.importOutcome? (Text.ofTerminated module)).bind
      (·.data? x.state.options.maxModuleData)).map (Text.ofTerminated module, ·) := by
  obtain ⟨hfate, hcall⟩ := h.fate
  rw [taken?, if_pos h.routed, Bundle.satisfied?, Bundle.heard?, importOutcome?]
  simp only [hfate, hcall]
  cases (ScanCallback.offers x.state.callback .importModule).1 with
  | false => rfl
  | true =>
    simp only [if_true, Option.bind_some, Call.kind]
    cases (ScanCallback.call (ScanCallback.offers x.state.callback .importModule).2
        (.importModule x.event.ctx (Text.ofTerminated module)) x.world).outcome with
    | answer control payload =>
      simp only [Outcome.supply?, Bundle.data?_answer hopen, Option.filter_some]
      split <;> rfl
    | _ => rfl

theorem Requests.ruling (h : x.Requests module) :
    Verdict.ofOutcome x.ruling = importVerdict (x.importOutcome? (Text.ofTerminated module)) := by
  rw [← h.reaction, Exchange.ruling, Bundle.ruling, h.fate.1]
  cases x.state.reaction? x.event x.world with
  | none => rfl
  | some reaction =>
    dsimp only [Option.map_some]
    rcases reaction.outcome with ⟨control, payload⟩ | why | _
    · cases control <;> rfl
    · rfl
    · rfl

end Exchange

namespace Bundle

variable {own : σ → List Holding} {good : σ → Prop} {b b' : Bundle σ} {w w' : World}
  {xs : List (Exchange (Bundle σ))}

end Bundle

end ScanBridge
