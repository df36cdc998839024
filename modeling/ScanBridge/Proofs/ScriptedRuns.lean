import ScanBridge.Engine.Scripted
import ScanBridge.Proofs.Exchanges
import ScanBridge.Proofs.Utf8

namespace ScanBridge

theorem faultCause?_of_firstFault? {events : List EventSpec} {index : Nat}
    (h : firstFault? index events = none) : ∀ e ∈ events, e.faultCause? = none := by
  induction events generalizing index with
  | nil => simp
  | cons e events ih =>
    cases hc : e.faultCause? with
    | some cause => simp [firstFault?, hc] at h
    | none =>
      have hrest : firstFault? (index + 1) events = none := by simpa [firstFault?, hc] using h
      intro f hf
      rcases List.mem_cons.mp hf with rfl | hf
      · exact hc
      · exact ih hrest f hf

theorem Script.texts_sans_nul {s : Script} (hv : s.fault? = none) {e : EventSpec}
    (he : e ∈ s.events) : ∀ text ∈ e.texts, '\x00' ∉ text.toList := by
  have hc := faultCause?_of_firstFault? hv e he
  unfold EventSpec.faultCause? at hc
  dsimp only at hc
  split at hc
  · cases hc
  split at hc
  · cases hc
  · simpa using hc

variable {σ : Type}

def Exchange.verdict? (x : Exchange σ) : Option Verdict := Verdict.ofCode? x.answered.reply.verdict

def Exchange.emission (x : Exchange σ) : Emission := ⟨x.event.code, x.verdict?⟩

/-- Module data that is found once an event has been answered: the name of the module, and the
pointer with what is behind it. -/
def Exchange.kept? (x : Exchange σ) : Option (String × ScriptedEngine.Kept) :=
  match x.event.data, x.answered.reply.slot.data with
  | .request module _, some data =>
    let size := x.answered.reply.slot.size
    if 0 < size then
      (x.answered.world.heap.read data size).map fun copy =>
        (Text.ofTerminated module, ⟨data, size, copy⟩)
    else none
  | _, _ => none

theorem Exchange.kept?_eq_none {x : Exchange σ} (h : x.answered.reply.slot.data = none) :
    x.kept? = none := by
  unfold kept?
  rw [h]
  split <;> simp_all

namespace ScriptedEngine

theorem modules_sans_nul (engine : ScriptedEngine) :
    ∀ e ∈ engine.script.events, '\x00' ∉ e.module.toList :=
  fun e he => Script.texts_sans_nul engine.valid he e.module (by simp [EventSpec.texts])

@[simp] theorem event_token (token : Token) (e : EventSpec) : (event token e).token = token := by
  unfold event
  split <;> rfl

theorem event_slot (token : Token) (e : EventSpec) : (event token e).data.slot = {} := by
  unfold event
  split <;> rfl

@[simp] theorem event_code (token : Token) (e : EventSpec) :
    (event token e).code = e.kind.code := by
  unfold event
  split <;> rfl

/-- What is known of a run that has gone on through exchanges. -/
def Progress.after (p : Progress) (xs : List (Exchange σ)) : Progress where
  emissions := p.emissions ++ xs.map Exchange.emission
  imports := p.imports ++ (xs.filterMap Exchange.kept?).map fun k => ⟨k.1, k.2.copy⟩
  kept := p.kept ++ (xs.filterMap Exchange.kept?).map Prod.snd

theorem Progress.after_nil (p : Progress) : p.after ([] : List (Exchange σ)) = p := by
  simp [after]

theorem Progress.after_cons (p : Progress) (x : Exchange σ) (xs : List (Exchange σ)) :
    p.after (x :: xs) = (p.after [x]).after xs := by
  cases h : x.kept? <;> simp [after, h]

theorem Progress.takeImport_emitted (p : Progress) {token : Token} {e : EventSpec} {x : Exchange σ}
    (hx : x.event = event token e) (hclean : '\x00' ∉ e.module.toList) :
    (p.takeImport e x.answered.reply.slot x.answered.world).emitted e.kind.code x.verdict? =
      p.after [x] := by
  have hname : Text.ofTerminated (Layout.Terminated.ofString e.module) = e.module :=
    Text.ofTerminated_toTerminated hclean
  have hcode : e.kind.code = x.event.code := by rw [hx, event_code]
  have hkept : p.takeImport e x.answered.reply.slot x.answered.world = { p with
      imports := (p.after [x]).imports
      kept := (p.after [x]).kept } := by
    unfold takeImport after
    simp only [List.filterMap_cons, List.filterMap_nil, Exchange.kept?, hx, event]
    cases e.kind.named? with
    | none => simp
    | some kind =>
      cases kind with
      | importModule =>
        cases hdata : x.answered.reply.slot.data with
        | none => simp
        | some data =>
          by_cases hsize : 0 < x.answered.reply.slot.size
          · simp only [hsize, if_true, hname]
            cases x.answered.world.heap.read data x.answered.reply.slot.size <;> simp
          · simp [hsize]
      | _ => simp
  rw [hkept, emitted, hcode]
  rfl

def account (engine : ScriptedEngine) (p : Progress) (w : World) : ScriptedEngine :=
  { engine with
    emissions := p.emissions
    imports := p.imports
    intact := p.kept.all fun k => w.heap.read k.data k.size = some k.copy }

/-- The exchanges and the ending that come of playing events under a token, whoever answers: the
events are those up to the first that is not answered with `continue`. -/
inductive Played (token : Token) : List EventSpec → List (Exchange σ) → Ending → Prop
  | through : Played token [] [] (.status succeeded)
  | continued (e : EventSpec) (x : Exchange σ) {rest : List EventSpec}
      {xs : List (Exchange σ)} {ending : Ending} (event : x.event = event token e)
      (verdict : x.verdict? = some .continue) (more : Played token rest xs ending) :
      Played token (e :: rest) (x :: xs) ending
  | aborted (e : EventSpec) (x : Exchange σ) (rest : List EventSpec)
      (event : x.event = event token e) (verdict : x.verdict? = some .abort) :
      Played token (e :: rest) [x] (.status succeeded)
  | failed (e : EventSpec) (x : Exchange σ) (rest : List EventSpec)
      (event : x.event = event token e) (verdict : x.verdict? = some .error ∨ x.verdict? = none) :
      Played token (e :: rest) [x] (.status callbackFailed)

theorem Played.prefix_events {token : Token} {script : List EventSpec} {xs : List (Exchange σ)}
    {ending : Ending} (h : Played token script xs ending) :
    xs.map Exchange.event <+: script.map (event token) := by
  induction h with
  | through => exact List.prefix_refl _
  | continued e x event verdict more ih => simpa [event] using ih
  | aborted e x rest event verdict => simp [event]
  | failed e x rest event verdict => simp [event]

theorem Played.last {token : Token} {script : List EventSpec} {xs : List (Exchange σ)}
    {x : Exchange σ} {ending : Ending} (h : Played token script (xs ++ [x]) ending) :
    ∃ pre e post, script = pre ++ e :: post ∧
      xs.map Exchange.event = pre.map (event token) ∧ x.event = event token e := by
  obtain ⟨rest, hrest⟩ := h.prefix_events
  rw [List.map_append, List.append_assoc] at hrest
  obtain ⟨pre, more, hscript, hpre, hmore⟩ := List.map_eq_append_iff.mp hrest.symm
  obtain ⟨e, post, rfl, he, _⟩ := List.map_eq_cons_iff.mp hmore
  exact ⟨pre, e, post, hscript, hpre.symm, he.symm⟩

theorem play_played (engine : ScriptedEngine) (token : Token)
    (answer : Event → σ → World → Answered σ) (p : Progress) {script : List EventSpec}
    (hclean : ∀ e ∈ script, '\x00' ∉ e.module.toList) (s : σ) (w : World) :
    let driven := (engine.play token p script).drive answer s w
    let xs := (engine.play token p script).exchanges answer s w
    Played token script xs driven.ending ∧
      driven.engine = engine.account (p.after xs) driven.world := by
  dsimp only
  -- What the engine knows of the run so far is in `p`, so the induction is for any `p`.
  induction script generalizing p s w with
  | nil => exact ⟨.through, congrArg (engine.account · w) p.after_nil.symm⟩
  | cons e rest ih =>
    have hrest := fun f hf => hclean f (List.mem_cons_of_mem _ hf)
    have hfirst := p.takeImport_emitted (x := ⟨event token e, s, w, answer (event token e) s w⟩)
      rfl (hclean e List.mem_cons_self)
    simp only [Exchange.verdict?] at hfirst
    simp only [play, Run.exchanges, Run.drive, hfirst]
    cases hv : Verdict.ofCode? (answer (event token e) s w).reply.verdict with
    | none => exact ⟨.failed e _ rest rfl (.inr hv), rfl⟩
    | some v =>
      cases v with
      | «continue» =>
        obtain ⟨hplayed, hengine⟩ := ih
          (p.after [⟨event token e, s, w, answer (event token e) s w⟩]) hrest
          (answer (event token e) s w).state
          ((answer (event token e) s w).world.notify (.emitted e.kind.code (some .continue)))
        refine ⟨.continued e _ rfl hv hplayed, ?_⟩
        exact hengine.trans (congrArg (engine.account · _) (p.after_cons ..).symm)
      | abort => exact ⟨.aborted e _ rest rfl hv, rfl⟩
      | error => exact ⟨.failed e _ rest rfl (.inl hv), rfl⟩

end ScriptedEngine

end ScanBridge
