import Mathlib.Data.List.Forall2
import ScanBridge.Engine.ReplyList
import ScanBridge.Proofs.ScriptedRuns

namespace ScanBridge

variable {σ : Type}

/-- What a code says to an engine. -/
inductive Verdict.Denoted : Int32 → Option Verdict → Prop
  | continue : Denoted 0 (some .continue)
  | abort : Denoted 1 (some .abort)
  | error : Denoted 2 (some .error)
  | other (code : Int32) (outside : code ≠ 0 ∧ code ≠ 1 ∧ code ≠ 2) : Denoted code none

namespace Verdict

theorem ofCode?_eq_some_iff {code : Int32} {v : Verdict} :
    ofCode? code = some v ↔ code = v.code := by
  constructor
  · intro h
    simpa [eq_comm] using List.find?_some h
  · rintro rfl
    exact ofCode?_code v

theorem ofCode?_eq_none {code : Int32} (h : ofCode? code = none) :
    code ≠ 0 ∧ code ≠ 1 ∧ code ≠ 2 := by
  refine ⟨?_, ?_, ?_⟩
  all_goals
    rintro rfl
    cases h

theorem denoted_ofCode? (code : Int32) : Denoted code (ofCode? code) := by
  cases h : ofCode? code with
  | none => exact .other code (ofCode?_eq_none h)
  | some v =>
    rw [ofCode?_eq_some_iff.mp h]
    cases v
    · exact .continue
    · exact .abort
    · exact .error

end Verdict

namespace ScriptedEngine

/-- An event of a script, as it comes to whoever answers: with a context, and with data where it is
about a rule or a module and its kind is given by name. -/
structure Reported (token : Token) (e : EventSpec) (x : Exchange σ) : Prop where
  token : x.event.token = token
  code : x.event.code = e.kind.code
  context : x.event.ctx ≠ none
  data : x.event.data ≠ .null ↔
    ∃ kind, e.kind = .named kind ∧ (kind.isRule = true ∨ kind.isModule = true)

/-- Events are left over only behind one that was answered with another code than `continue`. -/
inductive Stopped : List EventSpec → List (Exchange σ) → Prop
  | through {xs : List (Exchange σ)} (continued : ∀ x ∈ xs, x.answered.reply.verdict = 0) :
      Stopped [] xs
  | halted (left : List EventSpec) (before : List (Exchange σ)) {x : Exchange σ}
      (continued : ∀ y ∈ before, y.answered.reply.verdict = 0)
      (other : x.answered.reply.verdict ≠ 0) : Stopped left (before ++ [x])

def statusAfter (xs : List (Exchange σ)) : Int32 :=
  match xs.getLast? with
  | none => 0
  | some x =>
    if x.answered.reply.verdict = 0 ∨ x.answered.reply.verdict = 1 then 0 else 30

structure Found (e : EventSpec) (x : Exchange σ) (k : Kept) : Prop where
  kind : e.kind = .named .importModule
  data : x.answered.reply.slot.data = some k.data
  size : x.answered.reply.slot.size = k.size
  nonzero : 0 < k.size
  read : x.answered.world.heap.read k.data k.size = some k.copy

inductive Brought : List EventSpec → List (Exchange σ) → List (String × Kept) → Prop
  | nil : Brought [] [] []
  | found {e : EventSpec} {x : Exchange σ} {k : Kept} {es : List EventSpec}
      {xs : List (Exchange σ)} {ks : List (String × Kept)} (found : Found e x k)
      (more : Brought es xs ks) : Brought (e :: es) (x :: xs) ((e.module, k) :: ks)
  | passed {e : EventSpec} {x : Exchange σ} {es : List EventSpec} {xs : List (Exchange σ)}
      {ks : List (String × Kept)} (nothing : ∀ k, ¬ Found e x k) (more : Brought es xs ks) :
      Brought (e :: es) (x :: xs) ks

/-- What a run came to in which the events `played` were reported and the events `left` were not. -/
structure Performed (engine : ScriptedEngine) (token : Token) (played left : List EventSpec)
    (xs : List (Exchange σ)) (driven : Driven ScriptedEngine σ) : Prop where
  script : engine.script.events = played ++ left
  reported : List.Forall₂ (Reported token) played xs
  stopped : Stopped left xs
  ending : driven.ending = .status (statusAfter xs)
  emissions : List.Forall₂ (fun (x : Exchange σ) (m : Emission) =>
    m.code = x.event.code ∧ Verdict.Denoted x.answered.reply.verdict m.verdict) xs
      driven.engine.emissions
  imports : ∃ ks, Brought played xs ks ∧
    driven.engine.imports = ks.map (fun k => ⟨k.1, k.2.copy⟩) ∧
    (driven.engine.intact = true ↔
      ∀ k ∈ ks, driven.world.heap.read k.2.data k.2.size = some k.2.copy)
  unchanged : driven.engine.script = engine.script

theorem reported_event {token : Token} {e : EventSpec} {x : Exchange σ}
    (h : x.event = event token e) : Reported token e x := by
  refine ⟨?_, ?_, ?_, ?_⟩
  · rw [h, event_token]
  · rw [h, event_code]
  · rw [h, event]
    split <;> simp
  · rw [h, event]
    cases hkind : e.kind with
    | raw code => simp [KindSpec.named?]
    | named kind => cases kind <;> simp [KindSpec.named?, EventKind.isRule, EventKind.isModule]

theorem kept?_of_other {token : Token} {e : EventSpec} {x : Exchange σ}
    (h : x.event = event token e) (hkind : e.kind ≠ .named .importModule) : x.kept? = none := by
  unfold Exchange.kept?
  rw [h, event]
  cases hk : e.kind with
  | raw code => rfl
  | named kind =>
    cases kind with
    | importModule => exact absurd hk hkind
    | _ => rfl

theorem kept?_eq_some_iff {token : Token} {e : EventSpec} {x : Exchange σ}
    (h : x.event = event token e) (hclean : '\x00' ∉ e.module.toList) {m : String} {k : Kept} :
    x.kept? = some (m, k) ↔ m = e.module ∧ Found e x k := by
  have hname : Text.ofTerminated (Layout.Terminated.ofString e.module) = e.module :=
    Text.ofTerminated_toTerminated hclean
  by_cases hkind : e.kind = .named .importModule
  · have hdata : x.event.data = .request (Layout.Terminated.ofString e.module) {} := by
      rw [h, event, hkind]
      rfl
    unfold Exchange.kept?
    rw [hdata]
    constructor
    · intro hkept
      split at hkept
      · rename_i module data hmodule hslot
        cases hmodule
        dsimp only at hkept
        split at hkept
        · obtain ⟨copy, hread, heq⟩ := Option.map_eq_some_iff.mp hkept
          cases heq
          exact ⟨hname, ‹_›, ‹_›, rfl, ‹_›, hread⟩
        · cases hkept
      · cases hkept
    · rintro ⟨rfl, hfound⟩
      simp [hfound.data, hfound.size, hfound.nonzero, hfound.read, hname]
  · rw [kept?_of_other h hkind]
    exact iff_of_false (Option.some_ne_none _).symm fun hfound => hkind hfound.2.kind

theorem brought {token : Token} {es : List EventSpec} {xs : List (Exchange σ)}
    (h : List.Forall₂ (fun e x => x.event = event token e) es xs)
    (hclean : ∀ e ∈ es, '\x00' ∉ e.module.toList) :
    Brought es xs (xs.filterMap Exchange.kept?) := by
  induction h with
  | nil => exact .nil
  | @cons e x es xs hevent _ ih =>
    have hrest := ih fun f hf => hclean f (List.mem_cons_of_mem _ hf)
    have hkept : ∀ m k, x.kept? = some (m, k) ↔ m = e.module ∧ Found e x k :=
      fun m k => kept?_eq_some_iff hevent (hclean e List.mem_cons_self)
    rw [List.filterMap_cons]
    cases hx : x.kept? with
    | none =>
      refine .passed (fun k hk => ?_) hrest
      cases hx.symm.trans ((hkept _ k).mpr ⟨rfl, hk⟩)
    | some p =>
      obtain ⟨hm, hfound⟩ := (hkept p.1 p.2).mp hx
      have hp : p = (e.module, p.2) := Prod.ext hm rfl
      rw [hp]
      exact .found hfound hrest

theorem Stopped.cons {left : List EventSpec} {x : Exchange σ} {xs : List (Exchange σ)}
    (hx : x.answered.reply.verdict = 0) (h : Stopped left xs) : Stopped left (x :: xs) := by
  cases h with
  | through continued => exact .through (List.forall_mem_cons.mpr ⟨hx, continued⟩)
  | halted left before continued other =>
    exact .halted left (x :: before) (List.forall_mem_cons.mpr ⟨hx, continued⟩) other

theorem statusAfter_cons {x : Exchange σ} {xs : List (Exchange σ)}
    (hx : x.answered.reply.verdict = 0) : statusAfter (x :: xs) = statusAfter xs := by
  cases xs with
  | nil => simp [statusAfter, hx]
  | cons y ys => rw [statusAfter, statusAfter, List.getLast?_cons_cons]

theorem Played.stopped {token : Token} {script : List EventSpec} {xs : List (Exchange σ)}
    {ending : Ending} (h : Played token script xs ending) :
    ∃ played left, script = played ++ left ∧
      List.Forall₂ (fun e x => x.event = event token e) played xs ∧ Stopped left xs ∧
      ending = .status (statusAfter xs) := by
  induction h with
  | through => exact ⟨[], [], rfl, .nil, .through (List.forall_mem_nil _), rfl⟩
  | continued e x event verdict more ih =>
    obtain ⟨played, left, rfl, hevents, hstopped, hending⟩ := ih
    have hzero : x.answered.reply.verdict = 0 := Verdict.ofCode?_eq_some_iff.mp verdict
    refine ⟨e :: played, left, rfl, .cons event hevents, hstopped.cons hzero, ?_⟩
    rw [hending, statusAfter_cons hzero]
  | aborted e x rest event verdict =>
    have hone : x.answered.reply.verdict = 1 := Verdict.ofCode?_eq_some_iff.mp verdict
    have hstopped : Stopped rest [x] :=
      .halted rest [] (List.forall_mem_nil _) (by simp [hone])
    refine ⟨[e], rest, rfl, .cons event .nil, hstopped, ?_⟩
    simp [statusAfter, hone, succeeded]
  | failed e x rest event verdict =>
    have hcode : x.answered.reply.verdict ≠ 0 ∧ x.answered.reply.verdict ≠ 1 := by
      rcases verdict with verdict | verdict
      · have htwo : x.answered.reply.verdict = 2 := Verdict.ofCode?_eq_some_iff.mp verdict
        simp [htwo]
      · obtain ⟨h0, h1, _⟩ := Verdict.ofCode?_eq_none verdict
        exact ⟨h0, h1⟩
    have hstopped : Stopped rest [x] := .halted rest [] (List.forall_mem_nil _) hcode.1
    refine ⟨[e], rest, rfl, .cons event .nil, hstopped, ?_⟩
    simp [statusAfter, hcode, callbackFailed]

theorem play_anew (engine : ScriptedEngine) (emissions : List Emission) (imports : List Import)
    (intact : Bool) (token : Token) (p : Progress) (script : List EventSpec) :
    ({ engine with emissions, imports, intact } : ScriptedEngine).play token p script =
      engine.play token p script := by
  induction script generalizing p with
  | nil => rfl
  | cons e rest ih =>
    simp only [play, ih]
    rfl

/-- Whatever answers the events of a script, the run is that of a prefix of the script, and the
engine's account of it is true and of this run only. -/
theorem performs (engine : ScriptedEngine) (token : Token)
    (answer : Event → σ → World → Answered σ) (s : σ) (w : World) :
    let run := Engine.run engine token
    let driven := run.drive answer s w
    let xs := run.exchanges answer s w
    Chain answer s w xs driven.state driven.world ∧
      (∃ played left, engine.Performed token played left xs driven) ∧
      ∀ emissions imports intact,
        Engine.run { engine with emissions, imports, intact } token = run := by
  intro run driven xs
  refine ⟨run.chain answer s w, ?_, fun _ _ _ => play_anew ..⟩
  obtain ⟨hplayed, haccount⟩ :=
    engine.play_played token answer {} engine.modules_sans_nul s w
  obtain ⟨played, left, hscript, hevents, hstopped, hending⟩ := hplayed.stopped
  have hclean : ∀ e ∈ played, '\x00' ∉ e.module.toList :=
    fun e he => engine.modules_sans_nul e (hscript ▸ List.mem_append_left _ he)
  have hemissions : driven.engine.emissions = xs.map Exchange.emission :=
    (congrArg ScriptedEngine.emissions haccount).trans (List.nil_append _)
  have himports : driven.engine.imports =
      (xs.filterMap Exchange.kept?).map fun k => ⟨k.1, k.2.copy⟩ :=
    (congrArg ScriptedEngine.imports haccount).trans (List.nil_append _)
  have hintact : driven.engine.intact = ((xs.filterMap Exchange.kept?).map Prod.snd).all
      fun k => driven.world.heap.read k.data k.size = some k.copy :=
    congrArg ScriptedEngine.intact haccount
  refine ⟨played, left, hscript, hevents.imp fun _ _ => reported_event, hstopped, hending, ?_,
    ⟨_, brought hevents hclean, himports, ?_⟩, (congrArg ScriptedEngine.script haccount).trans rfl⟩
  · rw [hemissions, List.forall₂_map_right_iff, List.forall₂_same]
    exact fun x _ => ⟨rfl, Verdict.denoted_ofCode? _⟩
  · rw [hintact, List.all_eq_true, List.forall_mem_map]
    simp only [decide_eq_true_eq]

/-- A code that is no verdict ends the run; the data that comes with it is taken. -/
example :
    let engine : ScriptedEngine :=
      { script := { events := [.importModule "pe", .scanFinished] }, valid := by decide }
    let driven := (Engine.run engine 7).drive ReplyList.answer
      { replies := [{ verdict := 42, data := some [1, 2] }] } {}
    driven.ending = .status 30 ∧ driven.engine.emissions = [⟨4, none⟩] ∧
      driven.engine.imports = [⟨"pe", [1, 2]⟩] ∧ driven.engine.intact = true := by
  exact ⟨rfl, rfl, rfl, rfl⟩

end ScriptedEngine

end ScanBridge
