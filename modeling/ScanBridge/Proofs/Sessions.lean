import ScanBridge.Proofs.Scopes
import ScanBridge.Session.Plan

namespace ScanBridge

namespace Scope

variable {s : Scope} {w : World}

theorem good_empty : ({} : Scope).Good := by
  refine ⟨List.Pairwise.nil, ?_⟩
  intro b hb
  cases hb

theorem discard_conduct (s : Scope) (w : World) : Conduct s.holdings w [] (s.discard w) := by
  obtain ⟨bundles, engines⟩ := s
  unfold holdings discard
  dsimp only
  induction bundles generalizing w with
  | nil => exact .rest [] w
  | cons b bundles ih =>
    have hfirst := (Conduct.discard b.2 w).frame [] (bundles.map fun x => x.2.holding)
    exact hfirst.andThen (ih _)

end Scope

theorem runSteps_conduct {steps : List (Step (World → Inner))} (hsteps : ∀ x ∈ steps, x.Good)
    {s : Scope} (hs : s.Good) (w : World) :
    Conduct s.holdings w (runSteps steps s w).2.1.holdings (runSteps steps s w).2.2 := by
  induction steps generalizing s w with
  | nil => exact .rest _ w
  | cons step rest ih =>
    obtain ⟨hstep, hrest⟩ := List.forall_mem_cons.mp hsteps
    obtain ⟨hgood, hdone⟩ := Scope.step_conducted (w := w) hs hstep
    exact hdone.andThen (ih hrest hgood _)

theorem runPlan_conduct {steps : List (Step (World → Inner))} (hsteps : ∀ x ∈ steps, x.Good)
    (propagates : Bool) (context : Option String) (w : World) :
    Conduct [] w [] (runPlan steps propagates context w).world :=
  (runSteps_conduct hsteps Scope.good_empty w).andThen (Scope.discard_conduct _ _)

mutual

/-- A scope that ends has let go of all of its bundles, so the steps that a journal runs inside a
call leave none behind, whatever further steps their own journals run. -/
theorem Plan.run_conduct (p : Plan) (w : World) : Conduct [] w [] (p.run w).world := by
  cases p with
  | mk steps propagates context =>
    rw [Plan.run]
    exact runPlan_conduct (planSteps_good steps) propagates context w

theorem planSteps_good (steps : List (Step Plan)) : ∀ x ∈ planSteps steps, x.Good := by
  cases steps with
  | nil => simp [planSteps]
  | cons step rest =>
    rw [planSteps]
    exact List.forall_mem_cons.mpr ⟨planStep_good step, planSteps_good rest⟩

theorem planStep_good (step : Step Plan) : (planStep step).Good := by
  cases step with
  | bundle name type limit profile directives =>
    rw [planStep]
    exact planDirectives_good directives
  | set bundle change directives =>
    cases directives with
    | none => simp [planStep, Step.Good, Step.directives]
    | some directives =>
      rw [planStep]
      exact planDirectives_good directives
  | _ => simp [planStep, Step.Good, Step.directives]

theorem planDirectives_good (ds : List (Directive Plan)) : ∀ d ∈ planDirectives ds, d.Good := by
  cases ds with
  | nil => simp [planDirectives]
  | cons d rest =>
    rw [planDirectives]
    exact List.forall_mem_cons.mpr ⟨planDirective_good d, planDirectives_good rest⟩

theorem planDirective_good (d : Directive Plan) : (planDirective d).Good := by
  obtain ⟨event, subject, nth, captures, nested, offers, panics, fails, aborts, payload⟩ := d
  cases nested with
  | none => simp [planDirective, Directive.Good]
  | some plan =>
    rw [planDirective]
    rintro _ ⟨⟩ w
    exact plan.run_conduct w

end

/-- Nothing is held once everything of a session is gone. -/
theorem runSession_final (steps : List (Step Plan)) :
    (runSession steps).final.buffers = 0 ∧
      ((runSession steps).notices.count .registered < 2 ^ 64 - 1 →
        (runSession steps).final.registrations = 0) := by
  have hdone := (runPlan_conduct (planSteps_good steps) false none {}).dealing
  constructor
  · have hbuffers := hdone.buffers [] Heap.accounts_new
    exact hbuffers
  · intro hroom
    have hcount : (runSession steps).notices.count .registered =
        (runPlan (planSteps steps) false none {}).world.registrations :=
      Array.count_toList
    obtain ⟨-, hlive⟩ := hdone.registry World.inOrder_new (hcount ▸ hroom)
    exact congrArg List.length hlive

end ScanBridge
