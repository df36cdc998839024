import ScanBridge.Session.Scope

namespace ScanBridge

/-- Steps that a journal runs inside a call, in a scope of their own. They may hold plans again, so
a session is a tree and running it is a recursion on that tree. With `propagates`, the first failure
of their scans becomes the failure of the call, with `context` laid around it. -/
inductive Plan
  | mk (steps : List (Step Plan)) (propagates : Bool) (context : Option String)

def runSteps : List (Step (World → Inner)) → Scope → World → List Report × Scope × World
  | [], s, w => ([], s, w)
  | step :: rest, s, w =>
    let done := s.step w step
    let more := runSteps rest done.scope done.world
    (.mk done.answer done.world.live :: more.1, more.2)

def runPlan (steps : List (Step (World → Inner))) (propagates : Bool) (context : Option String)
    (w : World) : Inner :=
  let done := runSteps steps {} w
  let error := if propagates then done.1.findSome? (·.answer.error?) else none
  { reports := done.1
    failure := error.map fun e => .within context (.bridge e)
    world := done.2.1.discard done.2.2 }

mutual

def Plan.run : Plan → World → Inner
  | .mk steps propagates context => runPlan (planSteps steps) propagates context

def planSteps : List (Step Plan) → List (Step (World → Inner))
  | [] => []
  | step :: rest => planStep step :: planSteps rest

def planStep : Step Plan → Step (World → Inner)
  | .bundle name type limit profile directives =>
    .bundle name type limit profile (planDirectives directives)
  | .set bundle change none => .set bundle change none
  | .set bundle change (some directives) => .set bundle change (some (planDirectives directives))
  | .engine name source => .engine name source
  | .scan bundle engine => .scan bundle engine
  | .scanMatches engine => .scanMatches engine
  | .unrouted engine token => .unrouted engine token
  | .direct engine replies => .direct engine replies
  | .close bundle => .close bundle
  | .drop bundle => .drop bundle
  | .intoInner bundle => .intoInner bundle
  | .records bundle clear => .records bundle clear
  | .unknown => .unknown

def planDirectives : List (Directive Plan) → List (Directive (World → Inner))
  | [] => []
  | d :: rest => planDirective d :: planDirectives rest

def planDirective : Directive Plan → Directive (World → Inner)
  | ⟨event, subject, nth, captures, none, offers, panics, fails, aborts, payload⟩ =>
    ⟨event, subject, nth, captures, none, offers, panics, fails, aborts, payload⟩
  | ⟨event, subject, nth, captures, some plan, offers, panics, fails, aborts, payload⟩ =>
    ⟨event, subject, nth, captures, some plan.run, offers, panics, fails, aborts, payload⟩

end

/-- What a whole session comes to: a report per step, what is held once everything of the session
is gone, and the notices given. -/
structure SessionReport where
  reports : List Report
  final : Live
  notices : List Notice

def SessionReport.noticesFrom (r : SessionReport) (level : Level) : List Notice :=
  r.notices.filter fun n => level.rank ≤ n.level.rank

/-- Runs a session in a world of its own. -/
def runSession (steps : List (Step Plan)) : SessionReport :=
  let done := runPlan (planSteps steps) false none {}
  ⟨done.reports, done.world.live, done.world.notices.toList⟩

end ScanBridge
