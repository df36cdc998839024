import ScanBridge.Session.Journal

namespace ScanBridge

inductive Guest
  | journal (j : Journal)
  | recorder (r : MatchRecorder)
  | inert

namespace Guest

def offers (g : Guest) (k : EventKind) : Bool × Guest :=
  match g with
  | .journal j => ((ScanCallback.offers j k).1, .journal (ScanCallback.offers j k).2)
  | .recorder r => ((ScanCallback.offers r k).1, .recorder (ScanCallback.offers r k).2)
  | .inert => (false, .inert)

def call (g : Guest) (c : Call) (w : World) : Reaction Guest :=
  match g with
  | .journal j =>
    let r := ScanCallback.call j c w
    ⟨r.outcome, .journal r.state, r.world⟩
  | .recorder r =>
    let r := ScanCallback.call r c w
    ⟨r.outcome, .recorder r.state, r.world⟩
  | .inert => ⟨.answer .continue [], .inert, w⟩

def capabilities : Guest → Capabilities
  | .journal j => j.offered
  | .recorder r => (probe r).1
  | .inert => .none

/-- The calls noted since they were last taken, and the callback without them. -/
def takeCalls : Guest → Option (List (CallNote Report)) × Guest
  | .journal j => (some j.calls, .journal { j with calls := [] })
  | g => (none, g)

end Guest

instance : ScanCallback Guest where
  offers := Guest.offers
  call := Guest.call

inductive AnyEngine
  | scripted (e : ScriptedEngine)
  | listed (e : ListedEngine)

namespace AnyEngine

def view : AnyEngine → EngineView
  | .scripted e => .scripted e.emissions e.imports e.intact
  | .listed e => .listed e.sightings e.intact

def lastToken : AnyEngine → Token
  | .scripted _ => 0
  | .listed e => e.lastToken

end AnyEngine

instance : Engine AnyEngine where
  run
    | .scripted e, token => (Engine.run e token).map .scripted
    | .listed e, token => (Engine.run e token).map .listed

def getNamed? {α : Type} (name : String) (xs : List (String × α)) : Option α :=
  (xs.find? (·.1 = name)).map (·.2)

def putNamed {α : Type} (name : String) (x : α) : List (String × α) → List (String × α)
  | [] => [(name, x)]
  | (n, y) :: rest =>
    if n = name then (name, x) :: rest
    else if name < n then (name, x) :: (n, y) :: rest
    else (n, y) :: putNamed name x rest

def eraseNamed {α : Type} (name : String) (xs : List (String × α)) : List (String × α) :=
  xs.filter (·.1 ≠ name)

structure Profile where
  offered : Capabilities := .every
  modules : List (String × Bytes) := []
  lookup : List String := []

structure ProfileChange where
  offered : Option Capabilities := none
  modules : Option (List (String × Bytes)) := none
  lookup : Option (List String) := none

inductive GuestType
  | journal
  | recorder
  | inert
  deriving DecidableEq, Repr

inductive EngineSource
  | toml (text : String)
  | script (script : Script)
  | listed (engine : ListedEngine)

/-- Tokens that stand for no running scan. -/
inductive StrayToken
  | null
  | greatest
  | stale
  deriving DecidableEq, Repr

/-- A step of a session; `ν` is what stands for steps that a journal is to run. -/
inductive Step (ν : Type)
  | bundle (name : String) (type : GuestType) (maxModuleData : Option Nat) (profile : Profile)
      (directives : List (Directive ν))
  | engine (name : String) (source : EngineSource)
  | scan (bundle engine : String)
  | scanMatches (engine : String)
  | unrouted (engine : String) (token : StrayToken)
  | direct (engine : String) (replies : List PreparedReply)
  | close (bundle : String)
  | drop (bundle : String)
  | intoInner (bundle : String)
  | set (bundle : String) (change : ProfileChange) (directives : Option (List (Directive ν)))
  | records (bundle : String) (clear : Bool)
  | unknown

/-- The bundles and engines of a session by name. -/
structure Scope where
  bundles : List (String × Bundle Guest) := []
  engines : List (String × AnyEngine) := []

structure Stepped where
  answer : Answer (CallNote Report)
  scope : Scope
  world : World

namespace Scope

def discard (s : Scope) (w : World) : World := s.bundles.foldl (fun w b => b.2.discard w) w

def putBundle (s : Scope) (name : String) (b : Bundle Guest) : Scope :=
  { s with bundles := putNamed name b s.bundles }

def putEngine (s : Scope) (name : String) (e : AnyEngine) : Scope :=
  { s with engines := putNamed name e s.engines }

/-- Makes a bundle. One that had the name before is dropped afterwards. -/
def makeBundle (s : Scope) (w : World) (name : String) (guest : Guest)
    (maxModuleData : Option Nat) : Stepped :=
  let made := Bundle.new guest ⟨maxModuleData⟩ w
  let w := match getNamed? name s.bundles with
    | none => made.2
    | some old => old.discard made.2
  ⟨.bundle made.1.state, s.putBundle name made.1, w⟩

def makeEngine (s : Scope) (w : World) (name : String) (source : EngineSource) : Stepped :=
  let make (script : Script) : Stepped :=
    match ScriptedEngine.ofScript script with
    | .error fault => ⟨.refused (.invalid fault), s, w⟩
    | .ok e => ⟨.ready, s.putEngine name (.scripted e), w⟩
  match source with
  | .listed e => ⟨.ready, s.putEngine name (.listed e), w⟩
  | .script script => make script
  | .toml text =>
    match Script.ofToml text with
    | .error e => ⟨.refused e, s, w⟩
    | .ok script => make script

def withBundle (s : Scope) (w : World) (name : String) (f : Bundle Guest → Stepped) : Stepped :=
  match getNamed? name s.bundles with
  | none => ⟨.unknownName .bundle, s, w⟩
  | some b => f b

def withEngine (s : Scope) (w : World) (name : String) (f : AnyEngine → Stepped) : Stepped :=
  match getNamed? name s.engines with
  | none => ⟨.unknownName .engine, s, w⟩
  | some e => f e

def scan (s : Scope) (w : World) (bundle engine : String) : Stepped :=
  s.withBundle w bundle fun b => s.withEngine w engine fun e =>
    let scanned := b.scan e w
    let taken := scanned.bundle.callback.takeCalls
    let b := { scanned.bundle with callback := taken.2 }
    ⟨.scanned scanned.result taken.1 scanned.engine.view b.state,
      (s.putBundle bundle b).putEngine engine scanned.engine, scanned.world⟩

def scanMatches (s : Scope) (w : World) (engine : String) : Stepped :=
  s.withEngine w engine fun e =>
    let collected := ScanBridge.scanMatches e w
    ⟨.collected collected.1 collected.2.1.view, s.putEngine engine collected.2.1, collected.2.2⟩

def unrouted (s : Scope) (w : World) (engine : String) (token : StrayToken) : Stepped :=
  s.withEngine w engine fun e =>
    let token := match token with
      | .null => 0
      | .greatest => 0xFFFFFFFFFFFFFFFF
      | .stale => e.lastToken
    let driven := (Engine.run e token).drive answerUnattended () w
    ⟨.unrouted driven.ending driven.engine.view, s.putEngine engine driven.engine, driven.world⟩

def direct (s : Scope) (w : World) (engine : String) (replies : List PreparedReply) : Stepped :=
  s.withEngine w engine fun e =>
    match e with
    | .listed _ => ⟨.unknownName .engine, s, w⟩
    | .scripted e =>
      let driven := (Engine.run e 0).drive ReplyList.answer { replies } w
      let e := AnyEngine.scripted driven.engine
      ⟨.direct driven.ending driven.state.seen.reverse e.view, s.putEngine engine e,
        driven.state.discard driven.world⟩

def close (s : Scope) (w : World) (bundle : String) : Stepped :=
  s.withBundle w bundle fun b =>
    let closed := b.close w
    ⟨.closed closed.released closed.bundle.state, s.putBundle bundle closed.bundle, closed.world⟩

def drop (s : Scope) (w : World) (bundle : String) : Stepped :=
  match getNamed? bundle s.bundles with
  | none => ⟨.dropped false, s, w⟩
  | some b => ⟨.dropped true, { s with bundles := eraseNamed bundle s.bundles }, b.discard w⟩

/-- Takes the callback out of a bundle, which is gone with that. -/
def intoInner (s : Scope) (w : World) (bundle : String) : Stepped :=
  s.withBundle w bundle fun b =>
    let answer := match b.callback with
      | .recorder r => Answer.records r.records
      | g => .offered g.capabilities
    ⟨answer, { s with bundles := eraseNamed bundle s.bundles }, b.discard w⟩

def set (s : Scope) (w : World) (bundle : String) (change : ProfileChange)
    (directives : Option (List (Directive (World → Inner)))) : Stepped :=
  s.withBundle w bundle fun b =>
    let guest := match b.callback with
      | .journal j => .journal { j with
          offered := change.offered.getD j.offered
          modules := change.modules.getD j.modules
          lookup := change.lookup.getD j.lookup
          directives := directives.getD j.directives }
      | g => g
    ⟨.bundle b.state, s.putBundle bundle { b with callback := guest }, w⟩

def records (s : Scope) (w : World) (bundle : String) (clear : Bool) : Stepped :=
  match getNamed? bundle s.bundles with
  | some b =>
    match b.callback with
    | .recorder r =>
      let kept := if clear then [] else r.records
      ⟨.counted r.records, s.putBundle bundle { b with callback := .recorder ⟨kept⟩ }, w⟩
    | _ => ⟨.unknownName .recorder, s, w⟩
  | none => ⟨.unknownName .recorder, s, w⟩

def step (s : Scope) (w : World) : Step (World → Inner) → Stepped
  | .bundle name .journal limit p directives =>
    let j : Journal :=
      { offered := p.offered, modules := p.modules, lookup := p.lookup, directives }
    s.makeBundle w name (.journal j) limit
  | .bundle name .recorder limit _ _ => s.makeBundle w name (.recorder {}) limit
  | .bundle name .inert limit _ _ => s.makeBundle w name .inert limit
  | .engine name source => s.makeEngine w name source
  | .scan bundle engine => s.scan w bundle engine
  | .scanMatches engine => s.scanMatches w engine
  | .unrouted engine token => s.unrouted w engine token
  | .direct engine replies => s.direct w engine replies
  | .close bundle => s.close w bundle
  | .drop bundle => s.drop w bundle
  | .intoInner bundle => s.intoInner w bundle
  | .set bundle change directives => s.set w bundle change directives
  | .records bundle clear => s.records w bundle clear
  | .unknown => ⟨.unknownStep, s, w⟩

end Scope

end ScanBridge
