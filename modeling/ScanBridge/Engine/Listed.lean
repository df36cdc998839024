import ScanBridge.Engine.Run

namespace ScanBridge

inductive TokenChoice
  | given
  | null
  | greatest
  deriving DecidableEq, Repr

namespace TokenChoice

def token (given : Token) : TokenChoice → Token
  | .given => given
  | .null => 0
  | .greatest => 0xFFFFFFFFFFFFFFFF

end TokenChoice

structure ListedEvent where
  code : Int32
  token : TokenChoice := .given
  ctx : Option Layout.Context := none
  data : EventData := .null
  deriving Repr

structure SlotSeen where
  data : Option Bytes
  size : Nat
  deriving DecidableEq, Repr

structure Sighting where
  code : Int32
  verdict : Int32
  live : Live
  request : Option SlotSeen
  deriving DecidableEq, Repr

/-- An engine that reports a given list of events, whatever they are: codes of no kind, missing
data, foreign tokens, events after an error. It ends with a given status or breaks off. -/
structure ListedEngine where
  events : List ListedEvent
  /-- Whether to go on after a verdict other than `continue`. -/
  persistent : Bool := false
  status : Option Int32 := none
  panics : Bool := false
  sightings : List Sighting := []
  /-- Whether all module data was unchanged at the end; false before the first run. -/
  intact : Bool := false
  lastToken : Token := 0

namespace ListedEngine

/-- Status of a run in which an event was answered with an error. -/
def callbackFailed : Int32 := 30

structure Kept where
  data : Pointer
  size : Nat
  copy : Option Bytes

structure Progress where
  sightings : List Sighting := []
  kept : List Kept := []

def Progress.sight (p : Progress) (e : ListedEvent) (reply : Reply) (w : World) : Progress :=
  let seen (request : Option SlotSeen) : Progress :=
    { p with sightings := p.sightings ++ [⟨e.code, reply.verdict, w.live, request⟩] }
  match e.data, reply.slot.data with
  | .request .., none => seen (some ⟨none, reply.slot.size⟩)
  | .request .., some data =>
    let copy := w.heap.read data reply.slot.size
    let p := seen (some ⟨copy, reply.slot.size⟩)
    { p with kept := p.kept ++ [⟨data, reply.slot.size, copy⟩] }
  | _, _ => seen none

/-- The end of a run: all kept pointers are read once more. -/
def close (engine : ListedEngine) (p : Progress) : Run ListedEngine :=
  .look fun w =>
    let left := { engine with
      sightings := p.sightings
      intact := p.kept.all fun k => w.heap.read k.data k.size = k.copy }
    let failed := p.sightings.any (·.verdict = Verdict.error.code)
    if engine.panics then .panic left
    else .finish (engine.status.getD (if failed then callbackFailed else 0)) left

def play (engine : ListedEngine) (given : Token) (p : Progress) :
    List ListedEvent → Run ListedEngine
  | [] => engine.close p
  | e :: rest =>
    .emit ⟨e.token.token given, e.code, e.ctx, e.data⟩ fun reply => .look fun w =>
      let p := p.sight e reply w
      if reply.verdict = 0 || engine.persistent then engine.play given p rest else engine.close p

end ListedEngine

instance : Engine ListedEngine where
  run engine token := { engine with lastToken := token }.play token {} engine.events

end ScanBridge
