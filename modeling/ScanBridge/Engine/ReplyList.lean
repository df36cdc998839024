import ScanBridge.Engine.Run

namespace ScanBridge

structure PreparedReply where
  verdict : Int32 := 0
  data : Option Bytes := none
  size : Option Nat := none
  /-- Whether to invert the first byte of every buffer handed out so far. -/
  mutates : Bool := false
  deriving Repr

/-- Answers an engine's events from a prepared list, without any bundle: any code as a verdict, any
size for a request, and buffers whose bytes change while the engine keeps them. -/
structure ReplyList where
  replies : List PreparedReply
  handedOut : List Nat := []
  seen : List Event := []

namespace ReplyList

def invertFirst : Bytes → Bytes
  | [] => []
  | b :: bs => (b ^^^ 0xFF) :: bs

/-- Answers an event with the next prepared reply, or lets the engine go on where none is left. -/
def answer (e : Event) (r : ReplyList) (w : World) : Answered ReplyList :=
  let reply := r.replies.headD {}
  let r := { r with replies := r.replies.tail, seen := e :: r.seen }
  let handed : Slot × ReplyList × World :=
    match e.data, reply.data with
    | .request .., some data =>
      ({ data := some (.heap w.heap.next), size := min (reply.size.getD data.length) data.length },
        { r with handedOut := r.handedOut ++ [w.heap.next] },
        { w with heap := w.heap.alloc .outside data })
    | .request _ slot, none => ({ slot with size := reply.size.getD 0 }, r, w)
    | _, _ => ({}, r, w)
  let r := handed.2.1
  let w := handed.2.2
  let heap :=
    if reply.mutates then r.handedOut.foldl (fun h a => h.modify a invertFirst) w.heap else w.heap
  ⟨⟨reply.verdict, handed.1⟩, r, { w with heap }⟩

def discard (r : ReplyList) (w : World) : World :=
  { w with heap := w.heap.freeAll .outside r.handedOut }

end ReplyList

end ScanBridge
