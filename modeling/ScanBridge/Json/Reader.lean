import ScanBridge.Json.Token

namespace ScanBridge.Json

/-- An open array or object, its contents in reverse. An object's frame holds the key whose value
is being read. -/
inductive Frame
  | array (items : List Value)
  | object (members : List (String × Value)) (key : String)

inductive Awaited
  | value
  | valueOrEnd
  | keyOrEnd (members : List (String × Value))
  | key (members : List (String × Value))
  | colon
  | commaOrEnd

/-- The number of arrays and objects that may be open at once. -/
def depthLimit : Nat := 127

def place (v : Value) : List Frame → List Frame
  | [] => []
  | .array items :: stack => .array (v :: items) :: stack
  | .object members key :: stack => .object ((key, v) :: members) key :: stack

/-- One token that is not broken. The answer is the whole value, or the new stack and what has to
come next. -/
def consume (stack : List Frame) (awaited : Awaited) (t : Token) :
    Except Fault (Value ⊕ (List Frame × Awaited)) :=
  let close (v : Value) (outer : List Frame) : Value ⊕ (List Frame × Awaited) :=
    match outer with
    | [] => .inl v
    | _ => .inr (place v outer, .commaOrEnd)
  let start : Except Fault (Value ⊕ (List Frame × Awaited)) :=
    match t with
    | .scalar v => .ok (close v stack)
    | .mark '[' =>
      if stack.length < depthLimit then .ok (.inr (.array [] :: stack, .valueOrEnd))
      else .error .malformed
    | .mark '{' =>
      if stack.length < depthLimit then .ok (.inr (.object [] "" :: stack, .keyOrEnd []))
      else .error .malformed
    | _ => .error .malformed
  match awaited, t, stack with
  | .value, _, _ => start
  | .valueOrEnd, .mark ']', .array items :: outer => .ok (close (.array items.reverse) outer)
  | .valueOrEnd, _, _ => start
  | .keyOrEnd members, .mark '}', _ :: outer => .ok (close (.object members.reverse) outer)
  | .keyOrEnd members, .scalar (.string key), _ :: outer
  | .key members, .scalar (.string key), _ :: outer =>
    .ok (.inr (.object members key :: outer, .colon))
  | .colon, .mark ':', _ => .ok (.inr (stack, .value))
  | .commaOrEnd, .mark ',', .array _ :: _ => .ok (.inr (stack, .value))
  | .commaOrEnd, .mark ',', .object members _ :: _ => .ok (.inr (stack, .key members))
  | .commaOrEnd, .mark ']', .array items :: outer => .ok (close (.array items.reverse) outer)
  | .commaOrEnd, .mark '}', .object members _ :: outer =>
    .ok (close (.object members.reverse) outer)
  | _, _, _ => .error .malformed

/-- The fault a broken token is where `awaited` has to come. Where no value can stand, it is out of
place from its first character on. -/
def Awaited.brokenFault (awaited : Awaited) (inText : Bool) (fault : Fault) : Fault :=
  match awaited with
  | .value | .valueOrEnd => fault
  | .keyOrEnd _ | .key _ => if inText then fault else .malformed
  | .colon | .commaOrEnd => .malformed

/-- One value and the tokens behind it. Tokens that end before the value does are of a text that
ended too early. -/
def readFrom (stack : List Frame) (awaited : Awaited) :
    List Token → Except Fault (Value × List Token)
  | [] => .error .ended
  | .broken inText fault :: _ => .error (awaited.brokenFault inText fault)
  | t :: ts =>
    match consume stack awaited t with
    | .error f => .error f
    | .ok (.inl v) => .ok (v, ts)
    | .ok (.inr (stack, awaited)) => readFrom stack awaited ts

def readValue (text : String) : Except Fault (Value × List Token) :=
  readFrom [] .value (tokens text.toList)

def parse (text : String) : Except Fault Value :=
  match readValue text with
  | .error f => .error f
  | .ok (v, []) => .ok v
  | .ok (_, _ :: _) => .error .malformed

end ScanBridge.Json
