import ScanBridge.Json.Number
import ScanBridge.Text.Hexadecimal

namespace ScanBridge.Json

inductive Token
  | mark (c : Char)
  | scalar (v : Value)
  /-- Where a text stops being JSON its tokens end with this one, so that a reader meets faults in
  the order in which they stand in the text. -/
  | broken (inText : Bool) (fault : Fault)
  deriving Repr

/-- What the lexer is inside of, as it reads the characters one by one. Those of a string are
collected in reverse. -/
inductive Reading
  | between
  | text (done : List Char)
  | escape (done : List Char)
  /-- Behind `\u`, with the value and the count of the digits read; `high` is the leading half of a
  pair of surrogates. -/
  | unit (done : List Char) (high : Option Nat) (value count : Nat)
  /-- Behind a leading surrogate, where a backslash has to follow. -/
  | pair (done : List Char) (high : Nat)
  | pairUnit (done : List Char) (high : Nat)
  | word (rest : List Char) (v : Value)
  | number (part : NumberPart) (literal : List Char)
  deriving Repr

def isBlank (c : Char) : Bool := c = ' ' || c = '\n' || c = '\t' || c = '\r'

def isStructural (c : Char) : Bool :=
  c = '{' || c = '}' || c = '[' || c = ']' || c = ',' || c = ':'

def unescape? : Char → Option Char
  | '"' => some '"'
  | '\\' => some '\\'
  | '/' => some '/'
  | 'b' => some '\x08'
  | 'f' => some '\x0c'
  | 'n' => some '\n'
  | 'r' => some '\r'
  | 't' => some '\t'
  | _ => none

/-- The tokens that a character completes and the state behind it; no state where the text has
stopped being JSON. -/
structure Step where
  tokens : List Token := []
  next : Option Reading

def Step.into (state : Reading) : Step := { next := some state }

def Step.token (t : Token) : Step := { tokens := [t], next := some .between }

def Step.stop (inText : Bool) (fault : Fault) : Step :=
  { tokens := [.broken inText fault], next := none }

def begin (c : Char) : Step :=
  if isBlank c then .into .between
  else if isStructural c then .token (.mark c)
  else if c = '"' then .into (.text [])
  else if c = 't' then .into (.word ['r', 'u', 'e'] (.boolean true))
  else if c = 'f' then .into (.word ['a', 'l', 's', 'e'] (.boolean false))
  else if c = 'n' then .into (.word ['u', 'l', 'l'] .null)
  else if c = '-' then .into (.number .sign [c])
  else if c = '0' then .into (.number .zero [c])
  else if c.isDigit then .into (.number .whole [c])
  else .stop false .malformed

/-- What the four digits behind `\u` stand for: a character, or one half of one. -/
def closeUnit (done : List Char) (high : Option Nat) (value : Nat) : Step :=
  match high with
  | none =>
    if 0xDC00 ≤ value ∧ value ≤ 0xDFFF then .stop true .malformed
    else if 0xD800 ≤ value ∧ value ≤ 0xDBFF then .into (.pair done value)
    else .into (.text (Char.ofNat value :: done))
  | some high =>
    if 0xDC00 ≤ value ∧ value ≤ 0xDFFF then
      .into (.text (Char.ofNat (0x10000 + (high - 0xD800) * 0x400 + (value - 0xDC00)) :: done))
    else .stop true .malformed

def hasBytes : Nat → List Char → Bool
  | 0, _ => true
  | _ + 1, [] => false
  | n + 1, c :: cs => hasBytes (n + 1 - c.utf8Size) cs

/-- The token a complete number literal makes; the literal is given in reverse. -/
def numberToken (literal : List Char) : Token :=
  match literalValue? literal.reverse with
  | some v => .scalar v
  | none => .broken false .malformed

/-- One character. `rest` is the text behind it: an escape by number that the text is too short for
is a text that ends too early, whatever its characters are. -/
def Reading.step (state : Reading) (c : Char) (rest : List Char) : Step :=
  match state with
  | .between => begin c
  | .text done =>
    if c = '"' then .token (.scalar (.string (String.ofList done.reverse)))
    else if c = '\\' then .into (.escape done)
    else if c.toNat < 0x20 then .stop true .malformed
    else .into (.text (c :: done))
  | .escape done =>
    if c = 'u' then .into (.unit done none 0 0)
    else match unescape? c with
      | some d => .into (.text (d :: done))
      | none => .stop true .malformed
  | .unit done high value count =>
    match Text.hexValue? c with
    | some d =>
      if count = 3 then closeUnit done high (16 * value + d)
      else .into (.unit done high (16 * value + d) (count + 1))
    | none => .stop true (if hasBytes (4 - count) (c :: rest) then .malformed else .ended)
  | .pair done high =>
    if c = '\\' then .into (.pairUnit done high) else .stop true .malformed
  | .pairUnit done high =>
    if c = 'u' then .into (.unit done (some high) 0 0) else .stop true .malformed
  | .word [] _ => .stop false .malformed
  | .word [d] v => if c = d then .token (.scalar v) else .stop false .malformed
  | .word (d :: more) v => if c = d then .into (.word more v) else .stop false .malformed
  | .number part literal =>
    match part.step c with
    | .within next => .into (.number next (c :: literal))
    | .refused => .stop false .malformed
    | .beyond => { begin c with tokens := numberToken literal :: (begin c).tokens }

def Reading.finish : Reading → List Token
  | .between => []
  | .text _ | .escape _ | .unit .. | .pair .. | .pairUnit .. => [.broken true .ended]
  | .word .. => [.broken false .ended]
  | .number part literal =>
    if part.complete then [numberToken literal] else [.broken false .ended]

def tokensFrom : Reading → List Char → List Token
  | state, [] => state.finish
  | state, c :: cs =>
    let step := state.step c cs
    match step.next with
    | some next => step.tokens ++ tokensFrom next cs
    | none => step.tokens

def tokens (text : List Char) : List Token := tokensFrom .between text

end ScanBridge.Json
