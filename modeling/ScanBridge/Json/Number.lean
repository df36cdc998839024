import ScanBridge.Decimal.Magnitude
import ScanBridge.Json.Value

namespace ScanBridge.Json

inductive NumberPart
  | sign
  | zero
  | whole
  | point
  | fraction
  | mark
  | markSign
  | exponent
  deriving DecidableEq, Repr

/-- What a character does to a number literal: it belongs to it, it lies beyond its end, or it may
not stand there. -/
inductive NumberStep
  | within (part : NumberPart)
  | beyond
  | refused
  deriving DecidableEq, Repr

def isMark (c : Char) : Bool := c = 'e' || c = 'E'

def NumberPart.step (part : NumberPart) (c : Char) : NumberStep :=
  match part with
  | .sign => if c = '0' then .within .zero else if c.isDigit then .within .whole else .refused
  | .zero =>
    if c.isDigit then .refused
    else if c = '.' then .within .point
    else if isMark c then .within .mark
    else .beyond
  | .whole =>
    if c.isDigit then .within .whole
    else if c = '.' then .within .point
    else if isMark c then .within .mark
    else .beyond
  | .point => if c.isDigit then .within .fraction else .refused
  | .fraction =>
    if c.isDigit then .within .fraction else if isMark c then .within .mark else .beyond
  | .mark =>
    if c.isDigit then .within .exponent
    else if c = '+' || c = '-' then .within .markSign
    else .refused
  | .markSign => if c.isDigit then .within .exponent else .refused
  | .exponent => if c.isDigit then .within .exponent else .beyond

def NumberPart.complete : NumberPart → Bool
  | .zero | .whole | .fraction | .exponent => true
  | .sign | .point | .mark | .markSign => false

def digitValue (c : Char) : Nat := c.toNat - '0'.toNat

def digitsValue (cs : List Char) : Nat := cs.foldl (fun n c => 10 * n + digitValue c) 0

/-- Reads a significand as long as it fits 64 bits. The second component counts the digits left
out. -/
def takeWhole : Nat → List Char → Nat × Nat
  | s, [] => (s, 0)
  | s, c :: cs =>
    if Nat.pow 2 64 ≤ 10 * s + digitValue c then (s, cs.length + 1)
    else takeWhole (10 * s + digitValue c) cs

/-- Extends a significand by fraction digits as long as it fits 64 bits. The second component
counts the digits taken. -/
def takeFraction : Nat → List Char → Nat × Nat
  | s, [] => (s, 0)
  | s, c :: cs =>
    if Nat.pow 2 64 ≤ 10 * s + digitValue c then (s, 0)
    else
      let taken := takeFraction (10 * s + digitValue c) cs
      (taken.1, taken.2 + 1)

def exponentValue : List Char → Int
  | [] => 0
  | '-' :: cs => -(digitsValue cs : Int)
  | '+' :: cs => digitsValue cs
  | cs => digitsValue cs

def literalOverflows (cs : List Char) : Bool :=
  let digits := cs.dropWhile (· = '-')
  let whole := digits.takeWhile Char.isDigit
  let rest := digits.dropWhile Char.isDigit
  let fraction := match rest with
    | '.' :: more => more.takeWhile Char.isDigit
    | _ => []
  let power := (rest.dropWhile fun c => !isMark c).drop 1
  let taken := takeWhole 0 whole
  let read := takeFraction taken.1 fraction
  Decimal.scaledOverflows read.1 (taken.2 - read.2 + exponentValue power)

/-- The integer a literal stands for, if it has neither fraction nor exponent, is not `-0`, and is
at least `-2 ^ 63` and below `2 ^ 64`. -/
def literalInteger? : List Char → Option Int
  | '-' :: cs =>
    if cs.all Char.isDigit && digitsValue cs ≠ 0 && digitsValue cs ≤ Nat.pow 2 63 then
      some (-(digitsValue cs : Int))
    else none
  | cs =>
    if cs.all Char.isDigit && digitsValue cs < Nat.pow 2 64 then some (digitsValue cs) else none

/-- The value of a complete literal; `none` for a number beyond the finite ones. -/
def literalValue? (cs : List Char) : Option Value :=
  match literalInteger? cs with
  | some n => some (.integer n)
  | none => if literalOverflows cs then none else some (.real (String.ofList cs))

end ScanBridge.Json
