namespace ScanBridge.Decimal

/-- The nearest number of at most 53 significant bits, ties going to the even one. -/
def nearest (n : Nat) : Nat :=
  if n.log2 ≤ 52 then n
  else
    let unit := Nat.pow 2 (n.log2 - 52)
    let low := n / unit
    let rest := n % unit
    let up := unit < 2 * rest || (2 * rest == unit && low % 2 == 1)
    (if up then low + 1 else low) * unit

/-- The least number that rounds beyond every floating-point number of 53 significant bits and
exponents up to 1023: half a unit above the greatest. -/
def overflowBound : Nat := Nat.pow 2 1024 - Nat.pow 2 970

/-- Whether `digits · 10 ^ exponent` rounds beyond every finite value. Numbers of more than 310
digits do and numbers of fewer than 300 do not, so that no larger power is ever computed. -/
def overflows (digits : Nat) (exponent : Int) : Bool :=
  if digits = 0 then false
  else
    let length := (Nat.toDigits 10 digits).length + exponent
    if length > 310 then true
    else if length < 300 then false
    else if exponent < 0 then overflowBound * Nat.pow 10 exponent.natAbs ≤ digits
    else overflowBound ≤ digits * Nat.pow 10 exponent.natAbs

/-- Whether the product of the two nearest values of `significand` and `10 ^ exponent` is beyond
every finite value. Powers above `10 ^ 308` have no nearest value and count as too large. -/
def scaledOverflows (significand : Nat) (exponent : Int) : Bool :=
  if significand = 0 then false
  else if exponent < 0 then false
  else if exponent > 308 then true
  else overflowBound ≤ nearest significand * nearest (Nat.pow 10 exponent.natAbs)

end ScanBridge.Decimal
