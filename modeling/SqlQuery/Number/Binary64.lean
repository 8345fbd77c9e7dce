/-!
# Double-precision numbers as 64-bit words

A binary64 number is its word; everything about it is computed exactly in `Nat`
and `Int`, so equality is decidable and no machine arithmetic is involved. The
magnitude of a finite word is `mantissa * 2 ^ exponent`.

`ofRatio` is the one rounding: the nearest binary64 to a quotient of naturals, a
tie going to the even mantissa. `ofDecimal` reads `significand * 10 ^ exponent`
with it in the way a fast reader does: the significand and the power of ten are
each rounded first, and their product or quotient once more.
-/

namespace SqlQuery

/-- A binary64 number, held as its word. -/
structure Binary64 where
  bits : UInt64
deriving DecidableEq, Repr, Inhabited

namespace Binary64

/-- The bit of a word that holds the sign. -/
def signBit : Nat := 0x8000000000000000

/-- The bit before the fraction, which the word of a normal number leaves out. -/
def hiddenBit : Nat := 0x10000000000000

/-- Whether the sign bit is set. -/
def isNegative (x : Binary64) : Bool :=
  decide (signBit ≤ x.bits.toNat)

/-- The word without its sign bit. -/
def magnitudeBits (x : Binary64) : Nat :=
  x.bits.toNat % signBit

/-- The number with the sign bit set. -/
def negate (x : Binary64) : Binary64 :=
  ⟨x.bits ||| UInt64.ofNat signBit⟩

/-- Positive zero. -/
def zero : Binary64 := ⟨0⟩

/-- Whether the magnitude is zero, whatever the sign. -/
def isZero (x : Binary64) : Bool :=
  x.magnitudeBits == 0

/-- The biased exponent field. -/
def exponentField (x : Binary64) : Nat :=
  x.magnitudeBits / hiddenBit

/-- The integer mantissa: the fraction, with the hidden bit of a normal number. -/
def mantissa (x : Binary64) : Nat :=
  let fraction := x.magnitudeBits % hiddenBit
  if x.exponentField = 0 then fraction else fraction + hiddenBit

/-- The power of two that the mantissa counts. -/
def exponent (x : Binary64) : Int :=
  if x.exponentField = 0 then -1074 else (x.exponentField : Int) - 1075

/-- `base ^ k` as a numerator and a denominator. -/
def power (base : Nat) (k : Int) : Nat × Nat :=
  if 0 ≤ k then (base.pow k.toNat, 1) else (1, base.pow (-k).toNat)

/-- The magnitude as a quotient of naturals. -/
def ratio (x : Binary64) : Nat × Nat :=
  let p := power 2 x.exponent
  (x.mantissa * p.1, p.2)

/-- The natural nearest to `num / den`, a tie going to the even one. -/
def divideToEven (num den : Nat) : Nat :=
  let floor := num / den
  let rest := 2 * (num % den)
  if rest < den then floor
  else if den < rest then floor + 1
  else floor + floor % 2

/-- The largest `k` with `2 ^ k ≤ num / den`, for positive arguments. -/
def floorLog2 (num den : Nat) : Int :=
  let k : Int := (num.log2 : Int) - den.log2
  let p := power 2 k
  if den * p.1 ≤ num * p.2 then k else k - 1

/-- The binary64 nearest to `num / den`, or `none` beyond the largest finite one. -/
def ofRatio (num den : Nat) : Option Binary64 :=
  if num = 0 then some zero
  else
    let unit : Int := max (floorLog2 num den - 52) (-1074)
    let p := power 2 unit
    let word := (unit + 1074).toNat * hiddenBit + divideToEven (num * p.2) (den * p.1)
    if word < 0x7ff * hiddenBit then some ⟨UInt64.ofNat word⟩ else none

/-- The binary64 nearest to a natural. -/
def ofNat? (n : Nat) : Option Binary64 :=
  ofRatio n 1

/-- The product of two magnitudes, rounded once. -/
def times (x y : Binary64) : Option Binary64 :=
  ofRatio (x.ratio.1 * y.ratio.1) (x.ratio.2 * y.ratio.2)

/-- The quotient of two magnitudes, rounded once. -/
def dividedBy (x y : Binary64) : Option Binary64 :=
  ofRatio (x.ratio.1 * y.ratio.2) (x.ratio.2 * y.ratio.1)

/-- The largest power of ten that is a finite binary64. -/
def maxTenPower : Nat := 308

/-- `x / 10 ^ k`, in steps of at most the largest power of ten, each rounded. -/
def dividedByTenPower (x : Binary64) (k : Nat) : Option Binary64 :=
  if x.isZero then some zero
  else if k ≤ maxTenPower then do x.dividedBy (← ofNat? (Nat.pow 10 k))
  else do dividedByTenPower (← x.dividedBy (← ofNat? (Nat.pow 10 maxTenPower))) (k - maxTenPower)
termination_by k
decreasing_by
  have : maxTenPower = 308 := rfl
  omega

/-- `x * 10 ^ k`, rounded; `none` when it is out of range. -/
def timesTenPower (x : Binary64) (k : Nat) : Option Binary64 :=
  if x.isZero then some zero
  else if k ≤ maxTenPower then do x.times (← ofNat? (Nat.pow 10 k))
  else none

/-- The number written `significand * 10 ^ exponent`; `none` when it is out of range. -/
def ofDecimal (significand : Nat) (exponent : Int) : Option Binary64 := do
  let x ← ofNat? significand
  if 0 ≤ exponent then x.timesTenPower exponent.toNat
  else x.dividedByTenPower (-exponent).toNat

end Binary64

end SqlQuery
