import SqlQuery.Number.Binary64

/-!
# The shortest decimal that reads back

Every binary64 number stands for an interval of reals, those that round to it.
`shortest` looks for the coarsest power of ten of which a multiple lies in that
interval, and takes the multiple nearest to the number: the fewest digits that
read back as the same number, and among those the nearest. Two multiples can be
equally near; a `Tie` says which of them is taken.

`jsonText` and `plainText` lay these digits out: the first keeps a fraction point
and turns to scientific notation far from one, the second writes every digit. They
differ in their ties too.
-/

namespace SqlQuery.Binary64

/-- A decimal magnitude `digits * 10 ^ exponent`. -/
structure Decimal where
  digits : Nat
  exponent : Int
deriving DecidableEq, Repr

/-- The reals that round to a number, in units of a quarter of its last place:
its own position, the two ends, and whether the ends belong to it. -/
structure Interval where
  low : Nat
  centre : Nat
  high : Nat
  closed : Bool

/-- The rounding interval of a number; the gap below a power of two is half the
gap above it, except at the smallest exponent. -/
def interval (x : Binary64) : Interval :=
  let m := x.mantissa
  let narrow := x.magnitudeBits % hiddenBit == 0 && decide (1 < x.exponentField)
  { low := 4 * m - (if narrow then 1 else 2)
    centre := 4 * m
    high := 4 * m + 2
    closed := m % 2 == 0 }

/-- Whether `num / den` quarter units lie in the interval. -/
def Interval.contains (i : Interval) (num den : Nat) : Bool :=
  let above := if i.closed then decide (i.low * den ≤ num) else decide (i.low * den < num)
  let below := if i.closed then decide (num ≤ i.high * den) else decide (num < i.high * den)
  above && below

/-- The rule for two neighbouring multiples that are equally near: the even one, or
the greater one. -/
inductive Tie where
  | toEven
  | up
deriving DecidableEq, Repr

/-- Whether the rule takes the smaller of two multiples. -/
def Tie.takesLower (tie : Tie) (lower : Nat) : Bool :=
  match tie with
  | .toEven => lower % 2 == 0
  | .up => false

/-- The multiple of `num / den` quarter units that lies in the interval and is
nearest to the number, if any multiple lies in it. -/
def Interval.nearestMultiple? (i : Interval) (tie : Tie) (num den : Nat) : Option Nat :=
  let floor := i.centre * den / num
  let rest := i.centre * den % num
  let lower := i.contains (floor * num) den
  let upper := i.contains ((floor + 1) * num) den
  let lowerNearer := decide (2 * rest < num) || (2 * rest == num && tie.takesLower floor)
  if lower && (!upper || lowerNearer) then some floor
  else if upper then some (floor + 1)
  else none

/-- Goes from the power of ten `e` to finer ones until a multiple lies in the
interval whose quarter unit is `2 ^ unit`. -/
def searchFrom (i : Interval) (tie : Tie) (unit : Int) (e : Int) : Nat → Decimal
  | 0 => ⟨0, 0⟩
  | fuel + 1 =>
    let ten := power 10 e
    let two := power 2 unit
    match i.nearestMultiple? tie (ten.1 * two.2) (ten.2 * two.1) with
    | some n => ⟨n, e⟩
    | none => searchFrom i tie unit (e - 1) fuel

/-- Drops the zeros at the end of the digits. -/
def Decimal.trim (d : Decimal) : Decimal :=
  if h : d.digits ≠ 0 ∧ d.digits % 10 = 0 then
    Decimal.trim ⟨d.digits / 10, d.exponent + 1⟩
  else d
termination_by d.digits
decreasing_by omega

/-- The fewest digits that read back as a number that is not zero. The search
starts at a power of ten above the number, one bit counting for 0.30103 digits;
seventeen digits always read back, so it ends within twenty steps. -/
def shortest (x : Binary64) (tie : Tie) : Decimal :=
  let top : Int := (x.exponent + (x.mantissa.log2 : Int) + 1) * 30103 / 100000 + 1
  (searchFrom x.interval tie (x.exponent - 2) top 24).trim

/-- The digits of a natural as text. -/
def Decimal.text (d : Decimal) : List Char :=
  Nat.toDigits 10 d.digits

/-- A run of zeros. -/
def zeros (n : Nat) : List Char :=
  List.replicate n '0'

/-- The positional form: all digits written out, with a fraction only where the
number has one. -/
def Decimal.positional (d : Decimal) : List Char :=
  let ds := d.text
  if 0 ≤ d.exponent then ds ++ zeros d.exponent.toNat
  else
    let places := (-d.exponent).toNat
    if places < ds.length then ds.take (ds.length - places) ++ '.' :: ds.drop (ds.length - places)
    else '0' :: '.' :: zeros (places - ds.length) ++ ds

/-- The power of ten of the first digit. -/
def Decimal.leading (d : Decimal) : Int :=
  d.exponent + (d.text.length : Int) - 1

/-- The scientific form: one digit, a fraction if there are more, and a signed
exponent. -/
def Decimal.scientific (d : Decimal) : List Char :=
  let mark := match d.text with
    | [] => []
    | [c] => [c]
    | c :: rest => c :: '.' :: rest
  let sign := if d.leading < 0 then '-' else '+'
  mark ++ 'e' :: sign :: Nat.toDigits 10 d.leading.natAbs

/-- Puts a minus before the text of a negative number. -/
def signed (x : Binary64) (text : List Char) : String :=
  String.ofList (if x.isNegative then '-' :: text else text)

/-- The text of a number in a JSON document: positional with at least one
fraction digit from `0.00001` up to sixteen digits, scientific beyond; ties go to
the even digit. -/
def jsonText (x : Binary64) : String :=
  if x.isZero then x.signed ['0', '.', '0']
  else
    let d := x.shortest .toEven
    if -5 ≤ d.leading ∧ d.leading < 16 then
      x.signed (if 0 ≤ d.exponent then d.positional ++ ['.', '0'] else d.positional)
    else x.signed d.scientific

/-- The text of a number for a reader: never scientific, and without a fraction
where there is none; ties go up. -/
def plainText (x : Binary64) : String :=
  if x.isZero then x.signed ['0'] else x.signed (x.shortest .up).positional

end SqlQuery.Binary64
