/-!
The shortest decimal that a binary number reads back from. A binary number stands for the interval
of reals that round to it; of the decimals in the interval the one with the fewest digits is chosen,
and of those the one nearest the number.
-/

namespace BlogSite.Decimal

/-- A positive number `mantissa * 2 ^ exponent`. `halfBelow` holds when the next smaller number is
only half as far away as the next larger one. -/
structure Binary where
  mantissa : Nat
  exponent : Int
  halfBelow : Bool

/-- Digits `d₁ … dₙ`, the first not zero, and the power of ten of the first one: the number is
`d₁.d₂ … dₙ * 10 ^ power`. -/
structure Digits where
  digits : List Nat
  power : Int
deriving DecidableEq

/-- Four times the number and the ends of its interval, over a common denominator: the least and
the greatest real that round to it, with the ends themselves when the mantissa is even. -/
structure Interval where
  low : Nat
  value : Nat
  high : Nat
  denominator : Nat
  closed : Bool

def Binary.interval (b : Binary) : Interval :=
  let scale := Nat.pow 2 b.exponent.toNat
  { low := (4 * b.mantissa - if b.halfBelow then 1 else 2) * scale
    value := 4 * b.mantissa * scale
    high := (4 * b.mantissa + 2) * scale
    denominator := 4 * Nat.pow 2 (-b.exponent).toNat
    closed := b.mantissa % 2 == 0 }

/-- Whether `num / den` lies in the interval. -/
def Interval.holds (i : Interval) (num den : Nat) : Bool :=
  let n := num * i.denominator
  if i.closed then i.low * den ≤ n && n ≤ i.high * den
  else i.low * den < n && n < i.high * den

/-- The power of ten of the first digit of `num / den`, at least one. -/
def powerAbove (num den : Nat) : Int := (Nat.toDigits 10 (num / den)).length - 1

/-- The least number of places by which `num / den`, less than one, has to move to reach one. -/
def placesBelow (num den : Nat) : Nat → Nat → Nat
  | 0, k => k
  | fuel + 1, k => if den ≤ num * Nat.pow 10 k then k else placesBelow num den fuel (k + 1)

def leadingPower (num den : Nat) : Int :=
  if den ≤ num then powerAbove num den else -(placesBelow num den 400 1 : Nat)

/-- The point of the interval with `n` digits that is nearest the value, if there is one. The two
neighbours of the value on the grid are tried; of two equally near ones the even one is taken. -/
def Interval.onGrid (i : Interval) (power : Int) (n : Nat) : Option (Nat × Int) :=
  let step : Int := power - (n - 1 : Nat)
  let up := Nat.pow 10 step.toNat
  let down := Nat.pow 10 (-step).toNat
  let below := i.value * down / (i.denominator * up)
  let above := below + 1
  let fits := fun d : Nat => i.holds (d * up) down
  let gapBelow := i.value * down - below * (i.denominator * up)
  let gapAbove := above * (i.denominator * up) - i.value * down
  let pick :=
    if gapBelow < gapAbove then [below, above]
    else if gapAbove < gapBelow then [above, below]
    else if below % 2 == 0 then [below, above] else [above, below]
  (pick.find? fits).map fun d => (d, step)

/-- The digits of a point of a grid, without the zeros at its end. -/
def ofGrid (d : Nat) (step : Int) : Digits :=
  let ds := (Nat.toDigits 10 d).map fun c => c.toNat - 48
  { digits := (ds.reverse.dropWhile (· = 0)).reverse
    power := step + (ds.length - 1 : Nat) }

def shortestFrom (i : Interval) (power : Int) : Nat → Nat → Digits
  | 0, n => ofGrid (i.value / i.denominator) n
  | fuel + 1, n =>
    match i.onGrid power n with
    | some (d, step) => ofGrid d step
    | none => shortestFrom i power fuel (n + 1)

/-- The fewest digits that read back, nearest the number. Seventeen always suffice for a number of
fifty-three bits. -/
def Binary.shortest (b : Binary) : Digits :=
  let i := b.interval
  shortestFrom i (leadingPower i.value i.denominator) 17 1

/-- A finite number of double precision apart from zero, from its bits without the sign. -/
def Binary.ofBits (bits : Nat) : Binary :=
  let fraction := bits % Nat.pow 2 52
  let scale := bits / Nat.pow 2 52 % Nat.pow 2 11
  if scale = 0 then ⟨fraction, -1074, false⟩
  else ⟨fraction + Nat.pow 2 52, scale - 1075, fraction == 0 && 1 < scale⟩

end BlogSite.Decimal
