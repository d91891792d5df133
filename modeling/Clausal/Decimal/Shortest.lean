import Clausal.Decimal.Binary64

/-!
# Shortest decimals

The fewest decimal digits that read back as a given number. A decimal reads back as `m · 2 ^ q` when
it lies between the midpoints to the two neighbouring numbers, the midpoints included when `m` is
even. Digit counts are tried in ascending order; on each grid of decimals only the two points around
the number have to be tested, and the nearer one that reads back is taken.
-/

namespace Clausal.Decimal

/-- Which of two equally near decimals is taken. -/
inductive Tie where
  /-- The larger one. -/
  | up
  /-- The one whose last digit is even. -/
  | even
deriving DecidableEq

/-- The decimal `digits · 10 ^ scale`. -/
structure Scaled where
  digits : Nat
  scale : Int
deriving DecidableEq

/-- A positive number in quarters of its last place, with the bounds of what reads back as it. -/
structure Interval where
  /-- The number is `quarters · 2 ^ power`. -/
  quarters : Nat
  below : Nat
  above : Nat
  power : Int
  /-- The bounds themselves read back as the number. -/
  closed : Bool

/-- What reads back as the absolute value of `x`. -/
def Binary64.interval (x : Binary64) : Interval :=
  let m := x.significand
  { quarters := 4 * m
    below := if x.narrowBelow then 4 * m - 1 else 4 * m - 2
    above := 4 * m + 2
    power := x.exponent - 2
    closed := m % 2 == 0 }

/-- Compares `a · 10 ^ g` with `b · 2 ^ p`. -/
def compareScaled (a : Nat) (g : Int) (b : Nat) (p : Int) : Ordering :=
  compare (a * Nat.pow 10 g.toNat * Nat.pow 2 (-p).toNat)
    (b * Nat.pow 2 p.toNat * Nat.pow 10 (-g).toNat)

/-- The decimal `a · 10 ^ g` lies in the interval. -/
def Interval.contains (i : Interval) (a : Nat) (g : Int) : Bool :=
  match compareScaled a g i.below i.power, compareScaled a g i.above i.power with
  | .gt, .lt => true
  | .eq, _ => i.closed
  | _, .eq => i.closed
  | _, _ => false

/-- The whole part of `b · 2 ^ p / 10 ^ g`. -/
def scaledFloor (b : Nat) (p g : Int) : Nat :=
  b * Nat.pow 2 p.toNat * Nat.pow 10 (-g).toNat / (Nat.pow 10 g.toNat * Nat.pow 2 (-p).toNat)

/-- The least `n ≥ start` with the number below `10 ^ n`, among the next `tries` candidates. -/
def Interval.places (i : Interval) (start : Int) : Nat → Int
  | 0 => start
  | tries + 1 =>
    if compareScaled 1 start i.quarters i.power = .gt then start
    else i.places (start + 1) tries

/-- The number of digits before the decimal point; zero or less for numbers below one tenth. -/
def Interval.magnitude (i : Interval) : Int :=
  let binary : Int := i.quarters.log2 + i.power
  i.places (Int.fdiv (binary * 30103) 100000 - 1) 4

/-- The point of the grid `10 ^ g` that reads back and is nearest to the number. -/
def Interval.nearest? (i : Interval) (tie : Tie) (g : Int) : Option Nat :=
  let lo := scaledFloor i.quarters i.power g
  let hi := lo + 1
  match i.contains lo g, i.contains hi g with
  | false, false => none
  | true, false => some lo
  | false, true => some hi
  | true, true =>
    match compareScaled (lo + hi) g (2 * i.quarters) i.power with
    | .gt => some lo
    | .lt => some hi
    | .eq =>
      match tie with
      | .up => some hi
      | .even => some (if lo % 2 = 0 then lo else hi)

/-- The first grid, from `count` digits on, with a point that reads back. -/
def Interval.search (i : Interval) (tie : Tie) (magnitude : Int) (count : Nat) : Nat → Scaled
  | 0 => ⟨i.quarters, 0⟩
  | tries + 1 =>
    match i.nearest? tie (magnitude - count) with
    | some digits => ⟨digits, magnitude - count⟩
    | none => i.search tie magnitude (count + 1) tries

/-- Takes trailing zeros off the digits, at most `tries` of them. -/
def Scaled.strip (d : Scaled) : Nat → Scaled
  | 0 => d
  | tries + 1 =>
    if d.digits ≠ 0 ∧ d.digits % 10 = 0 then Scaled.strip ⟨d.digits / 10, d.scale + 1⟩ tries else d

/-- The shortest decimal that reads back as the absolute value of a finite, non-zero number. -/
def Binary64.shortest (tie : Tie) (x : Binary64) : Scaled :=
  let i := x.interval
  (i.search tie i.magnitude 1 17).strip 20

end Clausal.Decimal
