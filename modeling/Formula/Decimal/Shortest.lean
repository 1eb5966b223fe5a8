import Formula.Decimal.Basic

/-!
# Shortest decimals

Among the decimals of an interval around a value, those with the fewest digits, and of these the
one nearest to the value. If the interval holds what reads back as the value, this is the shortest
text for it.
-/

namespace Formula.Decimal

/-- An interval around a value, all three over the same power of ten. -/
structure Interval where
  lower : Nat
  value : Nat
  upper : Nat
  /-- Whether the ends belong to the interval. -/
  closed : Bool

namespace Interval

def aboveLower (i : Interval) (n : Nat) : Bool :=
  if i.closed then i.lower ≤ n else i.lower < n

def belowUpper (i : Interval) (n : Nat) : Bool :=
  if i.closed then n ≤ i.upper else n < i.upper

/-- The neighbours of the value among the multiples of `unit`: the one in the interval, or the
nearer if both are, a tie going up. -/
def multiple? (i : Interval) (unit : Nat) : Option Nat :=
  let q := i.value / unit
  let down := i.aboveLower (q * unit)
  let up := i.belowUpper ((q + 1) * unit)
  if up && (!down || unit ≤ 2 * (i.value % unit)) then some (q + 1)
  else if down then some q
  else none

/-- The shortest decimal in the interval, found by dropping at first `dropped` digits and then
fewer; without dropping any, the value itself is one. -/
def shortestFrom (i : Interval) : Nat → Decimal
  | 0 => { coefficient := i.value, exponent := 0 }
  | dropped + 1 =>
    match i.multiple? (Nat.pow 10 (dropped + 1)) with
    | some coefficient => { coefficient, exponent := dropped + 1 }
    | none => i.shortestFrom dropped

end Interval

/-- The shortest decimal that lies nearer to `m · 2 ^ e` than to its neighbours. The gap to the
neighbour below is half as wide where `narrow` holds. A point in the middle of a gap counts as near
if `m` is even. -/
def shortest (m : Nat) (e : Int) (narrow : Bool) : Decimal :=
  -- In quarters of the last place both midpoints are integers.
  let unit := scaling (e - 2)
  let interval : Interval :=
    { lower := (4 * m - if narrow then 1 else 2) * unit
      value := 4 * m * unit
      upper := (4 * m + 2) * unit
      closed := m % 2 == 0 }
  let found := interval.shortestFrom ((digitsOf interval.value).length - 1)
  trim { found with exponent := found.exponent + min (e - 2) 0 }

end Formula.Decimal
