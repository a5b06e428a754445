import LineMarkup.Number.Binary

/-!
# Shortest decimals

The fewest decimal digits that still identify a 64-bit number: among the decimals that read
back as the number, those with the fewest digits, and of these the nearest one (the larger
magnitude of two equally near ones).

All arithmetic is exact. A positive number is a fraction of two natural numbers; the decimals
that read back as it are those between its two midpoints to the neighbouring numbers, the
midpoints included exactly when the mantissa is even.

## Main Definitions

* `Decimal` — a whole number times a power of ten
* `Tie` — which of two equally near decimals is taken
* `Rounds` — the interval of the magnitudes that round to a number
* `Binary.shortest` — the shortest decimal of a positive form
-/

namespace LineMarkup.Number

/-- `digits · 10 ^ exponent`. -/
structure Decimal where
  digits : Nat
  exponent : Int
deriving DecidableEq, Repr

/-- Which of two equally near decimals is taken: the one of larger magnitude, or the one whose last
digit is even. -/
inductive Tie where
  | up | toEven
deriving DecidableEq, Repr

/-- Whether the lower one of two equally near neighbours `low` and `low + 1` is taken. -/
def Tie.takesLow (tie : Tie) (low : Nat) : Bool :=
  match tie with
  | up => false
  | toEven => low % 2 == 0

/-- A magnitude `value / scale` with the midpoints `lower / scale` and `upper / scale` to its two
neighbours; `closed` says whether the midpoints themselves belong to it. -/
structure Rounds where
  lower : Nat
  value : Nat
  upper : Nat
  scale : Nat
  closed : Bool
deriving Repr

namespace Rounds

/-- The magnitudes that round to a positive form. The neighbour below a power of two is only half
as far away as the one above, unless the powers end there. -/
def ofBinary (b : Binary) : Rounds :=
  let below := if b.mantissa == twoTo 52 && Binary.leastExponent < b.exponent then 1 else 2
  let up := (b.exponent - 2).toNat
  let down := (2 - b.exponent).toNat
  { lower := (4 * b.mantissa - below) * twoTo up
    value := 4 * b.mantissa * twoTo up
    upper := (4 * b.mantissa + 2) * twoTo up
    scale := twoTo down
    closed := b.mantissa % 2 == 0 }

/-- Whether the fraction `p / q` lies in the interval. -/
def holds (r : Rounds) (p q : Nat) : Bool :=
  if r.closed then
    r.lower * q ≤ p * r.scale && p * r.scale ≤ r.upper * q
  else
    r.lower * q < p * r.scale && p * r.scale < r.upper * q

/-- How many digits the value has before its decimal point; for a value below one, minus the
number of zeros that follow the point. -/
def magnitude (r : Rounds) : Int :=
  if r.scale ≤ r.value then
    ((Nat.toDigits 10 (r.value / r.scale)).length : Int)
  else
    1 - ((Nat.toDigits 10 (r.scale / r.value)).length : Int)

/-- The best decimal on the grid of the multiples of `10 ^ exponent`: of the two grid points around
the value, the one in the interval, the nearer one if both are. -/
def onGrid? (r : Rounds) (tie : Tie) (exponent : Int) : Option Decimal :=
  let num := tenTo exponent.toNat
  let den := tenTo (-exponent).toNat
  let low := r.value * den / (r.scale * num)
  let holdsLow := r.holds (low * num) den
  let holdsHigh := r.holds ((low + 1) * num) den
  if holdsLow && holdsHigh then
    let twice := 2 * r.value * den
    let between := (2 * low + 1) * r.scale * num
    if twice < between || (twice == between && tie.takesLow low) then
      some ⟨low, exponent⟩
    else
      some ⟨low + 1, exponent⟩
  else if holdsLow then
    some ⟨low, exponent⟩
  else if holdsHigh then
    some ⟨low + 1, exponent⟩
  else
    none

/-- The best decimal on the first of the given grids that has one. -/
def onFirstGrid? (r : Rounds) (tie : Tie) : List Int → Option Decimal
  | [] => none
  | e :: es =>
    match r.onGrid? tie e with
    | some d => some d
    | none => r.onFirstGrid? tie es

end Rounds

/-- The shortest decimal that identifies a positive form. Seventeen digits always do. -/
def Binary.shortest (b : Binary) (tie : Tie) : Decimal :=
  let r := Rounds.ofBinary b
  let top := r.magnitude
  let grids := (List.range 17).map (fun n : Nat => top - ((n : Int) + 1))
  (r.onFirstGrid? tie grids).getD ⟨0, 0⟩

end LineMarkup.Number
