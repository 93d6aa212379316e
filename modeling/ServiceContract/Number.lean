/-!
# Numbers

The numbers of documents. All readers of this library read numbers of some base as a run of
digits : `Digits.digit?` is the value of one, and `Digits.number?` what several stand for. Integers
may have any length, and what becomes of one depends on the number of bits that it fits into
(`Integer.fits`).

A `Binary64` is the bit pattern of a double precision number. `ofRatio` rounds a fraction to the
nearest such number, a tie to the even neighbour, and `shortest` finds the fewest decimal digits
that read back as the same number, the nearest such digits if there are several. Both work in exact
arithmetic on natural numbers, from the description of a finite number as `m * 2 ^ q`. `text` lays
the digits out : plain notation, always with a point, from `1e-5` up to below `1e+16`, and
scientific notation outside.
-/

namespace ServiceContract

/-! ## Digits -/

namespace Digits

/-- Whether a character is a decimal digit. -/
def isDecimal (c : Char) : Bool := '0' ≤ c && c ≤ '9'

/-- The value of a digit in a base up to sixteen. -/
def digit? (base : Nat) (c : Char) : Option Nat :=
  let value? : Option Nat :=
    if isDecimal c then some (c.toNat - 48)
    else if 'a' ≤ c ∧ c ≤ 'f' then some (c.toNat - 87)
    else if 'A' ≤ c ∧ c ≤ 'F' then some (c.toNat - 55)
    else none
  value?.filter (· < base)

/-- The number that digits stand for; no digits are no number. -/
def number? (base : Nat) (cs : List Char) : Option Nat :=
  if cs = [] then none else cs.foldlM (fun n c => (digit? base c).map (n * base + ·)) 0

end Digits

/-! ## Integers of bounded width -/

namespace Integer

/-- The least number that does not fit into some bits. -/
def bound (bits : Nat) : Nat := Nat.pow 2 bits

/-- Whether an integer fits into some bits of which one is its sign. -/
def fitsSigned (bits : Nat) (n : Int) : Bool :=
  n < bound (bits - 1) && -(bound (bits - 1) : Int) ≤ n

/-- Whether an integer fits into some bits, with a sign or without. -/
def fits (bits : Nat) (n : Int) : Bool := fitsSigned bits n || (0 ≤ n && n < bound bits)

end Integer

/-! ## Double precision numbers -/

/-- A double precision number, as its 64 bits : sign, exponent, fraction. -/
structure Binary64 where
  /-- The bit pattern. -/
  bits : UInt64
deriving DecidableEq, Repr, Inhabited

namespace Binary64

/-- A power of two. -/
def pow2 (n : Nat) : Nat := Nat.pow 2 n

/-- A power of ten. -/
def pow10 (n : Nat) : Nat := Nat.pow 10 n

/-- The sign bit. -/
def negative (x : Binary64) : Bool := x.bits.toNat / pow2 63 == 1

/-- The eleven exponent bits. -/
def exponentBits (x : Binary64) : Nat := x.bits.toNat / pow2 52 % pow2 11

/-- The fifty-two fraction bits. -/
def fraction (x : Binary64) : Nat := x.bits.toNat % pow2 52

/-- Neither an infinity nor a NaN. -/
def isFinite (x : Binary64) : Bool := x.exponentBits != pow2 11 - 1

/-- The integer `m` in the absolute value `m * 2 ^ q` of a finite number. -/
def significand (x : Binary64) : Nat :=
  if x.exponentBits = 0 then x.fraction else pow2 52 + x.fraction

/-- The exponent `q` in the absolute value `m * 2 ^ q` of a finite number. -/
def exponent (x : Binary64) : Int :=
  if x.exponentBits = 0 then -1074 else (x.exponentBits : Int) - 1075

/-! ## Rounding to the nearest number -/

/-- The pattern with the given sign and remaining 63 bits. -/
def ofMagnitude (negative : Bool) (magnitude : Nat) : Binary64 :=
  ⟨UInt64.ofNat ((if negative then pow2 63 else 0) + magnitude)⟩

/-- The infinity of the given sign. -/
def infinity (negative : Bool) : Binary64 := ofMagnitude negative ((pow2 11 - 1) * pow2 52)

/-- The NaN with a clear sign and the first fraction bit set. -/
def nan : Binary64 := ofMagnitude false ((pow2 11 - 1) * pow2 52 + pow2 51)

/-- The integer nearest to a fraction; a tie goes to the even one. -/
def roundDiv (num den : Nat) : Nat :=
  let floor := num / den
  let twice := 2 * (num % den)
  if twice < den then floor
  else if den < twice then floor + 1
  else if floor % 2 = 0 then floor else floor + 1

/-- `num / den * 2 ^ (-q)` rounded to the nearest integer. -/
def scaled (num den : Nat) (q : Int) : Nat :=
  if q < 0 then roundDiv (num * pow2 (-q).toNat) den else roundDiv num (den * pow2 q.toNat)

/-- The number nearest to `num / den`. The exponent is chosen so that the rounded
significand has 53 bits, or less if the exponent is the smallest; a significand
that rounds up to `2 ^ 53` carries into the exponent by itself. -/
def ofRatio (negative : Bool) (num den : Nat) : Binary64 :=
  if num = 0 then ofMagnitude negative 0
  else
    let guess : Int := (Nat.log2 num : Int) - Nat.log2 den - 52
    let fits : Int := if pow2 53 ≤ scaled num den guess then guess + 1
      else if scaled num den guess < pow2 52 then guess - 1 else guess
    let q := max fits (-1074)
    let m := scaled num den q
    let magnitude := if m < pow2 52 then m else (q + 1074).toNat * pow2 52 + m
    if (pow2 11 - 1) * pow2 52 ≤ magnitude then infinity negative
    else ofMagnitude negative magnitude

/-- The number nearest to an integer. -/
def ofInt (n : Int) : Binary64 := ofRatio (n < 0) n.natAbs 1

/-- The number nearest to `digits * 10 ^ exponent`. Beyond the given bounds the value
is certainly too large or too small, so no power of ten is computed. -/
def ofDecimal (negative : Bool) (digits : Nat) (exponent : Int) : Binary64 :=
  let magnitude := (Nat.toDigits 10 digits).length + exponent
  if digits = 0 || magnitude < -400 then ofMagnitude negative 0
  else if 400 < magnitude then infinity negative
  else if exponent < 0 then ofRatio negative digits (pow10 (-exponent).toNat)
  else ofRatio negative (digits * pow10 exponent.toNat) 1

/-! ## The fewest digits that read back -/

/-- A finite positive number with the ends of the interval of reals that round to it,
all three over one denominator. -/
structure Interval where
  /-- The lower end. -/
  low : Nat
  /-- The number itself. -/
  mid : Nat
  /-- The upper end. -/
  high : Nat
  /-- The common denominator. -/
  den : Nat
  /-- Whether the ends themselves round to the number. -/
  closed : Bool

/-- The interval of a finite number : half the distance to each neighbour, where the
neighbour below a power of two is at half the usual distance. -/
def interval (x : Binary64) : Interval :=
  let m := x.significand
  let below := if x.fraction = 0 && 1 < x.exponentBits then 1 else 2
  let q := x.exponent - 2
  let num := if q < 0 then 1 else pow2 q.toNat
  let den := if q < 0 then pow2 (-q).toNat else 1
  ⟨(4 * m - below) * num, 4 * m * num, (4 * m + 2) * num, den, m % 2 = 0⟩

namespace Interval

/-- Whether `digits * 10 ^ e` lies in the interval. -/
def holds (i : Interval) (digits : Nat) (e : Int) : Bool :=
  let value := if e < 0 then digits else digits * pow10 e.toNat
  let one := if e < 0 then pow10 (-e).toNat else 1
  if i.closed then i.low * one ≤ value * i.den && value * i.den ≤ i.high * one
  else i.low * one < value * i.den && value * i.den < i.high * one

/-- The multiple of `10 ^ e` nearest to the number among its two neighbours on that
grid that lie in the interval, as the multiplier; the even one of a tie. -/
def onGrid (i : Interval) (e : Int) : Option Nat :=
  let num := if e < 0 then i.mid * pow10 (-e).toNat else i.mid
  let den := if e < 0 then i.den else i.den * pow10 e.toNat
  let floor := num / den
  let near := roundDiv num den
  let far := if near = floor then floor + 1 else floor
  if i.holds near e then some near else if i.holds far e then some far else none

/-- The least `k` with `number < 10 ^ k`, searched upwards from a start. -/
def decimalExponent (i : Interval) : Nat → Int → Int
  | 0, k => k
  | fuel + 1, k =>
    let below := if k < 0 then i.mid * pow10 (-k).toNat < i.den else i.mid < i.den * pow10 k.toNat
    if below then k else decimalExponent i fuel (k + 1)

/-- The first grid from `10 ^ e` downwards with a point in the interval. -/
def coarsest (i : Interval) : Nat → Int → Nat × Int
  | 0, e => ((i.onGrid e).getD 0, e)
  | fuel + 1, e =>
    match i.onGrid e with
    | some digits => (digits, e)
    | none => coarsest i fuel (e - 1)

end Interval

/-- The shortest digits `d` and exponent `e` such that `d * 10 ^ e` reads back as the
absolute value of a finite number other than zero. The search starts at the power of ten
above the number, which may itself read back, and seventeen digits below always suffice. -/
def shortest (x : Binary64) : Nat × Int :=
  let i := x.interval
  i.coarsest 17 (i.decimalExponent 640 (-324))

/-! ## Layout -/

/-- Digits `ds` that stand for `ds * 10 ^ e`, laid out : plain with a point if the first
digit has a place from `10 ^ -5` to `10 ^ 15`, scientific with a signed exponent otherwise. -/
def layout (ds : List Char) (e : Int) : List Char :=
  let point : Int := ds.length + e
  if 0 ≤ e && point ≤ 16 then ds ++ List.replicate e.toNat '0' ++ ['.', '0']
  else if 0 < point && point ≤ 16 then ds.take point.toNat ++ '.' :: ds.drop point.toNat
  else if -5 < point && point ≤ 0 then '0' :: '.' :: (List.replicate (-point).toNat '0' ++ ds)
  else
    let tail := if ds.length = 1 then [] else '.' :: ds.drop 1
    let sign := if point - 1 < 0 then '-' else '+'
    ds.take 1 ++ tail ++ 'e' :: sign :: (Nat.toDigits 10 (point - 1).natAbs)

/-- The text of a finite number. -/
def text (x : Binary64) : List Char :=
  let sign := if x.negative then ['-'] else []
  if x.significand = 0 then sign ++ ['0', '.', '0']
  else sign ++ layout (Nat.toDigits 10 x.shortest.1) x.shortest.2

end Binary64

end ServiceContract
