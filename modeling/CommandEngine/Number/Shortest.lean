import CommandEngine.Number.Binary64

/-!
# The shortest decimal of a binary64 number

Every positive binary64 number `v` owns the interval of reals that round to it: halfway to its neighbours on either
side, the ends included when its significand is even. Below a power of two with more precision below it than above,
the lower neighbour is half as far.

`Binary64.shortest` gives the decimal with the fewest significant digits in that interval: for 1, 2, ... 17 digits it
tries the two numbers of that many digits next to `v`, and the first length with a hit wins; of two hits the nearer to
`v` wins, and an exact tie goes up. Seventeen digits always hit.

`Binary64.text` writes the number out in full, without an exponent: the shortest digits with the point in place,
zeros padded on either side as needed, and `.0` after a whole number; the sign shows also on zero.
-/

namespace CommandEngine

namespace Binary64

/-- How `d * 10 ^ k` compares with `x * 2 ^ s`. -/
def compareScaled (d : Nat) (k : Int) (x : Nat) (s : Int) : Ordering :=
  let lhs := d * Nat.pow 10 (max k 0).toNat * Nat.pow 2 (max (-s) 0).toNat
  let rhs := x * Nat.pow 10 (max (-k) 0).toNat * Nat.pow 2 (max s 0).toNat
  compare lhs rhs

/-- `⌊x * 2 ^ s / 10 ^ k⌋`. -/
def floorScaled (x : Nat) (s : Int) (k : Int) : Nat :=
  (x * Nat.pow 2 (max s 0).toNat * Nat.pow 10 (max (-k) 0).toNat) /
    (Nat.pow 2 (max (-s) 0).toNat * Nat.pow 10 (max k 0).toNat)

/-- The exponent `E` with `10 ^ E ≤ x * 2 ^ s < 10 ^ (E + 1)`, for positive `x`. -/
def log10Floor (x : Nat) (s : Int) : Int :=
  let num := x * Nat.pow 2 (max s 0).toNat
  let den := Nat.pow 2 (max (-s) 0).toNat
  let t : Int := (decimalLength num : Int) - (decimalLength den : Int)
  if compareScaled 1 t x s = .gt then t - 1 else t

/-- The rounding interval of a positive number: its lower end, its value and its upper end in units of
`2 ^ (exponent - 2)`, and whether the ends belong to it. -/
structure Interval where
  low : Nat
  value : Nat
  high : Nat
  inclusive : Bool

/-- The rounding interval of the positive number `b`. -/
def interval (b : Binary64) : Interval :=
  let m := b.significand
  let closeBelow := m = Nat.pow 2 (precision - 1) ∧ b.exponent > minExponent
  ⟨4 * m - (if closeBelow then 1 else 2), 4 * m, 4 * m + 2, m % 2 = 0⟩

/-- Whether `d * 10 ^ k` lies in the rounding interval `iv` of a number with exponent `s + 2`. -/
def Interval.contains (iv : Interval) (s : Int) (d : Nat) (k : Int) : Bool :=
  let lo := compareScaled d k iv.low s
  let hi := compareScaled d k iv.high s
  if iv.inclusive then lo ≠ .lt ∧ hi ≠ .gt else lo = .gt ∧ hi = .lt

/-- The shortest digits of the positive number `b`, searched from `n` digits on, at most `fuel` lengths: the digits
`d` and the exponent `k` of `d * 10 ^ k`. -/
def search (b : Binary64) (e : Int) : Nat → Nat → Nat × Int
  | 0, _ => (0, 0)
  | fuel + 1, n =>
    let iv := interval b
    let s := b.exponent - 2
    let k := e - n + 1
    let below := floorScaled iv.value s k
    let above := below + 1
    let hitBelow := iv.contains s below k
    let hitAbove := iv.contains s above k
    if hitBelow ∧ hitAbove then
      (if compareScaled (2 * below + 1) k (2 * iv.value) s = .gt then below else above, k)
    else if hitBelow then (below, k)
    else if hitAbove then (above, k)
    else if fuel = 0 then (below, k)
    else search b e fuel (n + 1)

/-- Drops the trailing zeros of `d * 10 ^ k`, at most `fuel` of them. -/
def dropZeros : Nat → Nat → Int → Nat × Int
  | 0, d, k => (d, k)
  | fuel + 1, d, k => if d ≠ 0 ∧ d % 10 = 0 then dropZeros fuel (d / 10) (k + 1) else (d, k)

/-- The shortest decimal `d * 10 ^ k` in the rounding interval of the positive number `b`, without trailing zeros. -/
def shortest (b : Binary64) : Nat × Int :=
  let (d, k) := search b (log10Floor (4 * b.significand) (b.exponent - 2)) 17 1
  dropZeros 20 d k

/-- The positional text of `d * 10 ^ k`, with `.0` after a whole number. -/
def positional (d : Nat) (k : Int) : String :=
  let ds := toString d
  let point : Int := ds.length + k
  if k ≥ 0 then ds ++ String.ofList (List.replicate k.toNat '0') ++ ".0"
  else if point ≤ 0 then "0." ++ String.ofList (List.replicate (-point).toNat '0') ++ ds
  else String.ofList (ds.toList.take point.toNat) ++ "." ++ String.ofList (ds.toList.drop point.toNat)

/-- The text of the number: its sign, then its shortest digits written out in full. -/
def text (b : Binary64) : String :=
  let sign := if b.negative then "-" else ""
  if b.significand = 0 then sign ++ "0.0"
  else
    let (d, k) := b.shortest
    sign ++ positional d k

end Binary64

end CommandEngine
