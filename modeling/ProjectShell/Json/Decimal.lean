namespace ProjectShell.Json

/-- The numbers that round to one float lie between `low / den` and `high / den`, around
`mid / den`; the ends count when `closed`. -/
structure Rounding where
  low : Nat
  mid : Nat
  high : Nat
  den : Nat
  closed : Bool
deriving DecidableEq, Repr

namespace Rounding

def ofBits (bits : Nat) : Rounding :=
  let field : Nat := bits / Nat.pow 2 52 % 2048
  let fraction : Nat := bits % Nat.pow 2 52
  let m : Nat := if field = 0 then fraction else fraction + Nat.pow 2 52
  let q : Int := (if field = 0 then 1 else (field : Int)) - 1077
  let low : Nat := if fraction = 0 ∧ 1 < field then 4 * m - 1 else 4 * m - 2
  let up : Nat := Nat.pow 2 q.toNat
  ⟨low * up, 4 * m * up, (4 * m + 2) * up, Nat.pow 2 (-q).toNat, m % 2 = 0⟩

/-- `k` with `10 ^ (k - 1) ≤ mid / den < 10 ^ k`, counting up from `k`. -/
def magnitude (r : Rounding) : Nat → Int → Int
  | 0, k => k
  | fuel + 1, k =>
      if r.mid * Nat.pow 10 (-k).toNat < r.den * Nat.pow 10 k.toNat then k
      else magnitude r fuel (k + 1)

def holds (r : Rounding) (digits : Nat) (exponent : Int) : Bool :=
  let d := digits * Nat.pow 10 exponent.toNat * r.den
  let s := Nat.pow 10 (-exponent).toNat
  if r.closed then r.low * s ≤ d && d ≤ r.high * s else r.low * s < d && d < r.high * s

/-- The neighbours of the float on the grid of multiples of `10 ^ exponent` that read back; of
two, the nearer, and the even one of two equally near. -/
def onGrid (r : Rounding) (exponent : Int) : Option Nat :=
  let num := r.mid * Nat.pow 10 (-exponent).toNat
  let den := r.den * Nat.pow 10 exponent.toNat
  let below := num / den
  let rest := num % den
  if r.holds below exponent && below ≠ 0 then
    if r.holds (below + 1) exponent &&
        (den < 2 * rest || (den = 2 * rest && below % 2 = 1)) then some (below + 1)
    else some below
  else if r.holds (below + 1) exponent then some (below + 1)
  else none

def shortestFrom (r : Rounding) (k : Int) : Nat → Nat → Nat × Int
  | 0, _ => (r.mid / r.den, 0)
  | fuel + 1, n =>
      match r.onGrid (k - n) with
      | some d => (d, k - n)
      | none => shortestFrom r k fuel (n + 1)

def shortest (r : Rounding) : Nat × Int :=
  r.shortestFrom (r.magnitude 800 (-330)) 18 1

end Rounding

def layout (digits : List Char) (point : Int) : List Char :=
  let n : Int := digits.length
  if -5 < point ∧ point ≤ 0 then
    ['0', '.'] ++ List.replicate (-point).toNat '0' ++ digits
  else if 0 < point ∧ point ≤ 16 then
    if n ≤ point then digits ++ List.replicate (point - n).toNat '0' ++ ['.', '0']
    else digits.take point.toNat ++ ['.'] ++ digits.drop point.toNat
  else
    let e := point - 1
    let tail := if n = 1 then [] else '.' :: digits.drop 1
    digits.take 1 ++ tail ++ ['e', if e < 0 then '-' else '+'] ++ Nat.toDigits 10 e.natAbs

def dropZeros (digits : Nat) (exponent : Int) : Nat → Nat × Int
  | 0 => (digits, exponent)
  | fuel + 1 =>
      if digits ≠ 0 ∧ digits % 10 = 0 then dropZeros (digits / 10) (exponent + 1) fuel
      else (digits, exponent)

def floatText (bits : UInt64) : String :=
  let n := bits.toNat
  let sign := if Nat.pow 2 63 ≤ n then ['-'] else []
  let magnitude := n % Nat.pow 2 63
  if magnitude = 0 then String.ofList (sign ++ ['0', '.', '0'])
  else
    let (d, e) := (Rounding.ofBits magnitude).shortest
    let (d, e) := dropZeros d e 20
    let digits := Nat.toDigits 10 d
    String.ofList (sign ++ layout digits (e + digits.length))

end ProjectShell.Json
