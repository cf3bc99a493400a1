namespace ProjectShell.Text

def digitsValue (cs : List Char) : Nat :=
  cs.foldl (fun n c => n * 10 + (c.toNat - '0'.toNat)) 0

def parseSize? (s : String) : Option Nat :=
  let digits := match s.toList with
    | '+' :: cs => cs
    | cs => cs
  if digits.isEmpty || !digits.all Char.isDigit then none
  else if digitsValue digits ≤ 0xFFFFFFFFFFFFFFFF then some (digitsValue digits)
  else none

def numeralOf : List Char → List Char
  | c :: cs =>
      if c = '-' || c = '+' || c.isDigit || c = '.' then
        c :: cs.takeWhile (fun d => d.isDigit || d = '.')
      else []
  | [] => []

def unsigned (cs : List Char) : Option Float :=
  let whole := cs.takeWhile Char.isDigit
  match cs.drop whole.length with
  | [] => if whole.isEmpty then none else some (Float.ofScientific (digitsValue whole) false 0)
  | _ :: part =>
      if part.all Char.isDigit && !(whole.isEmpty && part.isEmpty) then
        some (Float.ofScientific (digitsValue (whole ++ part)) true part.length)
      else none

def numeralValue : List Char → Float
  | '-' :: cs => ((unsigned cs).map (fun f => -f)).getD 0
  | '+' :: cs => (unsigned cs).getD 0
  | cs => (unsigned cs).getD 0

/-- Floats in their total order, negative zero before zero. -/
def floatRank (f : Float) : Int :=
  let n := f.toBits.toNat
  if n < 0x8000000000000000 then n else 0x7FFFFFFFFFFFFFFF - (n : Int)

end ProjectShell.Text
