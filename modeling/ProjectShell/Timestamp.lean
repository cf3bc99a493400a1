namespace ProjectShell

/-- Seconds since the start of 1970. -/
structure Timestamp where
  seconds : Nat
deriving DecidableEq, Repr, Inhabited

namespace Timestamp

/-- Year, month and day of a day counted from the start of 1970. Years begin with March here, so
that the leap day is the last of its year, and 400 of them have 146097 days. -/
def civil (day : Nat) : Nat × Nat × Nat :=
  let z := day + 719468
  let era := z / 146097
  let doe := z % 146097
  let yoe := (doe - doe / 1460 + doe / 36524 - doe / 146096) / 365
  let doy := doe - (365 * yoe + yoe / 4 - yoe / 100)
  let mp := (5 * doy + 2) / 153
  let d := doy - (153 * mp + 2) / 5 + 1
  let m := if mp < 10 then mp + 3 else mp - 9
  (yoe + era * 400 + (if m ≤ 2 then 1 else 0), m, d)

def padded (width n : Nat) : String :=
  let digits := Nat.toDigits 10 n
  String.ofList (List.replicate (width - digits.length) '0' ++ digits)

def text (t : Timestamp) : String :=
  let (y, m, d) := civil (t.seconds / 86400)
  let s := t.seconds % 86400
  padded 4 y ++ "-" ++ padded 2 m ++ "-" ++ padded 2 d ++ "T" ++ padded 2 (s / 3600) ++ ":" ++
    padded 2 (s / 60 % 60) ++ ":" ++ padded 2 (s % 60) ++ "Z"

end Timestamp

end ProjectShell
