namespace ProjectShell.Text

structure Ratio where
  num : Nat
  den : Nat
deriving DecidableEq, Repr

def Ratio.atLeast (r s : Ratio) : Bool := s.num * r.den ≤ r.num * s.den

def takeEqual (c : Char) (first last : Nat) : List (Char × Bool) → Option (List (Char × Bool))
  | [] => none
  | (d, taken) :: rest =>
      match last with
      | 0 => if first = 0 && c = d && !taken then some ((d, true) :: rest) else none
      | last + 1 =>
          if first = 0 && c = d && !taken then some ((d, true) :: rest)
          else (takeEqual c (first - 1) last rest).map ((d, taken) :: ·)

def pairUp (reach : Nat) (pos : Nat) (other : List (Char × Bool)) :
    List Char → List Char × List (Char × Bool)
  | [] => ([], other)
  | c :: cs =>
      match takeEqual c (pos - reach) (pos + reach) other with
      | some other =>
          let (shared, other) := pairUp reach (pos + 1) other cs
          (c :: shared, other)
      | none => pairUp reach (pos + 1) other cs

def resemblance (a b : List Char) : Ratio :=
  let (shared, other) := pairUp (max a.length b.length / 2 - 1) 0 (b.map (·, false)) a
  let back := (other.filter Prod.snd).map Prod.fst
  let swaps := (((shared.zip back).filter (fun e => e.1 ≠ e.2)).length) / 2
  let m := shared.length
  if m = 0 then ⟨if a.isEmpty && b.isEmpty then 1 else 0, 1⟩
  else
    ⟨m * m * b.length + m * m * a.length + (m - swaps) * (a.length * b.length),
      3 * m * (a.length * b.length)⟩

end ProjectShell.Text
