/-!
Sets of characters as runs of code points, in order and apart from each other.
-/

namespace ProjectShell.Regex

structure CharSet where
  runs : List (Nat × Nat)
deriving DecidableEq, Repr

namespace CharSet

def insertRun (first last : Nat) : List (Nat × Nat) → List (Nat × Nat)
  | [] => [(first, last)]
  | (a, b) :: rest =>
      if last + 1 < a then (first, last) :: (a, b) :: rest
      else if b + 1 < first then (a, b) :: insertRun first last rest
      else insertRun (min first a) (max last b) rest

def ofRuns (runs : List (Nat × Nat)) : CharSet :=
  ⟨runs.foldl (fun acc r => insertRun r.1 r.2 acc) []⟩

def maxCode : Nat := 0x10FFFF

def contains (s : CharSet) (c : Char) : Bool :=
  s.runs.any (fun (first, last) => first ≤ c.toNat && c.toNat ≤ last)

/-- The other case of the letters in a run: of its small letters, or, if it has none, of its
capitals. -/
def foldRun (first last : Nat) : Option (Nat × Nat) :=
  if first ≤ 0x7A && 0x61 ≤ last then some (max first 0x61 - 32, min last 0x7A - 32)
  else if first ≤ 0x5A && 0x41 ≤ last then some (max first 0x41 + 32, min last 0x5A + 32)
  else none

def foldCase (s : CharSet) : CharSet :=
  ofRuns (s.runs ++ s.runs.filterMap (fun (first, last) => foldRun first last))

/-- What lies between the runs, from `first` on. A run is kept even if no character has a code
point in it. -/
def gapsFrom (first : Nat) : List (Nat × Nat) → List (Nat × Nat)
  | [] => if first ≤ maxCode then [(first, maxCode)] else []
  | (a, b) :: rest =>
      let gaps := gapsFrom (b + 1) rest
      if a ≤ first then gaps else (first, a - 1) :: gaps

def complement (s : CharSet) : CharSet := ⟨gapsFrom 0 s.runs⟩

def single (c : Char) : CharSet := ⟨[(c.toNat, c.toNat)]⟩

theorem contains_complement_single (c d : Char) :
    (single c).complement.contains d = (d != c) := by
  have hmax : d.toNat ≤ maxCode := by
    have hd : d.toNat.isValidChar := d.valid
    unfold Nat.isValidChar at hd
    unfold maxCode
    omega
  have hne : d ≠ c ↔ d.toNat ≠ c.toNat := not_congr Char.toNat_inj.symm
  rw [Bool.eq_iff_iff, bne_iff_ne, hne]
  simp only [complement, single, contains, gapsFrom]
  split <;> split <;> simp <;> omega

end CharSet

end ProjectShell.Regex
