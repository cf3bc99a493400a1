namespace ProjectShell

structure Outcome where
  stdout : String := ""
  stderr : String := ""
  exitCode : Nat := 0
deriving DecidableEq, Repr, Inhabited

namespace Outcome

def ok (stdout : String) : Outcome := ⟨stdout, "", 0⟩

def failure (stderr : String) : Outcome := ⟨"", stderr, 1⟩

def succeeded (o : Outcome) : Bool := o.exitCode = 0

end Outcome

def joinOutput (a b : String) : String :=
  if b.isEmpty then a else if a.isEmpty then b else a ++ "\n" ++ b

theorem joinOutput_empty_right (a : String) : joinOutput a "" = a := rfl

theorem joinOutput_empty_left (b : String) : joinOutput "" b = b := by
  by_cases h : b.isEmpty
  · simp only [joinOutput, h, if_true]
    exact (String.isEmpty_iff.1 h).symm
  · simp [joinOutput, h]

theorem joinOutput_of_nonempty {a b : String} (ha : a.isEmpty = false) (hb : b.isEmpty = false) :
    joinOutput a b = a ++ "\n" ++ b := by
  simp [joinOutput, ha, hb]

theorem joinOutput_assoc (a b c : String) :
    joinOutput (joinOutput a b) c = joinOutput a (joinOutput b c) := by
  cases hc : c.isEmpty with
  | true => rw [String.isEmpty_iff.1 hc, joinOutput_empty_right, joinOutput_empty_right]
  | false =>
    cases hb : b.isEmpty with
    | true => rw [String.isEmpty_iff.1 hb, joinOutput_empty_right, joinOutput_empty_left]
    | false =>
      cases ha : a.isEmpty with
      | true => rw [String.isEmpty_iff.1 ha, joinOutput_empty_left, joinOutput_empty_left]
      | false =>
        have hab : (a ++ "\n" ++ b).isEmpty = false := by simp
        have hbc : (b ++ "\n" ++ c).isEmpty = false := by simp
        rw [joinOutput_of_nonempty ha hb, joinOutput_of_nonempty hb hc,
          joinOutput_of_nonempty hab hc, joinOutput_of_nonempty ha hbc]
        simp only [String.append_assoc]

def Outcome.andThen (a b : Outcome) : Outcome :=
  ⟨joinOutput a.stdout b.stdout, joinOutput a.stderr b.stderr, b.exitCode⟩

end ProjectShell
