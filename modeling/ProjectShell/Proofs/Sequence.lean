import ProjectShell.Proofs.Operators
import ProjectShell.Shell.Line

namespace ProjectShell

def Outcome.thenRun (a : Outcome) (segments : List (List Char)) (b : Outcome) : Outcome :=
  ⟨joinOutput a.stdout b.stdout, joinOutput a.stderr b.stderr,
    if segments = [] then a.exitCode else b.exitCode⟩

namespace Outcome

theorem thenRun_nil (a : Outcome) : a.thenRun [] {} = a := rfl

theorem thenRun_of_ne_nil (a b : Outcome) {segments : List (List Char)} (h : segments ≠ []) :
    a.thenRun segments b = a.andThen b := by
  rw [thenRun, if_neg h, andThen]

theorem nothing_andThen (b : Outcome) : andThen {} b = b := by
  rw [andThen, joinOutput_empty_left, joinOutput_empty_left]

theorem thenRun_assoc (a b c : Outcome) (xs ys : List (List Char)) :
    (a.thenRun xs b).thenRun ys c = a.thenRun (xs ++ ys) (b.thenRun ys c) := by
  simp only [thenRun, joinOutput_assoc, List.append_eq_nil_iff]
  by_cases hx : xs = [] <;> by_cases hy : ys = [] <;> simp [hx, hy]

end Outcome

theorem runSegments_cons (x : List Char) (xs : List (List Char)) :
    runSegments (x :: xs) =
      (do
        let a ← runSegment x
        let b ← runSegments xs
        return a.thenRun xs b) := by
  cases xs with
  | nil => simp [runSegments, Outcome.thenRun_nil]
  | cons y ys => simp [runSegments, Outcome.thenRun_of_ne_nil]

theorem runSegments_append (xs ys : List (List Char)) :
    runSegments (xs ++ ys) =
      (do
        let a ← runSegments xs
        let b ← runSegments ys
        return a.thenRun ys b) := by
  induction xs with
  | nil =>
    cases ys with
    | nil => rfl
    | cons y ys =>
      have hy (b : Outcome) : Outcome.thenRun {} (y :: ys) b = b := by
        rw [Outcome.thenRun_of_ne_nil _ _ (List.cons_ne_nil y ys), Outcome.nothing_andThen]
      rw [List.nil_append, runSegments.eq_1, pure_bind]
      simp only [hy, bind_pure]
  | cons x xs ih =>
    simp only [List.cons_append, runSegments_cons, ih, bind_assoc, pure_bind,
      Outcome.thenRun_assoc]

def segmentsOf (line : String) : List (List Char) :=
  (Pieces.split [.sequence] line.toList).all.filter (fun cs => !Text.allBlank cs)

theorem runLine_eq (line : String) : runLine line = runSegments (segmentsOf line) := rfl

theorem segmentsOf_append {a : String} (ha : Word.Closed a.toList) (b : String) :
    segmentsOf (a ++ ";" ++ b) = segmentsOf a ++ segmentsOf b := by
  have hsplit : Pieces.split [.sequence] (a ++ ";" ++ b).toList =
      (Pieces.split [.sequence] a.toList).followedBy .sequence
        (Pieces.split [.sequence] b.toList) := by
    have hmem : Operator.sequence ∈ [Operator.sequence] := List.mem_singleton_self _
    rw [String.toList_append, String.toList_append, List.append_assoc]
    exact Pieces.scan_append (by decide) hmem (Nat.zero_le _) ha (by simp [Operator.chars]) b.toList
  rw [segmentsOf, hsplit, Pieces.all_followedBy, List.filter_append]
  rfl

theorem run_runLine_sequence (s : FileStore) (a b : String) (ha : Word.Closed a.toList) :
    let ra := (runLine a).run s
    let rb := (runLine b).run ra.2
    (runLine (a ++ ";" ++ b)).run s =
      (⟨joinOutput ra.1.stdout rb.1.stdout, joinOutput ra.1.stderr rb.1.stderr,
        if segmentsOf b = [] then ra.1.exitCode else rb.1.exitCode⟩, rb.2) := by
  intro ra rb
  rw [runLine_eq, segmentsOf_append ha, runSegments_append]
  simp only [Script.run_bind, Script.run_pure]
  rfl

theorem run_runLine_sequence_blank :
    let s := FileStore.new ⟨0⟩
    let a := "echo 'x;y' > b; cat b none"
    Word.Closed a.toList ∧
      ((runLine (a ++ ";" ++ " ;")).run s).1 =
        ⟨"x;y", "cat: none: No such file or directory", 1⟩ ∧
      ((runLine (a ++ ";" ++ "wc -l b;")).run s).1 =
        ⟨"x;y\n1 b", "cat: none: No such file or directory", 0⟩ := by
  intro s a
  have ha : Word.Closed a.toList := by decide
  have hblank := congrArg Prod.fst (run_runLine_sequence s a " ;" ha)
  have hcount := congrArg Prod.fst (run_runLine_sequence s a "wc -l b;" ha)
  exact ⟨ha, hblank.trans (by decide +kernel), hcount.trans (by decide +kernel)⟩

end ProjectShell
