import ProjectShell.Shell.Line

namespace ProjectShell

namespace Redirect

def refused (r : Redirect) : Bool :=
  r.target ≠ devNull && (Path.normalize r.target).toOption.isNone

def complaint (r : Redirect) : String :=
  r.target ++ ": " ++ (StoreError.invalidPath r.target).message

theorem exists_write (r : Redirect) (text : String) (s : FileStore) :
    ∃ content, Script.run s (Script.appendOutput r.target text) = s.write r.target content :=
  ⟨((s.read? r.target).map File.content).getD "" ++ _, rfl⟩

theorem run_put (r : Redirect) (text : String) (s : FileStore) :
    ((r.put text).run s).1 = if r.refused then some r.complaint else none := by
  obtain ⟨content, happend⟩ := r.exists_write text s
  by_cases h : r.target = devNull
  · simp [put, refused, h]
  · rw [put, if_neg h]
    cases hn : Path.normalize r.target with
    | ok key =>
      have hrefused : r.refused = false := by simp [refused, hn, Except.toOption]
      cases r.append <;> simp [happend, FileStore.write, hn, hrefused]
    | error e =>
      have hrefused : r.refused = true := by simp [refused, h, hn, Except.toOption]
      cases r.append <;>
        simp [happend, FileStore.write, hn, hrefused, complaint, Path.normalize_eq_error hn]

end Redirect

namespace Stage

variable (stage : Stage)

def afterStderr (o : Outcome) : Outcome :=
  match stage.stderr with
  | none => o
  | some r =>
      if r.refused then { o with stderr := r.complaint, exitCode := 1 } else { o with stderr := "" }

def afterStdout (o : Outcome) : Outcome :=
  match stage.stdout with
  | none => o
  | some r =>
      if r.refused then ⟨"", joinOutput o.stderr r.complaint, 1⟩
      else { o with stdout := "", exitCode := if r.target = devNull then o.exitCode else 0 }

theorem run_putStderr (o : Outcome) (s : FileStore) :
    ((stage.putStderr o).run s).1 = stage.afterStderr o := by
  unfold putStderr afterStderr
  cases stage.stderr with
  | none => rfl
  | some r =>
    dsimp only
    rw [Script.run_bind, Redirect.run_put]
    cases r.refused <;> rfl

theorem run_putStdout (o : Outcome) (s : FileStore) :
    ((stage.putStdout o).run s).1 = stage.afterStdout o := by
  unfold putStdout afterStdout
  cases stage.stdout with
  | none => rfl
  | some r =>
    dsimp only
    rw [Script.run_bind, Redirect.run_put]
    cases r.refused <;> rfl

theorem outcome_run (stdin : Option String) (s : FileStore) :
    ((stage.run stdin).run s).1 =
      stage.afterStdout (stage.afterStderr (stage.mergeStreams ((stage.command stdin).run s).1)) := by
  rw [run, Script.run_bind, Script.run_bind, run_putStdout, run_putStderr]

def complaintOf : Option Redirect → String
  | some r => if r.refused then r.complaint else ""
  | none => ""

theorem exitCode_afterStderr (o : Outcome) :
    (stage.afterStderr o).exitCode = if stage.stderr.any Redirect.refused then 1 else o.exitCode := by
  unfold afterStderr
  cases stage.stderr with
  | none => rfl
  | some r => cases hr : r.refused <;> simp [hr]

theorem exitCode_afterStdout (o : Outcome) :
    (stage.afterStdout o).exitCode =
      if stage.stdout.any Redirect.refused then 1
      else if stage.stdout.any (fun r => r.target ≠ devNull) then 0
      else o.exitCode := by
  unfold afterStdout
  cases stage.stdout with
  | none => rfl
  | some r => cases hr : r.refused <;> by_cases ht : r.target = devNull <;> simp [hr, ht]

theorem stderr_afterStderr (o : Outcome) :
    (stage.afterStderr o).stderr =
      if stage.stderr.isSome then complaintOf stage.stderr else o.stderr := by
  unfold afterStderr
  cases stage.stderr with
  | none => rfl
  | some r => cases hr : r.refused <;> simp [complaintOf, hr]

theorem stderr_afterStdout (o : Outcome) :
    (stage.afterStdout o).stderr = joinOutput o.stderr (complaintOf stage.stdout) := by
  unfold afterStdout
  cases stage.stdout with
  | none => rfl
  | some r => cases hr : r.refused <;> simp [complaintOf, hr, joinOutput_empty_right]

theorem run_reports_refused (stdin : Option String) (s : FileStore) :
    let o := ((stage.command stdin).run s).1
    let r := ((stage.run stdin).run s).1
    r.exitCode =
      (if stage.stdout.any Redirect.refused then 1
      else if stage.stdout.any (fun r => r.target ≠ devNull) then 0
      else if stage.stderr.any Redirect.refused then 1
      else o.exitCode) ∧
    r.stderr =
      joinOutput
        (if stage.stderr.isSome then complaintOf stage.stderr
        else if stage.merge then "" else o.stderr)
        (complaintOf stage.stdout) := by
  intro o r
  have hr : r = stage.afterStdout (stage.afterStderr (stage.mergeStreams o)) :=
    stage.outcome_run stdin s
  have hcode : (stage.mergeStreams o).exitCode = o.exitCode := by
    unfold mergeStreams
    cases stage.merge <;> rfl
  have herrors : (stage.mergeStreams o).stderr = if stage.merge then "" else o.stderr := by
    unfold mergeStreams
    cases stage.merge <;> rfl
  rw [hr]
  constructor
  · rw [exitCode_afterStdout, exitCode_afterStderr, hcode]
  · rw [stderr_afterStdout, stderr_afterStderr, herrors]

theorem run_hides_refused :
    let stage : Stage :=
      { words := Word.ofChars "echo x".toList, stdout := some ⟨"out", false⟩,
        stderr := some ⟨"../e", false⟩ }
    let r := (stage.run none).run (FileStore.new ⟨0⟩)
    ofChars? "echo x 2> ../e > out".toList = some stage ∧
      "../e" ≠ devNull ∧ (Path.normalize "../e").toOption = none ∧
      r.1.exitCode = 0 ∧ r.1.stderr = "../e: invalid path: ../e" := by
  decide +kernel

end Stage

end ProjectShell
