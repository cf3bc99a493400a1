import ProjectShell.Command.Script
import ProjectShell.Shell.Outcome

namespace ProjectShell

structure Report where
  out : List String := []
  err : List String := []
  failed : Bool := false
deriving DecidableEq, Repr

namespace Report

def line (s : String) : Report := ⟨[s], [], false⟩

def lines (ss : List String) : Report := ⟨ss, [], false⟩

def error (s : String) : Report := ⟨[], [s], true⟩

def warning (s : String) : Report := ⟨[], [s], false⟩

instance : Append Report := ⟨fun a b => ⟨a.out ++ b.out, a.err ++ b.err, a.failed || b.failed⟩⟩

theorem empty_append (r : Report) : {} ++ r = r := rfl

theorem append_empty (r : Report) : r ++ {} = r := by
  obtain ⟨out, err, failed⟩ := r
  change Report.mk (out ++ []) (err ++ []) (failed || false) = _
  rw [List.append_nil, List.append_nil, Bool.or_false]

def concat : List Report → Report
  | [] => {}
  | r :: rs => r ++ concat rs

def outcome (r : Report) : Outcome :=
  ⟨"\n".intercalate r.out, "\n".intercalate r.err, if r.failed then 1 else 0⟩

def forEach {m : Type → Type} [Monad m] {α : Type} (f : α → m Report) : List α → m Report
  | [] => pure {}
  | x :: xs => do
      let a ← f x
      let b ← forEach f xs
      pure (a ++ b)

theorem exitCode_outcome_le_one (r : Report) : r.outcome.exitCode ≤ 1 := by
  simp only [outcome]
  split <;> omega

end Report

structure Source where
  name : Option String
  text : String
deriving DecidableEq, Repr

namespace Source

def lines (s : Source) : List String := Text.linesOf s.text

end Source

namespace View

def readOperand (v : View) (cmd path : String) : Except String String :=
  match v.files.read? path with
  | some f => .ok f.content
  | none =>
      if v.files.isDir path then .error (cmd ++ ": " ++ path ++ ": Is a directory")
      else .error (cmd ++ ": " ++ path ++ ": No such file or directory")

def operandSources (v : View) (cmd : String) (stdin : Option String) :
    List String → List Source × Report
  | [] => ([], {})
  | operand :: rest =>
      let (sources, report) := operandSources v cmd stdin rest
      if operand = "-" then ((stdin.map (Source.mk none)).toList ++ sources, report)
      else
        match v.readOperand cmd operand with
        | .ok text => (⟨some operand, text⟩ :: sources, report)
        | .error message => (sources, .error message ++ report)

def sources (v : View) (cmd : String) (operands : List String) (stdin : Option String) :
    List Source × Report :=
  if operands.all (· = "-") then
    match stdin with
    | some text => ([⟨none, text⟩], {})
    | none => ([], .error (cmd ++ ": missing file operand"))
  else v.operandSources cmd stdin operands

def existingDir? (v : View) (operand : String) : Option String :=
  match Path.normalizeDir operand with
  | .ok key => if v.files.isDir key then some key else none
  | .error _ => none

end View

end ProjectShell
