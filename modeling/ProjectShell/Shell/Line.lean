import ProjectShell.Command.Builtin
import ProjectShell.Glob.PathPattern
import ProjectShell.Shell.Operator
import ProjectShell.Shell.Stage
import ProjectShell.Text.Blank

namespace ProjectShell

def devNull : String := "/dev/null"

def expandWord (files : FileMap) (w : Word) : List String :=
  if w.quoted || !PathPattern.isGlob w.text.toList then [w.text]
  else
    match (PathPattern.new w.text).filter files.keys with
    | [] => [w.text]
    | found => found

def Redirect.put (r : Redirect) (text : String) : Script (Option String) := do
  if r.target = devNull then pure none
  else
    match ← if r.append then Script.appendOutput r.target text else Script.write r.target text with
    | .ok _ => pure none
    | .error e => pure (some (r.target ++ ": " ++ e.message))

namespace Stage

def command (s : Stage) (stdin : Option String) : Script Outcome :=
  match s.words with
  | [] => pure {}
  | w :: ws => do
      let files ← Script.files
      dispatch w.text (ws.flatMap (expandWord files)) stdin

def mergeStreams (s : Stage) (o : Outcome) : Outcome :=
  if s.merge then { o with stdout := joinOutput o.stdout o.stderr, stderr := "" } else o

def putStderr (s : Stage) (o : Outcome) : Script Outcome :=
  match s.stderr with
  | none => pure o
  | some r => do
      match ← r.put o.stderr with
      | none => pure { o with stderr := "" }
      | some complaint => pure { o with stderr := complaint, exitCode := 1 }

def putStdout (s : Stage) (o : Outcome) : Script Outcome :=
  match s.stdout with
  | none => pure o
  | some r => do
      match ← r.put o.stdout with
      | none =>
          pure { o with stdout := "", exitCode := if r.target = devNull then o.exitCode else 0 }
      | some complaint =>
          pure { stdout := "", stderr := joinOutput o.stderr complaint, exitCode := 1 }

def run (s : Stage) (stdin : Option String) : Script Outcome := do
  let o ← s.command stdin
  let o ← s.putStderr (s.mergeStreams o)
  s.putStdout o

end Stage

def runStages (stdin : Option String) : List Stage → Script Outcome
  | [] => pure {}
  | [s] => s.run stdin
  | s :: t :: rest => do
      let o ← s.run stdin
      runStages (some o.stdout) (t :: rest)

def stagesOf (many : Bool) : List (List Char) → Except String (List Stage)
  | [] => .ok []
  | cs :: rest =>
      if Text.allBlank cs && many then .error "syntax error near '|'"
      else
        match Stage.ofChars? cs with
        | none => .error "syntax error: missing redirection target"
        | some s =>
            match stagesOf many rest with
            | .ok stages => .ok (s :: stages)
            | .error e => .error e

def runPipeline (cs : List Char) : Script Outcome :=
  let p := Pieces.split [.pipe] cs
  match stagesOf (!p.rest.isEmpty) p.all with
  | .ok stages => runStages none stages
  | .error message => pure (.failure message)

def Operator.stopsAfter (op : Operator) (o : Outcome) : Bool :=
  match op with
  | .both => !o.succeeded
  | .either => o.succeeded
  | _ => false

def runChain (op : Operator) : List (List Char) → Script Outcome
  | [] => pure {}
  | [cs] => runPipeline cs
  | cs :: ds :: rest => do
      let a ← runPipeline cs
      if op.stopsAfter a then pure a
      else return a.andThen (← runChain op (ds :: rest))

def runSegment (cs : List Char) : Script Outcome :=
  let p := Pieces.split [.both, .either] cs
  match p.rest with
  | [] => runPipeline p.first
  | (op, _) :: others =>
      if others.any (fun q => q.1 ≠ op) then
        pure (.failure
          "mixing '&&' and '||' in one command is not supported; split it with ';'")
      else if p.all.any Text.allBlank then
        pure (.failure ("syntax error near '" ++ op.text ++ "'"))
      else runChain op p.all

def runSegments : List (List Char) → Script Outcome
  | [] => pure {}
  | [cs] => runSegment cs
  | cs :: ds :: rest => do
      let a ← runSegment cs
      return a.andThen (← runSegments (ds :: rest))

def runLine (line : String) : Script Outcome :=
  runSegments (((Pieces.split [.sequence] line.toList).all).filter (fun cs => !Text.allBlank cs))

namespace FileStore

def execute (s : FileStore) (line : String) : Outcome × FileStore :=
  let (o, s') := (runLine line).run s
  (⟨truncateOutput o.stdout s'.limits.maxOutputBytes,
    truncateOutput o.stderr s'.limits.maxOutputBytes, o.exitCode⟩, s')

end FileStore

end ProjectShell
