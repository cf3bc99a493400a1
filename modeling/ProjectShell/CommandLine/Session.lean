import ProjectShell.CommandLine.Arguments
import ProjectShell.CommandLine.Folder
import ProjectShell.FileStore.Document
import ProjectShell.Limits.Document
import ProjectShell.Shell.Line
import ProjectShell.Text.Blank

namespace ProjectShell.CommandLine

inductive Failure
  | readingLimits (path cause : String)
  | parsingLimits (path : String) (cause : Json.ReadError)
  | readingProject (path cause : String)
  | parsingProject (path : String) (cause : Json.ReadError)
  | loadingProject (path : String) (cause : StoreError)
  | savingProject (path cause : String)
deriving DecidableEq, Repr

namespace Failure

def context : Failure → String
  | readingLimits path _ => "reading limits from " ++ path
  | parsingLimits path _ => "parsing limits in " ++ path
  | readingProject path _ => "reading project from " ++ path
  | parsingProject path _ => "parsing project in " ++ path
  | loadingProject path _ => "loading project from " ++ path
  | savingProject path _ => "saving project to " ++ path

def cause : Failure → String
  | readingLimits _ cause => cause
  | parsingLimits _ cause => cause.message
  | readingProject _ cause => cause
  | parsingProject _ cause => cause.message
  | loadingProject _ cause => cause.message
  | savingProject _ cause => cause

def message (f : Failure) : String :=
  "Error: " ++ f.context ++ "\n\nCaused by:" ++
    String.join ((Text.piecesOf '\n' f.cause).map ("\n    " ++ ·)) ++ "\n"

end Failure

abbrev Reader := String → Except String String

namespace Invocation

def inputs (i : Invocation) : List String := i.limits.toList ++ i.project.toList

def loadLimits (i : Invocation) (read : Reader) : Except Failure Limits :=
  match i.limits with
  | none => .ok {}
  | some path => do
      let text ← (read path).mapError (Failure.readingLimits path)
      (Limits.ofText text).mapError (Failure.parsingLimits path)

def load (i : Invocation) (read : Reader) (now : Timestamp) : Except Failure FileStore := do
  let limits ← i.loadLimits read
  match i.project with
  | none => pure (FileStore.withLimits limits now)
  | some path => do
      let text ← (read path).mapError (Failure.readingProject path)
      let document ← (Json.parse text).mapError (Failure.parsingProject path)
      (FileStore.ofJson document limits now).mapError (Failure.loadingProject path)

end Invocation

def savedText (s : FileStore) : String := s.toJson.pretty

def closedLine (text : String) : String := if text.isEmpty then "" else text ++ "\n"

def printed (o : Outcome) : Outcome := { o with
  stdout := closedLine o.stdout
  stderr := closedLine o.stderr }

def commandOf? (line : String) : Option String :=
  let line := Text.trimmed line
  if line.isEmpty || Text.startsWith "#" line then none else some line

def after (o : Outcome) (p : Outcome) : Outcome :=
  ⟨o.stdout ++ p.stdout, o.stderr ++ p.stderr, p.exitCode⟩

/-- `clock n` is what the clock says before the `n`-th of the commands, counted from zero. -/
def runCommands (clock : Nat → Timestamp) (s : FileStore) (o : Outcome) :
    List String → Outcome × FileStore
  | [] => (o, s)
  | line :: rest =>
      let (p, s) := { s with now := clock 0 }.execute line
      runCommands (fun n => clock (n + 1)) s (after o (printed p)) rest

def Invocation.commands (i : Invocation) (stdin : String) : List String :=
  match i.command with
  | some line => [line]
  | none => (Text.linesOf stdin).filterMap commandOf?

def failed (o : Outcome) (f : Failure) : Outcome := after o ⟨"", f.message, 1⟩

def Invocation.run (i : Invocation) (stdin : String) (clock : Nat → Timestamp) (folder : Folder) :
    Outcome × Folder :=
  match i.load (fun path => (folder.read path).mapError FileFault.message) (clock 0) with
  | .error f => (failed {} f, folder)
  | .ok s =>
      let (o, s) := runCommands (fun n => clock (n + 1)) s {} (i.commands stdin)
      match i.save with
      | none => (o, folder)
      | some path =>
          match folder.write path (savedText s) with
          | .ok folder => (o, folder)
          | .error e => (failed o (.savingProject path e.message), folder)

def run (args : List String) (stdin : String) (clock : Nat → Timestamp) (folder : Folder) :
    Outcome × Folder :=
  match Request.ofArguments args with
  | .error e => (⟨"", e.message, 2⟩, folder)
  | .ok .help => (.ok helpText, folder)
  | .ok (.run i) => i.run stdin clock folder

end ProjectShell.CommandLine
