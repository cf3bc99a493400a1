import ProjectShell.CommandLine.Session
import Std.Time.DateTime.Timestamp

namespace ProjectShell.CommandLine

def faultOf (e : IO.Error) : String :=
  let known : Option FileFault := match e with
    | .noFileOrDirectory .. => some .missing
    | .inappropriateType _ code _ => FileFault.ofCode? code.toNat
    | .invalidArgument _ code _ => FileFault.ofCode? code.toNat
    | _ => none
  (known.map FileFault.message).getD (toString e)

def readText (path : String) : IO (Except String String) := do
  try
    return .ok (← IO.FS.readFile path)
  catch e =>
    return .error (faultOf e)

def emit (o : Outcome) : IO Unit := do
  IO.print o.stdout
  IO.eprint o.stderr

def clock : IO Timestamp := do
  let now ← Std.Time.Timestamp.now
  return ⟨now.toSecondsSinceUnixEpoch.val.toNat⟩

partial def interact (input : IO.FS.Stream) (s : FileStore) (exitCode : Nat) :
    IO (Nat × FileStore) := do
  let line ← input.getLine
  if line.isEmpty then return (exitCode, s)
  match commandOf? line with
  | none => interact input s exitCode
  | some command =>
      let (o, s) := { s with now := ← clock }.execute command
      emit (printed o)
      interact input s o.exitCode

def fail (f : Failure) : IO UInt32 := do
  IO.eprint f.message
  return 1

def save (s : FileStore) (path : String) (exitCode : Nat) : IO UInt32 := do
  try
    IO.FS.writeFile path (savedText s)
    return exitCode.toUInt32
  catch e =>
    fail (.savingProject path (faultOf e))

def start (i : Invocation) : IO UInt32 := do
  let texts ← i.inputs.mapM (fun path => return (path, ← readText path))
  let read : Reader := fun path => (texts.lookup path).getD (.error FileFault.missing.message)
  match i.load read (← clock) with
  | .error f => fail f
  | .ok s =>
      let (exitCode, s) ← match i.command with
        | some line => do
            let (o, s) := { s with now := ← clock }.execute line
            emit (printed o)
            pure (o.exitCode, s)
        | none => interact (← IO.getStdin) s 0
      match i.save with
      | some path => save s path exitCode
      | none => return exitCode.toUInt32

end ProjectShell.CommandLine

open ProjectShell.CommandLine in
def main (args : List String) : IO UInt32 := do
  match Request.ofArguments args with
  | .error e => do
      IO.eprint e.message
      return 2
  | .ok .help => do
      IO.print helpText
      return 0
  | .ok (.run i) => start i
