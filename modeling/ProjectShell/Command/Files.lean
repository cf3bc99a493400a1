import ProjectShell.Command.Options
import ProjectShell.Command.Report

namespace ProjectShell.Command

def rmTable : OptionTable where
  flags := [.switch 'r' "recursive", .switch 'R' "recursive", .switch 'f' "force",
    .switch 'v' "verbose"]

def deleteAll : List String → Attempt Unit
  | [] => pure ()
  | path :: paths => do
      ExceptT.mk (Script.delete path)
      deleteAll paths

def rmOperand (o : Options) (operand : String) : Attempt Report := do
  let files ← (Script.files : Script FileMap)
  if files.hasFile operand then
    ExceptT.mk (Script.delete operand)
    pure (if o.has "verbose" then .line ("removed '" ++ operand ++ "'") else {})
  else
    let absent : Report :=
      if o.has "force" then {}
      else .error ("rm: cannot remove '" ++ operand ++ "': No such file or directory")
    match Path.normalizeDir operand with
    | .error _ => pure absent
    | .ok dir =>
        if dir.isEmpty then pure (.error ("rm: refusing to remove '" ++ operand ++ "'"))
        else if files.isDir dir then
          if o.has "recursive" then
            deleteAll (files.pathsUnder dir)
            pure {}
          else pure (.error ("rm: cannot remove '" ++ operand ++ "': Is a directory"))
        else pure absent

def rm (args : List String) : Attempt Outcome := do
  let o := rmTable.parse args
  if o.operands.isEmpty && !o.has "force" then
    pure (Report.error "rm: missing operand").outcome
  else return (← Report.forEach (rmOperand o) o.operands).outcome

inductive Transfer
  | move
  | copy
deriving DecidableEq, Repr

namespace Transfer

def name : Transfer → String
  | move => "mv"
  | copy => "cp"

def table : Transfer → OptionTable
  | move => { flags := [.switch 'f' "force", .switch 'v' "verbose"] }
  | copy =>
      { flags := [.switch 'r' "recursive", .switch 'R' "recursive", .switch 'f' "force",
          .switch 'v' "verbose"] }

def file (t : Transfer) (source target : String) : Script (Except StoreError Unit) :=
  match t with
  | move => Script.rename source target
  | copy => do
      match (← Script.files).read? source with
      | none => pure (.error (.notFound source))
      | some f =>
          match ← Script.write target f.content with
          | .ok _ => pure (.ok ())
          | .error e => pure (.error e)

def fileReported (t : Transfer) (source target : String) : Script Report := do
  match ← t.file source target with
  | .ok _ => pure {}
  | .error e => pure (.error (t.name ++ ": " ++ e.message))

def operand (t : Transfer) (recursive : Bool) (source target : String) : Script Report := do
  let v ← Script.read id
  if v.files.hasFile source then t.fileReported source target
  else
    match v.existingDir? source with
    | none =>
        pure (.error (t.name ++ ": cannot stat '" ++ source ++ "': No such file or directory"))
    | some dir =>
        if dir.isEmpty then
          pure (.error (t.name ++ ": cannot stat '" ++ source ++ "': No such file or directory"))
        else if !recursive then
          pure (.error (t.name ++ ": -r not specified; omitting directory '" ++ source ++ "'"))
        else
          let base := Path.trimSlashes target.toList
          Report.forEach
            (fun path => t.fileReported path
              (String.ofList (base ++ path.toList.drop dir.length)))
            (v.files.pathsUnder dir)

def inside (destination source : String) : String :=
  String.ofList (Path.trimSlashes destination.toList) ++ "/" ++ Path.lastSegment source

def run (t : Transfer) (args : List String) : Script Outcome := do
  let o := t.table.parse args
  let recursive := t = .move || o.has "recursive"
  match o.operands.getLast? with
  | none => pure (Report.error (t.name ++ ": missing file operand")).outcome
  | some destination =>
      let sources := o.operands.dropLast
      if sources.isEmpty then
        pure (Report.error (t.name ++ ": missing destination file operand after '" ++
          destination ++ "'")).outcome
      else
        let files ← Script.files
        let intoDir := Text.endsWith "/" destination || 1 < sources.length ||
          (!files.hasFile destination && files.isDir destination)
        let report ← Report.forEach
          (fun source => t.operand recursive source
            (if intoDir then inside destination source else destination)) sources
        pure report.outcome

end Transfer

def touchOperand (path : String) : Script Report := do
  if (← Script.files).hasFile path then pure {}
  else
    match ← Script.write path "" with
    | .ok _ => pure {}
    | .error e => pure (.error ("touch: cannot touch '" ++ path ++ "': " ++ e.message))

def touch (args : List String) : Script Outcome := do
  let operands := args.filter (fun a => !Text.startsWith "-" a)
  if operands.isEmpty then pure (Report.error "touch: missing file operand").outcome
  else return (← Report.forEach touchOperand operands).outcome

def teeTable : OptionTable where
  flags := [.switch 'a' "append"]

def teeOperand (append : Bool) (input path : String) : Script Report := do
  match ← if append then Script.appendOutput path input else Script.write path input with
  | .ok _ => pure {}
  | .error e => pure (.error ("tee: " ++ path ++ ": " ++ e.message))

def tee (args : List String) (stdin : Option String) : Script Outcome := do
  let o := teeTable.parse args
  let input := stdin.getD ""
  let report ← Report.forEach (teeOperand (o.has "append") input) o.operands
  pure (report ++ (if input.isEmpty then {} else .line input)).outcome

end ProjectShell.Command
