import ProjectShell.Command.Packages

namespace ProjectShell.Command

def languageCounts (m : FileMap) : List (Language × Nat) :=
  ([Language.css, .json, .md, .ts, .tsx].map
    (fun l => (l, (m.values.filter (fun f => f.language = l)).length))).filter (fun c => c.2 ≠ 0)

def project (v : View) : Outcome :=
  let counts := languageCounts v.files
  let size := v.files.values.foldl (fun n f => n + f.size) 0
  let languages := ", ".intercalate (counts.map (fun c => c.1.name ++ ": " ++ toString c.2))
  let plan := match v.plan with
    | some p => toString p.completed ++ "/" ++ toString p.tasks.length ++ " tasks completed"
    | none => "none"
  (Report.lines (["Files: " ++ toString v.files.size ++ " (" ++ toString size ++ " bytes)"] ++
    (if counts.isEmpty then [] else ["  " ++ languages]) ++
    ["Dependencies: " ++ toString v.files.dependencies.size,
      "Errors: " ++ toString v.errors.length, "Plan: " ++ plan])).outcome

def numberedErrors (number : Nat) : List String → List String
  | [] => []
  | e :: es => (toString number ++ ". " ++ e) :: numberedErrors (number + 1) es

def errors (args : List String) : Script Outcome := do
  let v ← Script.read id
  match args with
  | [] =>
      if v.errors.isEmpty then pure (.ok "No errors")
      else pure (Report.lines (numberedErrors 1 v.errors)).outcome
  | "clear" :: _ => do
      Script.clearErrors
      pure (.ok ("Cleared " ++ toString v.errors.length ++ " errors"))
  | other :: _ => pure (.failure ("errors: unknown argument '" ++ other ++ "'"))

def deps (v : View) : Outcome :=
  let ls := Npm.listed v.files.dependencies
  if ls.isEmpty then .ok "No dependencies" else (Report.lines ls).outcome

def planAction? (action : String) : Option TaskStatus :=
  match action with
  | "start" => some .inProgress
  | "done" => some .completed
  | "reset" => some .pending
  | _ => none

def plan (args : List String) : Script Outcome := do
  match args with
  | [] =>
      Script.read (fun v => match v.plan with
        | some p => .ok p.render
        | none => .ok "No plan set")
  | action :: rest =>
      match planAction? action, rest with
      | none, _ => pure (.failure ("plan: unknown action '" ++ action ++ "'"))
      | some _, [] => pure (.failure ("plan: " ++ action ++ ": missing task id"))
      | some status, id :: _ =>
          match ← Script.setTaskStatus id status with
          | .ok _ => pure (.ok ("Task " ++ id ++ ": " ++ status.name))
          | .error e => pure (.failure ("plan: " ++ e.message))

def undo : Script Outcome := do
  if ← Script.rollback then pure (.ok "Reverted the last change")
  else pure (.failure "undo: nothing to undo")

end ProjectShell.Command
