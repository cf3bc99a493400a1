import ProjectShell.Json.Value

namespace ProjectShell

inductive TaskStatus
  | pending
  | inProgress
  | completed
deriving DecidableEq, Repr

namespace TaskStatus

def marker : TaskStatus → String
  | pending => "[ ]"
  | inProgress => "[~]"
  | completed => "[x]"

def name : TaskStatus → String
  | pending => "pending"
  | inProgress => "in_progress"
  | completed => "completed"

def ofName? (s : String) : Option TaskStatus :=
  [pending, inProgress, completed].find? (fun t => t.name = s)

theorem ofName?_name (t : TaskStatus) : ofName? t.name = some t := by cases t <;> decide

/-- A status is written as its name, or as an object with that name and `null`. -/
def ofJson? : Json → Option TaskStatus
  | .str s => ofName? s
  | .obj [(s, .null)] => ofName? s
  | _ => none

end TaskStatus

structure Task where
  id : String
  description : String
  status : TaskStatus := .pending
deriving DecidableEq, Repr

namespace Task

def line (t : Task) : String := t.status.marker ++ " " ++ t.id ++ ": " ++ t.description

def ofJson? : Json → Option Task
  | .obj members => do
      let id ← (← Json.Members.get? "id" members).str?
      let description ← (← Json.Members.get? "description" members).str?
      let status ← TaskStatus.ofJson? (← Json.Members.get? "status" members)
      pure ⟨id, description, status⟩
  | .arr [.str id, .str description, status] => do
      pure ⟨id, description, ← TaskStatus.ofJson? status⟩
  | _ => none

end Task

structure Plan where
  tasks : List Task
deriving DecidableEq, Repr

namespace Plan

def completed (p : Plan) : Nat := (p.tasks.filter (·.status = .completed)).length

def render (p : Plan) : String :=
  "\n".intercalate (p.tasks.map Task.line ++
    [toString p.completed ++ "/" ++ toString p.tasks.length ++ " tasks completed"])

def setStatus (id : String) (status : TaskStatus) : List Task → Option (List Task)
  | [] => none
  | t :: rest =>
      if t.id = id then some ({ t with status } :: rest)
      else (setStatus id status rest).map (t :: ·)

end Plan

end ProjectShell
