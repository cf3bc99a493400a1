import ProjectShell.Text.Resemblance
import ProjectShell.Text.Substring
import ProjectShell.Text.Terminal

namespace ProjectShell.CommandLine

inductive Setting
  | project
  | save
  | limits
  | command
deriving DecidableEq, Repr

inductive Switch
  | set (s : Setting)
  | help
deriving DecidableEq, Repr

namespace Setting

def all : List Setting := [project, save, limits, command]

def shown : Setting → String
  | project => "--project <PROJECT>"
  | save => "--save <SAVE>"
  | limits => "--limits <LIMITS>"
  | command => "-c <COMMAND>"

def accepts (s : Setting) (value : String) : Bool := s = command || !value.isEmpty

end Setting

namespace Switch

def long? : Switch → Option String
  | set .project => some "project"
  | set .save => some "save"
  | set .limits => some "limits"
  | set .command => none
  | help => some "help"

def all : List Switch := Setting.all.map set ++ [help]

theorem mem_all (s : Switch) : s ∈ all := by
  rcases s with s | _
  · cases s <;> decide
  · decide

def ofLong? (name : String) : Option Switch := all.find? (fun s => s.long? = some name)

def shown : Switch → String
  | set s => s.shown
  | help => "--help"

def enough : Text.Ratio := ⟨7, 10⟩

def better (name : List Char) (best : Option (Text.Ratio × Switch)) (s : Switch) :
    Option (Text.Ratio × Switch) :=
  match s.long? with
  | none => best
  | some long =>
      let r := Text.resemblance name long.toList
      if !r.atLeast enough then best
      else
        match best with
        | some (q, t) => if r.atLeast q then some (r, s) else some (q, t)
        | none => some (r, s)

/-- The option that the name resembles most; of equal ones the last. -/
def nearest? (name : String) : Option Switch :=
  (all.foldl (better name.toList) none).map Prod.snd

end Switch

inductive UsageError
  | unexpected (arg : String) (meant : Option Switch) (used : List Switch)
  | unexpectedValue (value : String) (used : Bool)
  | missingValue (s : Setting)
  | repeated (s : Setting)
deriving DecidableEq, Repr

namespace UsageError

def usageLine (parts : String) : String := "Usage: whelk " ++ parts ++ "\n\n"

def usage (used : List Switch) : String :=
  match used with
  | [] => usageLine "[OPTIONS]"
  | used => usageLine (" ".intercalate (used.map Switch.shown))

def helpUsage (used : Bool) : String :=
  usageLine (if used then
    Switch.help.shown ++ " <" ++ "|".intercalate (Setting.all.map Setting.shown) ++ ">"
  else Switch.help.shown)

def tip : Option Switch → String
  | some (.set s) =>
      match (Switch.set s).long? with
      | some long => "  tip: a similar argument exists: '--" ++ long ++ "'\n\n"
      | none => ""
  | some .help => "  tip: a similar argument exists: '--help'\n\n"
  | none => ""

def reason : UsageError → String
  | unexpected arg meant used =>
      "unexpected argument '" ++ Text.plain arg ++ "' found\n\n" ++ tip meant ++ usage used
  | unexpectedValue value used =>
      "unexpected value '" ++ Text.plain value ++ "' for '--help' found; no more were expected\n\n" ++
        helpUsage used
  | missingValue s => "a value is required for '" ++ s.shown ++ "' but none was supplied\n\n"
  | repeated s =>
      "the argument '" ++ s.shown ++ "' cannot be used multiple times\n\n" ++ usage []

def message (e : UsageError) : String :=
  "error: " ++ e.reason ++ "For more information, try '--help'.\n"

end UsageError

structure Invocation where
  project : Option String := none
  save : Option String := none
  limits : Option String := none
  command : Option String := none
deriving DecidableEq, Repr

inductive Request
  | help
  | run (i : Invocation)
deriving DecidableEq, Repr

structure Draft where
  given : List (Setting × String) := []
  named : Option (Setting × Option String) := none
deriving DecidableEq, Repr

namespace Draft

def used (d : Draft) : List Switch := d.given.map (fun e => .set e.1)

def has (d : Draft) (s : Setting) : Bool := d.given.any (fun e => e.1 = s)

def value? (d : Draft) (s : Setting) : Option String :=
  (d.given.find? (fun e => e.1 = s)).map Prod.snd

def settle (d : Draft) : Option UsageError × Draft :=
  match d.named with
  | none => (none, d)
  | some (s, none) => (some (.missingValue s), ⟨d.given, none⟩)
  | some (s, some value) =>
      if d.has s then (some (.repeated s), ⟨d.given.filter (fun e => e.1 ≠ s), none⟩)
      else
        (if s.accepts value then none else some (.missingValue s), ⟨d.given ++ [(s, value)], none⟩)

def settled (d : Draft) : Except UsageError Draft :=
  match d.settle with
  | (none, d) => .ok d
  | (some e, _) => .error e

def name (d : Draft) (s : Setting) (value : Option String) : Except UsageError Draft := do
  let d ← d.settled
  let d : Draft := { d with named := some (s, value) }
  if value.isSome then d.settled else pure d

def finish (d : Draft) : Except UsageError Request := do
  let d ← d.settled
  pure (.run ⟨d.value? .project, d.value? .save, d.value? .limits, d.value? .command⟩)

def askHelp (d : Draft) : Except UsageError Request := do
  discard d.settled
  pure .help

def refuseLong (d : Draft) (long : String) : UsageError :=
  let used := d.settle.2.used
  match Switch.nearest? long with
  | some s =>
      .unexpected ("--" ++ long) (some s) (if used.contains s then used else used ++ [s])
  | none => .unexpected ("--" ++ long) none used

end Draft

inductive Argument
  | stop
  | long (name : String) (value : Option String)
  | short (c : Char) (attached : List Char)
  | plain
deriving DecidableEq, Repr

namespace Argument

def ofChars : List Char → Argument
  | ['-', '-'] => stop
  | '-' :: '-' :: cs =>
      match Text.cutAt '=' cs with
      | some (name, value) => long (String.ofList name) (some (String.ofList value))
      | none => long (String.ofList cs) none
  | '-' :: c :: cs => short c cs
  | _ => plain

def attachedValue : List Char → Option String
  | [] => none
  | '=' :: cs => some (String.ofList cs)
  | cs => some (String.ofList cs)

end Argument

def readFrom (d : Draft) : List String → Except UsageError Request
  | [] => d.finish
  | arg :: rest => do
      match Argument.ofChars arg.toList with
      | .stop =>
          match rest with
          | [] => d.finish
          | operand :: _ => .error (.unexpected operand none [])
      | .long name value =>
          match Switch.ofLong? name, value with
          | some (.set s), value => readFrom (← d.name s value) rest
          | some .help, none => d.askHelp
          | some .help, some value => .error (.unexpectedValue value (!d.given.isEmpty))
          | none, _ => .error (d.refuseLong name)
      | .short c attached =>
          match c with
          | 'c' => readFrom (← d.name .command (Argument.attachedValue attached)) rest
          | 'h' => d.askHelp
          | c => .error (.unexpected ("-" ++ String.singleton c) none [])
      | .plain =>
          match d.named with
          | some (s, none) => readFrom { d with named := some (s, some arg) } rest
          | _ => .error (.unexpected arg none [])

def Request.ofArguments (args : List String) : Except UsageError Request := readFrom {} args

def helpText : String :=
  "Run shell commands against an in-memory project

Usage: whelk [OPTIONS]

Options:
      --project <PROJECT>  JSON object of path -> content to seed the session with
      --save <SAVE>        Write the final files back as a JSON object of path -> content
      --limits <LIMITS>    JSON file with resource limits
  -c <COMMAND>             Command line to execute; stdin is read line by line when absent
  -h, --help               Print help
"

end ProjectShell.CommandLine
