import ProjectShell.Command.Files
import ProjectShell.Command.Find
import ProjectShell.Command.Grep
import ProjectShell.Command.Lines
import ProjectShell.Command.Listing
import ProjectShell.Command.Sed
import ProjectShell.Command.Session
import ProjectShell.Command.Xargs

namespace ProjectShell

inductive Builtin
  | ls
  | cat
  | head
  | tail
  | grep
  | find
  | wc
  | echo
  | rm
  | mv
  | cp
  | touch
  | mkdir
  | tree
  | stat
  | sed
  | sort
  | uniq
  | tee
  | xargs
  | npm
  | project
  | errors
  | deps
  | plan
  | undo
  | pwd
  | cd
  | true
  | false
  | help
deriving DecidableEq, Repr

namespace Builtin

def all : List Builtin :=
  [ls, cat, head, tail, grep, find, wc, echo, rm, mv, cp, touch, mkdir, tree, stat, sed, sort,
    uniq, tee, xargs, npm, project, errors, deps, plan, undo, pwd, cd, true, false, help]

def name : Builtin → String
  | ls => "ls"
  | cat => "cat"
  | head => "head"
  | tail => "tail"
  | grep => "grep"
  | find => "find"
  | wc => "wc"
  | echo => "echo"
  | rm => "rm"
  | mv => "mv"
  | cp => "cp"
  | touch => "touch"
  | mkdir => "mkdir"
  | tree => "tree"
  | stat => "stat"
  | sed => "sed"
  | sort => "sort"
  | uniq => "uniq"
  | tee => "tee"
  | xargs => "xargs"
  | npm => "npm"
  | project => "project"
  | errors => "errors"
  | deps => "deps"
  | plan => "plan"
  | undo => "undo"
  | pwd => "pwd"
  | cd => "cd"
  | true => "true"
  | false => "false"
  | help => "help"

def usage : Builtin → String
  | ls => "ls [-l] [DIR|FILE...]  list files"
  | cat => "cat [-n] [FILE...]  print file contents"
  | head => "head [-n N | -N] [FILE...]  first lines"
  | tail => "tail [-n N | -N | -n +N] [FILE...]  last lines"
  | grep =>
      "grep [-icvnlwFHh] [-m N] [--include GLOB] PATTERN [FILE|DIR...]  search contents"
  | find => "find [DIR] [-name GLOB] [-iname GLOB] [-type f|d]  find files by name"
  | wc => "wc [-lwc] [FILE...]  count lines, words and characters"
  | echo => "echo [-n] [-e] [TEXT...]  print text"
  | rm => "rm [-rf] FILE...  delete files"
  | mv => "mv SRC... DST  move or rename"
  | cp => "cp [-r] SRC... DST  copy files"
  | touch => "touch FILE...  create empty files"
  | mkdir => "mkdir [-p] DIR...  accepted for compatibility; directories are implicit"
  | tree => "tree [DIR]  show the directory tree"
  | stat => "stat FILE...  show file details"
  | sed => "sed [-i] 's/PAT/REPL/[gi]' | '/PAT/d' [FILE...]  edit lines"
  | sort => "sort [-rnuf] [FILE...]  sort lines"
  | uniq => "uniq [-cd] [FILE...]  collapse repeated lines"
  | tee => "tee [-a] FILE...  copy stdin to files"
  | xargs => "xargs [-n N] [-I STR] [CMD [ARG...]]  run CMD for each stdin word"
  | npm => "npm install|uninstall|list [PKG[@VERSION]...]  manage package.json dependencies"
  | project => "project  summarize the project"
  | errors => "errors [clear]  show or clear reported errors"
  | deps => "deps  list dependencies"
  | plan => "plan [start|done|reset ID]  show or update the task plan"
  | undo => "undo  revert the last file change"
  | pwd => "pwd  print the working directory"
  | cd => "cd [DIR]  accepted for compatibility; the working directory is fixed"
  | true => "true  succeed"
  | false => "false  fail"
  | help => "help [CMD]  list commands or show one command's usage"

def ofName? (s : String) : Option Builtin := all.find? (fun b => b.name = s)

theorem mem_all (b : Builtin) : b ∈ all := by cases b <;> decide

theorem ofName?_name (b : Builtin) : ofName? b.name = some b := by cases b <;> decide

def helpOutcome (args : List String) : Outcome :=
  match args with
  | [] => (Report.lines ("Available commands:" :: all.map (fun b => "  " ++ b.usage))).outcome
  | topic :: _ =>
      match ofName? topic with
      | some b => .ok b.usage
      | none => .failure ("help: no help topics match '" ++ topic ++ "'")

def run (inner : String → List String → Script Outcome) (b : Builtin) (args : List String)
    (stdin : Option String) : Attempt Outcome :=
  match b with
  | ls => Attempt.read (Command.ls args)
  | cat => Attempt.read (Command.cat args stdin)
  | head => Attempt.read (Command.Edge.head.run args stdin)
  | tail => Attempt.read (Command.Edge.tail.run args stdin)
  | grep => Attempt.read (Command.Grep.run args stdin)
  | find => Attempt.read (Command.Find.run args)
  | wc => Attempt.read (Command.wc args stdin)
  | echo => pure (Command.echo args)
  | rm => Command.rm args
  | mv => .safely (Command.Transfer.move.run args)
  | cp => .safely (Command.Transfer.copy.run args)
  | touch => .safely (Command.touch args)
  | mkdir => pure {}
  | tree => Attempt.read (Command.tree args)
  | stat => Attempt.read (Command.stat args)
  | sed => Command.Sed.run args stdin
  | sort => Attempt.read (Command.sort args stdin)
  | uniq => Attempt.read (Command.uniq args stdin)
  | tee => .safely (Command.tee args stdin)
  | xargs => .safely (Command.Xargs.run inner args stdin)
  | npm => .safely (Command.Npm.run args)
  | project => Attempt.read Command.project
  | errors => .safely (Command.errors args)
  | deps => Attempt.read Command.deps
  | plan => .safely (Command.plan args)
  | undo => .safely Command.undo
  | pwd => Attempt.read (fun v => Outcome.ok v.workingDir)
  | cd => pure {}
  | true => pure {}
  | false => pure ⟨"", "", 1⟩
  | help => pure (helpOutcome args)

end Builtin

def guarded (name : String) (x : Attempt Outcome) : Script Outcome := do
  match ← x.run with
  | .ok o => pure o
  | .error e => pure (.failure (name ++ ": internal error: " ++ e.message))

def dispatchWith (inner : String → List String → Script Outcome) (name : String)
    (args : List String) (stdin : Option String) : Script Outcome :=
  match Builtin.ofName? name with
  | none => pure (.failure (name ++ ": command not found"))
  | some b => guarded name (b.run inner args stdin)

def dispatchInner (name : String) (args : List String) : Script Outcome :=
  dispatchWith (fun _ _ => pure {}) name args none

def dispatch (name : String) (args : List String) (stdin : Option String) : Script Outcome :=
  dispatchWith dispatchInner name args stdin

end ProjectShell
