import ProjectShell.Command.Options
import ProjectShell.Command.Report
import ProjectShell.Glob.PathPattern
import ProjectShell.Regex.Replace
import ProjectShell.Text.Numeral

namespace ProjectShell.Command

namespace Grep

def table : OptionTable where
  flags := [.switch 'i' "ignore-case", .switch 'v' "invert-match", .switch 'n' "line-number",
    .switch 'c' "count", .switch 'l' "files-with-matches", .switch 'o' "only-matching",
    .switch 'w' "word-regexp", .switch 'F' "fixed-strings", .switch 'E' "extended-regexp",
    .switch 'r' "recursive", .switch 'R' "recursive", .switch 'H' "with-filename",
    .switch 'h' "no-filename", .value 'm' "max-count", .value 'e' "regexp",
    .longValue "include", .longValue "exclude"]

def source (pattern : List Char) (fixed word : Bool) : List Char :=
  let body :=
    if fixed || (Regex.compile? pattern false).isNone then Regex.escape pattern else pattern
  if word then "\\b(?:".toList ++ body ++ ")\\b".toList else body

def regex? (o : Options) (pattern : String) : Option Regex :=
  Regex.compileLenient (source pattern.toList (o.has "fixed-strings") (o.has "word-regexp"))
    (o.has "ignore-case")

structure Input where
  name : Option String
  text : String
deriving DecidableEq, Repr

def named (glob : PathPattern) (path : String) : Bool :=
  glob.isMatch path || glob.isMatch (Path.lastSegment path)

def wanted (o : Options) : String → Bool :=
  let included := (o.value? "include").map PathPattern.new
  let excluded := (o.value? "exclude").map PathPattern.new
  fun path => included.all (named · path) && !excluded.any (named · path)

structure Inputs where
  inputs : List Input := []
  showNames : Bool := false
  missing : Report := {}

def ofFile (f : File) : Input := ⟨some f.path, f.content⟩

def targetInputs (v : View) (keep : String → Bool) (target : String) : Inputs :=
  match v.files.read? target with
  | some f => { inputs := [⟨some target, f.content⟩] }
  | none =>
      match v.existingDir? target with
      | none => { missing := .error ("grep: " ++ target ++ ": No such file or directory") }
      | some dir =>
          { inputs := ((v.files.pathsUnder dir).filter keep).filterMap
              (fun p => (v.files.read? p).map ofFile)
            showNames := true }

def Inputs.join (a b : Inputs) : Inputs :=
  ⟨a.inputs ++ b.inputs, a.showNames || b.showNames, a.missing ++ b.missing⟩

def inputs (v : View) (keep : String → Bool) (targets : List String) (stdin : Option String) :
    Inputs :=
  match targets, stdin with
  | [], some text => { inputs := [⟨none, text⟩] }
  | [], none =>
      { inputs := (v.files.values.filter (fun f => keep f.path)).map ofFile, showNames := true }
  | targets, _ =>
      targets.foldr (fun t rest => (targetInputs v keep t).join rest)
        { showNames := 1 < targets.length }

def shownName (i : Input) : String := i.name.getD "(standard input)"

def lineReport (r : Regex) (o : Options) (showNames : Bool) (i : Input) (l : Nat × String) :
    List String :=
  let lead := (if showNames then shownName i ++ ":" else "") ++
    (if o.has "line-number" then toString l.1 ++ ":" else "")
  if o.has "only-matching" && !o.has "invert-match" then
    (r.matchTexts l.2.toList).map (fun m => lead ++ String.ofList m)
  else [lead ++ l.2]

def scan (r : Regex) (o : Options) (max : Option Nat) (showNames : Bool) (i : Input)
    (number count : Nat) : List String → List String × Nat
  | [] => ([], count)
  | l :: ls =>
      if max.any (· ≤ count) then ([], count)
      else if r.isMatch l.toList = o.has "invert-match" then
        scan r o max showNames i (number + 1) count ls
      else
        let (printed, total) := scan r o max showNames i (number + 1) (count + 1) ls
        if o.has "count" || o.has "files-with-matches" then (printed, total)
        else (lineReport r o showNames i (number, l) ++ printed, total)

def inputReport (r : Regex) (o : Options) (max : Option Nat) (showNames : Bool) (i : Input) :
    List String :=
  let (printed, count) := scan r o max showNames i 1 0 (Text.linesOf i.text)
  printed ++
    if o.has "files-with-matches" then (if 0 < count then [shownName i] else [])
    else if o.has "count" then
      [(if showNames then shownName i ++ ":" else "") ++ toString count]
    else []

def search (o : Options) (pattern : String) (targets : List String) (stdin : Option String)
    (v : View) : Outcome :=
  match regex? o pattern with
  | none => .failure ("grep: pattern too large: " ++ pattern)
  | some r =>
      let max := (o.value? "max-count").map Text.parseSize?
      if max = some none then .failure "grep: invalid max count"
      else
        let i := inputs v (wanted o) targets stdin
        let showNames := (i.showNames || o.has "with-filename") && !o.has "no-filename"
        (i.missing ++ .lines (i.inputs.flatMap (inputReport r o max.join showNames))).outcome

def run (args : List String) (stdin : Option String) (v : View) : Outcome :=
  let o := table.parse args
  match o.value? "regexp", o.operands with
  | some pattern, targets => search o pattern targets stdin v
  | none, pattern :: targets => search o pattern targets stdin v
  | none, [] => .failure "grep: missing pattern\nUsage: grep [OPTION]... PATTERN [FILE]..."

end Grep

end ProjectShell.Command
