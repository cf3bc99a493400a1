import ProjectShell.Command.Report
import ProjectShell.Glob.NamePattern
import ProjectShell.Text.Numeral

namespace ProjectShell.Command

namespace Find

inductive Kind
  | file
  | dir
deriving DecidableEq, Repr

structure Query where
  roots : List String := []
  name : Option (NamePattern × Bool) := none
  path : Option NamePattern := none
  kind : Option Kind := none
  maxDepth : Option Nat := none
deriving DecidableEq, Repr

def dropDotSlash : List Char → List Char
  | '.' :: '/' :: cs => dropDotSlash cs
  | cs => cs

def invalidPattern (raw : String) (e : NamePattern.SyntaxError) : String :=
  "find: invalid pattern '" ++ raw ++ "': " ++ e.message

def setPredicate (q : Query) (predicate raw : String) : Except String Query :=
  match predicate with
  | "-name" | "-iname" =>
      match NamePattern.ofString raw with
      | .ok p => .ok { q with name := some (p, predicate = "-iname") }
      | .error e => .error (invalidPattern raw e)
  | "-path" | "-wholename" =>
      match NamePattern.ofString (String.ofList (dropDotSlash raw.toList)) with
      | .ok p => .ok { q with path := some p }
      | .error e => .error (invalidPattern raw e)
  | "-type" =>
      match raw with
      | "f" => .ok { q with kind := some .file }
      | "d" => .ok { q with kind := some .dir }
      | other => .error ("find: Unknown argument to -type: " ++ other)
  | _ =>
      match Text.parseSize? raw with
      | some n => .ok { q with maxDepth := some n }
      | none => .error ("find: invalid -maxdepth value '" ++ raw ++ "'")

def takesOperand (arg : String) : Bool :=
  ["-name", "-iname", "-path", "-wholename", "-type", "-maxdepth"].contains arg

def parseFrom (q : Query) : List String → Except String Query
  | [] => .ok q
  | arg :: rest =>
      if takesOperand arg then
        match rest with
        | [] => .error ("find: missing argument to `" ++ arg ++ "'")
        | raw :: rest =>
            match setPredicate q arg raw with
            | .ok q => parseFrom q rest
            | .error e => .error e
      else if Text.startsWith "-" arg then parseFrom q rest
      else parseFrom { q with roots := q.roots ++ [arg] } rest

def parse (args : List String) : Except String Query :=
  match parseFrom {} args with
  | .ok q => .ok (if q.roots.isEmpty then { q with roots := ["."] } else q)
  | .error e => .error e

def Query.accepts (q : Query) (path : String) (kind : Kind) (depth : Nat) : Bool :=
  q.kind.all (· = kind) && q.maxDepth.all (depth ≤ ·) &&
    q.name.all (fun (p, ignoreCase) => p.isMatch ignoreCase (Path.lastSegment path)) &&
    q.path.all (fun p => p.isMatch false path)

structure Entry where
  path : String
  kind : Kind
  depth : Nat
deriving DecidableEq, Repr

def dirsBetween (before : List Char) (depth : Nat) : List (List Char) → List Entry
  | [] => []
  | [_] => []
  | s :: rest =>
      ⟨String.ofList (before ++ s), .dir, depth⟩ ::
        dirsBetween (before ++ s ++ ['/']) (depth + 1) rest

def entriesOf (dir key : String) : List Entry :=
  let skip := if dir.isEmpty then 0 else dir.length + 1
  let segments := Text.pieces '/' (key.toList.drop skip)
  ⟨key, .file, segments.length⟩ :: dirsBetween (key.toList.take skip) 1 segments

def entriesAt (v : View) (root : String) : List Entry :=
  if v.files.hasFile root then [⟨root, .file, 0⟩]
  else
    (if root.isEmpty then [] else [⟨root, .dir, 0⟩]) ++
      (v.files.pathsUnder root).flatMap (entriesOf root)

def root? (v : View) (operand : String) : Option String :=
  match Path.normalizeDir operand with
  | .ok key => if v.files.isDir key || v.files.hasFile key then some key else none
  | .error _ => none

def rootEntries (v : View) (operand : String) : List Entry × Report :=
  match root? v operand with
  | some root => (entriesAt v root, {})
  | none => ([], .error ("find: '" ++ operand ++ "': No such file or directory"))

def run (args : List String) (v : View) : Outcome :=
  match parse args with
  | .error message => .failure message
  | .ok q =>
      let found := q.roots.map (rootEntries v)
      let kept := (found.flatMap Prod.fst).filter (fun e => q.accepts e.path e.kind e.depth)
      let paths := (SortedMap.ofList (kept.map (fun e => (e.path, ())))).keys
      (Report.concat (found.map Prod.snd) ++ .lines paths).outcome

end Find

end ProjectShell.Command
