import ProjectShell.Command.Options
import ProjectShell.Command.Report
import ProjectShell.Text.Blank

namespace ProjectShell.Command

def lsTable : OptionTable where
  flags := [.switch 'l' "long", .switch 'a' "all", .switch 'R' "recursive",
    .switch '1' "one-per-line"]

def lsLine (long : Bool) (f : File) : String :=
  if long then Text.padLeft 8 (toString f.size) ++ "  " ++ f.language.name ++ "  " ++ f.path
  else f.path

def lsTarget (v : View) (long alone : Bool) (target : String) : Report :=
  match v.files.read? target with
  | some f => .line (lsLine long f)
  | none =>
      match Path.normalizeDir target with
      | .error _ => .error ("ls: cannot access '" ++ target ++ "': No such file or directory")
      | .ok dir =>
          let listed := v.files.values.filter (fun f => Path.under dir f.path)
          if listed.isEmpty then
            if alone && dir.isEmpty then .line "No files" else .line ("No files in " ++ target)
          else .lines (listed.map (lsLine long))

def ls (args : List String) (v : View) : Outcome :=
  let o := lsTable.parse args
  let targets := if o.operands.isEmpty then ["."] else o.operands
  (Report.concat (targets.map (lsTarget v (o.has "long") (targets.length = 1)))).outcome

def catTable : OptionTable where
  flags := [.switch 'n' "number"]

/-- Input that names nothing but files stands for the files. -/
def catOperands (v : View) (operands : List String) (stdin : Option String) : List String :=
  match operands, stdin with
  | [], some input =>
      let named := ((Text.linesOf input).map Text.trimmed).filter (fun l => !l.isEmpty)
      if !named.isEmpty && named.all v.files.hasFile then named else []
  | operands, _ => operands

def numberedLines (first : Nat) : List String → List String
  | [] => []
  | l :: ls => (Text.padLeft 6 (toString first) ++ "\t" ++ l) :: numberedLines (first + 1) ls

def numberedTexts (first : Nat) : List String → List String
  | [] => []
  | t :: ts =>
      let ls := Text.linesOf t
      "\n".intercalate (numberedLines first ls) :: numberedTexts (first + ls.length) ts

def cat (args : List String) (stdin : Option String) (v : View) : Outcome :=
  let o := catTable.parse args
  let (found, missing) := v.sources "cat" (catOperands v o.operands stdin) stdin
  let texts := (found.map (fun s => Text.trimNewline s.text)).filter (fun t => !t.isEmpty)
  (missing ++ .lines (if o.has "number" then numberedTexts 1 texts else texts)).outcome

inductive Tree
  | node (children : List (String × Tree))

namespace Tree

def leaf : Tree := .node []

def children : Tree → List (String × Tree)
  | node cs => cs

def updateChild (name : String) (f : Tree → Tree) : List (String × Tree) → List (String × Tree)
  | [] => [(name, f leaf)]
  | (n, t) :: rest =>
      if name < n then (name, f leaf) :: (n, t) :: rest
      else if n = name then (n, f t) :: rest
      else (n, t) :: updateChild name f rest

def insert : List String → Tree → Tree
  | [], t => t
  | segment :: segments, t => node (updateChild segment (insert segments) t.children)

structure Drawing where
  lines : List String := []
  dirs : Nat := 0
  files : Nat := 0

mutual

def draw (indent : String) : Tree → Drawing
  | node cs => drawChildren indent cs

def drawChildren (indent : String) : List (String × Tree) → Drawing
  | [] => {}
  | (name, child) :: rest =>
      let here := indent ++ (if rest.isEmpty then "└── " else "├── ") ++ name
      let below := draw (indent ++ (if rest.isEmpty then "    " else "│   ")) child
      let others := drawChildren indent rest
      let isFile := child.children.isEmpty
      ⟨here :: below.lines ++ others.lines,
        below.dirs + others.dirs + (if isFile then 0 else 1),
        below.files + others.files + (if isFile then 1 else 0)⟩

end

end Tree

def segmentsBelow (dir key : String) : List String :=
  Text.piecesOf '/'
    (String.ofList (key.toList.drop (if dir.isEmpty then 0 else dir.length + 1)))

def plural (count : Nat) (one many : String) : String :=
  toString count ++ " " ++ (if count = 1 then one else many)

def tree (args : List String) (v : View) : Outcome :=
  let dir := (args.find? (fun a => !Text.startsWith "-" a)).getD "."
  match v.existingDir? dir with
  | none => .failure ("tree: " ++ dir ++ ": No such file or directory")
  | some key =>
      let root : Tree :=
        (v.files.pathsUnder key).foldl (fun t p => t.insert (segmentsBelow key p)) Tree.leaf
      let drawing := root.draw ""
      .ok ("\n".intercalate ((if key.isEmpty then "." else key) :: drawing.lines ++
        ["", plural drawing.dirs "directory" "directories" ++ ", " ++
          plural drawing.files "file" "files"]))

def statOperand (v : View) (operand : String) : Report :=
  match v.files.read? operand with
  | some f =>
      .line ("  File: " ++ f.path ++ "\n  Size: " ++ toString f.size ++ " bytes\n Lines: " ++
        toString f.lineCount ++ "\n  Type: " ++ f.language.name ++ "\nModify: " ++
        f.modified.text)
  | none =>
      match v.existingDir? operand with
      | some key =>
          .line ("  File: " ++ (if key.isEmpty then "." else key) ++
            "/\n  Type: directory\n Files: " ++ toString (v.files.pathsUnder key).length)
      | none => .error ("stat: cannot stat '" ++ operand ++ "': No such file or directory")

def stat (args : List String) (v : View) : Outcome :=
  if args.isEmpty then (Report.error "stat: missing operand").outcome
  else (Report.concat (args.map (statOperand v))).outcome

end ProjectShell.Command
