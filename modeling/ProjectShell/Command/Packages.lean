import ProjectShell.Command.Report

namespace ProjectShell.Command

namespace Npm

def spec (cs : List Char) : List Char × Option (List Char) :=
  let cut (lead rest : List Char) : List Char × Option (List Char) :=
    match Text.cutAt '@' rest with
    | some (name, []) => (lead ++ name, none)
    | some (name, version) => (lead ++ name, some version)
    | none => (lead ++ rest, none)
  match cs with
  | '@' :: rest => cut ['@'] rest
  | rest => cut [] rest

def specName (s : String) : String := String.ofList (spec s.toList).1

def specVersion (s : String) : Option String := (spec s.toList).2.map String.ofList

def installOne (installed : SortedMap String) (s : String) : Attempt Report := do
  let name := specName s
  if name.isEmpty then pure (.error ("npm: invalid package name '" ++ s ++ "'"))
  else
    match specVersion s, installed.get? name with
    | none, some pinned => pure (.line (name ++ "@" ++ pinned ++ " already installed"))
    | requested, _ =>
        let version := requested.getD "latest"
        match ← ExceptT.mk (Script.addDependency name version) with
        | .added => pure (.line ("added " ++ name ++ "@" ++ version))
        | .updated previous =>
            pure (.line ("updated " ++ name ++ " from " ++ previous ++ " to " ++ version))
        | .unchanged => pure (.line (name ++ "@" ++ version ++ " already installed"))

def install (packages : List String) : Attempt Report := do
  let installed ← (Script.read (fun v => v.files.dependencies) : Script (SortedMap String))
  if packages.isEmpty then
    pure (.line ("up to date, " ++ toString installed.size ++ " dependencies in " ++
      Manifest.path))
  else Report.forEach (installOne installed) packages

def uninstallOne (s : String) : Attempt Report := do
  let name := specName s
  if ← ExceptT.mk (Script.removeDependency name) then pure (.line ("removed " ++ name))
  else pure (.warning ("npm: " ++ name ++ " is not installed"))

def uninstall (packages : List String) : Attempt Report :=
  if packages.isEmpty then pure (.error "npm: missing package name")
  else Report.forEach uninstallOne packages

def listed (deps : SortedMap String) : List String := deps.entries.map (fun e => e.1 ++ "@" ++ e.2)

def list (v : View) : Report :=
  let ls := listed v.files.dependencies
  .lines (if ls.isEmpty then ["(empty)"] else ls)

def reported (x : Attempt Report) : Script Outcome := do
  match ← x.run with
  | .ok r => pure r.outcome
  | .error e => pure (.failure ("npm: " ++ e.message))

def run (args : List String) : Script Outcome :=
  match args with
  | [] => pure (.failure
      "npm: missing command\nUsage: npm install|uninstall|list [PKG[@VERSION]...]")
  | command :: rest =>
      let packages := rest.filter (fun a => !Text.startsWith "-" a)
      match command with
      | "install" | "i" | "add" => reported (install packages)
      | "uninstall" | "remove" | "rm" | "un" => reported (uninstall packages)
      | "list" | "ls" => Script.read (fun v => (list v).outcome)
      | other => pure (.failure ("npm: unknown command '" ++ other ++ "'"))

end Npm

end ProjectShell.Command
