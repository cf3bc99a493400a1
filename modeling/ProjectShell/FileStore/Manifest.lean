import ProjectShell.FileStore.Basic
import ProjectShell.Json.Printer
import ProjectShell.Json.Reader

namespace ProjectShell

namespace Manifest

def path : String := "package.json"

def versionText : Json → String
  | .str s => s
  | v => v.compact

def dependenciesIn (members : Json.Members) : Json.Members :=
  match Json.Members.get? "dependencies" members with
  | some (.obj deps) => deps
  | _ => []

def setDependencies (members deps : Json.Members) : Json.Members :=
  Json.Members.insert "dependencies" (.obj deps.sort) members

def versions (deps : Json.Members) : SortedMap String :=
  .ofList (deps.map (fun e => (e.1, versionText e.2)))

def dependenciesOf (text : String) : SortedMap String :=
  match Json.parse text with
  | .ok (.obj members) => versions (dependenciesIn members)
  | _ => ∅

def initial : Json.Members :=
  [("name", .str "project"), ("version", .str "1.0.0"), ("dependencies", .obj [])]

def ofText (text : String) : Except StoreError Json.Members :=
  match Json.parse text with
  | .ok (.obj members) => .ok members
  | .ok _ => .error (.invalidManifest (path ++ ": top level is not an object"))
  | .error e => .error (.invalidManifest (path ++ ": " ++ e.message))

def text (members : Json.Members) : String := (Json.obj members).pretty ++ "\n"

end Manifest

inductive DependencyChange
  | added
  | updated (previous : String)
  | unchanged
deriving DecidableEq, Repr

def FileMap.dependencies (m : FileMap) : SortedMap String :=
  match m.read? Manifest.path with
  | some file => Manifest.dependenciesOf file.content
  | none => ∅

namespace FileStore

def dependencies (s : FileStore) : SortedMap String := s.files.dependencies

def manifest (s : FileStore) : Except StoreError Json.Members :=
  match s.read? Manifest.path with
  | some file => Manifest.ofText file.content
  | none => .ok Manifest.initial

def saveManifest {α : Type} (s : FileStore) (members : Json.Members) (answer : α) :
    Except StoreError α × FileStore :=
  match s.write Manifest.path (Manifest.text members) with
  | (.ok _, s') => (.ok answer, s')
  | (.error e, s') => (.error e, s')

def addDependency (s : FileStore) (name version : String) :
    Except StoreError DependencyChange × FileStore :=
  match s.manifest with
  | .error e => (.error e, s)
  | .ok members =>
      let deps := Manifest.dependenciesIn members
      let save := s.saveManifest (Manifest.setDependencies members
        (deps.insert name (.str version)))
      match deps.get? name with
      | none => save .added
      | some v =>
          if v.str? = some version then (.ok .unchanged, s)
          else save (.updated (Manifest.versionText v))

/-- Yields whether the package was listed. -/
def removeDependency (s : FileStore) (name : String) : Except StoreError Bool × FileStore :=
  if s.hasFile Manifest.path then
    match s.manifest with
    | .error e => (.error e, s)
    | .ok members =>
        let deps := Manifest.dependenciesIn members
        match deps.get? name with
        | none => (.ok false, s)
        | some _ => s.saveManifest (Manifest.setDependencies members (deps.erase name)) true
  else (.ok false, s)

end FileStore

end ProjectShell
