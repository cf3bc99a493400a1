import ProjectShell.SortedMap
import ProjectShell.Text.Lines
import ProjectShell.Text.Substring
/-!
A folder that holds files and no further folders. There are folders around it, and what they hold
is not known: no file is read from there, and what is written there is out of sight.
-/

namespace ProjectShell.CommandLine

structure Folder where
  files : SortedMap String

inductive FileFault
  | missing
  | insideFile
  | isFolder
  | longName
deriving DecidableEq, Repr

namespace FileFault

def all : List FileFault := [missing, insideFile, isFolder, longName]

theorem mem_all (e : FileFault) : e ∈ all := by cases e <;> decide

def code : FileFault → Nat
  | missing => 2
  | insideFile => 20
  | isFolder => 21
  | longName => 36

def reason : FileFault → String
  | missing => "No such file or directory"
  | insideFile => "Not a directory"
  | isFolder => "Is a directory"
  | longName => "File name too long"

def ofCode? (n : Nat) : Option FileFault := all.find? (fun e => e.code = n)

theorem ofCode?_code (e : FileFault) : ofCode? e.code = some e := by cases e <;> rfl

def message (e : FileFault) : String := e.reason ++ " (os error " ++ toString e.code ++ ")"

end FileFault

/-- The longest path, and the longest name in it, in bytes. -/
def maxPathSize : Nat := 4095

def maxNameSize : Nat := 255

/-- What a path leads to: a folder, or a name, known only if the folder itself holds it. A slash
behind the name asks for a folder. -/
inductive Place
  | folder
  | entry (known : Bool) (name : String) (asFolder : Bool)
deriving DecidableEq, Repr

namespace Folder

def holds (f : Folder) (known : Bool) (name : String) : Bool := known && f.files.contains name

def obstacle (f : Folder) (known : Bool) (name : String) : FileFault :=
  if maxNameSize < name.utf8ByteSize then .longName
  else if f.holds known name then .insideFile
  else .missing

def follow (f : Folder) (asFolder known : Bool) : List String → Except FileFault Place
  | [] => .ok .folder
  | s :: rest =>
      if s = "." then f.follow asFolder known rest
      else if s = ".." then f.follow asFolder false rest
      else if rest = [] then .ok (.entry known s asFolder)
      else .error (f.obstacle known s)

def locate (f : Folder) (path : String) : Except FileFault Place :=
  if path.isEmpty then .error .missing
  else if maxPathSize < path.utf8ByteSize then .error .longName
  else
    f.follow (Text.endsWith "/" path) (!Text.startsWith "/" path)
      ((Text.piecesOf '/' path).filter (· ≠ ""))

def read (f : Folder) (path : String) : Except FileFault String := do
  match ← f.locate path with
  | .folder => throw .isFolder
  | .entry known name asFolder =>
      match f.files.get? name with
      | some text =>
          if !known || asFolder then throw (f.obstacle known name)
          pure text
      | none => throw (f.obstacle known name)

def write (f : Folder) (path text : String) : Except FileFault Folder := do
  match ← f.locate path with
  | .folder => throw .isFolder
  | .entry known name asFolder =>
      if asFolder then throw .isFolder
      if maxNameSize < name.utf8ByteSize then throw .longName
      pure (if known then ⟨f.files.insert name text⟩ else f)

end Folder

end ProjectShell.CommandLine
