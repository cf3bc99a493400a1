import ProjectShell.FileStore.Language
import ProjectShell.SortedMap
import ProjectShell.Timestamp

namespace ProjectShell

structure File where
  path : String
  content : String
  language : Language
  modified : Timestamp
deriving DecidableEq, Repr

namespace File

def new (path content : String) (now : Timestamp) : File :=
  ⟨path, content, Language.ofPath path, now⟩

def size (f : File) : Nat := f.content.utf8ByteSize

def lines (f : File) : List String := Text.linesOf f.content

def lineCount (f : File) : Nat := f.lines.length

end File

abbrev FileMap := SortedMap File

namespace FileMap

def read? (m : FileMap) (path : String) : Option File :=
  match Path.normalize path with
  | .ok key => m.get? key
  | .error _ => none

def hasFile (m : FileMap) (path : String) : Bool := (m.read? path).isSome

def pathsUnder (m : FileMap) (dir : String) : List String := m.keys.filter (Path.under dir)

def isDir (m : FileMap) (dir : String) : Bool :=
  match Path.normalizeDir dir with
  | .ok key => key.isEmpty || !(m.pathsUnder key).isEmpty
  | .error _ => false

def contents (m : FileMap) : SortedMap String := m.mapValues File.content

end FileMap

end ProjectShell
