import ProjectShell.FileStore.Basic
import ProjectShell.Glob.PathPattern

namespace ProjectShell

structure SearchOptions where
  regex : Bool := false
  caseSensitive : Bool := false
  pathGlob : Option String := none
  maxResults : Option Nat := none
deriving DecidableEq, Repr

namespace SearchOptions

def setFlag? (v : Json) (set : Bool → SearchOptions) : Option SearchOptions :=
  match v with
  | .bool b => some (set b)
  | _ => none

def setRegex? (o : SearchOptions) (v : Json) : Option SearchOptions :=
  setFlag? v (fun b => { o with regex := b })

def setCaseSensitive? (o : SearchOptions) (v : Json) : Option SearchOptions :=
  setFlag? v (fun b => { o with caseSensitive := b })

def setPathGlob? (o : SearchOptions) (v : Json) : Option SearchOptions :=
  match v with
  | .str s => some { o with pathGlob := some s }
  | .null => some { o with pathGlob := none }
  | _ => none

def setMaxResults? (o : SearchOptions) (v : Json) : Option SearchOptions :=
  match v with
  | .num (.whole n) => some { o with maxResults := some n }
  | .null => some { o with maxResults := none }
  | _ => none

def setField? (o : SearchOptions) (name : String) (v : Json) : Option SearchOptions :=
  match name with
  | "regex" => o.setRegex? v
  | "case_sensitive" => o.setCaseSensitive? v
  | "path_glob" => o.setPathGlob? v
  | "max_results" => o.setMaxResults? v
  | _ => some o

def setFields? (o : SearchOptions) : List (String × Json) → Option SearchOptions
  | [] => some o
  | (name, v) :: rest => do setFields? (← o.setField? name v) rest

def ofJson? : Json → Option SearchOptions
  | .obj members => setFields? {} members
  | .arr elements =>
      if elements.length ≤ 4 then
        setFields? {} (["regex", "case_sensitive", "path_glob", "max_results"].zip elements)
      else none
  | _ => none

end SearchOptions

structure SearchMatch where
  path : String
  lineNumber : Nat
  line : String
deriving DecidableEq, Repr

namespace FileStore

def matchingLines (r : Regex) (path : String) (number : Nat) : List String → List SearchMatch
  | [] => []
  | line :: rest =>
      if r.isMatch line.toList then ⟨path, number, line⟩ :: matchingLines r path (number + 1) rest
      else matchingLines r path (number + 1) rest

def allMatches (r : Regex) (filter : String → Bool) (files : List File) : List SearchMatch :=
  (files.filter (fun f => filter f.path)).flatMap (fun f => matchingLines r f.path 1 f.lines)

/-- At least one match is kept, whatever the cap. -/
def search (s : FileStore) (query : String) (o : SearchOptions) : List SearchMatch :=
  if query.isEmpty then []
  else
    let pattern := if o.regex then query.toList else Regex.escape query.toList
    match Regex.compileLenient pattern (!o.caseSensitive) with
    | none => []
    | some r =>
        let accepts : String → Bool :=
          match o.pathGlob.map PathPattern.new with
          | some glob => glob.isMatch
          | none => fun _ => true
        (allMatches r accepts s.files.values).take
          (max 1 (o.maxResults.getD s.limits.maxSearchResults))

end FileStore

end ProjectShell
