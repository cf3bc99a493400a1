import ProjectShell.FileStore.Error
import ProjectShell.Text.Blank
import ProjectShell.Text.Lines
import ProjectShell.Text.Substring

namespace ProjectShell.Path

open Text

def segments (cs : List Char) : List (List Char) :=
  (pieces '/' cs).filter (fun s => s ≠ [] && s ≠ ['.'])

def joined (segs : List (List Char)) : List Char := ['/'].intercalate segs

def key? (cs : List Char) : Option (List Char) :=
  let t := trim cs
  if t = [] ∨ t.getLast? = some '/' ∨ '\x00' ∈ t then none
  else
    let segs := segments t
    if ['.', '.'] ∈ segs ∨ segs = [] then none else some (joined segs)

def normalize (path : String) : Except StoreError String :=
  match key? path.toList with
  | some key => .ok (String.ofList key)
  | none => .error (.invalidPath path)

def trimSlashes (cs : List Char) : List Char := (cs.reverse.dropWhile (· = '/')).reverse

def normalizeDir (dir : String) : Except StoreError String :=
  let t := trimSlashes (trim dir.toList)
  if t = [] ∨ t = ['.'] then .ok "" else normalize (String.ofList t)

def under (dir key : String) : Bool :=
  dir.isEmpty ||
    match Text.dropFront dir.toList key.toList with
    | some ('/' :: _) => true
    | _ => false

def baseName (path : String) : String :=
  match cutAtLast '/' path.toList with
  | some (_, name) => String.ofList name
  | none => path

def lastSegment (path : String) : String :=
  baseName (String.ofList (trimSlashes path.toList))

theorem normalize_eq_error {path : String} {e : StoreError} (h : normalize path = .error e) :
    e = .invalidPath path := by
  simp only [normalize] at h
  split at h
  · cases h
  · cases h
    rfl

theorem normalize_eq_ok_iff {path key : String} :
    normalize path = .ok key ↔ key? path.toList = some key.toList := by
  simp only [normalize]
  split
  · rename_i cs hk
    rw [hk]
    constructor
    · intro h
      cases h
      rw [String.toList_ofList]
    · intro h
      rw [Option.some.inj h, String.ofList_toList]
  · rename_i hk
    simp [hk]

end ProjectShell.Path
