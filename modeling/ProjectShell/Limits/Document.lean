import ProjectShell.Json.Printer
import ProjectShell.Json.Skipper
import ProjectShell.Limits.Basic
import ProjectShell.Text.Quoted
/-!
Limits from a JSON document: an object with some of the fields, or an array that gives the first
of them in order. What is not given keeps its default.
-/

namespace ProjectShell.Limits

open Json Json.Reading

inductive Field
  | historyDepth
  | maxOutputBytes
  | maxXargsInvocations
  | maxSearchResults
  | workingDir
deriving DecidableEq, Repr

namespace Field

def all : List Field :=
  [historyDepth, maxOutputBytes, maxXargsInvocations, maxSearchResults, workingDir]

def name : Field → String
  | historyDepth => "history_depth"
  | maxOutputBytes => "max_output_bytes"
  | maxXargsInvocations => "max_xargs_invocations"
  | maxSearchResults => "max_search_results"
  | workingDir => "working_dir"

def ofName? (s : String) : Option Field := all.find? (fun f => f.name = s)

theorem ofName?_name (f : Field) : ofName? f.name = some f := by cases f <;> decide

def setNumber (l : Limits) (n : Nat) : Field → Limits
  | historyDepth => { l with historyDepth := n }
  | maxOutputBytes => { l with maxOutputBytes := n }
  | maxXargsInvocations => { l with maxXargsInvocations := n }
  | maxSearchResults => { l with maxSearchResults := n }
  | workingDir => l

def set? (l : Limits) (f : Field) (v : Json) : Option Limits :=
  match f, v with
  | workingDir, .str s => some { l with workingDir := s }
  | workingDir, _ => none
  | f, .num (.whole n) => some (setNumber l n f)
  | _, _ => none

end Field

def ofMembers? (l : Limits) : List (String × Json) → Option Limits
  | [] => some l
  | (key, v) :: rest =>
      match Field.ofName? key with
      | some f => do ofMembers? (← f.set? l v) rest
      | none => ofMembers? l rest

def ofElements? (l : Limits) : List Field → List Json → Option Limits
  | _, [] => some l
  | f :: fields, v :: rest => do ofElements? (← f.set? l v) fields rest
  | [], _ :: _ => none

def ofJson? : Json → Option Limits
  | .obj members => ofMembers? {} members
  | .arr elements => ofElements? {} Field.all elements
  | _ => none

def mismatch {α : Type} (expected : String) (fuel : Nat) : Reading α := do
  let wrong (what : String) : Reading α :=
    fail (.unexpected ("invalid type: " ++ what ++ ", expected " ++ expected))
  let wrongNumber (n : Json.Number) : Reading α :=
    match n with
    | .float bits => wrong ("floating point `" ++ floatText bits ++ "`")
    | n => wrong ("integer `" ++ n.text ++ "`")
  match ← peek with
  | some 'n' => do skip; word ['u', 'l', 'l']; wrong "null"
  | some 't' => do skip; word ['r', 'u', 'e']; wrong "boolean `true`"
  | some 'f' => do skip; word ['a', 'l', 's', 'e']; wrong "boolean `false`"
  | some '-' => do skip; wrongNumber (← number false)
  | some '"' => do wrong ("string " ++ Text.quoted (← string fuel))
  | some '[' => wrong "sequence"
  | some '\x7b' => wrong "map"
  | some c => if c.isDigit then wrongNumber (← number true) else failAhead .expectedValue
  | none => failAhead .expectedValue

def readSize (fuel : Nat) : Reading Nat := do
  let ofNumber (n : Json.Number) : Reading Nat :=
    match n with
    | .whole n => pure n
    | .negative n =>
        fail (.unexpected ("invalid value: integer `-" ++ toString n ++ "`, expected usize"))
    | .float bits =>
        fail (.unexpected ("invalid type: floating point `" ++ floatText bits ++
          "`, expected usize"))
  match ← token with
  | none => failAhead .endOfValue
  | some '-' => do skip; ofNumber (← number false)
  | some c => if c.isDigit then ofNumber (← number true) else mismatch "usize" fuel

def readText (fuel : Nat) : Reading String := do
  match ← token with
  | none => failAhead .endOfValue
  | some '"' => string fuel
  | some _ => mismatch "a string" fuel

def readField (l : Limits) (f : Field) (fuel : Nat) : Reading Limits := do
  match f with
  | .workingDir => return { l with workingDir := ← readText fuel }
  | f => return f.setNumber l (← readSize fuel)

/-- A field given twice is reported behind the white space, and the closing brace, that follow
its second name. -/
def readMembers (l : Limits) (seen : List Field) (first : Bool) : Nat → Reading Limits
  | 0 => fail .endOfObject
  | fuel + 1 => do
      if ← moreMembers first then
        let key ← string fuel
        match Field.ofName? key with
        | none => do
            colon
            skipValue fuel
            readMembers l seen false fuel
        | some f =>
            if f ∈ seen then do
              if (← token) = some '\x7d' then skip
              fail (.unexpected ("duplicate field `" ++ f.name ++ "`"))
            else do
              colon
              readMembers (← readField l f fuel) (f :: seen) false fuel
      else
        skip
        pure l

def finishElements : Reading Unit := do
  match ← token with
  | none => failAhead .endOfList
  | some ']' => skip
  | some ',' => do
      skip
      if (← token) = some ']' then failAhead .trailingComma else failAhead .trailingCharacters
  | some _ => failAhead .trailingCharacters

def readElements (l : Limits) (first : Bool) (fuel : Nat) : List Field → Reading Limits
  | [] => do finishElements; pure l
  | f :: fields => do
      if ← moreElements first then
        readElements (← readField l f fuel) false fuel fields
      else
        skip
        pure l

def readDocument (fuel : Nat) : Reading Limits := do
  let l ← match ← token with
    | none => failAhead .endOfValue
    | some '\x7b' => do skip; readMembers {} [] true fuel
    | some '[' => do skip; readElements {} true fuel Field.all
    | some _ => mismatch "struct ResourceLimits" fuel
  finish
  pure l

def ofText (s : String) : Except ReadError Limits :=
  let cur := Cursor.start s
  (readDocument (2 * cur.rest.length + 2)).run' cur

end ProjectShell.Limits
