import ProjectShell.Command.Report
import ProjectShell.Shell.Word
import ProjectShell.Text.Numeral

namespace ProjectShell.Command

namespace Xargs

structure Settings where
  batch : Nat := 1
  marker : Option String := none
  command : List String := []
deriving DecidableEq, Repr

inductive Flag
  | number
  | lines
  | marker
deriving DecidableEq, Repr

def Flag.letter : Flag → Char
  | number => 'n'
  | lines => 'L'
  | marker => 'I'

def flag? (arg : String) : Option (Flag × Option String) :=
  let attached (cs : List Char) : Option String :=
    if cs.isEmpty then none else some (String.ofList cs)
  match arg.toList with
  | '-' :: 'n' :: cs => some (.number, attached cs)
  | '-' :: 'L' :: cs => some (.lines, attached cs)
  | '-' :: 'I' :: cs => some (.marker, attached cs)
  | _ => none

def isIgnored (arg : String) : Bool := ["-r", "--no-run-if-empty", "-0", "-t"].contains arg

def set (s : Settings) (f : Flag) (value : String) : Except String Settings :=
  match f with
  | .marker => .ok { s with marker := some value }
  | f =>
      match Text.parseSize? value with
      | some (n + 1) => .ok { s with batch := n + 1 }
      | _ =>
          .error
            ("xargs: invalid number for -" ++ String.ofList [f.letter] ++ ": '" ++ value ++ "'")

def parseFrom (s : Settings) : List String → Except String Settings
  | [] => .ok { s with command := ["echo"] }
  | arg :: rest =>
      match flag? arg with
      | some (f, some value) =>
          match set s f value with
          | .ok s => parseFrom s rest
          | .error e => .error e
      | some (f, none) =>
          match rest with
          | [] =>
              .error ("xargs: option requires an argument -- '" ++ String.ofList [f.letter] ++ "'")
          | value :: rest =>
              match set s f value with
              | .ok s => parseFrom s rest
              | .error e => .error e
      | none => if isIgnored arg then parseFrom s rest else .ok { s with command := arg :: rest }

def parse (args : List String) : Except String Settings := parseFrom {} args

/-- `room` says how many more words the batch that is being filled takes; it holds its words last
first. -/
def batchesFrom (size : Nat) : Nat → List String → List String → List (List String)
  | _, current, [] => if current.isEmpty then [] else [current.reverse]
  | room, current, w :: ws =>
      if room ≤ 1 then (w :: current).reverse :: batchesFrom size size [] ws
      else batchesFrom size (room - 1) (w :: current) ws

def batches (size : Nat) (ws : List String) : List (List String) := batchesFrom size size [] ws

theorem flatten_batchesFrom (size room : Nat) (current ws : List String) :
    (batchesFrom size room current ws).flatten = current.reverse ++ ws := by
  induction ws generalizing room current with
  | nil =>
      simp only [batchesFrom]
      split
      · simp_all
      · simp
  | cons w ws ih =>
      simp only [batchesFrom]
      split
      · simp [ih]
      · simp [ih]

theorem flatten_batches (size : Nat) (ws : List String) : (batches size ws).flatten = ws := by
  simp [batches, flatten_batchesFrom]

def inputLines (input : String) : List String :=
  ((Text.linesOf input).map Text.trimmed).filter (fun l => !l.isEmpty)

def substitute (marker line word : String) : String :=
  String.ofList (Text.replaceAll marker.toList line.toList word.toList)

def invocations (s : Settings) (input : String) : List (List String) :=
  match s.marker with
  | some marker => (inputLines input).map (fun l => s.command.map (substitute marker l))
  | none => (batches s.batch (wordTexts input)).map (s.command ++ ·)

def runAll (inner : String → List String → Script Outcome) : List (List String) → Script Outcome
  | [] => pure {}
  | [] :: rest => runAll inner rest
  | (name :: args) :: rest => do
      let a ← inner name args
      let b ← runAll inner rest
      pure ⟨joinOutput a.stdout b.stdout, joinOutput a.stderr b.stderr,
        if a.succeeded then b.exitCode else 1⟩

def run (inner : String → List String → Script Outcome) (args : List String)
    (stdin : Option String) : Script Outcome :=
  match parse args with
  | .error message => pure (.failure message)
  | .ok s => do
      let limit ← Script.read View.maxInvocations
      let all := invocations s (stdin.getD "")
      if limit < all.length then
        pure (.failure ("xargs: too many invocations (" ++ toString all.length ++ ", limit " ++
          toString limit ++ ")"))
      else runAll inner all

end Xargs

end ProjectShell.Command
