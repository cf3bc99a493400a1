import Std.Data.TreeSet.Basic
import ProjectShell.Regex.Parser
import ProjectShell.Regex.Program
/-!
Running a program over a text. Of the ways through the program the first one that accepts
counts, where earlier starts come first and then the order of choices; a place in program and
text that was reached before is not entered again.
-/

namespace ProjectShell.Regex

structure Place where
  before : Option Char
  rest : List Char
  pos : Nat
deriving DecidableEq, Repr

namespace Place

def start (cs : List Char) : Place := ⟨none, cs, 0⟩

def step (p : Place) : Place :=
  match p.rest with
  | [] => p
  | c :: cs => ⟨some c, cs, p.pos + 1⟩

end Place

abbrev Slots := List (Option Nat)

structure Thread where
  pc : Nat
  place : Place
  slots : Slots

def Inst.successors (i : Inst) (t : Thread) : List Thread :=
  match i with
  | jump next => [{ t with pc := next }]
  | char c next =>
      match t.place.rest with
      | d :: _ => if c = d then [⟨next, t.place.step, t.slots⟩] else []
      | [] => []
  | set s next =>
      match t.place.rest with
      | d :: _ => if s.contains d then [⟨next, t.place.step, t.slots⟩] else []
      | [] => []
  | look l next => if l.holds t.place.before t.place.rest.head? then [{ t with pc := next }] else []
  | save slot next => [⟨next, t.place, t.slots.set slot (some t.place.pos)⟩]
  | split targets => targets.map (fun pc => { t with pc })
  | accept => []

abbrev Seen := Std.TreeSet Nat

/-- `width` is more than any position in the text. -/
def Thread.key (width : Nat) (t : Thread) : Nat := t.pc * width + t.place.pos

def explore (program : Array Inst) (width : Nat) : Nat → List Thread → Seen → Option Slots × Seen
  | 0, _, seen => (none, seen)
  | _ + 1, [], seen => (none, seen)
  | fuel + 1, t :: rest, seen =>
      if seen.contains (t.key width) then explore program width fuel rest seen
      else
        let seen := seen.insert (t.key width)
        match program[t.pc]? with
        | none => explore program width fuel rest seen
        | some .accept => (some t.slots, seen)
        | some i => explore program width fuel (i.successors t ++ rest) seen

end ProjectShell.Regex

namespace ProjectShell

structure Regex where
  source : List Char
  program : Array Regex.Inst
  groupCount : Nat

namespace Regex

def compile? (source : List Char) (ignoreCase : Bool) : Option Regex :=
  match Node.parse source ignoreCase with
  | none => none
  | some node =>
      if node.programCost ≤ Node.maxProgramCost then
        some ⟨source, node.program.toArray, node.lastGroup + 1⟩
      else none

def stepBound (r : Regex) (width : Nat) : Nat :=
  width * (r.program.foldl (fun n i => n + i.arity) 0) + 2

def seek (r : Regex) (width bound : Nat) : List Char → Option Char → Nat → Seen → Option Slots
  | [], before, pos, seen =>
      (explore r.program width bound
        [⟨0, ⟨before, [], pos⟩, List.replicate (2 * r.groupCount) none⟩] seen).1
  | c :: cs, before, pos, seen =>
      match explore r.program width bound
          [⟨0, ⟨before, c :: cs, pos⟩, List.replicate (2 * r.groupCount) none⟩] seen with
      | (some slots, _) => some slots
      | (none, seen) => seek r width bound cs (some c) (pos + 1) seen

structure Match where
  first : Nat
  last : Nat
  groups : List (Option (Nat × Nat))
deriving DecidableEq, Repr

def spans : Slots → List (Option (Nat × Nat))
  | some first :: some last :: rest => some (first, last) :: spans rest
  | _ :: _ :: rest => none :: spans rest
  | _ => []

def Match.ofSlots (slots : Slots) : Option Match :=
  match spans slots with
  | some (first, last) :: groups => some ⟨first, last, groups⟩
  | _ => none

def findFrom (r : Regex) (width : Nat) (p : Place) : Option Match :=
  (seek r width (r.stepBound width) p.rest p.before p.pos ∅).bind Match.ofSlots

def find? (r : Regex) (cs : List Char) : Option Match :=
  r.findFrom (cs.length + 1) (Place.start cs)

def isMatch (r : Regex) (cs : List Char) : Bool := (r.find? cs).isSome

def advance (target : Nat) : List Char → Option Char → Nat → Place
  | [], before, pos => ⟨before, [], pos⟩
  | c :: rest, before, pos =>
      if pos < target then advance target rest (some c) (pos + 1) else ⟨before, c :: rest, pos⟩

def matchesFrom (r : Regex) (width : Nat) (lastEnd : Option Nat) (p : Place) : Nat → List Match
  | 0 => []
  | fuel + 1 =>
      match r.findFrom width p with
      | none => []
      | some m =>
          let goOn (m : Match) : List Match :=
            m :: matchesFrom r width (some m.last) (advance m.last p.rest p.before p.pos) fuel
          if m.first = m.last ∧ lastEnd = some m.last then
            match p.rest with
            | [] => []
            | _ :: _ =>
                match r.findFrom width p.step with
                | none => []
                | some m => goOn m
          else goOn m

def findAll (r : Regex) (cs : List Char) : List Match :=
  r.matchesFrom (cs.length + 1) none (Place.start cs) (cs.length + 2)

end Regex

end ProjectShell
