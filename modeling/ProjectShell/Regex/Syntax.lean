import ProjectShell.Regex.CharSet

namespace ProjectShell.Regex

inductive Look
  | start
  | stop
  | startLine
  | stopLine
  | startCrlf
  | stopCrlf
  | wordBoundary
  | noWordBoundary
  | wordStart
  | wordStop
  | wordStartHalf
  | wordStopHalf
deriving DecidableEq, Repr

def isWord (c : Char) : Bool := c.isAlphanum || c = '_'

def atWord : Option Char → Bool
  | none => false
  | some c => isWord c

def Look.holds (before after : Option Char) : Look → Bool
  | start => before.isNone
  | stop => after.isNone
  | startLine => before.isNone || before = some '\n'
  | stopLine => after.isNone || after = some '\n'
  | startCrlf =>
      before.isNone || before = some '\n' || (before = some '\r' && after ≠ some '\n')
  | stopCrlf => after.isNone || after = some '\r' || (after = some '\n' && before ≠ some '\r')
  | wordBoundary => atWord before != atWord after
  | noWordBoundary => atWord before == atWord after
  | wordStart => !atWord before && atWord after
  | wordStop => atWord before && !atWord after
  | wordStartHalf => !atWord before
  | wordStopHalf => !atWord after

inductive Node
  | empty
  | char (c : Char)
  | set (s : CharSet)
  | look (l : Look)
  | loop (min : Nat) (max : Option Nat) (greedy : Bool) (sub : Node)
  | group (index : Nat) (name : Option String) (sub : Node)
  | concat (subs : List Node)
  | alternate (subs : List Node)
deriving Repr, Inhabited

namespace Node

def ofSequence : List Node → Node
  | [] => empty
  | [n] => n
  | ns => concat ns

def ofBranches : List Node → Node
  | [n] => n
  | ns => alternate ns

def ofLoop (min : Nat) (max : Option Nat) (greedy : Bool) (sub : Node) : Node :=
  if min = 0 ∧ max = some 0 then empty
  else if min = 1 ∧ max = some 1 then sub
  else loop min max greedy sub

mutual

def canBeEmpty : Node → Bool
  | empty => true
  | char _ => false
  | set _ => false
  | look _ => true
  | loop min _ _ sub => min = 0 || canBeEmpty sub
  | group _ _ sub => canBeEmpty sub
  | concat subs => allCanBeEmpty subs
  | alternate subs => anyCanBeEmpty subs

def allCanBeEmpty : List Node → Bool
  | [] => true
  | n :: ns => canBeEmpty n && allCanBeEmpty ns

def anyCanBeEmpty : List Node → Bool
  | [] => false
  | n :: ns => canBeEmpty n || anyCanBeEmpty ns

end

mutual

def depth : Node → Nat
  | loop _ _ _ sub => depth sub + 1
  | group _ _ sub => depth sub + 1
  | concat subs => depths subs
  | alternate subs => depths subs
  | _ => 0

def depths : List Node → Nat
  | [] => 0
  | n :: ns => max (depth n + 1) (depths ns)

end

mutual

def groups : Node → List (Nat × Option String)
  | loop _ _ _ sub => groups sub
  | group index name sub => (index, name) :: groups sub
  | concat subs => groupsIn subs
  | alternate subs => groupsIn subs
  | _ => []

def groupsIn : List Node → List (Nat × Option String)
  | [] => []
  | n :: ns => groups n ++ groupsIn ns

end

end Node

end ProjectShell.Regex
