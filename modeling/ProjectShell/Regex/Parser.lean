import ProjectShell.Regex.Syntax
import ProjectShell.Text.Blank
import ProjectShell.Text.Letters
import ProjectShell.Text.Numeral

namespace ProjectShell.Regex

structure Flags where
  ignoreCase : Bool := false
  multiLine : Bool := false
  dotAll : Bool := false
  swapGreed : Bool := false
  crlf : Bool := false
  verbose : Bool := false
deriving DecidableEq, Repr

def Flags.set? (f : Flags) (c : Char) (on : Bool) : Option Flags :=
  match c with
  | 'i' => some { f with ignoreCase := on }
  | 'm' => some { f with multiLine := on }
  | 's' => some { f with dotAll := on }
  | 'U' => some { f with swapGreed := on }
  | 'R' => some { f with crlf := on }
  | 'x' => some { f with verbose := on }
  | 'u' => some f
  | _ => none

structure Scan where
  rest : List Char
  flags : Flags
  nextGroup : Nat := 1
  names : List String := []
deriving DecidableEq, Repr

abbrev Parse := StateT Scan Option

def maxNesting : Nat := 50

def skipComment : List Char → List Char
  | [] => []
  | c :: cs => if c = '\n' then cs else skipComment cs

theorem length_skipComment_le (cs : List Char) : (skipComment cs).length ≤ cs.length := by
  induction cs with
  | nil => simp [skipComment]
  | cons c cs ih =>
      simp only [skipComment]
      split
      · simp
      · simp only [List.length_cons]
        omega

def skipSpace : List Char → List Char
  | [] => []
  | c :: cs =>
      if Text.isBlank c then skipSpace cs
      else if c = '#' then skipSpace (skipComment cs)
      else c :: cs
termination_by cs => cs.length
decreasing_by
  all_goals simp only [List.length_cons]
  · omega
  · have := length_skipComment_le cs
    omega

def peekPast (inComment : Bool) : List Char → Option Char
  | [] => none
  | c :: cs =>
      if Text.isBlank c then peekPast inComment cs
      else if !inComment && c = '#' then peekPast true cs
      else some c

namespace Parse

def peek : Parse (Option Char) := return (← get).rest.head?

def here : Parse Char := do
  match (← get).rest with
  | [] => failure
  | c :: _ => pure c

def bump : Parse Unit := modify (fun s => { s with rest := s.rest.tail })

def space : Parse Unit :=
  modify (fun s => if s.flags.verbose then { s with rest := skipSpace s.rest } else s)

def bumpSpace : Parse Unit := do bump; space

def peekSpace : Parse (Option Char) := do
  let s ← get
  let after := s.rest.tail
  if s.flags.verbose then return (peekPast false after).or after.head? else return after.head?

def expect (c : Char) : Parse Unit := do
  if (← here) = c then bump else failure

def charNode (c : Char) : Parse Node := do
  if (← get).flags.ignoreCase && c.isAlpha then
    return .set (CharSet.single c).foldCase
  else return .char c

def dotNode : Parse Node := do
  let f := (← get).flags
  if f.dotAll then return .set ⟨[(0, CharSet.maxCode)]⟩
  else if f.crlf then return .set (CharSet.ofRuns [(10, 10), (13, 13)]).complement
  else return .set (CharSet.single '\n').complement

def startNode : Parse Node := do
  let f := (← get).flags
  return .look (if f.multiLine then (if f.crlf then .startCrlf else .startLine) else .start)

def stopNode : Parse Node := do
  let f := (← get).flags
  return .look (if f.multiLine then (if f.crlf then .stopCrlf else .stopLine) else .stop)

def digitRuns : List (Nat × Nat) := [(0x30, 0x39)]

def spaceRuns : List (Nat × Nat) := [(9, 13), (0x20, 0x20)]

def wordRuns : List (Nat × Nat) := [(0x30, 0x39), (0x41, 0x5A), (0x5F, 0x5F), (0x61, 0x7A)]

def namedClass? (c : Char) : Option CharSet :=
  match c with
  | 'd' => some ⟨digitRuns⟩
  | 's' => some ⟨spaceRuns⟩
  | 'w' => some ⟨wordRuns⟩
  | 'D' => some (CharSet.complement ⟨digitRuns⟩)
  | 'S' => some (CharSet.complement ⟨spaceRuns⟩)
  | 'W' => some (CharSet.complement ⟨wordRuns⟩)
  | _ => none

def bracketClass? (name : String) : Option CharSet :=
  match name with
  | "alnum" => some ⟨[(0x30, 0x39), (0x41, 0x5A), (0x61, 0x7A)]⟩
  | "alpha" => some ⟨[(0x41, 0x5A), (0x61, 0x7A)]⟩
  | "ascii" => some ⟨[(0, 0x7F)]⟩
  | "blank" => some ⟨[(9, 9), (0x20, 0x20)]⟩
  | "cntrl" => some ⟨[(0, 0x1F), (0x7F, 0x7F)]⟩
  | "digit" => some ⟨digitRuns⟩
  | "graph" => some ⟨[(0x21, 0x7E)]⟩
  | "lower" => some ⟨[(0x61, 0x7A)]⟩
  | "print" => some ⟨[(0x20, 0x7E)]⟩
  | "punct" => some ⟨[(0x21, 0x2F), (0x3A, 0x40), (0x5B, 0x60), (0x7B, 0x7E)]⟩
  | "space" => some ⟨spaceRuns⟩
  | "upper" => some ⟨[(0x41, 0x5A)]⟩
  | "word" => some ⟨wordRuns⟩
  | "xdigit" => some ⟨[(0x30, 0x39), (0x41, 0x46), (0x61, 0x66)]⟩
  | _ => none

def hexDigit? (c : Char) : Option Nat :=
  if c.isDigit then some (c.toNat - 0x30)
  else if 'a' ≤ c && c ≤ 'f' then some (c.toNat - 0x61 + 10)
  else if 'A' ≤ c && c ≤ 'F' then some (c.toNat - 0x41 + 10)
  else none

def charOfCode (n : Nat) : Parse Node :=
  if n.isValidChar then charNode (Char.ofNat n) else failure

def hexFixed (value : Nat) : Nat → Parse Nat
  | 0 => pure value
  | n + 1 => do
      let some d := hexDigit? (← here) | failure
      bumpSpace
      if n = 0 then pure (value * 16 + d)
      else hexFixed (value * 16 + d) n

def hexBraced (value : Nat) (first : Bool) : Nat → Parse Nat
  | 0 => failure
  | fuel + 1 => do
      bumpSpace
      let c ← here
      if c = '\x7d' then
        bumpSpace
        if first then failure else pure value
      else
        let some d := hexDigit? c | failure
        hexBraced (value * 16 + d) false fuel

def hexEscape (digits : Nat) (fuel : Nat) : Parse Node := do
  bumpSpace
  if (← here) = '\x7b' then charOfCode (← hexBraced 0 true fuel)
  else charOfCode (← hexFixed 0 digits)

def isBoundaryChar (c : Char) : Bool := c.isAlpha || c = '-'

def boundaryName (read : List Char) : Nat → Parse String
  | 0 => failure
  | fuel + 1 => do
      let c ← here
      if isBoundaryChar c then
        bumpSpace
        boundaryName (c :: read) fuel
      else if c = '\x7d' then
        bump
        pure (String.ofList read.reverse)
      else failure

def boundary (fuel : Nat) : Parse Look := do
  let s ← get
  match s.rest with
  | '\x7b' :: _ => do
      bumpSpace
      if isBoundaryChar (← here) then
        match ← boundaryName [] fuel with
        | "start" => pure .wordStart
        | "end" => pure .wordStop
        | "start-half" => pure .wordStartHalf
        | "end-half" => pure .wordStopHalf
        | _ => failure
      else
        set s
        pure .wordBoundary
  | _ => pure .wordBoundary

def escapesItself (c : Char) : Bool :=
  c.toNat < 0x80 && !c.isAlphanum && c ≠ '<' && c ≠ '>'

def escape (fuel : Nat) : Parse Node := do
  bump
  let c ← here
  match c with
  | 'x' => hexEscape 2 fuel
  | 'u' => hexEscape 4 fuel
  | 'U' => hexEscape 8 fuel
  | c => do
      bump
      match namedClass? c with
      | some s => pure (.set s)
      | none =>
          if escapesItself c then charNode c
          else match c with
            | 'a' => charNode '\x07'
            | 'f' => charNode '\x0c'
            | 't' => charNode '\t'
            | 'n' => charNode '\n'
            | 'r' => charNode '\r'
            | 'v' => charNode '\x0b'
            | 'A' => pure (.look .start)
            | 'z' => pure (.look .stop)
            | 'b' => return .look (← boundary fuel)
            | 'B' => pure (.look .noWordBoundary)
            | '<' => pure (.look .wordStart)
            | '>' => pure (.look .wordStop)
            | _ => failure

def classItem (fuel : Nat) : Parse Node := do
  let c ← here
  if c = '\\' then escape fuel
  else
    bump
    pure (.char c)

def itemRuns : Node → Parse (List (Nat × Nat))
  | .char c => pure [(c.toNat, c.toNat)]
  | .set s => pure s.runs
  | _ => failure

def classRange (fuel : Nat) : Parse (List (Nat × Nat)) := do
  let item ← classItem fuel
  space
  let c ← here
  let after ← peekSpace
  if c ≠ '-' || after = some ']' || after = some '-' then itemRuns item
  else
    bumpSpace
    let _ ← here
    match item, ← classItem fuel with
    | .char first, .char last =>
        if first ≤ last then pure [(first.toNat, last.toNat)] else failure
    | _, _ => failure

def bracketName (read : List Char) : List Char → Option (String × List Char)
  | ':' :: ']' :: rest => some (String.ofList read.reverse, rest)
  | ':' :: _ => none
  | c :: rest => bracketName (c :: read) rest
  | [] => none

def bracketClass : Parse (List (Nat × Nat)) := do
  let s ← get
  let (negated, name) ← match s.rest with
    | '[' :: ':' :: '^' :: rest => pure (true, rest)
    | '[' :: ':' :: rest => pure (false, rest)
    | _ => failure
  let some (name, rest) := bracketName [] name | failure
  let some cls := bracketClass? name | failure
  set { s with rest }
  pure (if negated then cls.complement else cls).runs

def classRest (runs : List (Nat × Nat)) : Nat → Parse (List (Nat × Nat))
  | 0 => failure
  | fuel + 1 => do
      space
      let c ← here
      let after := (← get).rest.tail.head?
      if c = '[' then classRest (runs ++ (← bracketClass)) fuel
      else if c = ']' then
        bump
        pure runs
      else if (c = '&' || c = '-' || c = '~') && after = some c then failure
      else classRest (runs ++ (← classRange fuel)) fuel

def leadingDashes : Nat → Parse (List (Nat × Nat))
  | 0 => failure
  | fuel + 1 => do
      if (← here) = '-' then
        bumpSpace
        return (0x2D, 0x2D) :: (← leadingDashes fuel)
      else pure []

def classNode (fuel : Nat) : Parse Node := do
  bumpSpace
  let negated ← if (← here) = '^' then do bumpSpace; pure true else pure false
  let dashes ← leadingDashes fuel
  let first ← if dashes.isEmpty && (← here) = ']' then do bumpSpace; pure [(0x5D, 0x5D)]
    else pure dashes
  let runs ← classRest first fuel
  let s := CharSet.ofRuns runs
  let s := if (← get).flags.ignoreCase then s.foldCase else s
  pure (.set (if negated then s.complement else s))

def repeatLast (min : Nat) (max : Option Nat) (lazy : Bool) (read : List Node) :
    Parse (List Node) := do
  match read with
  | [] => failure
  | sub :: before => do
      let greedy := lazy == (← get).flags.swapGreed
      return .ofLoop min max greedy sub :: before

def lazyMark : Parse Bool := do
  if (← peek) = some '?' then
    bump
    pure true
  else pure false

def skipBlanks : Nat → Parse Unit
  | 0 => pure ()
  | fuel + 1 => do
      match ← peek with
      | some c => if Text.isBlank c then do bump; skipBlanks fuel else pure ()
      | none => pure ()

def decimalDigits : Nat → Parse (List Char)
  | 0 => pure []
  | fuel + 1 => do
      match ← peek with
      | some c =>
          if c.isDigit then do
            bumpSpace
            return c :: (← decimalDigits fuel)
          else pure []
      | none => pure []

def decimal (fuel : Nat) : Parse Nat := do
  skipBlanks fuel
  let digits ← decimalDigits fuel
  skipBlanks fuel
  if digits.isEmpty then failure
  else
    let n := Text.digitsValue digits
    if n ≤ 0xFFFFFFFF then pure n else failure

def counted (fuel : Nat) (read : List Node) : Parse (List Node) := do
  if read.isEmpty then failure
  bumpSpace
  let min ← decimal fuel
  let max ← if (← here) = ',' then do
      bumpSpace
      if (← here) = '\x7d' then pure none else some <$> decimal fuel
    else pure (some min)
  if (← here) = '\x7d' then bumpSpace else failure
  let lazy ← lazyMark
  match max with
  | some m => if m < min then failure else repeatLast min max lazy read
  | none => repeatLast min max lazy read

def isNameStart (c : Char) : Bool := c = '_' || Text.isAlphabetic c

def isNameChar (c : Char) : Bool :=
  c = '_' || c = '.' || c = '[' || c = ']' || Text.isAlphanumeric c

def groupName : Parse String := do
  let s ← get
  let name := s.rest.takeWhile (fun c => c ≠ '>' && isNameChar c)
  match name, s.rest.drop name.length with
  | first :: _, '>' :: rest =>
      let name := String.ofList name
      if isNameStart first && name ∉ s.names then
        set { s with rest, names := name :: s.names }
        pure name
      else failure
  | _, _ => failure

def groupIndex : Parse Nat :=
  modifyGet (fun s => (s.nextGroup, { s with nextGroup := s.nextGroup + 1 }))

def flagsFrom (flags : Flags) (seen : List Char) : List Char → Option (Flags × List Char)
  | [] => none
  | c :: rest =>
      if c = ':' || c = ')' then
        if seen.head? = some '-' then none else some (flags, c :: rest)
      else if c ∈ seen then none
      else if c = '-' then flagsFrom flags ('-' :: seen) rest
      else
        match flags.set? c ('-' ∉ seen) with
        | some flags => flagsFrom flags (c :: seen) rest
        | none => none

def close (read branches : List Node) : Node :=
  .ofBranches (branches ++ [.ofSequence read.reverse])

mutual

/-- Branches up to the end, or up to the parenthesis that closes the group. `read` holds the
items of the branch, the last first, and `branches` the branches before. -/
def branchesFrom (depth : Nat) (read branches : List Node) : Nat → Parse Node
  | 0 => failure
  | fuel + 1 => do
      space
      match ← peek with
      | none => pure (close read branches)
      | some '(' => do
          let flags := (← get).flags
          match ← groupFrom depth fuel with
          | some node => do
              modify (fun s => { s with flags })
              expect ')'
              branchesFrom depth (node :: read) branches fuel
          | none => do
              expect ')'
              branchesFrom depth read branches fuel
      | some ')' => if depth = 0 then failure else pure (close read branches)
      | some '|' => do
          bump
          branchesFrom depth [] (branches ++ [.ofSequence read.reverse]) fuel
      | some '[' => do
          let node ← classNode fuel
          branchesFrom depth (node :: read) branches fuel
      | some '?' => do
          bump
          let read ← repeatLast 0 (some 1) (← lazyMark) read
          branchesFrom depth read branches fuel
      | some '*' => do
          bump
          let read ← repeatLast 0 none (← lazyMark) read
          branchesFrom depth read branches fuel
      | some '+' => do
          bump
          let read ← repeatLast 1 none (← lazyMark) read
          branchesFrom depth read branches fuel
      | some '\x7b' => do
          let read ← counted fuel read
          branchesFrom depth read branches fuel
      | some '\\' => do
          let node ← escape fuel
          branchesFrom depth (node :: read) branches fuel
      | some '.' => do
          bump
          branchesFrom depth ((← dotNode) :: read) branches fuel
      | some '^' => do
          bump
          branchesFrom depth ((← startNode) :: read) branches fuel
      | some '$' => do
          bump
          branchesFrom depth ((← stopNode) :: read) branches fuel
      | some c => do
          bump
          branchesFrom depth ((← charNode c) :: read) branches fuel

def groupFrom (depth : Nat) : Nat → Parse (Option Node)
  | 0 => failure
  | fuel + 1 => do
      bumpSpace
      let inside := if maxNesting ≤ depth then failure else branchesFrom (depth + 1) [] [] fuel
      let named (rest : List Char) : Parse (Option Node) := do
        modify (fun s => { s with rest })
        let index ← groupIndex
        let name ← groupName
        return some (.group index (some name) (← inside))
      let s ← get
      match s.rest with
      | '?' :: '=' :: _ => failure
      | '?' :: '!' :: _ => failure
      | '?' :: '<' :: '=' :: _ => failure
      | '?' :: '<' :: '!' :: _ => failure
      | '?' :: 'P' :: '<' :: rest => named rest
      | '?' :: '<' :: rest => named rest
      | '?' :: rest =>
          match flagsFrom s.flags [] rest with
          | some (flags, ':' :: inner) => do
              set { s with rest := inner, flags }
              return some (← inside)
          | some (flags, closing) =>
              if closing.length = rest.length then failure
              else do
                set { s with rest := closing, flags }
                pure none
          | none => failure
      | _ => do
          let index ← groupIndex
          return some (.group index none (← inside))

end

end Parse

def Node.parse (pattern : List Char) (ignoreCase : Bool) : Option Node :=
  let scan : Scan := { rest := pattern, flags := { ignoreCase } }
  match (Parse.branchesFrom 0 [] [] (2 * pattern.length + 2)).run scan with
  | some (node, _) => if node.depth ≤ maxNesting then some node else none
  | none => none

end ProjectShell.Regex
