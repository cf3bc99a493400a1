/-!
Glob patterns for the names that a search of the tree reports. Here a star goes across slashes,
two stars stand for whole segments, and brackets hold classes of characters.
-/

namespace ProjectShell

namespace NamePattern

inductive Specifier
  | one (c : Char)
  | range (first last : Char)
deriving DecidableEq, Repr

inductive Token
  | char (c : Char)
  | any
  | sequence
  | segments
  | within (cs : List Specifier)
  | except (cs : List Specifier)
deriving DecidableEq, Repr

inductive Fault
  | wildcards
  | segmentsApart
  | invalidRange
deriving DecidableEq, Repr

def Fault.message : Fault → String
  | wildcards => "wildcards are either regular `*` or recursive `**`"
  | segmentsApart => "recursive wildcards must form a single path component"
  | invalidRange => "invalid range pattern"

structure SyntaxError where
  position : Nat
  fault : Fault
deriving DecidableEq, Repr

def SyntaxError.message (e : SyntaxError) : String :=
  "Pattern syntax error near position " ++ toString e.position ++ ": " ++ e.fault.message

def specifiers : List Char → List Specifier
  | first :: '-' :: last :: cs => .range first last :: specifiers cs
  | c :: cs => .one c :: specifiers cs
  | [] => []

def untilBracket : List Char → Option (List Char × List Char)
  | [] => none
  | c :: cs => if c = ']' then some ([], cs) else (untilBracket cs).map (fun (a, b) => (c :: a, b))

def bracket : List Char → Option (Token × List Char)
  | '!' :: c :: cs => (untilBracket cs).map (fun (a, b) => (.except (specifiers (c :: a)), b))
  | '!' :: [] => none
  | c :: cs => (untilBracket cs).map (fun (a, b) => (.within (specifiers (c :: a)), b))
  | [] => none

def pushSegments (read : List Token) : List Token :=
  match read with
  | .segments :: _ :: _ => read
  | _ => .segments :: read

/-- `read` holds the tokens before, the last first; `slash` says whether a segment starts here. -/
def tokensFrom (read : List Token) (slash : Bool) (pos : Nat) :
    Nat → List Char → Except SyntaxError (List Token)
  | 0, _ => .ok read.reverse
  | _ + 1, [] => .ok read.reverse
  | fuel + 1, c :: cs =>
      if c = '?' then tokensFrom (.any :: read) false (pos + 1) fuel cs
      else if c = '*' then
        let stars := (c :: cs).takeWhile (· = '*')
        let rest := (c :: cs).drop stars.length
        let after := pos + stars.length
        if 2 < stars.length then .error ⟨pos + 2, .wildcards⟩
        else if stars.length = 1 then tokensFrom (.sequence :: read) false after fuel rest
        else if !slash then .error ⟨pos - 1, .segmentsApart⟩
        else
          match rest with
          | [] => .ok (pushSegments read).reverse
          | '/' :: rest => tokensFrom (pushSegments read) true (after + 1) fuel rest
          | _ => .error ⟨after, .segmentsApart⟩
      else if c = '[' then
        match bracket cs with
        | some (token, rest) =>
            tokensFrom (token :: read) false (pos + 1 + (cs.length - rest.length)) fuel rest
        | none => .error ⟨pos, .invalidRange⟩
      else tokensFrom (.char c :: read) (c = '/') (pos + 1) fuel cs

end NamePattern

structure NamePattern where
  tokens : List NamePattern.Token
deriving DecidableEq, Repr

namespace NamePattern

def ofString (s : String) : Except SyntaxError NamePattern :=
  match tokensFrom [] true 0 (s.length + 1) s.toList with
  | .ok tokens => .ok ⟨tokens⟩
  | .error e => .error e

def isAscii (c : Char) : Bool := c.toNat < 0x80

def sameChar (ignoreCase : Bool) (a b : Char) : Bool :=
  if ignoreCase && isAscii a && isAscii b then a.toLower = b.toLower else a = b

def Specifier.holds (ignoreCase : Bool) (c : Char) : Specifier → Bool
  | one d => sameChar ignoreCase c d
  | range first last =>
      (ignoreCase && isAscii c && first.isAlpha && last.isAlpha &&
        first.toLower ≤ c.toLower && c.toLower ≤ last.toLower) || (first ≤ c && c ≤ last)

/-- `never`: the text is too short, however the stars are taken. -/
inductive Verdict
  | yes
  | no
  | never
deriving DecidableEq, Repr

def widen (whole : Bool) (follow : List Char → Verdict) : List Char → Verdict
  | [] => follow []
  | c :: cs =>
      if whole && c ≠ '/' then widen whole follow cs
      else
        match follow cs with
        | .no => widen whole follow cs
        | v => v

def Token.holds (ignoreCase : Bool) (c : Char) : Token → Bool
  | char d => sameChar ignoreCase c d
  | any => true
  | within cs => cs.any (Specifier.holds ignoreCase c)
  | except cs => !cs.any (Specifier.holds ignoreCase c)
  | sequence => false
  | segments => false

def verdict (ignoreCase : Bool) : List Token → List Char → Verdict
  | [], [] => .yes
  | [], _ :: _ => .no
  | token :: tokens, text =>
      if token = .sequence ∨ token = .segments then
        match verdict ignoreCase tokens text with
        | .no => widen (token = .segments) (verdict ignoreCase tokens) text
        | v => v
      else
        match text with
        | [] => .never
        | c :: cs => if token.holds ignoreCase c then verdict ignoreCase tokens cs else .no

def isMatch (p : NamePattern) (ignoreCase : Bool) (s : String) : Bool :=
  verdict ignoreCase p.tokens s.toList = .yes

end NamePattern

end ProjectShell
