import ProjectShell.Regex.Search

namespace ProjectShell.Regex

inductive Piece
  | char (c : Char)
  | group (index : Nat)
deriving DecidableEq, Repr

def pieces : List Char → List Piece
  | [] => []
  | '$' :: '$' :: cs => .char '$' :: pieces cs
  | '$' :: '\x7b' :: d :: '\x7d' :: cs =>
      if d.isDigit then .group (d.toNat - '0'.toNat) :: pieces cs
      else .char '$' :: .char '\x7b' :: .char d :: .char '\x7d' :: pieces cs
  | c :: cs => .char c :: pieces cs

def textsFrom (rest : List Char) (pos : Nat) : List Match → List (List Char)
  | [] => []
  | m :: ms =>
      let rest := rest.drop (m.first - pos)
      rest.take (m.last - m.first) :: textsFrom rest m.first ms

def matchTexts (r : Regex) (cs : List Char) : List (List Char) := textsFrom cs 0 (r.findAll cs)

namespace Match

def groupText (m : Match) (text : List Char) (index : Nat) : List Char :=
  match (some (m.first, m.last) :: m.groups)[index]? with
  | some (some (first, last)) => (text.drop (first - m.first)).take (last - first)
  | _ => []

def expand (m : Match) (text : List Char) : List Piece → List Char
  | [] => []
  | .char c :: ps => c :: expand m text ps
  | .group index :: ps => m.groupText text index ++ expand m text ps

end Match

def replaceIn (template : List Piece) (rest : List Char) (pos : Nat) : List Match → List Char
  | [] => rest
  | m :: ms =>
      let here := rest.drop (m.first - pos)
      rest.take (m.first - pos) ++ m.expand (here.take (m.last - m.first)) template ++
        replaceIn template (here.drop (m.last - m.first)) m.last ms

def replaceAll (r : Regex) (cs template : List Char) : List Char :=
  replaceIn (pieces template) cs 0 (r.findAll cs)

def replaceFirst (r : Regex) (cs template : List Char) : List Char :=
  replaceIn (pieces template) cs 0 (r.find? cs).toList

end ProjectShell.Regex
