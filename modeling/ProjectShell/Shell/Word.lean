import ProjectShell.Text.Blank

namespace ProjectShell

structure Word where
  text : String
  quoted : Bool
deriving DecidableEq, Repr

namespace Word

def isQuote (c : Char) : Bool := c = '"' || c = '\''

/-- A word that is being read: its characters, the last first, and whether it had quotes. -/
structure Draft where
  text : List Char := []
  quoted : Bool := false
deriving DecidableEq, Repr

def Draft.push (d : Draft) (c : Char) : Draft := { d with text := c :: d.text }

def Draft.word (d : Draft) : Word := ⟨String.ofList d.text.reverse, d.quoted⟩

def scan (quote : Option Char) (draft : Option Draft) : List Char → List Word
  | [] => (draft.map Draft.word).toList
  | c :: cs =>
      match quote with
      | some q =>
          if c = q then scan none draft cs
          else scan (some q) (some ((draft.getD {}).push c)) cs
      | none =>
          if isQuote c then scan (some c) (some { draft.getD {} with quoted := true }) cs
          else if Text.isBlank c then (draft.map Draft.word).toList ++ scan none none cs
          else scan none (some ((draft.getD {}).push c)) cs

def ofChars (cs : List Char) : List Word := scan none none cs

end Word

def wordsOf (s : String) : List Word := Word.ofChars s.toList

def wordTexts (s : String) : List String := (wordsOf s).map Word.text

end ProjectShell
