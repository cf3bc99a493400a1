import ProjectShell.Regex.Literal
import ProjectShell.Text.Substring

namespace ProjectShell

namespace PathPattern

def isGlob (cs : List Char) : Bool := cs.contains '*' || cs.contains '?'

def segmentsSource : List Char := "(?:.*/)?".toList

def textSource : List Char := ".*".toList

def inSegmentSource : List Char := "[^/]*".toList

def oneSource : List Char := "[^/]".toList

def regexBody : List Char → List Char
  | [] => []
  | '*' :: '*' :: '/' :: cs => segmentsSource ++ regexBody cs
  | '*' :: '*' :: cs => textSource ++ regexBody cs
  | '*' :: cs => inSegmentSource ++ regexBody cs
  | '?' :: cs => oneSource ++ regexBody cs
  | c :: cs => Regex.escape [c] ++ regexBody cs

def regexSource (pattern : List Char) : List Char := '^' :: regexBody pattern ++ ['$']

def stripRoot : List Char → List Char
  | '.' :: '/' :: cs => stripRoot cs
  | '/' :: cs => stripRoot cs
  | cs => cs

end PathPattern

structure PathPattern where
  regex : Option Regex

namespace PathPattern

def new (pattern : String) : PathPattern :=
  ⟨Regex.compile? (regexSource (stripRoot pattern.toList)) false⟩

def isMatch (p : PathPattern) (path : String) : Bool :=
  match p.regex with
  | some r => r.isMatch (stripRoot path.toList)
  | none => false

def filter (p : PathPattern) (paths : List String) : List String := paths.filter p.isMatch

end PathPattern

end ProjectShell
