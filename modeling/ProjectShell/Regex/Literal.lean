import ProjectShell.Regex.Search

namespace ProjectShell.Regex

def isSpecial (c : Char) : Bool :=
  ['\\', '.', '+', '*', '?', '(', ')', '|', '[', ']', '\x7b', '\x7d', '^', '$', '#', '&', '-',
    '~'].contains c

def escape : List Char → List Char
  | [] => []
  | c :: cs => if isSpecial c then '\\' :: c :: escape cs else c :: escape cs

def compileLenient (pattern : List Char) (ignoreCase : Bool) : Option Regex :=
  (compile? pattern ignoreCase).or (compile? (escape pattern) ignoreCase)

end ProjectShell.Regex
