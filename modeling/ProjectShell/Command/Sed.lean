import ProjectShell.Command.Options
import ProjectShell.Command.Report
import ProjectShell.Regex.Literal
import ProjectShell.Regex.Replace
import ProjectShell.Text.Letters
import ProjectShell.Text.Numeral

namespace ProjectShell.Command

namespace Sed

def table : OptionTable where
  flags := [.switch 'i' "in-place", .switch 'E' "regexp-extended", .switch 'r' "regexp-extended",
    .value 'e' "expression"]

inductive Address
  | pattern (r : Regex)
  | line (n : Nat)
  | last

inductive Program
  | substitute (r : Regex) (template : List Char) (everywhere : Bool)
  | delete (address : Address)

def fields (delimiter : Char) : List Char → List (List Char)
  | [] => [[]]
  | '\\' :: c :: cs =>
      match fields delimiter cs with
      | [] => []
      | f :: fs => ((if c = delimiter then [c] else ['\\', c]) ++ f) :: fs
  | c :: cs =>
      if c = delimiter then [] :: fields delimiter cs
      else
        match fields delimiter cs with
        | [] => []
        | f :: fs => (c :: f) :: fs

def template : List Char → List Char
  | [] => []
  | '\\' :: c :: cs =>
      if c.isDigit then '$' :: '\x7b' :: c :: '\x7d' :: template cs
      else
        match c with
        | 'n' => '\n' :: template cs
        | 't' => '\t' :: template cs
        | '$' => '$' :: '$' :: template cs
        | c => c :: template cs
  | '&' :: cs => '$' :: '\x7b' :: '0' :: '\x7d' :: template cs
  | '$' :: cs => '$' :: '$' :: template cs
  | c :: cs => c :: template cs

def flags (everywhere ignoreCase : Bool) : List Char → Except Char (Bool × Bool)
  | [] => .ok (everywhere, ignoreCase)
  | 'g' :: cs => flags true ignoreCase cs
  | 'i' :: cs => flags everywhere true cs
  | 'I' :: cs => flags everywhere true cs
  | c :: _ => .error c

def invalidRegex (pattern : List Char) : String :=
  "sed: invalid regex '" ++ String.ofList pattern ++ "'"

def substitution (delimiter : Char) (body : List Char) : Except String Program :=
  match fields delimiter body with
  | [pattern, replacement, options] =>
      match flags false false options with
      | .error c => .error ("sed: unknown option to `s': " ++ String.ofList [c])
      | .ok (everywhere, ignoreCase) =>
          match Regex.compileLenient pattern ignoreCase with
          | none => .error (invalidRegex pattern)
          | some r => .ok (.substitute r (template replacement) everywhere)
  | _ => .error "sed: unterminated `s' command"

def isDelimiter (c : Char) : Bool := !Text.isAlphanumeric c && c ≠ '\\'

def deletion (expression address : List Char) : Except String Program :=
  let unsupported : Except String Program :=
    .error ("sed: unsupported expression '" ++ String.ofList expression ++ "'")
  if address = ['$'] then .ok (.delete .last)
  else
    match Text.parseSize? (String.ofList address) with
    | some n => .ok (.delete (.line n))
    | none =>
        match address with
        | '/' :: rest =>
            if rest.getLast? = some '/' then
              match Regex.compileLenient rest.dropLast false with
              | none => .error (invalidRegex rest.dropLast)
              | some r => .ok (.delete (.pattern r))
            else unsupported
        | _ => unsupported

def otherwise (expression : List Char) : Except String Program :=
  if expression.getLast? = some 'd' then deletion expression expression.dropLast
  else .error ("sed: unsupported expression '" ++ String.ofList expression ++ "'")

def Program.ofString (expression : String) : Except String Program :=
  match expression.toList with
  | 's' :: c :: body => if isDelimiter c then substitution c body else otherwise ('s' :: c :: body)
  | cs => otherwise cs

def Address.selects (a : Address) (count index : Nat) (line : List Char) : Bool :=
  match a with
  | pattern r => r.isMatch line
  | .line n => index + 1 = n
  | last => index + 1 = count

def Program.editLine (p : Program) (count index : Nat) (line : List Char) : Option (List Char) :=
  match p with
  | substitute r template everywhere =>
      some (if everywhere then r.replaceAll line template else r.replaceFirst line template)
  | delete a => if a.selects count index line then none else some line

def Program.editLines (p : Program) (count index : Nat) : List (List Char) → List String
  | [] => []
  | l :: ls =>
      ((p.editLine count index l).map String.ofList).toList ++ p.editLines count (index + 1) ls

def Program.apply (p : Program) (text : String) : String :=
  let ls := Text.lines text.toList
  let result := "\n".intercalate (p.editLines ls.length 0 ls)
  if text.toList.getLast? = some '\n' && !result.isEmpty then result ++ "\n" else result

def editSource (p : Program) (inPlace : Bool) (s : Source) : Attempt Report := do
  let edited := p.apply s.text
  let shownReport : Report :=
    let shown := Text.trimNewline edited
    if shown.isEmpty then {} else .line shown
  match s.name with
  | none => pure shownReport
  | some path =>
      if !inPlace then pure shownReport
      else if edited = s.text then pure {}
      else
        discard (ExceptT.mk (Script.write path edited))
        pure {}

def run (args : List String) (stdin : Option String) : Attempt Outcome := do
  let o := table.parse args
  let inPlace := o.has "in-place"
  let operands :=
    if inPlace && o.operands.head? = some "" then o.operands.tail else o.operands
  let split : Option (String × List String) :=
    match o.value? "expression", operands with
    | some e, operands => some (e, operands)
    | none, e :: operands => some (e, operands)
    | none, [] => none
  match split with
  | none => pure (.failure "sed: missing expression")
  | some (expression, operands) =>
      match Program.ofString expression with
      | .error message => pure (.failure message)
      | .ok program =>
          if inPlace && operands.isEmpty then
            pure (.failure "sed: -i requires a file operand")
          else
            let v ← (Script.read id : Script View)
            let (found, missing) := v.sources "sed" operands stdin
            let report ← Report.forEach (editSource program inPlace) found
            pure (missing ++ report).outcome

end Sed

end ProjectShell.Command
