import ProjectShell.Shell.Word

namespace ProjectShell

structure Redirect where
  target : String
  append : Bool
deriving DecidableEq, Repr

structure Stage where
  words : List Word := []
  stdout : Option Redirect := none
  stderr : Option Redirect := none
  merge : Bool := false
deriving DecidableEq, Repr

namespace Stage

inductive RedirectOp
  | out (append : Bool)
  | err (append : Bool)
  | merge
deriving DecidableEq, Repr

/-- A `1` or `2` at the end of what was read, if it begins a word. What was read has its last
character first. -/
def takeDescriptor : List Char → List Char × List Char
  | fd :: before =>
      if (fd = '1' || fd = '2') && (before.head?.all Text.isBlank) then ([fd], before)
      else ([], fd :: before)
  | [] => ([], [])

def isolateFrom (read : List Char) (quote : Option Char) : List Char → List Char
  | [] => read.reverse
  | c :: cs =>
      match quote with
      | some q => isolateFrom (c :: read) (if c = q then none else some q) cs
      | none =>
          if Word.isQuote c then isolateFrom (c :: read) (some c) cs
          else if c ≠ '>' then isolateFrom (c :: read) none cs
          else
            let (fd, read) := takeDescriptor read
            let put (op : List Char) : List Char := ' ' :: (fd ++ op).reverse ++ ' ' :: read
            match cs with
            | '>' :: cs => isolateFrom (put ['>', '>']) none cs
            | '&' :: d :: cs =>
                if fd = ['2'] then
                  if d.isDigit then isolateFrom (put ['>', '&', d]) none cs
                  else isolateFrom (put ['>', '&']) none (d :: cs)
                else isolateFrom (put ['>']) none ('&' :: d :: cs)
            | ['&'] =>
                if fd = ['2'] then isolateFrom (put ['>', '&']) none []
                else isolateFrom (put ['>']) none ['&']
            | cs => isolateFrom (put ['>']) none cs

def isolate (cs : List Char) : List Char := isolateFrom [] none cs

def redirectOp? : List Char → Option (RedirectOp × List Char)
  | ['2', '>', '&', '1'] => some (.merge, [])
  | '2' :: '>' :: '>' :: rest => some (.err true, rest)
  | '2' :: '>' :: rest => some (.err false, rest)
  | '1' :: '>' :: '>' :: rest => some (.out true, rest)
  | '1' :: '>' :: rest => some (.out false, rest)
  | '>' :: '>' :: rest => some (.out true, rest)
  | '>' :: rest => some (.out false, rest)
  | _ => none

def opOf? (w : Word) : Option (RedirectOp × List Char) :=
  if w.quoted then none else redirectOp? w.text.toList

def setTarget (s : Stage) (op : RedirectOp) (target : String) : Stage :=
  match op with
  | .out append => { s with stdout := some ⟨target, append⟩ }
  | .err append => { s with stderr := some ⟨target, append⟩ }
  | .merge => s

def ofWords (s : Stage) : List Word → Option Stage
  | [] => some s
  | w :: ws =>
      match opOf? w with
      | none => ofWords { s with words := s.words ++ [w] } ws
      | some (.merge, _) => ofWords { s with merge := true } ws
      | some (op, []) =>
          match ws with
          | [] => none
          | target :: ws => ofWords (s.setTarget op target.text) ws
      | some (op, attached) => ofWords (s.setTarget op (String.ofList attached)) ws

def ofChars? (cs : List Char) : Option Stage := ofWords {} (Word.ofChars (isolate cs))

end Stage

end ProjectShell
