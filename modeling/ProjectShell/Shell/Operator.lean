import ProjectShell.Shell.Word

namespace ProjectShell

inductive Operator
  | sequence
  | both
  | either
  | pipe
deriving DecidableEq, Repr

namespace Operator

def chars : Operator → List Char
  | sequence => [';']
  | both => ['&', '&']
  | either => ['|', '|']
  | pipe => ['|']

def text (op : Operator) : String := String.ofList op.chars

end Operator

structure Pieces where
  first : List Char
  rest : List (Operator × List Char)
deriving DecidableEq, Repr

namespace Pieces

def push (c : Char) (p : Pieces) : Pieces := { p with first := c :: p.first }

def all (p : Pieces) : List (List Char) := p.first :: p.rest.map Prod.snd

/-- `skip` counts the characters of an operator that are still to be passed over. -/
def scan (ops : List Operator) (quote : Option Char) : Nat → List Char → Pieces
  | _, [] => ⟨[], []⟩
  | skip + 1, _ :: cs => scan ops quote skip cs
  | 0, c :: cs =>
      match quote with
      | some q => (scan ops (if c = q then none else some q) 0 cs).push c
      | none =>
          if Word.isQuote c then (scan ops (some c) 0 cs).push c
          else
            match ops.find? (fun op => op.chars.isPrefixOf (c :: cs)) with
            | some op =>
                let behind := scan ops none (op.chars.length - 1) cs
                ⟨[], (op, behind.first) :: behind.rest⟩
            | none => (scan ops none 0 cs).push c

def split (ops : List Operator) (cs : List Char) : Pieces := scan ops none 0 cs

def join (p : Pieces) : List Char := p.first ++ p.rest.flatMap (fun (op, cs) => op.chars ++ cs)

end Pieces

end ProjectShell
