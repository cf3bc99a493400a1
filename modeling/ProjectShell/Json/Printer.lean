import ProjectShell.Json.Decimal
import ProjectShell.Json.Value

namespace ProjectShell.Json

def escapeChar (c : Char) : List Char :=
  match c with
  | '"' => ['\\', '"']
  | '\\' => ['\\', '\\']
  | '\x08' => ['\\', 'b']
  | '\x0c' => ['\\', 'f']
  | '\n' => ['\\', 'n']
  | '\r' => ['\\', 'r']
  | '\t' => ['\\', 't']
  | c =>
      if c.toNat < 0x20 then
        ['\\', 'u', '0', '0', Nat.digitChar (c.toNat / 16), Nat.digitChar (c.toNat % 16)]
      else [c]

def quote (s : String) : String :=
  "\"" ++ String.ofList (s.toList.flatMap escapeChar) ++ "\""

def Number.text : Number → String
  | .whole n => toString n
  | .negative n => "-" ++ toString n
  | .float bits => floatText bits

mutual

def compact : Json → String
  | .null => "null"
  | .bool b => if b then "true" else "false"
  | .num n => n.text
  | .str s => quote s
  | .arr elements => "[" ++ compactElements elements ++ "]"
  | .obj members => "\x7b" ++ compactMembers members ++ "\x7d"

def compactElements : List Json → String
  | [] => ""
  | [v] => compact v
  | v :: w :: rest => compact v ++ "," ++ compactElements (w :: rest)

def compactMembers : List (String × Json) → String
  | [] => ""
  | [(k, v)] => quote k ++ ":" ++ compact v
  | (k, v) :: e :: rest => quote k ++ ":" ++ compact v ++ "," ++ compactMembers (e :: rest)

end

def newline (indent : Nat) : String := "\n" ++ String.ofList (List.replicate (2 * indent) ' ')

mutual

def prettyAt (indent : Nat) : Json → String
  | .null => "null"
  | .bool b => if b then "true" else "false"
  | .num n => n.text
  | .str s => quote s
  | .arr [] => "[]"
  | .arr (v :: rest) =>
      "[" ++ newline (indent + 1) ++ prettyAt (indent + 1) v ++ prettyElements (indent + 1) rest ++
        newline indent ++ "]"
  | .obj [] => "\x7b\x7d"
  | .obj ((k, v) :: rest) =>
      "\x7b" ++ newline (indent + 1) ++ quote k ++ ": " ++ prettyAt (indent + 1) v ++
        prettyMembers (indent + 1) rest ++ newline indent ++ "\x7d"

def prettyElements (indent : Nat) : List Json → String
  | [] => ""
  | v :: rest => "," ++ newline indent ++ prettyAt indent v ++ prettyElements indent rest

def prettyMembers (indent : Nat) : List (String × Json) → String
  | [] => ""
  | (k, v) :: rest =>
      "," ++ newline indent ++ quote k ++ ": " ++ prettyAt indent v ++ prettyMembers indent rest

end

def pretty (v : Json) : String := prettyAt 0 v

end ProjectShell.Json
