namespace ProjectShell.Json

inductive Fault
  | endOfValue
  | endOfList
  | endOfObject
  | endOfString
  | expectedValue
  | expectedWord
  | expectedColon
  | expectedListCommaOrEnd
  | expectedObjectCommaOrEnd
  | keyNotString
  | trailingComma
  | trailingCharacters
  | invalidNumber
  | numberOutOfRange
  | invalidEscape
  | loneSurrogate
  | endOfHexEscape
  | controlCharacter
  | tooDeep
  | unexpected (what : String)
deriving DecidableEq, Repr

def Fault.message : Fault → String
  | endOfValue => "EOF while parsing a value"
  | endOfList => "EOF while parsing a list"
  | endOfObject => "EOF while parsing an object"
  | endOfString => "EOF while parsing a string"
  | expectedValue => "expected value"
  | expectedWord => "expected ident"
  | expectedColon => "expected `:`"
  | expectedListCommaOrEnd => "expected `,` or `]`"
  | expectedObjectCommaOrEnd => "expected `,` or `\x7d`"
  | keyNotString => "key must be a string"
  | trailingComma => "trailing comma"
  | trailingCharacters => "trailing characters"
  | invalidNumber => "invalid number"
  | numberOutOfRange => "number out of range"
  | invalidEscape => "invalid escape"
  | loneSurrogate => "lone leading surrogate in hex escape"
  | endOfHexEscape => "unexpected end of hex escape"
  | controlCharacter => "control character (\\u0000-\\u001F) found while parsing a string"
  | tooDeep => "recursion limit exceeded"
  | unexpected what => what

structure ReadError where
  fault : Fault
  line : Nat
  column : Nat
deriving DecidableEq, Repr

def ReadError.message (e : ReadError) : String :=
  e.fault.message ++ " at line " ++ toString e.line ++ " column " ++ toString e.column

/-- The text still to read, the line, counted from one, and the bytes read on it. -/
structure Cursor where
  rest : List Char
  line : Nat
  column : Nat
deriving DecidableEq, Repr

namespace Cursor

def start (s : String) : Cursor := ⟨s.toList, 1, 0⟩

def past (c : Char) (rest : List Char) (cur : Cursor) : Cursor :=
  if c = '\n' then ⟨rest, cur.line + 1, 0⟩ else ⟨rest, cur.line, cur.column + c.utf8Size⟩

def next (cur : Cursor) : Cursor :=
  match cur.rest with
  | [] => cur
  | c :: rest => past c rest cur

def peek (cur : Cursor) : Option Char := cur.rest.head?

/-- Nothing more of the text counts as read, but the position moves by `n` bytes. -/
def skipBytes : Nat → Cursor → Cursor
  | 0, cur => cur
  | n + 1, cur =>
      match cur.rest with
      | [] => cur
      | c :: rest =>
          if c.utf8Size ≤ n + 1 then skipBytes (n + 1 - c.utf8Size) (past c rest cur)
          else ⟨rest, cur.line, cur.column + (n + 1)⟩
termination_by n _ => n
decreasing_by
  have := Char.utf8Size_pos c
  omega

def isJsonBlank (c : Char) : Bool := c = ' ' || c = '\n' || c = '\t' || c = '\r'

def skipBlankFrom : List Char → Nat → Nat → Cursor
  | [], line, column => ⟨[], line, column⟩
  | c :: rest, line, column =>
      if c = '\n' then skipBlankFrom rest (line + 1) 0
      else if isJsonBlank c then skipBlankFrom rest line (column + 1)
      else ⟨c :: rest, line, column⟩

def skipBlank (cur : Cursor) : Cursor := skipBlankFrom cur.rest cur.line cur.column

end Cursor

abbrev Reading := StateT Cursor (Except ReadError)

namespace Reading

def peek : Reading (Option Char) := return (← get).peek

def skip : Reading Unit := modify Cursor.next

def token : Reading (Option Char) := do
  modify Cursor.skipBlank
  peek

def fail {α : Type} (fault : Fault) : Reading α := do
  let cur ← get
  throw ⟨fault, cur.line, cur.column⟩

def failAhead {α : Type} (fault : Fault) : Reading α := do
  modify (Cursor.skipBytes 1)
  fail fault

end Reading

end ProjectShell.Json
