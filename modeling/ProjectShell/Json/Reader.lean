import ProjectShell.Json.Cursor
import ProjectShell.Json.Value
/-!
Reading JSON text. The fault reported is the first one from the left, with its place.
-/

namespace ProjectShell.Json

open Reading

def maxWord : Nat := 0xFFFFFFFFFFFFFFFF

namespace Reading

def digitsFrom : List Char → Nat → Nat → List Nat × Cursor
  | [], line, column => ([], ⟨[], line, column⟩)
  | c :: rest, line, column =>
      if c.isDigit then
        let (ds, cur) := digitsFrom rest line (column + 1)
        ((c.toNat - '0'.toNat) :: ds, cur)
      else ([], ⟨c :: rest, line, column⟩)

def digits : Reading (List Nat) := fun cur => .ok (digitsFrom cur.rest cur.line cur.column)

def word (cs : List Char) : Reading Unit :=
  match cs with
  | [] => pure ()
  | c :: cs => do
      match ← peek with
      | none => fail .endOfValue
      | some d =>
          if d = c then skip; word cs
          else failAhead .expectedWord

end Reading

/-- Digits are taken up while the number fits a machine word; each one left out makes it ten
times greater. -/
def wholeDigits : Nat → List Nat → Nat × Nat
  | n, [] => (n, 0)
  | n, d :: ds =>
      if n * 10 + d ≤ maxWord then wholeDigits (n * 10 + d) ds else (n, ds.length + 1)

def pointDigits : Nat → Int → List Nat → Nat × Int
  | n, e, [] => (n, e)
  | n, e, d :: ds => if n * 10 + d ≤ maxWord then pointDigits (n * 10 + d) (e - 1) ds else (n, e)

def exponentDigits : Nat → List Nat → Nat × Nat × Bool
  | n, [] => (n, 0, false)
  | n, d :: ds =>
      if n * 10 + d ≤ 0x7FFFFFFF then
        let (m, used, beyond) := exponentDigits (n * 10 + d) ds
        (m, used + 1, beyond)
      else (n, 1, true)

def tenTo (e : Nat) : Float := Float.ofScientific 1 false e

/-- `n * 10 ^ e` by one float operation for each factor up to `10 ^ 308`; no value if it is too
great. -/
def scaled (n : Nat) (e : Int) : Option Float :=
  let f := Float.ofNat n
  if 308 < e then (if n = 0 then some f else none)
  else if 0 ≤ e then
    let g := f * tenTo e.toNat
    if g.isInf then none else some g
  else if -308 ≤ e then some (f / tenTo (-e).toNat)
  else if -616 ≤ e then some (f / tenTo 308 / tenTo (-(e + 308)).toNat)
  else some 0

def floatNumber (positive : Bool) (f : Float) : Number :=
  .float (if positive then f else -f).toBits

namespace Reading

def scaledNumber (positive : Bool) (n : Nat) (e : Int) : Reading Number :=
  match scaled n e with
  | some f => pure (floatNumber positive f)
  | none => fail .numberOutOfRange

def exponentSign : Reading Bool := do
  match ← peek with
  | some '+' => do skip; pure true
  | some '-' => do skip; pure false
  | _ => pure true

def exponent (positive : Bool) (n : Nat) (e : Int) : Reading Number := do
  skip
  let up ← exponentSign
  match ← peek with
  | none => fail .endOfValue
  | some c =>
      if c.isDigit then
        let cur ← get
        let ds ← digits
        let (m, used, beyond) := exponentDigits 0 ds
        if beyond then
          if n ≠ 0 && up then
            set (Cursor.mk cur.rest cur.line (cur.column + used))
            fail .numberOutOfRange
          else pure (floatNumber positive 0)
        else scaledNumber positive n (if up then e + m else e - m)
      else failAhead .invalidNumber

def fraction (positive : Bool) (n : Nat) (e : Int) : Reading Number := do
  skip
  let ds ← digits
  if ds.isEmpty then
    match ← peek with
    | none => failAhead .endOfValue
    | some _ => failAhead .invalidNumber
  else
    let (n, e) := pointDigits n e ds
    match ← peek with
    | some 'e' | some 'E' => exponent positive n e
    | _ => scaledNumber positive n e

def leadingDigits (c : Char) : Reading (List Nat) :=
  if c = '0' then do
    skip
    match ← peek with
    | some d => if d.isDigit then failAhead .invalidNumber else pure [0]
    | none => pure [0]
  else digits

def number (positive : Bool) : Reading Number := do
  match ← peek with
  | none => fail .endOfValue
  | some c =>
      if c.isDigit then
        let ds ← leadingDigits c
        let (n, dropped) := wholeDigits 0 ds
        match ← peek with
        | some '.' => fraction positive n dropped
        | some 'e' | some 'E' => exponent positive n dropped
        | _ =>
            if dropped ≠ 0 then scaledNumber positive n dropped
            else if positive then pure (.whole n)
            else if n = 0 || 0x8000000000000000 < n then pure (floatNumber false (Float.ofNat n))
            else pure (.negative n)
      else failAhead .invalidNumber

def hexValue (c : Char) : Option Nat :=
  if c.isDigit then some (c.toNat - '0'.toNat)
  else if 'a' ≤ c && c ≤ 'f' then some (c.toNat - 'a'.toNat + 10)
  else if 'A' ≤ c && c ≤ 'F' then some (c.toNat - 'A'.toNat + 10)
  else none

def atLeastBytes : Nat → List Char → Bool
  | 0, _ => true
  | _ + 1, [] => false
  | n + 1, c :: cs => if n + 1 ≤ c.utf8Size then true else atLeastBytes (n + 1 - c.utf8Size) cs

def hexEscape : Reading Nat := do
  let cur ← get
  if atLeastBytes 4 cur.rest then
    match (cur.rest.take 4).mapM hexValue with
    | some [a, b, c, d] => do
        set (Cursor.mk (cur.rest.drop 4) cur.line (cur.column + 4))
        pure (((a * 16 + b) * 16 + c) * 16 + d)
    | _ => do
        set (cur.skipBytes 4)
        fail .invalidEscape
  else
    set (cur.skipBytes 4)
    fail .endOfString

def inString : Reading Char := do
  match ← peek with
  | none => fail .endOfString
  | some c => pure c

def unicodeEscape : Reading Char := do
  let n ← hexEscape
  if 0xDC00 ≤ n && n ≤ 0xDFFF then fail .loneSurrogate
  else if n < 0xD800 || 0xDBFF < n then pure (Char.ofNat n)
  else
    let c ← inString
    if c = '\\' then
      skip
      let c ← inString
      if c = 'u' then
        skip
        let m ← hexEscape
        if m < 0xDC00 || 0xDFFF < m then fail .loneSurrogate
        else pure (Char.ofNat ((n - 0xD800) * 0x400 + (m - 0xDC00) + 0x10000))
      else failAhead .endOfHexEscape
    else failAhead .endOfHexEscape

def simpleEscape (c : Char) : Option Char :=
  match c with
  | '"' => some '"'
  | '\\' => some '\\'
  | '/' => some '/'
  | 'b' => some '\x08'
  | 'f' => some '\x0c'
  | 'n' => some '\n'
  | 'r' => some '\r'
  | 't' => some '\t'
  | _ => none

def stringFrom (read : List Char) : Nat → Reading String
  | 0 => fail .endOfString
  | fuel + 1 => do
      let c ← inString
      if c = '"' then
        skip
        pure (String.ofList read.reverse)
      else if c = '\\' then
        skip
        let c ← inString
        if c = 'u' then
          skip
          let d ← unicodeEscape
          stringFrom (d :: read) fuel
        else
          match simpleEscape c with
          | some d => do
              skip
              stringFrom (d :: read) fuel
          | none => failAhead .invalidEscape
      else if c.toNat < 0x20 then failAhead .controlCharacter
      else
        skip
        stringFrom (c :: read) fuel

def string (fuel : Nat) : Reading String := do
  skip
  stringFrom [] fuel

def moreElements (first : Bool) : Reading Bool := do
  match ← token with
  | none => failAhead .endOfList
  | some ']' => pure false
  | some c =>
      if first then pure true
      else if c = ',' then
        skip
        match ← token with
        | none => failAhead .endOfValue
        | some ']' => failAhead .trailingComma
        | some _ => pure true
      else failAhead .expectedListCommaOrEnd

def moreMembers (first : Bool) : Reading Bool := do
  match ← token with
  | none => failAhead .endOfObject
  | some '\x7d' => pure false
  | some c =>
      if first then
        if c = '"' then pure true else failAhead .keyNotString
      else if c = ',' then
        skip
        match ← token with
        | none => failAhead .endOfValue
        | some '"' => pure true
        | some '\x7d' => failAhead .trailingComma
        | some _ => failAhead .keyNotString
      else failAhead .expectedObjectCommaOrEnd

def colon : Reading Unit := do
  match ← token with
  | none => failAhead .endOfObject
  | some ':' => skip
  | some _ => failAhead .expectedColon

mutual

/-- A value inside `127 - depth` brackets. -/
def value (depth : Nat) : Nat → Reading Json
  | 0 => fail .endOfValue
  | fuel + 1 => do
      match ← token with
      | none => failAhead .endOfValue
      | some 'n' => do skip; word ['u', 'l', 'l']; pure .null
      | some 't' => do skip; word ['r', 'u', 'e']; pure (.bool true)
      | some 'f' => do skip; word ['a', 'l', 's', 'e']; pure (.bool false)
      | some '-' => do skip; return .num (← number false)
      | some '"' => return .str (← string fuel)
      | some '[' =>
          match depth with
          | 0 => failAhead .tooDeep
          | depth + 1 => do skip; return .arr (← elements depth true fuel)
      | some '\x7b' =>
          match depth with
          | 0 => failAhead .tooDeep
          | depth + 1 => do skip; return .obj (← members depth true [] fuel)
      | some c => if c.isDigit then return .num (← number true) else failAhead .expectedValue

def elements (depth : Nat) (first : Bool) : Nat → Reading (List Json)
  | 0 => fail .endOfList
  | fuel + 1 => do
      if ← moreElements first then
        let v ← value depth fuel
        return v :: (← elements depth false fuel)
      else
        skip
        pure []

def members (depth : Nat) (first : Bool) (read : Members) : Nat → Reading Members
  | 0 => fail .endOfObject
  | fuel + 1 => do
      if ← moreMembers first then
        let key ← string fuel
        colon
        let v ← value depth fuel
        members depth false (read.insert key v) fuel
      else
        skip
        pure read

end

def finish : Reading Unit := do
  match ← token with
  | none => pure ()
  | some _ => failAhead .trailingCharacters

end Reading

def maxDepth : Nat := 127

def parse (s : String) : Except ReadError Json :=
  let cur := Cursor.start s
  StateT.run' (do
    let v ← Reading.value maxDepth (2 * cur.rest.length + 2)
    Reading.finish
    pure v) cur

end ProjectShell.Json
