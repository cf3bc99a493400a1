import ProjectShell.Json.Reader
/-!
Passing over a value without keeping it: at any depth, and with numbers and escapes checked for
their form only.
-/

namespace ProjectShell.Json.Reading

inductive Bracket
  | list
  | object
deriving DecidableEq, Repr

def Bracket.close : Bracket → Char
  | list => ']'
  | object => '\x7d'

def Bracket.unfinished : Bracket → Fault
  | list => .endOfList
  | object => .endOfObject

def Bracket.commaOrEnd : Bracket → Fault
  | list => .expectedListCommaOrEnd
  | object => .expectedObjectCommaOrEnd

def skipExponent : Reading Unit := do
  skip
  match ← peek with
  | some '+' | some '-' => skip
  | _ => pure ()
  match ← peek with
  | some c => if c.isDigit then discard digits else failAhead .invalidNumber
  | none => fail .invalidNumber

def skipNumber : Reading Unit := do
  match ← peek with
  | none => fail .invalidNumber
  | some c =>
      if c = '0' then
        skip
        match ← peek with
        | some d => if d.isDigit then failAhead .invalidNumber else pure ()
        | none => pure ()
      else if c.isDigit then discard digits
      else failAhead .invalidNumber
      match ← peek with
      | some '.' =>
          skip
          if (← digits).isEmpty then failAhead .invalidNumber
          else
            match ← peek with
            | some 'e' | some 'E' => skipExponent
            | _ => pure ()
      | some 'e' | some 'E' => skipExponent
      | _ => pure ()

def skipStringFrom : Nat → Reading Unit
  | 0 => fail .endOfString
  | fuel + 1 => do
      let c ← inString
      if c = '"' then skip
      else if c = '\\' then
        skip
        let c ← inString
        if c = 'u' then
          skip
          discard hexEscape
          skipStringFrom fuel
        else
          match simpleEscape c with
          | some _ => do
              skip
              skipStringFrom fuel
          | none => failAhead .invalidEscape
      else if c.toNat < 0x20 then fail .controlCharacter
      else
        skip
        skipStringFrom fuel

def skipString (fuel : Nat) : Reading Unit := do
  skip
  skipStringFrom fuel

def skipKey (fuel : Nat) : Reading Unit := do
  match ← token with
  | some '"' => skipString fuel
  | some _ => failAhead .keyNotString
  | none => failAhead .endOfObject
  colon

mutual

def skipValueIn (brackets : List Bracket) : Nat → Reading Unit
  | 0 => fail .endOfValue
  | fuel + 1 => do
      match ← token with
      | none => failAhead .endOfValue
      | some 'n' => do skip; word ['u', 'l', 'l']; skipRest brackets true fuel
      | some 't' => do skip; word ['r', 'u', 'e']; skipRest brackets true fuel
      | some 'f' => do skip; word ['a', 'l', 's', 'e']; skipRest brackets true fuel
      | some '-' => do skip; skipNumber; skipRest brackets true fuel
      | some '"' => do skipString fuel; skipRest brackets true fuel
      | some '[' => do skip; skipRest (.list :: brackets) false fuel
      | some '\x7b' => do skip; skipRest (.object :: brackets) false fuel
      | some c =>
          if c.isDigit then do skipNumber; skipRest brackets true fuel
          else failAhead .expectedValue

/-- What follows a value, or an opening bracket when `afterValue` is false. -/
def skipRest (brackets : List Bracket) (afterValue : Bool) : Nat → Reading Unit
  | 0 => fail .endOfValue
  | fuel + 1 =>
      match brackets with
      | [] => pure ()
      | b :: outer => do
          let nextItem : Reading Unit := do
            if b = .object then skipKey fuel
            skipValueIn (b :: outer) fuel
          match ← token with
          | none => failAhead b.unfinished
          | some c =>
              if c = ',' && afterValue then do skip; nextItem
              else if c = b.close then do skip; skipRest outer true fuel
              else if afterValue then failAhead b.commaOrEnd
              else nextItem

end

def skipValue (fuel : Nat) : Reading Unit := skipValueIn [] fuel

end ProjectShell.Json.Reading
