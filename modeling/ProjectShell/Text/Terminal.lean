/-!
Text for a stream that is no terminal: control characters are left out, and with them the
sequences of characters that would steer a terminal.
-/

namespace ProjectShell.Text

/-- How much of a steering sequence has been read. Sequences of the third kind name a device
before their body. -/
inductive Steering
  | none
  | escape
  | escapeMore
  | sequence
  | deviceStart
  | deviceParams
  | deviceMore
  | body
  | title
deriving DecidableEq, Repr

namespace Steering

def between (first last : Nat) (c : Char) : Bool := first ≤ c.toNat && c.toNat ≤ last

/-- The byte that ends a body, which may stand inside the encoding of a character. -/
def endsBody (c : Char) : Bool := (String.utf8EncodeChar c).contains 0x9C

def afterEscape (c : Char) : Steering :=
  match c with
  | '[' => sequence
  | ']' => title
  | 'P' => deviceStart
  | 'X' => body
  | '^' => body
  | '_' => body
  | c =>
      if between 0x20 0x2F c then escapeMore
      else if between 0x30 0x7E c then none
      else escape

def after (s : Steering) (c : Char) : Steering :=
  if c = '\x1b' then escape
  else if c = '\x18' || c = '\x1a' then none
  else
    match s with
    | none => none
    | escape => afterEscape c
    | escapeMore => if between 0x30 0x7E c then none else escapeMore
    | sequence => if between 0x40 0x7E c then none else sequence
    | deviceStart =>
        if between 0x20 0x2F c then deviceMore
        else if between 0x30 0x3F c then deviceParams
        else if between 0x40 0x7E c then body
        else deviceStart
    | deviceParams =>
        if between 0x20 0x2F c then deviceMore
        else if between 0x3C 0x7E c then body
        else deviceParams
    | deviceMore => if between 0x30 0x7E c then body else deviceMore
    | body => if endsBody c then none else body
    | title => if c = '\x07' then none else title

def admitsBlank : Steering → Bool
  | none | escape | escapeMore | sequence => true
  | _ => false

end Steering

def isControlBlank (c : Char) : Bool := ['\t', '\n', '\x0c', '\r'].contains c

def isControl (c : Char) : Bool := c.toNat < 0x20 || c.toNat = 0x7F

def plainFrom (shown : Bool) (s : Steering) : List Char → List Char
  | [] => []
  | c :: cs =>
      let shown := shown || s = .none
      if isControlBlank c then
        if shown || s.admitsBlank then c :: plainFrom true s cs else plainFrom false s cs
      else if shown && !isControl c then
        c :: plainFrom true (if c.toNat < 0x80 then s else .none) cs
      else plainFrom false (s.after c) cs

def plain (s : String) : String := String.ofList (plainFrom true .none s.toList)

theorem isControlBlank_eq_false {c : Char} (h : isControl c = false) :
    isControlBlank c = false := by
  cases hb : isControlBlank c with
  | false => rfl
  | true =>
    simp only [isControlBlank, List.contains_eq_mem, decide_eq_true_eq, List.mem_cons,
      List.not_mem_nil, or_false] at hb
    rcases hb with rfl | rfl | rfl | rfl <;> simp [isControl] at h

theorem plainFrom_eq_self {cs : List Char} (h : ∀ c ∈ cs, isControl c = false) :
    plainFrom true .none cs = cs := by
  induction cs with
  | nil => rfl
  | cons c cs ih =>
    have hc := h c (List.mem_cons_self ..)
    simp [plainFrom, isControlBlank_eq_false hc, hc, ih fun d hd => h d (List.mem_cons_of_mem _ hd)]

end ProjectShell.Text
