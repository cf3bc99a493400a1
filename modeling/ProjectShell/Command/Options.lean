import ProjectShell.SortedMap
import ProjectShell.Text.Substring

namespace ProjectShell

structure Flag where
  name : String
  short : Option Char
  takesValue : Bool
deriving DecidableEq, Repr

namespace Flag

def switch (short : Char) (name : String) : Flag := ⟨name, some short, false⟩

def value (short : Char) (name : String) : Flag := ⟨name, some short, true⟩

def longValue (name : String) : Flag := ⟨name, none, true⟩

end Flag

/-- `numeric` names the option whose value may be written as a bare dash and number. -/
structure OptionTable where
  flags : List Flag
  numeric : Option String := none
deriving DecidableEq, Repr

structure Options where
  switches : List String := []
  values : SortedMap String := ∅
  operands : List String := []
  unknown : List String := []
deriving DecidableEq

namespace Options

def has (o : Options) (name : String) : Bool := o.switches.contains name

def value? (o : Options) (name : String) : Option String := o.values.get? name

def setSwitch (o : Options) (name : String) : Options :=
  { o with switches := o.switches ++ [name] }

def setValue (o : Options) (name value : String) : Options :=
  { o with values := o.values.insert name value }

def addOperand (o : Options) (operand : String) : Options :=
  { o with operands := o.operands ++ [operand] }

def addUnknown (o : Options) (option : String) : Options :=
  { o with unknown := o.unknown ++ [option] }

end Options

namespace OptionTable

def byShort (t : OptionTable) (c : Char) : Option Flag := t.flags.find? (fun f => f.short = some c)

def byLong (t : OptionTable) (name : String) : Option Flag := t.flags.find? (fun f => f.name = name)

/-- Short options that share one dash. The first that takes a value takes the rest of them; if
nothing is left, its name is given back. -/
def cluster (t : OptionTable) (o : Options) : List Char → Options × Option String
  | [] => (o, none)
  | c :: cs =>
      match t.byShort c with
      | some flag =>
          if flag.takesValue then
            if cs.isEmpty then (o, some flag.name)
            else (o.setValue flag.name (String.ofList cs), none)
          else cluster t (o.setSwitch flag.name) cs
      | none => cluster t (o.addUnknown (String.ofList ['-', c])) cs

def longForm (cs : List Char) : String × Option String :=
  match Text.cutAt '=' cs with
  | some (name, value) => (String.ofList name, some (String.ofList value))
  | none => (String.ofList cs, none)

/-- How one argument adds to the options; with the name of an option if it takes the next argument
as its value. -/
def argument (t : OptionTable) (o : Options) (arg : String) : Options × Option String :=
  match arg.toList with
  | '-' :: '-' :: cs =>
      let (name, inline) := longForm cs
      match t.byLong name with
      | some flag =>
          if flag.takesValue then
            match inline with
            | some v => (o.setValue flag.name v, none)
            | none => (o, some flag.name)
          else (o.setSwitch flag.name, none)
      | none => (o.addUnknown arg, none)
  | '-' :: c :: cs =>
      match t.numeric with
      | some name =>
          if (c :: cs).all Char.isDigit then (o.setValue name (String.ofList (c :: cs)), none)
          else t.cluster o (c :: cs)
      | none => t.cluster o (c :: cs)
  | _ => (o.addOperand arg, none)

def parseFrom (t : OptionTable) (o : Options) : List String → Options
  | [] => o
  | arg :: rest =>
      if arg = "--" then { o with operands := o.operands ++ rest }
      else
        match t.argument o arg with
        | (o, none) => parseFrom t o rest
        | (o, some name) =>
            match rest with
            | [] => o
            | v :: rest => parseFrom t (o.setValue name v) rest

def parse (t : OptionTable) (args : List String) : Options := parseFrom t {} args

end OptionTable

end ProjectShell
