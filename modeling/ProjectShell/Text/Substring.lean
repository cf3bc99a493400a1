namespace ProjectShell.Text

def dropFront : List Char → List Char → Option (List Char)
  | [], cs => some cs
  | _ :: _, [] => none
  | f :: front, c :: cs => if f = c then dropFront front cs else none

theorem dropFront_eq_some_iff {front cs rest : List Char} :
    dropFront front cs = some rest ↔ cs = front ++ rest := by
  induction front generalizing cs with
  | nil => simp [dropFront, eq_comm]
  | cons f front ih =>
      cases cs with
      | nil => simp [dropFront]
      | cons c cs =>
          simp only [dropFront]
          split
          · rename_i h
            simp [ih, h]
          · rename_i h
            simp [Ne.symm h]

def startsWith (front s : String) : Bool := (dropFront front.toList s.toList).isSome

def endsWith (back s : String) : Bool :=
  (dropFront back.toList.reverse s.toList.reverse).isSome

def cutFirst (needle : List Char) : List Char → Option (List Char × List Char)
  | [] => if needle.isEmpty then some ([], []) else none
  | c :: cs =>
      match dropFront needle (c :: cs) with
      | some rest => some ([], rest)
      | none => (cutFirst needle cs).map (fun (before, rest) => (c :: before, rest))

def occursIn (needle s : String) : Bool := (cutFirst needle.toList s.toList).isSome

def replaceFirst (old new : String) (s : String) : String :=
  match cutFirst old.toList s.toList with
  | some (before, rest) => String.ofList before ++ new ++ String.ofList rest
  | none => s

def cutAt (c : Char) : List Char → Option (List Char × List Char)
  | [] => none
  | d :: cs =>
      if d = c then some ([], cs) else (cutAt c cs).map (fun (before, rest) => (d :: before, rest))

def cutAtLast (c : Char) (cs : List Char) : Option (List Char × List Char) :=
  (cutAt c cs.reverse).map (fun (back, front) => (front.reverse, back.reverse))

def replaceFrom (needle new : List Char) : Nat → List Char → List Char
  | _, [] => []
  | skip + 1, _ :: cs => replaceFrom needle new skip cs
  | 0, c :: cs =>
      match dropFront needle (c :: cs) with
      | some _ => new ++ replaceFrom needle new (needle.length - 1) cs
      | none => c :: replaceFrom needle new 0 cs

def replaceAll (needle new cs : List Char) : List Char :=
  if needle.isEmpty then new ++ cs.flatMap (fun c => c :: new) else replaceFrom needle new 0 cs

end ProjectShell.Text
