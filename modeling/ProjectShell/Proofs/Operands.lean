import ProjectShell.Command.Options

namespace ProjectShell.OptionTable

def settledFrom (t : OptionTable) (o : Options) : List String → Bool
  | [] => true
  | arg :: rest =>
      if arg = "--" then true
      else
        match t.argument o arg with
        | (o, none) => settledFrom t o rest
        | (o, some name) =>
            match rest with
            | [] => false
            | v :: rest => settledFrom t (o.setValue name v) rest

def settled (t : OptionTable) (args : List String) : Bool := settledFrom t {} args

def dashed (arg : String) : Bool :=
  match arg.toList with
  | '-' :: _ :: _ => true
  | _ => false

variable {t : OptionTable} {f : String}

theorem argument_of_not_dashed (hf : dashed f = false) (o : Options) :
    t.argument o f = (o.addOperand f, none) := by
  unfold argument
  unfold dashed at hf
  split
  · rename_i hcs
    simp [hcs] at hf
  · rename_i hcs
    simp [hcs] at hf
  · rfl

theorem argument_operand (hf : f.toList.head? ≠ some '-') (o : Options) :
    t.argument o f = (o.addOperand f, none) := by
  refine argument_of_not_dashed ?_ o
  unfold dashed
  split
  · rename_i hcs
    exact absurd (congrArg List.head? hcs) hf
  · rfl

theorem parseFrom_concat (hf : f.toList.head? ≠ some '-') {o : Options} {args : List String}
    (h : t.settledFrom o args = true) :
    t.parseFrom o (args ++ [f]) = (t.parseFrom o args).addOperand f := by
  fun_induction settledFrom t o args with
  | case1 o =>
    have hne : f ≠ "--" := by
      rintro rfl
      exact hf rfl
    rw [List.nil_append, parseFrom, parseFrom, if_neg hne, argument_operand hf]
    rfl
  | case2 o rest => simp [parseFrom, Options.addOperand]
  | case3 o arg rest hne o' harg ih =>
    rw [List.cons_append, parseFrom, parseFrom, if_neg hne, if_neg hne, harg]
    exact ih h
  | case4 o arg hne o' name harg => cases h
  | case5 o arg hne o' name harg v rest ih =>
    rw [List.cons_append, parseFrom, parseFrom, if_neg hne, if_neg hne, harg]
    exact ih h

theorem parse_concat (hf : f.toList.head? ≠ some '-') {args : List String}
    (h : t.settled args = true) : t.parse (args ++ [f]) = (t.parse args).addOperand f :=
  parseFrom_concat hf h

end ProjectShell.OptionTable
