import ProjectShell.Regex.Literal

namespace ProjectShell.Regex

namespace Node

def ofChar (ignoreCase : Bool) (c : Char) : Node :=
  if ignoreCase && c.isAlpha then .set (CharSet.single c).foldCase else .char c

def literal (ignoreCase : Bool) (cs : List Char) : Node := .ofSequence (cs.map (ofChar ignoreCase))

end Node

namespace Parse

theorem escapesItself_of_isSpecial {c : Char} (hc : isSpecial c = true) :
    escapesItself c = true := by
  have hall : ['\\', '.', '+', '*', '?', '(', ')', '|', '[', ']', '\x7b', '\x7d', '^', '$', '#',
      '&', '-', '~'].all escapesItself = true := rfl
  exact List.all_eq_true.1 hall c (List.contains_iff_mem.1 hc)

theorem isAlphanum_of_escapesItself {c : Char} (hc : escapesItself c = true) :
    c.isAlphanum = false := by
  simp only [escapesItself, Bool.and_eq_true, Bool.not_eq_true'] at hc
  exact hc.1.1.2

theorem namedClass?_eq_none {c : Char} (hc : c.isAlphanum = false) : namedClass? c = none := by
  unfold namedClass?
  split
  case h_7 => rfl
  all_goals exact absurd hc (by decide)

theorem run_bump (s : Scan) : bump.run s = some ((), { s with rest := s.rest.tail }) := rfl

theorem run_peek (s : Scan) : peek.run s = some (s.rest.head?, s) := rfl

theorem run_here {s : Scan} {c : Char} {cs : List Char} (h : s.rest = c :: cs) :
    here.run s = some (c, s) := by
  obtain ⟨rest, flags, nextGroup, names⟩ := s
  cases h
  rfl

theorem run_space {s : Scan} (h : s.flags.verbose = false) : space.run s = some ((), s) := by
  change some ((), if s.flags.verbose then _ else s) = _
  rw [h]
  rfl

theorem run_charNode (c : Char) (s : Scan) :
    (charNode c).run s = some (Node.ofChar s.flags.ignoreCase c, s) := by
  change (if s.flags.ignoreCase && c.isAlpha then pure (Node.set (CharSet.single c).foldCase)
    else pure (Node.char c) : Parse Node).run s = _
  unfold Node.ofChar
  split <;> rfl

variable {s : Scan} {c : Char} {cs : List Char}

theorem run_escape (fuel : Nat) (hc : isSpecial c = true) (h : s.rest = '\\' :: c :: cs) :
    (escape fuel).run s = some (Node.ofChar s.flags.ignoreCase c, { s with rest := cs }) := by
  have hitself := escapesItself_of_isSpecial hc
  have halnum := isAlphanum_of_escapesItself hitself
  have hname := namedClass?_eq_none halnum
  have hne {d : Char} (hd : d.isAlphanum = true) : c ≠ d := by
    rintro rfl
    exact absurd hd (by simp [halnum])
  have hx : c ≠ 'x' := hne rfl
  have hu : c ≠ 'u' := hne rfl
  have hU : c ≠ 'U' := hne rfl
  have hhere := run_here (s := { s with rest := c :: cs }) rfl
  unfold escape
  simp only [StateT.run_bind, run_bump, h, Option.bind_eq_bind, Option.bind_some, List.tail_cons,
    hhere]
  simp only [hname, hitself, if_true, run_charNode]

variable {depth : Nat} {read branches : List Node} {fuel : Nat}

theorem run_branchesFrom_plain (hc : isSpecial c = false) (h : s.rest = c :: cs)
    (hv : s.flags.verbose = false) :
    (branchesFrom depth read branches (fuel + 1)).run s =
      (branchesFrom depth (Node.ofChar s.flags.ignoreCase c :: read) branches fuel).run
        { s with rest := cs } := by
  rw [branchesFrom]
  simp only [StateT.run_bind, run_space hv, run_peek, h, Option.bind_eq_bind, Option.bind_some,
    List.head?_cons]
  split
  case h_1 heq => cases heq
  case h_14 heq =>
    cases heq
    simp only [StateT.run_bind, run_bump, h, run_charNode, Option.bind_eq_bind, Option.bind_some,
      List.tail_cons]
  all_goals
    rename_i heq
    rw [Option.some.inj heq] at hc
    exact absurd hc (by decide)

theorem run_branchesFrom_escaped (hc : isSpecial c = true) (h : s.rest = '\\' :: c :: cs)
    (hv : s.flags.verbose = false) :
    (branchesFrom depth read branches (fuel + 1)).run s =
      (branchesFrom depth (Node.ofChar s.flags.ignoreCase c :: read) branches fuel).run
        { s with rest := cs } := by
  rw [branchesFrom]
  simp only [StateT.run_bind, run_space hv, run_peek, h, Option.bind_eq_bind, Option.bind_some,
    List.head?_cons, run_escape fuel hc h]

theorem run_branchesFrom_escape (p : List Char) (h : s.rest = Regex.escape p)
    (hv : s.flags.verbose = false) (hfuel : p.length < fuel) :
    (branchesFrom depth read branches fuel).run s =
      some (close ((p.map (Node.ofChar s.flags.ignoreCase)).reverse ++ read) branches,
        { s with rest := [] }) := by
  induction p generalizing s read fuel with
  | nil =>
    obtain ⟨fuel, rfl⟩ := Nat.exists_eq_succ_of_ne_zero (Nat.ne_zero_of_lt hfuel)
    obtain ⟨rest, flags, nextGroup, names⟩ := s
    obtain rfl : rest = [] := h
    rw [branchesFrom]
    simp only [StateT.run_bind, run_space hv, run_peek, Option.bind_eq_bind, Option.bind_some,
      List.head?_nil]
    rfl
  | cons c p ih =>
    obtain ⟨fuel, rfl⟩ := Nat.exists_eq_succ_of_ne_zero (Nat.ne_zero_of_lt hfuel)
    have hrest : (branchesFrom depth (Node.ofChar s.flags.ignoreCase c :: read) branches fuel).run
        { s with rest := Regex.escape p } = _ := ih rfl hv (Nat.lt_of_succ_lt_succ hfuel)
    rw [Regex.escape] at h
    by_cases hc : isSpecial c = true
    · rw [if_pos hc] at h
      rw [run_branchesFrom_escaped hc h hv, hrest]
      simp
    · rw [if_neg hc] at h
      rw [run_branchesFrom_plain (Bool.eq_false_iff.2 hc) h hv, hrest]
      simp

end Parse

theorem length_le_length_escape (p : List Char) : p.length ≤ (escape p).length := by
  induction p with
  | nil => exact Nat.le_refl 0
  | cons c p ih =>
    rw [escape]
    split <;> simp only [List.length_cons] <;> omega

theorem exists_escape_cons (c : Char) (p : List Char) :
    ∃ d ds, escape (c :: p) = d :: ds := by
  rw [escape]
  split
  · exact ⟨_, _, rfl⟩
  · exact ⟨_, _, rfl⟩

namespace Node

theorem depth_ofChar (ignoreCase : Bool) (c : Char) : (ofChar ignoreCase c).depth = 0 := by
  unfold ofChar
  split <;> rfl

theorem depths_map_ofChar_le (ignoreCase : Bool) (p : List Char) :
    depths (p.map (ofChar ignoreCase)) ≤ 1 := by
  induction p with
  | nil => exact Nat.zero_le 1
  | cons c p ih =>
    rw [List.map_cons, depths, depth_ofChar]
    exact Nat.max_le.2 ⟨Nat.le_refl 1, ih⟩

theorem depth_literal_le (ignoreCase : Bool) (p : List Char) :
    (literal ignoreCase p).depth ≤ maxNesting := by
  have hone := depths_map_ofChar_le ignoreCase p
  unfold literal
  match p with
  | [] => exact Nat.zero_le _
  | [c] =>
    change (ofChar ignoreCase c).depth ≤ maxNesting
    rw [depth_ofChar]
    exact Nat.zero_le _
  | c :: d :: p => exact Nat.le_trans hone (by decide)

theorem parse_escape (p : List Char) (ignoreCase : Bool) :
    parse (escape p) ignoreCase = some (literal ignoreCase p) := by
  have hfuel : p.length < 2 * (escape p).length + 2 := by
    have := length_le_length_escape p
    omega
  have hrun : (Parse.branchesFrom 0 [] [] (2 * (escape p).length + 2)).run
      { rest := escape p, flags := { ignoreCase } } = _ :=
    Parse.run_branchesFrom_escape p rfl rfl hfuel
  have hclose : Parse.close ((p.map (ofChar ignoreCase)).reverse ++ []) [] =
      literal ignoreCase p := by
    simp [Parse.close, ofBranches, literal]
  simp only [parse, hrun, hclose, depth_literal_le, if_true]

theorem groups_ofChar (ignoreCase : Bool) (c : Char) : (ofChar ignoreCase c).groups = [] := by
  unfold ofChar
  split <;> rfl

theorem groupsIn_map_ofChar (ignoreCase : Bool) (p : List Char) :
    groupsIn (p.map (ofChar ignoreCase)) = [] := by
  induction p with
  | nil => rfl
  | cons c p ih => rw [List.map_cons, groupsIn, groups_ofChar, ih, List.append_nil]

theorem groups_literal (ignoreCase : Bool) (p : List Char) :
    (literal ignoreCase p).groups = [] := by
  unfold literal
  match p with
  | [] => rfl
  | [c] => exact groups_ofChar ignoreCase c
  | c :: d :: p => exact groupsIn_map_ofChar ignoreCase (c :: d :: p)

theorem programCost_literal (ignoreCase : Bool) (p : List Char) :
    (literal ignoreCase p).programCost = (literal ignoreCase p).cost + 112 := by
  rw [programCost, lastGroup, groups_literal]
  rfl

theorem cost_literal_cons (ignoreCase : Bool) (c : Char) (p : List Char) :
    (literal ignoreCase (c :: p)).cost = costs ((c :: p).map (ofChar ignoreCase)) := by
  unfold literal
  cases p with
  | nil => simp [ofSequence, costs]
  | cons d p => simp [ofSequence, cost]

theorem costs_escape_le (ignoreCase : Bool) (p : List Char) :
    costs (p.map (ofChar ignoreCase)) ≤ costs ((escape p).map (ofChar ignoreCase)) := by
  induction p with
  | nil => exact Nat.le_refl _
  | cons c p ih =>
    rw [escape]
    split <;> simp only [List.map_cons, costs] <;> omega

theorem cost_literal_escape_le (ignoreCase : Bool) (p : List Char) :
    (literal ignoreCase p).cost ≤ (literal ignoreCase (escape p)).cost := by
  have hcosts := costs_escape_le ignoreCase p
  cases p with
  | nil => exact Nat.le_refl _
  | cons c p =>
    obtain ⟨d, ds, hd⟩ := exists_escape_cons c p
    rw [hd] at hcosts ⊢
    rwa [cost_literal_cons, cost_literal_cons]

end Node

theorem compile?_escape_eq_none_iff (p : List Char) (ignoreCase : Bool) :
    compile? (escape p) ignoreCase = none ↔
      Node.maxProgramCost < (Node.literal ignoreCase p).cost + 112 := by
  simp only [compile?, Node.parse_escape, Node.programCost_literal]
  split
  · rename_i h
    simp [Nat.not_lt.2 h]
  · rename_i h
    simp [Nat.lt_of_not_le h]

theorem compile?_escape_escape {p : List Char} {ignoreCase : Bool}
    (h : compile? (escape p) ignoreCase = none) :
    compile? (escape (escape p)) ignoreCase = none := by
  rw [compile?_escape_eq_none_iff] at h ⊢
  have hcost := Node.cost_literal_escape_le ignoreCase p
  omega

theorem compileLenient_escape (p : List Char) (ignoreCase : Bool) :
    compileLenient (escape p) ignoreCase = compile? (escape p) ignoreCase := by
  rw [compileLenient]
  cases hc : compile? (escape p) ignoreCase with
  | some r => rfl
  | none => exact compile?_escape_escape hc

end ProjectShell.Regex
