import ProjectShell.Regex.Syntax

namespace ProjectShell.Regex

inductive Inst
  | jump (next : Nat)
  | char (c : Char) (next : Nat)
  | set (s : CharSet) (next : Nat)
  | look (l : Look) (next : Nat)
  | save (slot : Nat) (next : Nat)
  | split (targets : List Nat)
  | accept
deriving DecidableEq, Repr, Inhabited

def Inst.choice (greedy : Bool) (body out : Nat) : Inst :=
  .split (if greedy then [body, out] else [out, body])

def Inst.arity : Inst → Nat
  | split targets => targets.length
  | accept => 0
  | _ => 1

namespace Node

mutual

def codeLength : Node → Nat
  | empty => 1
  | char _ => 1
  | set _ => 1
  | look _ => 1
  | loop min max _ sub =>
      let n := codeLength sub
      match min, max with
      | 0, none => if canBeEmpty sub then n + 2 else n + 1
      | min + 1, none => (min + 1) * n + 1
      | min, some max => min * n + (max - min) * (n + 1)
  | group _ _ sub => codeLength sub + 2
  | concat subs => codeLengths subs
  | alternate subs => codeLengths subs + 1

def codeLengths : List Node → Nat
  | [] => 0
  | n :: ns => codeLength n + codeLengths ns

end

def copies (piece : Nat → Nat → List Inst) (length : Nat) : Nat → Nat → Nat → List Inst
  | 0, _, _ => []
  | 1, base, next => piece base next
  | count + 2, base, next =>
      piece base (base + length) ++ copies piece length (count + 1) (base + length) next

def options (piece : Nat → Nat → List Inst) (length : Nat) (greedy : Bool) :
    Nat → Nat → Nat → List Inst
  | 0, _, _ => []
  | 1, base, next => .choice greedy (base + 1) next :: piece (base + 1) next
  | count + 2, base, next =>
      .choice greedy (base + 1) next :: piece (base + 1) (base + 1 + length) ++
        options piece length greedy (count + 1) (base + 1 + length) next

mutual

/-- The code of a tree whose first instruction has the number `base`; it goes on at `next`. The
body of a repetition that may be empty is entered once before it may be left or entered again. -/
def code : Node → Nat → Nat → List Inst
  | empty, _, next => [.jump next]
  | char c, _, next => [.char c next]
  | set s, _, next => [.set s next]
  | look l, _, next => [.look l next]
  | loop min max greedy sub, base, next =>
      let n := codeLength sub
      match min, max with
      | 0, none =>
          if canBeEmpty sub then
            .choice greedy (base + 1) next :: code sub (base + 1) (base + 1 + n) ++
              [.choice greedy (base + 1) next]
          else .choice greedy (base + 1) next :: code sub (base + 1) base
      | min + 1, none =>
          copies (code sub) n (min + 1) base (base + (min + 1) * n) ++
            [.choice greedy (base + min * n) next]
      | min, some max =>
          let out := base + min * n
          copies (code sub) n min base (if max ≤ min then next else out) ++
            options (code sub) n greedy (max - min) out next
  | group index _ sub, base, next =>
      let n := codeLength sub
      .save (2 * index) (base + 1) :: code sub (base + 1) (base + 1 + n) ++
        [.save (2 * index + 1) next]
  | concat subs, base, next => codeInSequence subs base next
  | alternate subs, base, next =>
      .split (branchStarts subs (base + 1)) :: codeOfBranches subs (base + 1) next

def codeInSequence : List Node → Nat → Nat → List Inst
  | [], _, _ => []
  | [n], base, next => code n base next
  | n :: m :: ns, base, next =>
      code n base (base + codeLength n) ++ codeInSequence (m :: ns) (base + codeLength n) next

def codeOfBranches : List Node → Nat → Nat → List Inst
  | [], _, _ => []
  | n :: ns, base, next => code n base next ++ codeOfBranches ns (base + codeLength n) next

def branchStarts : List Node → Nat → List Nat
  | [], _ => []
  | n :: ns, base => base :: branchStarts ns (base + codeLength n)

end

theorem length_copies {piece : Nat → Nat → List Inst} {length : Nat}
    (h : ∀ base next, (piece base next).length = length) (count base next : Nat) :
    (copies piece length count base next).length = count * length := by
  induction count generalizing base with
  | zero => simp [copies]
  | succ n ih =>
      cases n with
      | zero => simp [copies, h]
      | succ n => simp [copies, h, ih, Nat.succ_mul]; omega

theorem length_options {piece : Nat → Nat → List Inst} {length : Nat} {greedy : Bool}
    (h : ∀ base next, (piece base next).length = length) (count base next : Nat) :
    (options piece length greedy count base next).length = count * (length + 1) := by
  induction count generalizing base with
  | zero => simp [options]
  | succ n ih =>
      cases n with
      | zero => simp [options, h]
      | succ n => simp [options, h, ih, Nat.succ_mul]; omega

mutual

theorem length_code (n : Node) (base next : Nat) : (code n base next).length = codeLength n := by
  match n with
  | empty => rfl
  | char _ => rfl
  | set _ => rfl
  | look _ => rfl
  | loop min max greedy sub =>
      have ih := length_code sub
      simp only [code, codeLength]
      match min, max with
      | 0, none =>
          simp only
          split <;> simp [ih]
      | min + 1, none => simp [length_copies ih]
      | min, some max => cases min <;> simp [length_copies ih, length_options ih]
  | group index name sub => simp [code, codeLength, length_code sub]
  | concat subs => simp [code, codeLength, length_codeInSequence subs]
  | alternate subs => simp [code, codeLength, length_codeOfBranches subs]

theorem length_codeInSequence (ns : List Node) (base next : Nat) :
    (codeInSequence ns base next).length = codeLengths ns := by
  match ns with
  | [] => rfl
  | [n] => simp [codeInSequence, codeLengths, length_code n]
  | n :: m :: ns =>
      rw [codeInSequence, List.length_append, length_code n, length_codeInSequence (m :: ns)]
      rfl

theorem length_codeOfBranches (ns : List Node) (base next : Nat) :
    (codeOfBranches ns base next).length = codeLengths ns := by
  match ns with
  | [] => rfl
  | n :: ns =>
      simp [codeOfBranches, codeLengths, length_code n, length_codeOfBranches ns]

end

mutual

/-- The bytes that the program takes, which are bounded: 32 for a state, 4 for each way out of a
choice, 8 for a run of characters. -/
def cost : Node → Nat
  | empty => 32
  | char _ => 32
  | set s => 32 + 8 * s.runs.length
  | look _ => 32
  | loop min max _ sub =>
      let n := cost sub
      match min, max with
      | 0, none => if canBeEmpty sub then n + 112 else n + 40
      | min + 1, none => (min + 1) * n + 40
      | 0, some 1 => n + 72
      | min, some max =>
          if min = max then min * n
          else (if min = 0 then 32 else min * n) + 32 + (max - min) * (n + 40)
  | group _ _ sub => cost sub + 64
  | concat subs => costs subs
  | alternate subs => costs subs + 64 + 4 * subs.length

def costs : List Node → Nat
  | [] => 0
  | n :: ns => cost n + costs ns

end

def lastGroup (n : Node) : Nat := n.groups.foldl (fun m g => max m g.1) 0

def programCost (n : Node) : Nat :=
  (n.groups.filterMap Prod.snd).foldl (fun total name => total + name.utf8ByteSize + 4)
    (n.cost + 96 + 16 * (n.lastGroup + 1))

def maxProgramCost : Nat := 10 * 1024 * 1024

def program (n : Node) : List Inst :=
  .save 0 1 :: code n 1 (1 + codeLength n) ++ [.save 1 (codeLength n + 2), .accept]

end Node

end ProjectShell.Regex
