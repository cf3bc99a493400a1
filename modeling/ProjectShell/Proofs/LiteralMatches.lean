import ProjectShell.Proofs.LiteralSearch
import ProjectShell.Proofs.Occurrences

namespace ProjectShell.Regex

open Place

variable {t : List Char} {p q : Place} {r : Regex} {width : Nat}

namespace Place

theorem Reads.pos_eq (h : Reads t p q) : q.pos = p.pos + t.length := by
  induction t generalizing p with
  | nil => exact congrArg pos h
  | cons c t ih =>
    obtain ⟨hc, h⟩ := h
    rw [ih h, pos_step (List.cons_head?_tail hc).symm, List.length_cons]
    omega

theorem exists_front (h : q ∈ p.onward) :
    ∃ front, p.rest = front ++ q.rest ∧ q.pos = p.pos + front.length := by
  obtain ⟨front, hfront⟩ := rest_suffix_of_mem_onward h
  refine ⟨front, hfront.symm, ?_⟩
  have hlength := congrArg List.length hfront
  have hpos := (pos_of_mem_onward h).2
  rw [List.length_append] at hlength
  omega

theorem exists_place {front cs : List Char} (h : p.rest = front ++ cs) :
    ∃ q ∈ p.onward, q.rest = cs ∧ q.pos = p.pos + front.length := by
  obtain ⟨q, hq, rfl⟩ := exists_mem_onward ⟨front, h.symm⟩
  obtain ⟨front', hfront', hpos⟩ := exists_front hq
  rw [List.append_cancel_right (h.symm.trans hfront')]
  exact ⟨q, hq, rfl, hpos⟩

theorem Reads.first {q' : Place} (h : Reads t q q') (hq : q ∈ p.onward)
    (hleft : ∀ q₁ ∈ p.onward, q₁.pos < q.pos → ∀ q₂, ¬ Reads t q₁ q₂) :
    ∃ front, Text.First t p.rest front q'.rest ∧ q.pos = p.pos + front.length := by
  obtain ⟨front, hfront, hpos⟩ := exists_front hq
  refine ⟨front, ⟨by rw [hfront, h.rest_eq, List.append_assoc], ?_⟩, hpos⟩
  rintro front' ⟨back', hback'⟩
  rw [List.append_assoc] at hback'
  obtain ⟨q₁, hq₁, hrest₁, hpos₁⟩ := exists_place hback'.symm
  obtain ⟨q₂, hreads, -⟩ := exists_reads hrest₁
  have hle : q.pos ≤ q₁.pos := Nat.le_of_not_lt (fun hlt => hleft q₁ hq₁ hlt q₂ hreads)
  omega

end Place

namespace Node

theorem getElem?_codeInSequence_chars (t : List Char) (base i : Nat) :
    (codeInSequence (t.map char) base (base + t.length))[i]? =
      t[i]?.map (fun c => .char c (base + i + 1)) := by
  induction t generalizing base i with
  | nil => rfl
  | cons c t ih =>
    cases t with
    | nil => cases i <;> simp [codeInSequence, code]
    | cons d t =>
      have hnext : base + (c :: d :: t).length = base + 1 + (d :: t).length := by
        simp only [List.length_cons]
        omega
      rw [hnext, List.map_cons, List.map_cons, codeInSequence, ← List.map_cons]
      cases i with
      | zero => rfl
      | succ i =>
        have hi : base + 1 + i + 1 = base + (i + 1) + 1 := by omega
        have := ih (base + 1) i
        rw [hi] at this
        exact this

theorem code_literal (ht : t ≠ []) (base next : Nat) :
    (literal false t).code base next = codeInSequence (t.map char) base next := by
  match t, ht with
  | [c], _ => rfl
  | c :: d :: t, _ => rfl

theorem codeLength_literal (ht : t ≠ []) : (literal false t).codeLength = t.length := by
  have hlength (ns : List Char) : codeLengths (ns.map char) = ns.length := by
    induction ns with
    | nil => rfl
    | cons c ns ih =>
      rw [List.map_cons, codeLengths, ih, List.length_cons, codeLength, Nat.add_comm]
  match t, ht with
  | [c], _ => rfl
  | c :: d :: t, _ => exact hlength (c :: d :: t)

end Node

structure Spells (program : Array Inst) (t : List Char) : Prop where
  first : program[0]? = some (.save 0 1)
  char : ∀ i c, t[i]? = some c → program[i + 1]? = some (.char c (i + 2))
  last : program[t.length + 1]? = some (.save 1 (t.length + 2))
  accept : program[t.length + 2]? = some .accept

theorem spells_literal (ht : t ≠ []) : Spells (Node.literal false t).program.toArray t := by
  have hlength := Node.codeLength_literal ht
  obtain ⟨⟨hfirst, -⟩, -, hlast, haccept, -⟩ := carries_program (Node.literal false t)
  rw [hlength] at hlast haccept
  refine ⟨hfirst, ?_, ?_, ?_⟩
  · intro i c hi
    have hlt : i < t.length := (List.getElem?_eq_some_iff.1 hi).1
    have hcode : ((Node.literal false t).code 1 (1 + t.length))[i]? = some (.char c (i + 2)) := by
      rw [Node.code_literal ht, Node.getElem?_codeInSequence_chars, hi, Nat.add_comm 1 i]
      rfl
    rw [List.getElem?_toArray, Node.program, List.cons_append, List.getElem?_cons_succ, hlength,
      List.getElem?_append_left (by rw [Node.length_code, hlength]; exact hlt), hcode]
  · rwa [Nat.add_comm]
  · rwa [Nat.add_comm 1, Nat.add_assoc] at haccept

theorem Spells.within {program : Array Inst} (h : Spells program t) {done left : List Char}
    (ht : t = done ++ left) :
    program[done.length + 1]? =
      some (left.head?.elim (.save 1 (t.length + 2)) (.char · (done.length + 2))) := by
  cases left with
  | nil =>
    rw [List.append_nil] at ht
    exact ht ▸ h.last
  | cons c left => exact h.char _ c (by simp [ht])

inductive Thread.Spelling (t : List Char) (q : Place) : Thread → Prop
  | start : Spelling t q ⟨0, q, [none, none]⟩
  | within {done left : List Char} {p : Place} (ht : t = done ++ left) (h : Reads done q p) :
      Spelling t q ⟨done.length + 1, p, [some q.pos, none]⟩
  | done {p : Place} (h : Reads t q p) :
      Spelling t q ⟨t.length + 2, p, [some q.pos, some p.pos]⟩

namespace Thread.Spelling

variable {program : Array Inst} {u v : Thread} {k : Nat}

theorem step (hprogram : Spells program t) (h : Spelling t q u) (hs : u.Steps program v) :
    Spelling t q v := by
  obtain ⟨i, hi, hv⟩ := hs
  cases h with
  | start =>
    cases hprogram.first.symm.trans hi
    rw [Inst.mem_successors_save.1 hv]
    exact .within (List.nil_append t).symm rfl
  | @within done left p ht h =>
    cases (hprogram.within ht).symm.trans hi
    cases left with
    | nil =>
      rw [List.append_nil] at ht
      rw [Inst.mem_successors_save.1 hv]
      exact .done (ht ▸ h)
    | cons c left =>
      obtain ⟨hhead, rfl⟩ := Inst.mem_successors_char.1 hv
      have hlength : done.length + 2 = (done ++ [c]).length + 1 := by simp
      rw [hlength]
      have hcut : t = (done ++ [c]) ++ left := by rw [ht, List.append_assoc]; rfl
      exact .within hcut (reads_append.2 ⟨p, h, hhead, rfl⟩)
  | done h =>
    cases hprogram.accept.symm.trans hi
    exact absurd hv Inst.not_mem_successors_accept

theorem run (hprogram : Spells program t) (h : Spelling t q u) (hr : u.Runs program k v) :
    Spelling t q v := by
  induction hr with
  | stay u => exact h
  | go hs _ ih => exact ih (h.step hprogram hs)

theorem of_accepts (hprogram : Spells program t) (h : Spelling t q u) (hu : u.Accepts program) :
    ∃ p, Reads t q p ∧ u.slots = [some q.pos, some p.pos] := by
  cases h with
  | start => cases hprogram.first.symm.trans hu
  | @within done left p ht h =>
    have hinst := Option.some.inj ((hprogram.within ht).symm.trans hu)
    cases left <;> cases hinst
  | done h => exact ⟨_, h, rfl⟩

end Thread.Spelling

theorem compile?_escape_eq_some (h : compile? (escape t) false = some r) :
    r = ⟨escape t, (Node.literal false t).program.toArray, 1⟩ := by
  rw [compile?, Node.parse_escape] at h
  simp only [Option.ite_none_right_eq_some, Option.some.injEq] at h
  rw [← h.2, Node.lastGroup, Node.groups_literal]
  rfl

theorem findFrom_escape (h : compile? (escape t) false = some r) (ht : t ≠ [])
    (hwidth : p.pos + p.rest.length < width) :
    (r.findFrom width p = none ∧ ¬ t <:+: p.rest) ∨
      ∃ front back, Text.First t p.rest front back ∧
        r.findFrom width p =
          some ⟨p.pos + front.length, p.pos + front.length + t.length, []⟩ := by
  obtain rfl := compile?_escape_eq_some h
  have hprogram := spells_literal ht
  have hwell := Node.wellFormed_literal t
  have hsome := isSome_findFrom_iff_takes (r := ⟨escape t, _, 1⟩) rfl Nat.one_pos hwell hwidth
  simp only [Node.takes_literal, exists_reads_iff_infix] at hsome
  cases hm : findFrom ⟨escape t, (Node.literal false t).program.toArray, 1⟩ width p with
  | none => exact .inl ⟨rfl, fun hinfix => by simpa [hm] using hsome.2 hinfix⟩
  | some m =>
    obtain ⟨slots, hseek, hslots⟩ := Option.bind_eq_some_iff.1 hm
    have hempty : Closed (Node.literal false t).program.toArray width p ∅ [] :=
      ⟨fun u _ _ hs => absurd hs (by simp [Seen.Has]),
        fun u _ hs => absurd hs (by simp [Seen.Has])⟩
    obtain ⟨q, hq, ⟨k, u, hrun, haccept, rfl⟩, hleft⟩ :=
      leftmost_of_seek hwidth (fun _ hq => hq) hempty hseek
    obtain ⟨q', hreads, hu⟩ :=
      (Thread.Spelling.start.run hprogram hrun).of_accepts hprogram haccept
    obtain ⟨front, hfirst, hpos⟩ := hreads.first hq (fun q₁ hq₁ hlt q₂ hreads₁ => by
      obtain ⟨k, u, hr, hu⟩ := runs_of_takes hwell (t := threadAt ⟨escape t, _, 1⟩ q₁) rfl
        ((Node.takes_literal t).2 hreads₁)
      exact hleft q₁ hq₁ hlt k u hr hu)
    refine .inr ⟨front, q'.rest, hfirst, ?_⟩
    rw [hu, hreads.pos_eq, hpos] at hslots
    exact congrArg some (Option.some.inj hslots).symm

end ProjectShell.Regex
