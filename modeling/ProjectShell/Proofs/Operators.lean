import Mathlib.Data.List.Induction
import ProjectShell.Shell.Operator

namespace ProjectShell

namespace Word

def quoteStep (quote : Option Char) (c : Char) : Option Char :=
  match quote with
  | some q => if c = q then none else some q
  | none => if isQuote c then some c else none

def quoteAfter (quote : Option Char) (cs : List Char) : Option Char := cs.foldl quoteStep quote

abbrev Closed (cs : List Char) : Prop := quoteAfter none cs = none

@[simp]
theorem quoteAfter_nil (quote : Option Char) : quoteAfter quote [] = quote := rfl

@[simp]
theorem quoteAfter_cons (quote : Option Char) (c : Char) (cs : List Char) :
    quoteAfter quote (c :: cs) = quoteAfter (quoteStep quote c) cs := rfl

theorem quoteAfter_append (quote : Option Char) (cs ds : List Char) :
    quoteAfter quote (cs ++ ds) = quoteAfter (quoteAfter quote cs) ds :=
  List.foldl_append

theorem isQuote_of_quoteAfter {quote : Option Char} {cs : List Char} {q : Char}
    (hq : ∀ d, quote = some d → isQuote d = true) (h : quoteAfter quote cs = some q) :
    isQuote q = true := by
  induction cs generalizing quote with
  | nil => exact hq q h
  | cons c cs ih =>
    refine ih ?_ h
    intro d hd
    cases quote with
    | some q' =>
      simp only [quoteStep] at hd
      split at hd
      · cases hd
      · exact hq d hd
    | none =>
      simp only [quoteStep] at hd
      split at hd
      · cases hd
        assumption
      · cases hd

theorem quoteAfter_concat {cs : List Char} {c : Char} (hc : isQuote c = false) :
    quoteAfter none (cs ++ [c]) = quoteAfter none cs := by
  rw [quoteAfter_append]
  cases hq : quoteAfter none cs with
  | none => simp [quoteStep, hc]
  | some q =>
    have hquote : isQuote q = true := isQuote_of_quoteAfter (by simp) hq
    have hne : c ≠ q := by
      rintro rfl
      simp [hc] at hquote
    simp [quoteStep, hne]

theorem quoteAfter_append_plain {cs ds : List Char} (h : ∀ c ∈ ds, isQuote c = false) :
    quoteAfter none (cs ++ ds) = quoteAfter none cs := by
  induction ds generalizing cs with
  | nil => rw [List.append_nil]
  | cons d ds ih =>
    obtain ⟨hd, hds⟩ := List.forall_mem_cons.1 h
    rw [List.append_cons, ih hds, quoteAfter_concat hd]

theorem quoteStep_none {c : Char} (h : isQuote c = false) : quoteStep none c = none := by
  simp [quoteStep, h]

end Word

namespace Operator

def sign : Operator → Char
  | sequence => ';'
  | both => '&'
  | either => '|'
  | pipe => '|'

theorem chars_eq (op : Operator) : op.chars = [op.sign] ∨ op.chars = [op.sign, op.sign] := by
  cases op <;> simp [chars, sign]

theorem isQuote_sign (op : Operator) : Word.isQuote op.sign = false := by cases op <;> rfl

theorem quoteAfter_chars (op : Operator) (cs : List Char) :
    Word.quoteAfter none (op.chars ++ cs) = Word.quoteAfter none cs := by
  have hs := Word.quoteStep_none op.isQuote_sign
  rcases op.chars_eq with h | h <;> simp [h, hs]

theorem chars_append_drop {op : Operator} {c : Char} {cs : List Char} (h : op.chars <+: c :: cs) :
    op.chars ++ cs.drop (op.chars.length - 1) = c :: cs := by
  obtain ⟨behind, hb⟩ := h
  have hpos : op.chars.length = op.chars.length - 1 + 1 := by
    rcases op.chars_eq with h | h <;> simp [h]
  rw [← List.drop_succ_cons (a := c), ← hpos, ← hb, List.drop_left]

theorem sign_eq_of_prefix_cons {o : Operator} {c : Char} {cs : List Char}
    (h : o.chars <+: c :: cs) : o.sign = c := by
  rcases o.chars_eq with ho | ho <;> rw [ho, List.cons_prefix_cons] at h <;> exact h.1

def Apart (ops : List Operator) : Prop := ∀ o ∈ ops, ∀ o' ∈ ops, o.sign = o'.sign → o = o'

instance (ops : List Operator) : Decidable (Apart ops) := inferInstanceAs (Decidable (∀ _ ∈ _, _))

def StandsIn (op : Operator) (cs : List Char) : Prop :=
  ∃ before behind, cs = before ++ (op.chars ++ behind) ∧ Word.Closed before

end Operator

namespace Pieces

variable {ops : List Operator} {op : Operator}

def operators (p : Pieces) : List Operator := p.rest.map Prod.fst

def followedBy (p : Pieces) (op : Operator) (q : Pieces) : Pieces :=
  ⟨p.first, p.rest ++ (op, q.first) :: q.rest⟩

theorem all_followedBy (p : Pieces) (op : Operator) (q : Pieces) :
    (p.followedBy op q).all = p.all ++ q.all := by
  simp [all, followedBy]

theorem push_followedBy (c : Char) (p : Pieces) (op : Operator) (q : Pieces) :
    (p.followedBy op q).push c = (p.push c).followedBy op q := rfl

def next? (ops : List Operator) (quote : Option Char) (cs : List Char) : Option Operator :=
  match quote with
  | some _ => none
  | none => ops.find? (fun op => op.chars.isPrefixOf cs)

theorem next?_eq_some {quote : Option Char} {cs : List Char} (h : next? ops quote cs = some op) :
    quote = none ∧ op ∈ ops ∧ op.chars <+: cs := by
  cases quote with
  | some q => cases h
  | none =>
    have hp := List.find?_some (p := fun op : Operator => op.chars.isPrefixOf cs) h
    exact ⟨rfl, List.mem_of_find?_eq_some h, List.isPrefixOf_iff_prefix.1 hp⟩

theorem next?_eq_some_of_mem (ha : Operator.Apart ops) (hop : op ∈ ops) {cs : List Char}
    (h : op.chars <+: cs) : next? ops none cs = some op := by
  cases hn : next? ops none cs with
  | none => exact absurd (List.isPrefixOf_iff_prefix.2 h) (List.find?_eq_none.1 hn op hop)
  | some o =>
    obtain ⟨-, ho, hpre⟩ := next?_eq_some hn
    have hsign : o.sign = op.sign := by
      obtain ⟨tail, rfl⟩ := h
      rcases op.chars_eq with hc | hc <;> rw [hc] at hpre <;>
        exact Operator.sign_eq_of_prefix_cons hpre
    rw [ha o ho op hop hsign]

theorem scan_push {quote : Option Char} {c : Char} {cs : List Char}
    (hn : next? ops quote (c :: cs) = none) :
    scan ops quote 0 (c :: cs) = (scan ops (Word.quoteStep quote c) 0 cs).push c := by
  cases quote with
  | some q => simp [scan, Word.quoteStep]
  | none =>
    have hf : ops.find? (fun op => op.chars.isPrefixOf (c :: cs)) = none := hn
    by_cases hq : Word.isQuote c = true <;> simp [scan, Word.quoteStep, hq, hf]

theorem scan_operator {c : Char} {cs : List Char} (hn : next? ops none (c :: cs) = some op) :
    scan ops none 0 (c :: cs) =
      Pieces.followedBy ⟨[], []⟩ op (scan ops none (op.chars.length - 1) cs) := by
  have hq : Word.isQuote c = false :=
    Operator.sign_eq_of_prefix_cons (next?_eq_some hn).2.2 ▸ op.isQuote_sign
  have hf : ops.find? (fun op => op.chars.isPrefixOf (c :: cs)) = some op := hn
  simp [scan, hq, hf, followedBy]

theorem scan_skip (quote : Option Char) (cs ds : List Char) :
    scan ops quote cs.length (cs ++ ds) = scan ops quote 0 ds := by
  induction cs with
  | nil => rfl
  | cons c cs ih => exact ih

theorem scan_chars_append (ha : Operator.Apart ops) (hop : op ∈ ops) (cs : List Char) :
    scan ops none 0 (op.chars ++ cs) = Pieces.followedBy ⟨[], []⟩ op (split ops cs) := by
  obtain ⟨tail, ht⟩ : ∃ tail, op.chars = op.sign :: tail := by
    rcases op.chars_eq with h | h <;> exact ⟨_, h⟩
  have hn : next? ops none (op.chars ++ cs) = some op :=
    next?_eq_some_of_mem ha hop (List.prefix_append ..)
  rw [ht, List.cons_append] at hn ⊢
  rw [scan_operator hn, ht, List.length_cons, Nat.add_sub_cancel, scan_skip, split]

theorem prefix_of_prefix_append {o : Operator} (ha : Operator.Apart ops) (ho : o ∈ ops)
    (hop : op ∈ ops) {c : Char} {cs ds : List Char}
    (hb : ∀ d, (c :: cs).getLast? = some d → op.chars ≠ [d, d])
    (h : o.chars <+: c :: cs ++ (op.chars ++ ds)) : o.chars <+: c :: cs := by
  refine List.prefix_of_prefix_length_le h (List.prefix_append ..) ?_
  rcases o.chars_eq with hc | hc
  · simp [hc]
  · cases cs with
    | cons d cs => simp [hc]
    | nil =>
      have hboth : o.sign = c ∧ o.sign = op.sign := by
        rw [hc] at h
        rcases op.chars_eq with hp | hp <;> simpa [hp, List.cons_prefix_cons] using h
      have heq : o = op := ha o ho op hop hboth.2
      subst heq
      rw [hboth.1] at hc
      exact absurd hc (hb c rfl)

theorem next?_append (ha : Operator.Apart ops) (hop : op ∈ ops) (quote : Option Char) {c : Char}
    {cs : List Char} (hb : ∀ d, (c :: cs).getLast? = some d → op.chars ≠ [d, d])
    (ds : List Char) :
    next? ops quote (c :: (cs ++ (op.chars ++ ds))) = next? ops quote (c :: cs) := by
  cases quote with
  | some q => rfl
  | none =>
    cases hn : next? ops none (c :: cs) with
    | some o =>
      obtain ⟨-, ho, hpre⟩ := next?_eq_some hn
      exact next?_eq_some_of_mem ha ho (hpre.trans (List.prefix_append ..))
    | none =>
      cases hm : next? ops none (c :: (cs ++ (op.chars ++ ds))) with
      | none => rfl
      | some o =>
        obtain ⟨-, ho, hpre⟩ := next?_eq_some hm
        rw [next?_eq_some_of_mem ha ho (prefix_of_prefix_append ha ho hop hb hpre)] at hn
        cases hn

theorem scan_append (ha : Operator.Apart ops) (hop : op ∈ ops) {quote : Option Char} {skip : Nat}
    {cs : List Char} (hs : skip ≤ cs.length) (hq : Word.quoteAfter quote (cs.drop skip) = none)
    (hb : ∀ d, cs.getLast? = some d → op.chars ≠ [d, d]) (ds : List Char) :
    scan ops quote skip (cs ++ (op.chars ++ ds)) =
      (scan ops quote skip cs).followedBy op (split ops ds) := by
  induction cs generalizing quote skip with
  | nil =>
    obtain rfl : skip = 0 := Nat.le_zero.1 hs
    obtain rfl : quote = none := hq
    rw [List.nil_append, scan_chars_append ha hop, scan]
  | cons c cs ih =>
    have htail : ∀ d, cs.getLast? = some d → op.chars ≠ [d, d] := by
      intro d hd
      exact hb d (by simp [List.getLast?_cons, hd])
    cases skip with
    | succ skip => exact ih (Nat.le_of_succ_le_succ hs) hq htail
    | zero =>
      have happ := next?_append ha hop quote hb ds
      cases hn : next? ops quote (c :: cs) with
      | none =>
        rw [hn] at happ
        rw [scan_push hn, List.cons_append, scan_push happ]
        rw [ih (Nat.zero_le _) hq htail, push_followedBy]
      | some o =>
        obtain ⟨rfl, -, hpre⟩ := next?_eq_some hn
        rw [hn] at happ
        rw [scan_operator hn, List.cons_append, scan_operator happ]
        have hlen : o.chars.length - 1 ≤ cs.length := Nat.sub_le_of_le_add hpre.length_le
        rw [List.drop_zero, ← Operator.chars_append_drop hpre, Operator.quoteAfter_chars] at hq
        rw [ih hlen hq htail]
        simp [followedBy]

theorem join_followedBy (p : Pieces) (op : Operator) (q : Pieces) :
    (p.followedBy op q).join = p.join ++ (op.chars ++ q.join) := by
  simp [join, followedBy]

theorem join_push (c : Char) (p : Pieces) : (p.push c).join = c :: p.join := rfl

theorem join_scan {quote : Option Char} {skip : Nat} {cs : List Char} (hs : skip ≤ cs.length) :
    (scan ops quote skip cs).join = cs.drop skip := by
  induction cs generalizing quote skip with
  | nil => simp [scan, join]
  | cons c cs ih =>
    cases skip with
    | succ skip => exact ih (Nat.le_of_succ_le_succ hs)
    | zero =>
      cases hn : next? ops quote (c :: cs) with
      | none => rw [scan_push hn, join_push, ih (Nat.zero_le _), List.drop_zero, List.drop_zero]
      | some o =>
        obtain ⟨rfl, -, hpre⟩ := next?_eq_some hn
        have hlen : o.chars.length - 1 ≤ cs.length := Nat.sub_le_of_le_add hpre.length_le
        rw [scan_operator hn, join_followedBy, ih hlen, Operator.chars_append_drop hpre]
        rfl

theorem join_split (ops : List Operator) (cs : List Char) : (split ops cs).join = cs :=
  join_scan (Nat.zero_le _)

theorem operators_followedBy (p : Pieces) (op : Operator) (q : Pieces) :
    (p.followedBy op q).operators = p.operators ++ op :: q.operators := by
  simp [operators, followedBy]

theorem standsIn_of_mem_scan {quote : Option Char} {skip : Nat} {cs : List Char}
    (h : op ∈ (scan ops quote skip cs).operators) :
    op ∈ ops ∧ ∃ before behind, cs.drop skip = before ++ (op.chars ++ behind) ∧
      Word.quoteAfter quote before = none := by
  induction cs generalizing quote skip with
  | nil => simp [scan, operators] at h
  | cons c cs ih =>
    cases skip with
    | succ skip => exact ih h
    | zero =>
      cases hn : next? ops quote (c :: cs) with
      | none =>
        rw [scan_push hn] at h
        obtain ⟨hop, before, behind, hcs, hq⟩ := ih h
        rw [List.drop_zero] at hcs ⊢
        exact ⟨hop, c :: before, behind, by rw [hcs, List.cons_append], hq⟩
      | some o =>
        obtain ⟨rfl, ho, hpre⟩ := next?_eq_some hn
        have hcs := Operator.chars_append_drop hpre
        rw [scan_operator hn, operators_followedBy] at h
        rcases List.mem_cons.1 h with rfl | h
        · exact ⟨ho, [], _, hcs.symm, rfl⟩
        · obtain ⟨hop, before, behind, hrest, hq⟩ := ih h
          refine ⟨hop, o.chars ++ before, behind, ?_, by rwa [Operator.quoteAfter_chars]⟩
          rw [List.drop_zero, ← hcs, hrest, List.append_assoc]

theorem mem_operators_split (ha : Operator.Apart ops) (hop : op ∈ ops) {cs : List Char}
    (h : op.StandsIn cs) : op ∈ (split ops cs).operators := by
  obtain ⟨before, behind, rfl, hq⟩ := h
  -- Where the sign of the operator stands in front of it too, a scan meets it one place earlier.
  induction before using List.reverseRecOn generalizing behind with
  | nil => simp [split, scan_chars_append ha hop, operators_followedBy]
  | append_singleton before d ih =>
    by_cases hd : op.chars = [d, d]
    · have hsign : op.sign = d :=
        Operator.sign_eq_of_prefix_cons (hd ▸ List.prefix_rfl : op.chars <+: [d, d])
      have hbefore : Word.Closed before :=
        (Word.quoteAfter_concat (hsign ▸ op.isQuote_sign)).symm.trans hq
      have hmem := ih (d :: behind) hbefore
      rw [hd] at hmem ⊢
      simpa using hmem
    · rw [split, scan_append ha hop (Nat.zero_le _) hq, operators_followedBy]
      · simp
      · intro e he
        rw [List.getLast?_concat, Option.some.injEq] at he
        exact he ▸ hd

theorem mem_operators_split_iff (ha : Operator.Apart ops) {cs : List Char} :
    op ∈ (split ops cs).operators ↔ op ∈ ops ∧ op.StandsIn cs :=
  ⟨standsIn_of_mem_scan, fun h => mem_operators_split ha h.1 h.2⟩

theorem split_eq_self {cs : List Char} (h : ∀ op ∈ ops, ¬ op.StandsIn cs) :
    split ops cs = ⟨cs, []⟩ := by
  have hj := join_split ops cs
  cases hs : split ops cs with
  | mk first rest =>
    cases rest with
    | nil =>
      rw [hs, join] at hj
      simpa using hj
    | cons r rest =>
      have hm : r.1 ∈ (split ops cs).operators := by simp [hs, operators]
      obtain ⟨hop, hin⟩ := standsIn_of_mem_scan hm
      exact absurd hin (h r.1 hop)

end Pieces

namespace Operator

instance (op : Operator) (cs : List Char) : Decidable (op.StandsIn cs) :=
  decidable_of_iff (op ∈ (Pieces.split [op] cs).operators) (by
    rw [Pieces.mem_operators_split_iff (by simp [Apart])]
    simp)

end Operator

end ProjectShell
