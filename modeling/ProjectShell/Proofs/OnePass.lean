import Mathlib.Data.List.MinMax
import ProjectShell.Proofs.Operators

namespace ProjectShell

namespace Operator

def all : List Operator := [sequence, both, either, pipe]

def longest? (cs : List Char) : Option Operator :=
  (all.filter (fun op => op.chars.isPrefixOf cs)).argmax (fun op => op.chars.length)

theorem mem_all (op : Operator) : op ∈ all := by cases op <;> decide

theorem not_prefix_of_longest? {cs : List Char} (h : longest? cs = none) (op : Operator) :
    ¬ op.chars <+: cs := by
  rw [longest?, List.argmax_eq_none, List.filter_eq_nil_iff] at h
  exact fun hp => h op op.mem_all (List.isPrefixOf_iff_prefix.2 hp)

theorem find?_all (cs : List Char) :
    all.find? (fun op => op.chars.isPrefixOf cs) = longest? cs := by
  cases cs with
  | nil => rfl
  | cons c cs =>
    by_cases hs : c = ';'
    · subst hs
      rfl
    by_cases hb : c = '&'
    · subst hb
      simp only [longest?, all, List.find?, List.filter, chars, List.isPrefixOf]
      generalize ['&'].isPrefixOf cs = second
      cases second <;> rfl
    by_cases hp : c = '|'
    · subst hp
      simp only [longest?, all, List.find?, List.filter, chars, List.isPrefixOf]
      generalize ['|'].isPrefixOf cs = second
      cases second <;> rfl
    simp [longest?, all, chars, List.isPrefixOf, Ne.symm hs, Ne.symm hb, Ne.symm hp]

end Operator

namespace Pieces

variable {ops : List Operator} {op : Operator}

def lexFrom (quote : Option Char) : List Char → Pieces
  | [] => ⟨[], []⟩
  | c :: cs =>
      match quote, Operator.longest? (c :: cs) with
      | none, some op =>
          Pieces.followedBy ⟨[], []⟩ op (lexFrom none (cs.drop (op.chars.length - 1)))
      | quote, _ => (lexFrom (Word.quoteStep quote c) cs).push c
termination_by cs => cs.length
decreasing_by
  all_goals simp only [List.length_drop, List.length_cons]
  all_goals omega

def lex (cs : List Char) : Pieces := lexFrom none cs

theorem scan_drop (quote : Option Char) {skip : Nat} {cs : List Char} (hs : skip ≤ cs.length) :
    scan ops quote skip cs = scan ops quote 0 (cs.drop skip) := by
  have h : scan ops quote (cs.take skip).length (cs.take skip ++ cs.drop skip) = _ :=
    scan_skip quote (cs.take skip) (cs.drop skip)
  rwa [List.take_append_drop, List.length_take_of_le hs] at h

theorem split_operator {c : Char} {cs : List Char} (hn : next? ops none (c :: cs) = some op) :
    scan ops none 0 (c :: cs) =
      Pieces.followedBy ⟨[], []⟩ op (split ops (cs.drop (op.chars.length - 1))) := by
  have hlen : op.chars.length - 1 ≤ cs.length :=
    Nat.sub_le_of_le_add (next?_eq_some hn).2.2.length_le
  rw [scan_operator hn, scan_drop none hlen, split]

theorem scan_all (quote : Option Char) (cs : List Char) :
    scan Operator.all quote 0 cs = lexFrom quote cs := by
  fun_induction lexFrom quote cs with
  | case1 quote => rw [scan]
  | case2 c cs op hop ih =>
    have hn : next? Operator.all none (c :: cs) = some op := (Operator.find?_all _).trans hop
    rw [split_operator hn, split, ih]
  | case3 c cs quote hno ih =>
    have hn : next? Operator.all quote (c :: cs) = none := by
      cases quote with
      | some q => rfl
      | none =>
        cases hl : Operator.longest? (c :: cs) with
        | none => exact (Operator.find?_all _).trans hl
        | some op => exact absurd hl (hno op rfl)
    rw [scan_push hn, ih]

def refineRest (f : List Char → Pieces) (p : Pieces) (rest : List (Operator × List Char)) :
    Pieces :=
  ⟨p.first, p.rest ++ rest.flatMap (fun (op, cs) => (op, (f cs).first) :: (f cs).rest)⟩

def refine (f : List Char → Pieces) (p : Pieces) : Pieces := (f p.first).refineRest f p.rest

theorem refineRest_cons (f : List Char → Pieces) (p : Pieces) (op : Operator) (cs : List Char)
    (rest : List (Operator × List Char)) :
    p.refineRest f ((op, cs) :: rest) = p.followedBy op ((f cs).refineRest f rest) := by
  simp [refineRest, followedBy]

theorem refineRest_followedBy (f : List Char → Pieces) (p : Pieces) (op : Operator) (q : Pieces)
    (rest : List (Operator × List Char)) :
    (p.followedBy op q).refineRest f rest = p.followedBy op (q.refineRest f rest) := by
  simp [refineRest, followedBy]

theorem next?_append_right (outer inner : List Operator) (quote : Option Char) (cs : List Char) :
    next? (outer ++ inner) quote cs = (next? outer quote cs).or (next? inner quote cs) := by
  cases quote with
  | some q => rfl
  | none => exact List.find?_append

theorem next?_eq_none_of_longer {quote : Option Char} {cs ds : List Char}
    (hn : next? ops quote ds = none) (h : cs <+: ds) : next? ops quote cs = none := by
  cases hm : next? ops quote cs with
  | none => rfl
  | some op =>
    obtain ⟨rfl, hop, hpre⟩ := next?_eq_some hm
    have hno := List.find?_eq_none.1 hn op hop
    exact absurd (List.isPrefixOf_iff_prefix.2 (hpre.trans h)) hno

theorem first_prefix_scan (ops : List Operator) (quote : Option Char) (cs : List Char) :
    (scan ops quote 0 cs).first <+: cs :=
  ⟨_, join_scan (Nat.zero_le _)⟩

def Nested (outer inner : List Operator) : Prop :=
  Operator.Apart inner ∧ ∀ o ∈ inner, o.chars = [o.sign] ∨ ∀ o' ∈ outer, o'.sign ≠ o.sign

instance (outer inner : List Operator) : Decidable (Nested outer inner) :=
  inferInstanceAs (Decidable (_ ∧ _))

theorem scan_chars_of_nested {outer inner : List Operator} (h : Nested outer inner)
    (hop : op ∈ inner) {cs : List Char} (hn : next? outer none (op.chars ++ cs) = none) :
    scan outer none 0 (op.chars ++ cs) =
      ⟨op.chars ++ (split outer cs).first, (split outer cs).rest⟩ := by
  have hq := Word.quoteStep_none op.isQuote_sign
  rcases op.chars_eq with hc | hc
  · rw [hc] at hn ⊢
    rw [List.singleton_append] at hn ⊢
    rw [scan_push hn, hq]
    rfl
  · have hsign := (h.2 op hop).resolve_left (by simp [hc])
    have hsecond : next? outer none (op.sign :: cs) = none := by
      cases hm : next? outer none (op.sign :: cs) with
      | none => rfl
      | some o =>
        obtain ⟨-, ho, hpre⟩ := next?_eq_some hm
        exact absurd (Operator.sign_eq_of_prefix_cons hpre) (hsign o ho)
    rw [hc] at hn ⊢
    simp only [List.cons_append, List.nil_append] at hn ⊢
    rw [scan_push hn, hq, scan_push hsecond, hq]
    rfl

theorem refineRest_scan {outer inner : List Operator} (h : Nested outer inner)
    (quote : Option Char) (cs : List Char) :
    (scan inner quote 0 (scan outer quote 0 cs).first).refineRest (split inner)
      (scan outer quote 0 cs).rest = scan (outer ++ inner) quote 0 cs := by
  induction hlen : cs.length using Nat.strong_induction_on generalizing quote cs with
  | _ n ih =>
    cases cs with
    | nil => rfl
    | cons c cs =>
      have hdrop (k : Nat) : (cs.drop k).length < n := by
        rw [← hlen, List.length_drop, List.length_cons]
        omega
      have hboth := next?_append_right outer inner quote (c :: cs)
      cases houter : next? outer quote (c :: cs) with
      | some op =>
        rw [houter, Option.some_or] at hboth
        obtain ⟨rfl, -, -⟩ := next?_eq_some houter
        have hrest := ih _ (hdrop _) none (cs.drop (op.chars.length - 1)) rfl
        rw [split_operator houter, split_operator hboth, split, split, ← hrest]
        exact refineRest_cons ..
      | none =>
        rw [houter, Option.none_or] at hboth
        cases hinner : next? inner quote (c :: cs) with
        | some op =>
          rw [hinner] at hboth
          obtain ⟨rfl, hop, hpre⟩ := next?_eq_some hinner
          have hrest := ih _ (hdrop _) none (cs.drop (op.chars.length - 1)) rfl
          rw [split_operator hboth, split, ← hrest]
          rw [← Operator.chars_append_drop hpre] at houter ⊢
          rw [scan_chars_of_nested h hop houter]
          dsimp only
          rw [scan_chars_append h.1 hop, refineRest_followedBy]
          rfl
        | none =>
          rw [hinner] at hboth
          have hrest := ih _ (by simp [← hlen]) (Word.quoteStep quote c) cs rfl
          have hfirst : c :: (scan outer (Word.quoteStep quote c) 0 cs).first <+: c :: cs :=
            (List.prefix_cons_inj c).2 (first_prefix_scan ..)
          rw [scan_push houter, scan_push hboth, ← hrest, push]
          dsimp only
          rw [scan_push (next?_eq_none_of_longer hinner hfirst)]
          rfl

theorem refine_split {outer inner : List Operator} (h : Nested outer inner) (cs : List Char) :
    (split outer cs).refine (split inner) = split (outer ++ inner) cs :=
  refineRest_scan h none cs

def CutOutsideQuotes (quote : Option Char) (p : Pieces) : Prop :=
  ∀ before r after, p.rest = before ++ r :: after →
    Word.quoteAfter quote (join ⟨p.first, before⟩) = none

theorem cutOutsideQuotes_lexFrom (quote : Option Char) (cs : List Char) :
    (lexFrom quote cs).CutOutsideQuotes quote := by
  fun_induction lexFrom quote cs with
  | case1 quote =>
    intro before r after h
    simp at h
  | case2 c cs op hop ih =>
    intro before r after h
    cases before with
    | nil => rfl
    | cons b before =>
      obtain ⟨rfl, hrest⟩ := List.cons.inj h
      have hclosed := ih before r after hrest
      simpa [join, followedBy, Operator.quoteAfter_chars] using hclosed
  | case3 c cs quote hno ih =>
    intro before r after h
    exact ih before r after h

theorem not_stands_lexFrom (quote : Option Char) (cs : List Char) :
    (∀ (op : Operator) before behind, (lexFrom quote cs).first = before ++ (op.chars ++ behind) →
      Word.quoteAfter quote before ≠ none) ∧
    ∀ piece ∈ (lexFrom quote cs).rest.map Prod.snd, ∀ op : Operator, ¬ op.StandsIn piece := by
  have hempty (op : Operator) (before behind : List Char) : [] ≠ before ++ (op.chars ++ behind) := by
    rcases op.chars_eq with h | h <;> simp [h]
  fun_induction lexFrom quote cs with
  | case1 quote => exact ⟨fun op before behind h => absurd h (hempty op before behind), by simp⟩
  | case2 c cs op hop ih =>
    refine ⟨fun op before behind h => absurd h (hempty op before behind), ?_⟩
    refine List.forall_mem_cons.2 ⟨?_, ih.2⟩
    rintro op ⟨before, behind, heq, hclosed⟩
    exact ih.1 op before behind heq hclosed
  | case3 c cs quote hno ih =>
    refine ⟨?_, ih.2⟩
    intro op before behind heq hclosed
    cases before with
    | cons d before =>
      obtain ⟨rfl, hfirst⟩ := List.cons.inj heq
      exact ih.1 op before behind hfirst hclosed
    | nil =>
      obtain rfl : quote = none := hclosed
      have hpre : op.chars <+: c :: cs := by
        have hfirst : (lexFrom (Word.quoteStep none c) cs).first <+: cs :=
          scan_all _ cs ▸ first_prefix_scan ..
        exact (heq ▸ List.prefix_append op.chars behind).trans ((List.prefix_cons_inj c).2 hfirst)
      cases hl : Operator.longest? (c :: cs) with
      | none => exact Operator.not_prefix_of_longest? hl op hpre
      | some o => exact hno o rfl hl

theorem split_in_levels (line : List Char) :
    let tokens :=
      ((split [.sequence] line).refine (split [.both, .either])).refine (split [.pipe])
    tokens = lex line ∧ tokens.join = line ∧ tokens.CutOutsideQuotes none ∧
      ∀ piece ∈ tokens.all, ∀ op : Operator, ¬ op.StandsIn piece := by
  intro tokens
  have hsplit : tokens = split Operator.all line := by
    have houter : Nested [.sequence] [.both, .either] := by decide
    have hinner : Nested [.sequence, .both, .either] [.pipe] := by decide
    have hpieces := refine_split houter line
    simp only [tokens, hpieces]
    exact refine_split hinner line
  have hlex : tokens = lex line := hsplit.trans (scan_all none line)
  obtain ⟨hfirst, hrest⟩ := not_stands_lexFrom none line
  refine ⟨hlex, hsplit ▸ join_split _ line, hlex ▸ cutOutsideQuotes_lexFrom none line, ?_⟩
  rw [hlex]
  refine List.forall_mem_cons.2 ⟨?_, hrest⟩
  rintro op ⟨before, behind, heq, hclosed⟩
  exact hfirst op before behind heq hclosed

theorem split_in_levels_bars :
    let line := "a|||b'|;'|&&c; d".toList
    let tokens :=
      ((split [.sequence] line).refine (split [.both, .either])).refine (split [.pipe])
    tokens = ⟨['a'], [(.either, []), (.pipe, "b'|;'".toList), (.pipe, []), (.both, ['c']),
      (.sequence, " d".toList)]⟩ ∧ tokens = lex line ∧
      Word.Closed "a|||b'|;'".toList ∧ ¬ Operator.sequence.StandsIn "b'|;'".toList := by
  intro line tokens
  have htokens : tokens = ⟨['a'], [(.either, []), (.pipe, "b'|;'".toList), (.pipe, []),
      (.both, ['c']), (.sequence, " d".toList)]⟩ := by decide
  obtain ⟨hlex, -, hcuts, hpieces⟩ := split_in_levels line
  have hmem : "b'|;'".toList ∈ tokens.all := by
    rw [htokens]
    decide
  refine ⟨htokens, hlex, ?_, hpieces _ hmem .sequence⟩
  exact hcuts [(.either, []), (.pipe, "b'|;'".toList)] _ _ (congrArg Pieces.rest htokens)

end Pieces
end ProjectShell
