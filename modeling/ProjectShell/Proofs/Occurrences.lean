import Mathlib.Data.List.Infix
import ProjectShell.Text.Substring

namespace ProjectShell.Text

variable {needle new cs text front back : List Char}

structure First (needle cs front back : List Char) : Prop where
  eq : cs = front ++ needle ++ back
  least : ∀ front', front' ++ needle <+: cs → front.length ≤ front'.length

namespace First

theorem unique {front' back' : List Char} (h : First needle cs front back)
    (h' : First needle cs front' back') : front = front' ∧ back = back' := by
  have hle : front.length ≤ front'.length := h.least front' ⟨back', h'.eq.symm⟩
  have hge : front'.length ≤ front.length := h'.least front ⟨back, h.eq.symm⟩
  have heq : front ++ (needle ++ back) = front' ++ (needle ++ back') := by
    rw [← List.append_assoc, ← List.append_assoc, ← h.eq, h'.eq]
  obtain ⟨hfront, hrest⟩ := List.append_inj heq (Nat.le_antisymm hle hge)
  exact ⟨hfront, List.append_cancel_left hrest⟩

theorem at_start (h : cs = needle ++ back) : First needle cs [] back :=
  ⟨h, fun _ _ => Nat.zero_le _⟩

theorem cons {c : Char} (h : First needle cs front back) (hnot : ¬ needle <+: c :: cs) :
    First needle (c :: cs) (c :: front) back := by
  refine ⟨congrArg (List.cons c) h.eq, ?_⟩
  intro front' hprefix
  cases front' with
  | nil => exact absurd hprefix hnot
  | cons d front' =>
    have htail := (List.cons_prefix_cons.1 hprefix).2
    exact Nat.succ_le_succ (h.least front' htail)

theorem not_start {c : Char} (h : First needle cs (c :: front) back) : ¬ needle <+: cs :=
  fun hprefix => absurd (h.least [] hprefix) (Nat.not_succ_le_zero _)

theorem tail {c d : Char} (h : First needle (d :: cs) (c :: front) back) :
    d = c ∧ First needle cs front back := by
  obtain ⟨hd, htail⟩ := List.cons.inj h.eq
  refine ⟨hd, htail, ?_⟩
  intro front' hprefix
  exact Nat.le_of_succ_le_succ (h.least (d :: front') (List.cons_prefix_cons.2 ⟨rfl, hprefix⟩))

theorem length_back_lt (h : First needle cs front back) (hne : needle ≠ []) :
    back.length < cs.length := by
  have hpos := List.length_pos_of_ne_nil hne
  rw [h.eq, List.length_append, List.length_append]
  omega

end First

theorem exists_first (h : needle <:+: cs) : ∃ front back, First needle cs front back := by
  induction cs with
  | nil =>
    rw [List.infix_nil] at h
    exact ⟨[], [], .at_start (by rw [h, List.append_nil])⟩
  | cons c cs ih =>
    by_cases hprefix : needle <+: c :: cs
    · obtain ⟨back, hback⟩ := hprefix
      exact ⟨[], back, .at_start hback.symm⟩
    · obtain ⟨front, back, hfirst⟩ := ih ((List.infix_cons_iff.1 h).resolve_left hprefix)
      exact ⟨c :: front, back, hfirst.cons hprefix⟩

inductive Replaced (needle new : List Char) : List Char → List Char → Prop
  | absent {cs : List Char} (h : ¬ needle <:+: cs) : Replaced needle new cs cs
  | first {cs front back text : List Char} (hfirst : First needle cs front back)
      (h : Replaced needle new back text) : Replaced needle new cs (front ++ new ++ text)

theorem Replaced.unique {text' : List Char} (h : Replaced needle new cs text)
    (h' : Replaced needle new cs text') : text = text' := by
  induction h generalizing text' with
  | absent hnot =>
    cases h' with
    | absent _ => rfl
    | first hfirst _ => exact absurd ⟨_, _, hfirst.eq.symm⟩ hnot
  | first hfirst _ ih =>
    cases h' with
    | absent hnot => exact absurd ⟨_, _, hfirst.eq.symm⟩ hnot
    | first hfirst' h' =>
      obtain ⟨rfl, rfl⟩ := hfirst.unique hfirst'
      rw [ih h']

theorem replaceFrom_skip (needle new : List Char) (skip : Nat) (cs : List Char) :
    replaceFrom needle new skip cs = replaceFrom needle new 0 (cs.drop skip) := by
  induction skip generalizing cs with
  | zero => rfl
  | succ skip ih =>
    cases cs with
    | nil => rfl
    | cons c cs => exact ih cs

theorem replaceFrom_needle (hne : needle ≠ []) (new back : List Char) :
    replaceFrom needle new 0 (needle ++ back) = new ++ replaceFrom needle new 0 back := by
  obtain ⟨c, rest, rfl⟩ := List.exists_cons_of_ne_nil hne
  have hdrop : dropFront (c :: rest) (c :: (rest ++ back)) = some back :=
    dropFront_eq_some_iff.2 rfl
  rw [List.cons_append, replaceFrom, hdrop]
  dsimp only
  rw [replaceFrom_skip, List.length_cons, Nat.add_sub_cancel, List.drop_left]

theorem replaceFrom_of_not_start {c : Char} (h : ¬ needle <+: c :: cs) (new : List Char) :
    replaceFrom needle new 0 (c :: cs) = c :: replaceFrom needle new 0 cs := by
  have hdrop : dropFront needle (c :: cs) = none := by
    refine Option.eq_none_iff_forall_not_mem.2 (fun back hback => h ⟨back, ?_⟩)
    exact (dropFront_eq_some_iff.1 hback).symm
  rw [replaceFrom, hdrop]

theorem replaceFrom_first (h : First needle cs front back) (hne : needle ≠ []) (new : List Char) :
    replaceFrom needle new 0 cs = front ++ new ++ replaceFrom needle new 0 back := by
  induction front generalizing cs with
  | nil => rw [h.eq, List.nil_append, List.nil_append, replaceFrom_needle hne]
  | cons c front ih =>
    cases cs with
    | nil => cases h.eq
    | cons d cs =>
      have hnot := h.not_start
      obtain ⟨rfl, htail⟩ := h.tail
      rw [replaceFrom_of_not_start hnot, ih htail]
      rfl

theorem replaceFrom_of_absent (h : ¬ needle <:+: cs) (new : List Char) :
    replaceFrom needle new 0 cs = cs := by
  induction cs with
  | nil => rfl
  | cons c cs ih =>
    rw [List.infix_cons_iff, not_or] at h
    rw [replaceFrom_of_not_start h.1, ih h.2]

theorem replaced_replaceFrom (hne : needle ≠ []) (new cs : List Char) :
    Replaced needle new cs (replaceFrom needle new 0 cs) := by
  induction hlen : cs.length using Nat.strong_induction_on generalizing cs with
  | _ n ih =>
    by_cases hinfix : needle <:+: cs
    · obtain ⟨front, back, hfirst⟩ := exists_first hinfix
      have hlt := hfirst.length_back_lt hne
      rw [replaceFrom_first hfirst hne]
      exact .first hfirst (ih back.length (hlen ▸ hlt) back rfl)
    · rw [replaceFrom_of_absent hinfix]
      exact .absent hinfix

theorem replaced_iff (hne : needle ≠ []) :
    Replaced needle new cs text ↔ text = replaceAll needle new cs := by
  have hall : replaceAll needle new cs = replaceFrom needle new 0 cs := by
    rw [replaceAll, List.isEmpty_eq_false_iff.2 hne]
    rfl
  rw [hall]
  constructor
  · exact fun h => h.unique (replaced_replaceFrom hne new cs)
  · rintro rfl
    exact replaced_replaceFrom hne new cs

end ProjectShell.Text
