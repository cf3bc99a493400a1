import ProjectShell.Command.Sed

namespace ProjectShell

namespace Regex

/-- What a template stands for. There is no rule for a dollar sign before anything else. -/
inductive Interpolates (groups : Nat → List Char) : List Char → List Char → Prop
  | nil : Interpolates groups [] []
  | dollar {cs text : List Char} (h : Interpolates groups cs text) :
      Interpolates groups ('$' :: '$' :: cs) ('$' :: text)
  | group {d : Char} {cs text : List Char} (hd : d.isDigit = true)
      (h : Interpolates groups cs text) :
      Interpolates groups ('$' :: '\x7b' :: d :: '\x7d' :: cs)
        (groups (d.toNat - '0'.toNat) ++ text)
  | char {c : Char} {cs text : List Char} (hc : c ≠ '$') (h : Interpolates groups cs text) :
      Interpolates groups (c :: cs) (c :: text)

variable {groups : Nat → List Char} {t text text' : List Char}

theorem Interpolates.unique (h : Interpolates groups t text) (h' : Interpolates groups t text') :
    text = text' := by
  induction h generalizing text' with
  | nil =>
    cases h'
    rfl
  | dollar _ ih =>
    cases h' with
    | dollar h' => rw [ih h']
    | char hc _ => exact absurd rfl hc
  | group hd _ ih =>
    cases h' with
    | group _ h' => rw [ih h']
    | char hc _ => exact absurd rfl hc
  | char hc _ ih =>
    cases h' with
    | char _ h' => rw [ih h']
    | dollar _ => exact absurd rfl hc
    | group _ _ => exact absurd rfl hc

theorem pieces_cons_of_ne {c : Char} (hc : c ≠ '$') (cs : List Char) :
    pieces (c :: cs) = .char c :: pieces cs := by
  rw [pieces]
  · exact fun _ h _ => hc h
  · exact fun _ _ h _ => hc h

theorem Interpolates.expand_pieces {m : Match} {whole : List Char}
    (h : Interpolates (m.groupText whole) t text) : m.expand whole (pieces t) = text := by
  induction h with
  | nil => rfl
  | dollar _ ih => rw [pieces, Match.expand, ih]
  | group hd _ ih => rw [pieces, if_pos hd, Match.expand, ih]
  | char hc _ ih => rw [pieces_cons_of_ne hc, Match.expand, ih]

theorem Match.groupText_zero (m : Match) (line : List Char) :
    m.groupText ((line.drop m.first).take (m.last - m.first)) 0 =
      (line.drop m.first).take (m.last - m.first) := by
  simp [groupText, List.take_take]

end Regex

namespace Command.Sed

open Regex

inductive Reads (groups : Nat → List Char) : List Char → List Char → Prop
  | nil : Reads groups [] []
  | whole {cs text : List Char} (h : Reads groups cs text) :
      Reads groups ('&' :: cs) (groups 0 ++ text)
  | group {d : Char} {cs text : List Char} (hd : d.isDigit = true) (h : Reads groups cs text) :
      Reads groups ('\\' :: d :: cs) (groups (d.toNat - '0'.toNat) ++ text)
  | newline {cs text : List Char} (h : Reads groups cs text) :
      Reads groups ('\\' :: 'n' :: cs) ('\n' :: text)
  | tab {cs text : List Char} (h : Reads groups cs text) :
      Reads groups ('\\' :: 't' :: cs) ('\t' :: text)
  | escaped {c : Char} {cs text : List Char} (hd : c.isDigit = false) (hn : c ≠ 'n')
      (ht : c ≠ 't') (h : Reads groups cs text) : Reads groups ('\\' :: c :: cs) (c :: text)
  | backslash : Reads groups ['\\'] ['\\']
  | plain {c : Char} {cs text : List Char} (hwhole : c ≠ '&') (hback : c ≠ '\\')
      (h : Reads groups cs text) : Reads groups (c :: cs) (c :: text)

variable {groups : Nat → List Char} {replacement text : List Char}

theorem exists_reads (groups : Nat → List Char) (replacement : List Char) :
    ∃ text, Reads groups replacement text := by
  fun_induction template replacement with
  | case1 => exact ⟨_, .nil⟩
  | case2 d cs hd ih => exact ih.imp' _ (fun _ => .group hd)
  | case3 cs hd ih => exact ih.imp' _ (fun _ => .newline)
  | case4 cs hd ih => exact ih.imp' _ (fun _ => .tab)
  | case5 cs hd ih => exact ih.imp' _ (fun _ => .escaped rfl (by decide) (by decide))
  | case6 cs c hn ht hdollar hd ih =>
    exact ih.imp' _ (fun _ => .escaped (Bool.eq_false_iff.2 hd) hn ht)
  | case7 cs ih => exact ih.imp' _ (fun _ => .whole)
  | case8 cs ih => exact ih.imp' _ (fun _ => .plain (by decide) (by decide))
  | case9 c cs hback hwhole hdollar ih =>
    by_cases hc : c = '\\'
    · subst hc
      cases cs with
      | nil => exact ⟨_, .backslash⟩
      | cons d cs => exact absurd rfl (hback d cs rfl)
    · exact ih.imp' _ (fun _ => .plain hwhole hc)

theorem template_group {d : Char} (hd : d.isDigit = true) (cs : List Char) :
    template ('\\' :: d :: cs) = '$' :: '\x7b' :: d :: '\x7d' :: template cs :=
  (template.eq_def _).trans (if_pos hd)

theorem template_escaped {c : Char} (hd : c.isDigit = false) (hn : c ≠ 'n') (ht : c ≠ 't')
    (cs : List Char) :
    template ('\\' :: c :: cs) = if c = '$' then '$' :: '$' :: template cs else c :: template cs := by
  refine (template.eq_def _).trans ((if_neg (by simp [hd])).trans ?_)
  split <;> simp_all

theorem template_plain {c : Char} (hwhole : c ≠ '&') (hback : c ≠ '\\') (cs : List Char) :
    template (c :: cs) = if c = '$' then '$' :: '$' :: template cs else c :: template cs := by
  by_cases hc : c = '$'
  · subst hc
    rfl
  · rw [if_neg hc, template]
    · exact fun _ _ h _ => hback h
    · exact hwhole
    · exact hc

theorem interpolates_itself {c : Char} {t : List Char} (h : Interpolates groups t text) :
    Interpolates groups (if c = '$' then '$' :: '$' :: t else c :: t) (c :: text) := by
  split
  · rename_i hc
    exact hc ▸ .dollar h
  · rename_i hc
    exact .char hc h

theorem Reads.interpolates (h : Reads groups replacement text) :
    Interpolates groups (template replacement) text := by
  induction h with
  | nil => exact .nil
  | whole _ ih => exact .group rfl ih
  | group hd _ ih =>
    rw [template_group hd]
    exact .group hd ih
  | newline _ ih => exact .char (by decide) ih
  | tab _ ih => exact .char (by decide) ih
  | escaped hd hn ht _ ih =>
    rw [template_escaped hd hn ht]
    exact interpolates_itself ih
  | backslash => exact .char (by decide) .nil
  | plain hwhole hback _ ih =>
    rw [template_plain hwhole hback]
    exact interpolates_itself ih

theorem interpolates_template (replacement : List Char) :
    (∀ groups text, Interpolates groups (template replacement) text ↔
      Reads groups replacement text) ∧
    ∀ (m : Match) (line text : List Char),
      let whole := (line.drop m.first).take (m.last - m.first)
      m.groupText whole 0 = whole ∧
        (Reads (m.groupText whole) replacement text ↔
          text = m.expand whole (pieces (template replacement))) := by
  have hiff (groups : Nat → List Char) (text : List Char) :
      Interpolates groups (template replacement) text ↔ Reads groups replacement text := by
    refine ⟨fun h => ?_, Reads.interpolates⟩
    obtain ⟨text', h'⟩ := exists_reads groups replacement
    rwa [h.unique h'.interpolates]
  refine ⟨hiff, fun m line text => ⟨m.groupText_zero line, ?_⟩⟩
  constructor
  · exact fun h => h.interpolates.expand_pieces.symm
  · rintro rfl
    obtain ⟨text, h⟩ := exists_reads (m.groupText _) replacement
    rwa [h.interpolates.expand_pieces]

example : pieces (template ['$', '\\', '1', '\\', '$', '\x7b', '1', '\x7d']) =
    [.char '$', .group 1, .char '$', .char '\x7b', .char '1', .char '\x7d'] := rfl

end Command.Sed

end ProjectShell
