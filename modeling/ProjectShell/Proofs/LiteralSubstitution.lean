import ProjectShell.Proofs.LiteralMatches
import ProjectShell.Proofs.ReplacementTexts

namespace ProjectShell

namespace Regex

variable {t new : List Char} {p : Place} {r : Regex} {width : Nat}

theorem advance_eq {n : Nat} (rest : List Char) (before : Option Char) (pos : Nat)
    (h : n ≤ rest.length) :
    (advance (pos + n) rest before pos).rest = rest.drop n ∧
      (advance (pos + n) rest before pos).pos = pos + n := by
  induction n generalizing rest before pos with
  | zero => cases rest <;> simp [advance]
  | succ n ih =>
    cases rest with
    | nil => exact absurd h (Nat.not_succ_le_zero n)
    | cons c rest =>
      have hnext : pos + (n + 1) = pos + 1 + n := by omega
      rw [advance, if_pos (by omega), hnext]
      exact ih rest (some c) (pos + 1) (Nat.le_of_succ_le_succ h)

section Literal

variable {template : List Piece} {front back : List Char}

theorem advance_first (h : Text.First t p.rest front back) :
    let q := advance (p.pos + front.length + t.length) p.rest p.before p.pos
    q.rest = back ∧ q.pos = p.pos + front.length + t.length := by
  have hend : p.pos + front.length + t.length = p.pos + (front ++ t).length := by
    rw [List.length_append, Nat.add_assoc]
  have hle : (front ++ t).length ≤ p.rest.length := by
    rw [h.eq]
    simp
  rw [hend]
  obtain ⟨hrest, hpos⟩ := advance_eq p.rest p.before p.pos hle
  refine ⟨?_, hpos⟩
  rw [hrest, h.eq, List.drop_left]

theorem replaceIn_first {cs : List Char} (h : Text.First t cs front back)
    (htemplate : ∀ (m : Match) text, m.expand text template = new) (pos : Nat) (ms : List Match) :
    replaceIn template cs pos (⟨pos + front.length, pos + front.length + t.length, []⟩ :: ms) =
      front ++ new ++ replaceIn template back (pos + front.length + t.length) ms := by
  have hdrop : cs.drop front.length = t ++ back := by
    rw [h.eq, List.append_assoc, List.drop_left]
  have htake : cs.take front.length = front := by
    rw [h.eq, List.append_assoc, List.take_left]
  rw [replaceIn]
  simp only [Nat.add_sub_cancel_left, htemplate, hdrop, htake, List.drop_left]

theorem replaced_replaceIn (hr : compile? (escape t) false = some r) (ht : t ≠ [])
    (htemplate : ∀ (m : Match) text, m.expand text template = new) (lastEnd : Option Nat)
    {fuel : Nat} (hfuel : p.rest.length < fuel) (hwidth : p.pos + p.rest.length < width) :
    Text.Replaced t new p.rest
      (replaceIn template p.rest p.pos (r.matchesFrom width lastEnd p fuel)) := by
  -- Behind a match the search goes on, so the induction is on what is left of the text.
  induction hlen : p.rest.length using Nat.strong_induction_on generalizing p fuel lastEnd with
  | _ n ih =>
    obtain ⟨fuel, rfl⟩ := Nat.exists_eq_succ_of_ne_zero (Nat.ne_zero_of_lt hfuel)
    rw [matchesFrom]
    rcases findFrom_escape hr ht hwidth with ⟨hnone, hnot⟩ | ⟨front, back, hfirst, hsome⟩
    · rw [hnone]
      exact .absent hnot
    · have hpos := List.length_pos_of_ne_nil ht
      have hlength := congrArg List.length hfirst.eq
      rw [List.length_append, List.length_append] at hlength
      have hne : p.pos + front.length ≠ p.pos + front.length + t.length := by omega
      obtain ⟨hrest, hplace⟩ := advance_first hfirst
      have hgo := @ih back.length (by omega)
        (advance (p.pos + front.length + t.length) p.rest p.before p.pos)
        (some (p.pos + front.length + t.length)) fuel
        (by rw [hrest]; omega) (by rw [hrest, hplace]; omega) (by rw [hrest])
      rw [hrest, hplace] at hgo
      rw [hsome]
      dsimp only
      rw [if_neg (fun h => hne h.1), replaceIn_first hfirst htemplate]
      exact .first hfirst hgo

end Literal

theorem replaceAll_escape (hr : compile? (escape t) false = some r) (ht : t ≠ [])
    {template : List Char} (htemplate : ∀ (m : Match) text, m.expand text (pieces template) = new)
    (cs : List Char) : r.replaceAll cs template = Text.replaceAll t new cs :=
  (Text.replaced_iff ht).1
    (replaced_replaceIn (p := .start cs) hr ht htemplate none (by simp [Place.start])
      (by simp [Place.start]))

end Regex

namespace Command.Sed

variable {cs f : List Char} {fs : List (List Char)} {d c : Char}

section Fields

theorem fields_delimiter (hd : d ≠ '\\') (cs : List Char) :
    fields d (d :: cs) = [] :: fields d cs := by
  rw [fields]
  · exact if_pos rfl
  · exact fun _ _ h _ => hd h

theorem fields_plain (h : fields d cs = f :: fs) (hc : c ≠ d) (hback : c ≠ '\\') :
    fields d (c :: cs) = (c :: f) :: fs := by
  rw [fields, if_neg hc, h]
  exact fun _ _ h _ => hback h

theorem fields_escaped (h : fields d cs = f :: fs) (hc : c ≠ d) :
    fields d ('\\' :: c :: cs) = ('\\' :: c :: f) :: fs := by
  rw [fields, h]
  simp [hc]

theorem fields_escaped_delimiter (h : fields d cs = f :: fs) :
    fields d ('\\' :: d :: cs) = (d :: f) :: fs := by
  rw [fields, h]
  simp

end Fields

def shield (special : List Char) (cs : List Char) : List Char :=
  cs.flatMap (fun c => if special.contains c then ['\\', c] else [c])

def literalScript (text new : List Char) : String :=
  String.ofList ('s' :: '/' :: (shield ['/'] (Regex.escape text) ++
    '/' :: (shield ['\\', '&', '/'] new ++ ['/', 'g'])))

theorem fields_shield_escape (p : List Char) (h : fields '/' cs = f :: fs) :
    fields '/' (shield ['/'] (Regex.escape p) ++ cs) = (Regex.escape p ++ f) :: fs := by
  induction p with
  | nil => exact h
  | cons c p ih =>
    rw [Regex.escape]
    by_cases hspecial : Regex.isSpecial c = true
    · have hslash : c ≠ '/' := by
        rintro rfl
        exact absurd hspecial (by decide)
      simpa [shield, hspecial, hslash] using fields_escaped ih hslash
    · by_cases hslash : c = '/'
      · subst hslash
        simpa [shield, hspecial] using fields_escaped_delimiter ih
      · have hback : c ≠ '\\' := by
          rintro rfl
          exact hspecial (by decide)
        simpa [shield, hspecial, hslash] using fields_plain ih hslash hback

theorem fields_shield (r : List Char) (h : fields '/' cs = f :: fs) :
    fields '/' (shield ['\\', '&', '/'] r ++ cs) = (shield ['\\', '&'] r ++ f) :: fs := by
  -- A slash loses its backslash here; a backslash or an ampersand keeps its own for the template.
  induction r with
  | nil => exact h
  | cons c r ih =>
    by_cases hslash : c = '/'
    · subst hslash
      simpa [shield] using fields_escaped_delimiter ih
    · by_cases hspecial : c = '\\' ∨ c = '&'
      · simpa [shield, hspecial, hslash] using fields_escaped ih hslash
      · have hback : c ≠ '\\' := fun h => hspecial (.inl h)
        simpa [shield, hspecial, hslash, not_or.1 hspecial] using fields_plain ih hslash hback

theorem reads_shield (groups : Nat → List Char) (r : List Char) :
    Reads groups (shield ['\\', '&'] r) r := by
  induction r with
  | nil => exact .nil
  | cons c r ih =>
    by_cases hspecial : c = '\\' ∨ c = '&'
    · have hcons : shield ['\\', '&'] (c :: r) = '\\' :: c :: shield ['\\', '&'] r := by
        simp [shield, hspecial]
      rw [hcons]
      rcases hspecial with rfl | rfl <;> exact .escaped (by decide) (by decide) (by decide) ih
    · have hcons : shield ['\\', '&'] (c :: r) = c :: shield ['\\', '&'] r := by
        simp [shield, not_or.1 hspecial]
      rw [hcons]
      exact .plain (fun h => hspecial (.inr h)) (fun h => hspecial (.inl h)) ih

theorem ofString_literalScript (p r : List Char) :
    Program.ofString (literalScript p r) =
      match Regex.compile? (Regex.escape p) false with
      | none => .error (invalidRegex (Regex.escape p))
      | some re => .ok (.substitute re (template (shield ['\\', '&'] r)) true) := by
  have hflags : fields '/' ['g'] = [['g']] := by decide
  have hlast : fields '/' ('/' :: ['g']) = [[], ['g']] := by
    rw [fields_delimiter (by decide), hflags]
  have hnew := fields_shield r hlast
  have hpattern : fields '/' (shield ['/'] (Regex.escape p) ++
      '/' :: (shield ['\\', '&', '/'] r ++ ['/', 'g'])) =
        [Regex.escape p, shield ['\\', '&'] r, ['g']] := by
    have h := fields_delimiter (d := '/') (by decide) (shield ['\\', '&', '/'] r ++ ['/', 'g'])
    rw [hnew] at h
    simpa using fields_shield_escape p h
  have hdelimiter : isDelimiter '/' = true := by decide
  have hlist : (literalScript p r).toList = _ := String.toList_ofList
  rw [Program.ofString, hlist]
  change (if isDelimiter '/' = true then substitution '/' _ else _) = _
  rw [if_pos hdelimiter, substitution, hpattern, ← Regex.compileLenient_escape]
  rfl

theorem literal_substitution {p : List Char} (hp : p ≠ []) (r : List Char) :
    ((∃ program, Program.ofString (literalScript p r) = .ok program) ↔
      32 * p.length + 112 ≤ Regex.Node.maxProgramCost) ∧
    ∀ program, Program.ofString (literalScript p r) = .ok program →
      ∀ (count index : Nat) (line : List Char),
        program.editLine count index line = some (Text.replaceAll p r line) ∧
        Text.Replaced p r line (Text.replaceAll p r line) := by
  rw [← Regex.exists_compile?_escape_iff hp, ofString_literalScript]
  cases hre : Regex.compile? (Regex.escape p) false with
  | none => exact ⟨⟨nofun, nofun⟩, nofun⟩
  | some re =>
    refine ⟨⟨fun _ => ⟨re, rfl⟩, fun _ => ⟨_, rfl⟩⟩, ?_⟩
    rintro program hprogram count index line
    cases hprogram
    refine ⟨congrArg some ?_, (Text.replaced_iff hp).2 rfl⟩
    exact Regex.replaceAll_escape hre hp
      (fun m text => (reads_shield _ r).interpolates.expand_pieces) line

theorem literal_substitution_shielded :
    let p := ['a', '/', '\\', '&', 'a']
    let r := ['\\', '1', '&', '/', '$', '0', '\n']
    p ≠ [] ∧ literalScript p r = "s/a\\/\\\\\\&a/\\\\1\\&\\/$0\n/g" ∧
      ∃ program, Program.ofString (literalScript p r) = .ok program ∧
        program.editLine 1 0 ('x' :: p ++ p.tail) = some ('x' :: r ++ p.tail) := by
  intro p r
  have hp : p ≠ [] := List.cons_ne_nil _ _
  obtain ⟨hiff, hlines⟩ := literal_substitution hp r
  obtain ⟨program, hprogram⟩ := hiff.2 (by decide)
  refine ⟨hp, by decide, program, hprogram, ?_⟩
  exact (hlines program hprogram 1 0 _).1.trans (by decide)

theorem literal_substitution_refused :
    let p := List.replicate 400000 'a'
    p ≠ [] ∧ ¬ ∃ program, Program.ofString (literalScript p ['b']) = .ok program := by
  intro p
  have hlength : p.length = 400000 := List.length_replicate
  clear_value p
  have hp : p ≠ [] := List.ne_nil_of_length_pos (by omega)
  have hnone : Regex.compile? (Regex.escape p) false = none := by
    rw [Regex.compile?_escape_eq_none_iff, Regex.Node.cost_literal_false hp, hlength]
    decide
  refine ⟨hp, ?_⟩
  rintro ⟨program, hprogram⟩
  rw [ofString_literalScript, hnone] at hprogram
  cases hprogram

end Command.Sed

end ProjectShell
