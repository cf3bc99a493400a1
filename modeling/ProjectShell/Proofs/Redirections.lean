import ProjectShell.Proofs.BlankEnds

namespace ProjectShell

namespace Word

def marked (quote : Option Char) : List Char → List (Char × Bool)
  | [] => []
  | c :: cs => (c, quote.isSome) :: marked (quoteStep quote c) cs

def solid (marks : List (Char × Bool)) : List (Char × Bool) :=
  marks.filter (fun (c, inside) => inside || !Text.isBlank c)

theorem marked_append (quote : Option Char) (cs ds : List Char) :
    marked quote (cs ++ ds) = marked quote cs ++ marked (quoteAfter quote cs) ds := by
  induction cs generalizing quote with
  | nil => rfl
  | cons c cs ih => simp [marked, ih]

theorem marked_plain {cs : List Char} (h : ∀ c ∈ cs, isQuote c = false) :
    marked none cs = cs.map (·, false) := by
  induction cs with
  | nil => rfl
  | cons c cs ih =>
    obtain ⟨hc, hcs⟩ := List.forall_mem_cons.1 h
    simp [marked, quoteStep_none hc, ih hcs]

theorem solid_append (ms ns : List (Char × Bool)) : solid (ms ++ ns) = solid ms ++ solid ns :=
  List.filter_append ms ns

structure Progress where
  quote : Option Char := none
  draft : Option Draft := none
  words : List Word := []

namespace Progress

def step (p : Progress) (c : Char) : Progress :=
  match p.quote with
  | some q =>
      if c = q then { p with quote := none }
      else { p with draft := some ((p.draft.getD {}).push c) }
  | none =>
      if isQuote c then
        { p with quote := some c, draft := some { p.draft.getD {} with quoted := true } }
      else if Text.isBlank c then
        { p with draft := none, words := p.words ++ (p.draft.map Draft.word).toList }
      else { p with draft := some ((p.draft.getD {}).push c) }

def read (p : Progress) (cs : List Char) : Progress := cs.foldl step p

def finish (p : Progress) : List Word := p.words ++ (p.draft.map Draft.word).toList

theorem read_append (p : Progress) (cs ds : List Char) : p.read (cs ++ ds) = (p.read cs).read ds :=
  List.foldl_append

theorem finish_read (p : Progress) (cs : List Char) :
    (p.read cs).finish = p.words ++ scan p.quote p.draft cs := by
  induction cs generalizing p with
  | nil => rfl
  | cons c cs ih =>
    obtain ⟨quote, draft, words⟩ := p
    rw [show Progress.read ⟨quote, draft, words⟩ (c :: cs) =
      (Progress.step ⟨quote, draft, words⟩ c).read cs from rfl, ih]
    cases quote with
    | some q =>
      by_cases hc : c = q
      · simp [step, scan, hc]
      · simp [step, scan, hc]
    | none =>
      by_cases hq : isQuote c = true
      · simp [step, scan, hq]
      · by_cases hb : Text.isBlank c = true
        · simp [step, scan, hq, hb]
        · simp [step, scan, hq, hb]

theorem ofChars_eq_finish (cs : List Char) : ofChars cs = (Progress.read {} cs).finish :=
  (finish_read {} cs).symm

theorem quote_step (p : Progress) (c : Char) : (p.step c).quote = quoteStep p.quote c := by
  obtain ⟨quote, draft, words⟩ := p
  cases quote with
  | some q => simp only [step, quoteStep]; split <;> rfl
  | none =>
    simp only [step, quoteStep]
    split
    · rfl
    · split <;> rfl

theorem quote_read (p : Progress) (cs : List Char) : (p.read cs).quote = quoteAfter p.quote cs := by
  induction cs generalizing p with
  | nil => rfl
  | cons c cs ih =>
    rw [quoteAfter_cons, ← quote_step]
    exact ih (p.step c)

theorem step_plain {p : Progress} (hp : p.quote = none) {c : Char} (hq : isQuote c = false)
    (hb : Text.isBlank c = false) :
    p.step c = { p with draft := some ((p.draft.getD {}).push c) } := by
  simp [step, hp, hq, hb]

theorem step_blank {p : Progress} (hp : p.quote = none) :
    p.step ' ' = { p with draft := none, words := p.finish } := by
  have hq : isQuote ' ' = false := rfl
  have hb : Text.isBlank ' ' = true := rfl
  simp [step, hp, hq, hb, finish]

theorem read_plain {p : Progress} (hp : p.quote = none) {d : Draft} (hd : p.draft = some d)
    {cs : List Char} (h : ∀ c ∈ cs, isQuote c = false ∧ Text.isBlank c = false) :
    p.read cs = { p with draft := some ⟨cs.reverse ++ d.text, d.quoted⟩ } := by
  induction cs generalizing p d with
  | nil =>
    obtain ⟨quote, draft, words⟩ := p
    cases hd
    rfl
  | cons c cs ih =>
    obtain ⟨hc, hcs⟩ := List.forall_mem_cons.1 h
    have hstep : p.step c = { p with draft := some (d.push c) } := by
      rw [step_plain hp hc.1 hc.2, hd, Option.getD_some]
    have hread : p.read (c :: cs) = ({ p with draft := some (d.push c) } : Progress).read cs :=
      congrArg (fun p => read p cs) hstep
    rw [hread, ih (p := { p with draft := some (d.push c) }) hp rfl hcs]
    simp [Draft.push]

theorem read_word {p : Progress} (hp : p.quote = none) (hd : p.draft = none) {cs : List Char}
    (hne : cs ≠ []) (h : ∀ c ∈ cs, isQuote c = false ∧ Text.isBlank c = false) :
    p.read cs = { p with draft := some ⟨cs.reverse, false⟩ } := by
  obtain ⟨c, cs, rfl⟩ := List.exists_cons_of_ne_nil hne
  obtain ⟨hc, hcs⟩ := List.forall_mem_cons.1 h
  have hstep : p.step c = { p with draft := some ⟨[c], false⟩ } := by
    rw [step_plain hp hc.1 hc.2, hd]
    rfl
  have hread : p.read (c :: cs) = ({ p with draft := some ⟨[c], false⟩ } : Progress).read cs :=
    congrArg (fun p => read p cs) hstep
  rw [hread, read_plain (p := { p with draft := some ⟨[c], false⟩ }) hp rfl hcs]
  simp

theorem draft_read_eq_none {before : List Char} (hc : Closed before.reverse)
    (hb : before.head?.all Text.isBlank = true) :
    (Progress.read {} before.reverse).draft = none := by
  cases before with
  | nil => rfl
  | cons b before =>
    have hblank : Text.isBlank b = true := by simpa using hb
    have hplain := isQuote_of_isBlank hblank
    rw [List.reverse_cons] at hc ⊢
    rw [Closed, quoteAfter_concat hplain] at hc
    have hquote : (Progress.read {} before.reverse).quote = none := by rw [quote_read, hc]
    rw [read_append]
    change ((Progress.read {} before.reverse).step b).draft = none
    simp [step, hquote, hplain, hblank]

end Progress

end Word

namespace Stage

def IsRedirect (cs : List Char) : Prop :=
  cs ∈ [['>'], ['>', '>'], ['1', '>'], ['1', '>', '>'], ['2', '>'], ['2', '>', '>'],
    ['2', '>', '&']] ∨ ∃ d : Char, d.isDigit = true ∧ cs = ['2', '>', '&', d]

theorem takeDescriptor_cases (read : List Char) :
    (takeDescriptor read).1 = [] ∨
      ((takeDescriptor read).1 = ['1'] ∨ (takeDescriptor read).1 = ['2']) ∧
        (takeDescriptor read).2.head?.all Text.isBlank = true := by
  cases read with
  | nil => exact .inl rfl
  | cons c read =>
    rw [takeDescriptor]
    split
    · rename_i h
      simp only [Bool.and_eq_true, Bool.or_eq_true, decide_eq_true_eq] at h
      refine .inr ⟨?_, h.2⟩
      rcases h.1 with rfl | rfl
      · exact .inl rfl
      · exact .inr rfl
    · exact .inl rfl

theorem isRedirect_cut {fd : List Char} (hfd : fd = [] ∨ fd = ['1'] ∨ fd = ['2'])
    (cs : List Char) : IsRedirect (fd ++ (cutRedirect fd cs).1) := by
  fun_cases cutRedirect fd cs
  case case2 d cs heq hd => exact .inr ⟨d, hd, by rw [heq]; rfl⟩
  case case3 d cs heq hd => simp [IsRedirect, heq]
  case case5 heq => simp [IsRedirect, heq]
  all_goals rcases hfd with rfl | rfl | rfl <;> simp [IsRedirect]

theorem IsRedirect.plain {cs : List Char} (h : IsRedirect cs) :
    ∀ c ∈ cs, Word.isQuote c = false ∧ Text.isBlank c = false := by
  rcases h with h | ⟨d, hd, rfl⟩
  · have hall : ∀ op ∈ [['>'], ['>', '>'], ['1', '>'], ['1', '>', '>'], ['2', '>'],
        ['2', '>', '>'], ['2', '>', '&']],
        op.all (fun c => !Word.isQuote c && !Text.isBlank c) = true := by decide
    intro c hc
    simpa using List.all_eq_true.1 (hall cs h) c hc
  · have hsigns : ['2', '>', '&'].all (fun c => !Word.isQuote c && !Text.isBlank c) = true := by
      decide
    have hblank : Text.isBlank d = false := by
      cases hb : Text.isBlank d with
      | false => rfl
      | true => simp [Text.isDigit_of_isBlank hb] at hd
    intro c hc
    rcases List.mem_append.1 (show c ∈ ['2', '>', '&'] ++ [d] from hc) with hc | hc
    · simpa using List.all_eq_true.1 hsigns c hc
    · rw [List.mem_singleton.1 hc]
      exact ⟨Word.isQuote_of_isDigit hd, hblank⟩

theorem IsRedirect.ne_nil {cs : List Char} (h : IsRedirect cs) : cs ≠ [] := by
  rintro rfl
  simp [IsRedirect] at h

theorem exists_setApart (read cs : List Char) :
    ∃ before fd op rest : List Char, read.reverse = before.reverse ++ fd ∧ '>' :: cs = op ++ rest ∧
      (setApart read cs).1.reverse = before.reverse ++ (' ' :: (fd ++ op) ++ [' ']) ∧
      (setApart read cs).2 = rest ∧ IsRedirect (fd ++ op) ∧
      (fd = [] ∨ (∃ c, fd = [c]) ∧ before.head?.all Text.isBlank = true) := by
  have hcases := takeDescriptor_cases read
  refine ⟨(takeDescriptor read).2, (takeDescriptor read).1,
    (cutRedirect (takeDescriptor read).1 cs).1, (cutRedirect (takeDescriptor read).1 cs).2,
    ?_, (cutRedirect_append ..).symm, by simp [setApart], rfl, ?_, ?_⟩
  · have hfd : (takeDescriptor read).1.reverse = (takeDescriptor read).1 := by
      rcases hcases with h | ⟨h | h, -⟩ <;> rw [h] <;> rfl
    rw [← hfd, ← List.reverse_append, takeDescriptor_append]
  · exact isRedirect_cut (hcases.imp_right And.left) cs
  · refine hcases.imp_right (And.imp_left ?_)
    rintro (h | h) <;> exact ⟨_, h⟩

theorem solid_isolateFrom {read : List Char} {quote : Option Char} {cs : List Char}
    (h : Word.quoteAfter none read.reverse = quote) :
    Word.solid (Word.marked none (isolateFrom read quote cs)) =
      Word.solid (Word.marked none read.reverse) ++ Word.solid (Word.marked quote cs) := by
  induction read, quote, cs using isolate_induction with
  | nil read quote => simp [isolateFrom, Word.marked, Word.solid]
  | plain read quote c cs hc ih =>
    have hread : Word.marked none (c :: read).reverse =
        Word.marked none read.reverse ++ [(c, quote.isSome)] := by
      rw [List.reverse_cons, Word.marked_append, h]
      rfl
    have hquote : Word.quoteAfter none (c :: read).reverse = Word.quoteStep quote c := by
      rw [List.reverse_cons, Word.quoteAfter_append, h]
      rfl
    rw [isolateFrom_plain hc, ih hquote, hread, Word.solid_append, List.append_assoc,
      ← Word.solid_append]
    rfl
  | redirect read cs ih =>
    obtain ⟨before, fd, op, rest, hread, hcs, hset, hrest, hop, -⟩ := exists_setApart read cs
    have hfd : ∀ c ∈ fd, Word.isQuote c = false :=
      fun c hc => (hop.plain c (List.mem_append_left _ hc)).1
    have hsign : ∀ c ∈ op, Word.isQuote c = false :=
      fun c hc => (hop.plain c (List.mem_append_right _ hc)).1
    have hbefore : Word.quoteAfter none before.reverse = none := by
      rwa [hread, Word.quoteAfter_append_plain hfd] at h
    have hafter : Word.quoteAfter none op = none := @Word.quoteAfter_append_plain [] op hsign
    have hspaced : ∀ c ∈ ' ' :: (fd ++ op) ++ [' '], Word.isQuote c = false := by
      have hblank : Word.isQuote ' ' = false := rfl
      simp only [List.cons_append, List.forall_mem_cons, List.forall_mem_append]
      exact ⟨hblank, ⟨hfd, hsign⟩, hblank, by simp⟩
    have hapart : Word.marked none (before.reverse ++ (' ' :: (fd ++ op) ++ [' '])) =
        Word.marked none before.reverse ++ (' ' :: (fd ++ op) ++ [' ']).map (·, false) := by
      rw [Word.marked_append, hbefore, Word.marked_plain hspaced]
    have hbehind : Word.marked none (op ++ rest) = op.map (·, false) ++ Word.marked none rest := by
      rw [Word.marked_append, hafter, Word.marked_plain hsign]
    rw [isolateFrom_redirect, ih ((quoteAfter_setApart read cs).trans h), hset, hrest, hread, hcs,
      hapart, hbehind, Word.marked_append, hbefore, Word.marked_plain hfd]
    simp [Word.solid, Text.isBlank]

theorem isolateFrom_of_not_mem (read : List Char) {quote : Option Char} {cs : List Char}
    (h : ('>', false) ∉ Word.marked quote cs) : isolateFrom read quote cs = read.reverse ++ cs := by
  induction read, quote, cs using isolate_induction with
  | nil read quote => simp [isolateFrom]
  | plain read quote c cs hc ih =>
    rw [isolateFrom_plain hc, ih (fun hm => h (List.mem_cons_of_mem _ hm))]
    simp
  | redirect read cs ih => exact absurd List.mem_cons_self h

end Stage

namespace Word

structure Progress.Apart (p : Progress) : Prop where
  words : ∀ w ∈ p.words, w.quoted = false → '>' ∈ w.text.toList → Stage.IsRedirect w.text.toList
  draft : ∀ d, p.draft = some d → d.quoted = false → '>' ∉ d.text
  quote : p.quote ≠ none → ∃ d, p.draft = some d ∧ d.quoted = true

namespace Progress.Apart

variable {p : Progress}

theorem finish (h : p.Apart) : ∀ w ∈ p.finish, w.quoted = false → '>' ∈ w.text.toList →
    Stage.IsRedirect w.text.toList := by
  intro w hw hq hgt
  rcases List.mem_append.1 hw with hw | hw
  · exact h.words w hw hq hgt
  · obtain ⟨d, hd, rfl⟩ : ∃ d, p.draft = some d ∧ d.word = w := by simpa using hw
    rw [Draft.word, String.toList_ofList, List.mem_reverse] at hgt
    exact absurd hgt (h.draft d hd hq)

theorem step (h : p.Apart) {c : Char} (hc : p.quote = none → c ≠ '>') : (p.step c).Apart := by
  cases hq : p.quote with
  | some q =>
    obtain ⟨d, hd, hquoted⟩ := h.quote (by simp [hq])
    by_cases hcq : c = q
    · have hstep : p.step c = { p with quote := none } := by simp [Progress.step, hq, hcq]
      rw [hstep]
      exact ⟨h.words, h.draft, nofun⟩
    · have hstep : p.step c = { p with draft := some (d.push c) } := by
        simp [Progress.step, hq, hcq, hd]
      rw [hstep]
      refine ⟨h.words, ?_, fun _ => ⟨d.push c, rfl, hquoted⟩⟩
      rintro d' hd' hunquoted
      cases hd'
      simp [Draft.push, hquoted] at hunquoted
  | none =>
    by_cases hquote : isQuote c = true
    · have hstep : p.step c =
          { p with quote := some c, draft := some { p.draft.getD {} with quoted := true } } := by
        simp [Progress.step, hq, hquote]
      rw [hstep]
      refine ⟨h.words, ?_, fun _ => ⟨_, rfl, rfl⟩⟩
      rintro d' hd' hunquoted
      cases hd'
      cases hunquoted
    · by_cases hblank : Text.isBlank c = true
      · have hstep : p.step c = { p with draft := none, words := p.finish } := by
          simp [Progress.step, hq, hquote, hblank, Progress.finish]
        rw [hstep]
        exact ⟨h.finish, nofun, fun hne => absurd hq hne⟩
      · rw [step_plain hq (by simpa using hquote) (by simpa using hblank)]
        refine ⟨h.words, ?_, fun hne => absurd hq hne⟩
        rintro d' hd' hunquoted
        cases hd'
        cases hd : p.draft with
        | none => simp [Draft.push, (hc hq).symm]
        | some d =>
          rw [hd] at hunquoted
          have hno := h.draft d hd hunquoted
          simp [Draft.push, (hc hq).symm, hno]

theorem read_spaced (h : p.Apart) (hp : p.quote = none) {op : List Char}
    (hop : Stage.IsRedirect op) : (p.read (' ' :: op ++ [' '])).Apart := by
  have hbefore : p.step ' ' = { p with draft := none, words := p.finish } := step_blank hp
  have hread : p.read (' ' :: op ++ [' ']) = ((p.step ' ').read op).step ' ' := by
    rw [read_append]
    rfl
  rw [hread, hbefore, read_word (by exact hp) rfl hop.ne_nil hop.plain, step_blank (by exact hp)]
  refine ⟨?_, nofun, fun hne => absurd hp hne⟩
  intro w hw hq hgt
  rcases List.mem_append.1 hw with hw | hw
  · exact h.finish w hw hq hgt
  · obtain rfl : w = Draft.word ⟨op.reverse, false⟩ := by simpa using hw
    simpa [Draft.word] using hop

theorem of_descriptor {c : Char} (h : (p.step c).Apart) (hp : p.quote = none)
    (hd : p.draft = none) (hq : isQuote c = false) (hb : Text.isBlank c = false) : p.Apart := by
  rw [step_plain hp hq hb] at h
  exact ⟨h.words, by simp [hd], fun hne => absurd hp hne⟩

end Progress.Apart

end Word

namespace Stage

theorem apart_isolateFrom {read : List Char} {quote : Option Char} {cs : List Char}
    (h : (Word.Progress.read {} read.reverse).Apart)
    (hq : Word.quoteAfter none read.reverse = quote) :
    (Word.Progress.read {} (isolateFrom read quote cs)).Apart := by
  induction read, quote, cs using isolate_induction with
  | nil read quote => rwa [isolateFrom]
  | plain read quote c cs hc ih =>
    have hquote : Word.quoteAfter none (c :: read).reverse = Word.quoteStep quote c := by
      rw [List.reverse_cons, Word.quoteAfter_append, hq]
      rfl
    rw [isolateFrom_plain hc]
    refine ih ?_ hquote
    rw [List.reverse_cons, Word.Progress.read_append]
    refine h.step ?_
    rwa [Word.Progress.quote_read, hq]
  | redirect read cs ih =>
    rw [isolateFrom_redirect]
    refine ih ?_ ((quoteAfter_setApart read cs).trans hq)
    obtain ⟨before, fd, op, rest, hread, -, hset, -, hop, hfd⟩ := exists_setApart read cs
    have hplain : ∀ c ∈ fd, Word.isQuote c = false ∧ Text.isBlank c = false :=
      fun c hc => hop.plain c (List.mem_append_left _ hc)
    have hclosed : Word.Closed before.reverse := by
      rwa [hread, Word.quoteAfter_append_plain (fun c hc => (hplain c hc).1)] at hq
    have hquote : (Word.Progress.read {} before.reverse).quote = none := by
      rw [Word.Progress.quote_read, hclosed]
    rw [hset, Word.Progress.read_append]
    refine Word.Progress.Apart.read_spaced ?_ hquote hop
    rw [hread, Word.Progress.read_append] at h
    rcases hfd with rfl | ⟨⟨c, rfl⟩, hblank⟩
    · exact h
    · obtain ⟨hcq, hcb⟩ := hplain c List.mem_cons_self
      exact h.of_descriptor hquote (Word.Progress.draft_read_eq_none hclosed hblank) hcq hcb

variable {s s' : Stage}

theorem ofWords_append {before : List Word} (h : ofWords s before = some s') (rest : List Word) :
    ofWords s (before ++ rest) = ofWords s' rest := by
  fun_induction ofWords s before with
  | case1 s =>
    cases h
    rfl
  | case2 s w ws hop ih =>
    rw [List.cons_append, ofWords, hop]
    exact ih h
  | case3 s w ws _ hop ih =>
    rw [List.cons_append, ofWords, hop]
    exact ih h
  | case4 s w op hmerge hop => cases h
  | case5 s w op hmerge hop target ws ih =>
    simp only [List.cons_append, ofWords, hop]
    exact ih h
  | case6 s w ws op attached hmerge hne hop ih =>
    simp only [List.cons_append, ofWords, hop]
    exact ih h

theorem exists_of_ofWords_eq_none {ws : List Word} (h : ofWords s ws = none) :
    ∃ before o op s', ws = before ++ [o] ∧ opOf? o = some (op, []) ∧ op ≠ .merge ∧
      ofWords s before = some s' := by
  fun_induction ofWords s ws with
  | case1 s => cases h
  | case2 s w ws hop ih =>
    obtain ⟨before, o, op, s', rfl, ho, hm, hs⟩ := ih h
    refine ⟨w :: before, o, op, s', rfl, ho, hm, ?_⟩
    rw [ofWords, hop]
    exact hs
  | case3 s w ws _ hop ih =>
    obtain ⟨before, o, op, s', rfl, ho, hm, hs⟩ := ih h
    refine ⟨w :: before, o, op, s', rfl, ho, hm, ?_⟩
    rw [ofWords, hop]
    exact hs
  | case4 s w op hmerge hop => exact ⟨[], w, op, s, rfl, hop, hmerge, rfl⟩
  | case5 s w op hmerge hop target ws ih =>
    obtain ⟨before, o, op', s', rfl, ho, hm, hs⟩ := ih h
    refine ⟨w :: target :: before, o, op', s', rfl, ho, hm, ?_⟩
    simp only [ofWords, hop]
    exact hs
  | case6 s w ws op attached hmerge hne hop ih =>
    obtain ⟨before, o, op', s', rfl, ho, hm, hs⟩ := ih h
    refine ⟨w :: before, o, op', s', rfl, ho, hm, ?_⟩
    simp only [ofWords, hop]
    exact hs

def KeptAsText (stage : Option Stage) (before : List Word) (w : Word) (after : List Word) : Prop :=
  (∃ s, ofWords {} before = some s ∧
    stage = ofWords { s with words := s.words ++ [w] } after) ∨
  ∃ ws o op s, before = ws ++ [o] ∧ opOf? o = some (op, []) ∧ op ≠ .merge ∧
    ofWords {} ws = some s ∧ stage = ofWords (s.setTarget op w.text) after

theorem keptAsText_of_quoted {w : Word} (hw : w.quoted = true) (before after : List Word) :
    KeptAsText (ofWords {} (before ++ w :: after)) before w after := by
  cases hb : ofWords {} before with
  | some s =>
    have hop : opOf? w = none := by simp [opOf?, hw]
    refine .inl ⟨s, hb, ?_⟩
    rw [ofWords_append hb, ofWords, hop]
  | none =>
    obtain ⟨ws, o, op, s, rfl, ho, hm, hs⟩ := exists_of_ofWords_eq_none hb
    refine .inr ⟨ws, o, op, s, rfl, ho, hm, hs, ?_⟩
    rw [List.append_assoc, ofWords_append hs]
    simp only [List.singleton_append, ofWords, ho]

theorem isolate_apart (t : List Char) :
    Word.solid (Word.marked none (isolate t)) = Word.solid (Word.marked none t) ∧
      (('>', false) ∉ Word.marked none t → isolate t = t) ∧
      (∀ w ∈ Word.ofChars (isolate t), w.quoted = false → '>' ∈ w.text.toList →
        IsRedirect w.text.toList) ∧
      ∀ before w after, Word.ofChars (isolate t) = before ++ w :: after → w.quoted = true →
        KeptAsText (ofChars? t) before w after := by
  refine ⟨solid_isolateFrom rfl, isolateFrom_of_not_mem [], ?_, ?_⟩
  · have hempty : Word.Progress.Apart {} := ⟨nofun, nofun, fun h => absurd rfl h⟩
    have hapart : (Word.Progress.read {} (isolate t)).Apart := apart_isolateFrom hempty rfl
    rw [Word.Progress.ofChars_eq_finish]
    exact hapart.finish
  · intro before w after heq hw
    rw [ofChars?, heq]
    exact keptAsText_of_quoted hw before after

theorem isolate_apart_dense :
    let t := "a2>b 1>>'x>y'>>>2>&1 \"2\">&".toList
    let before : List Word := [⟨"a2", false⟩, ⟨">", false⟩, ⟨"b", false⟩, ⟨"1>>", false⟩]
    let after : List Word := [⟨">>", false⟩, ⟨">", false⟩, ⟨"2>&1", false⟩, ⟨"2", true⟩,
      ⟨">", false⟩, ⟨"&", false⟩]
    Word.ofChars (isolate t) = before ++ ⟨"x>y", true⟩ :: after ∧
      IsRedirect "2>&1".toList ∧ KeptAsText (ofChars? t) before ⟨"x>y", true⟩ after ∧
      isolate "echo 'a>b'".toList = "echo 'a>b'".toList := by
  intro t before after
  have hwords : Word.ofChars (isolate t) = before ++ ⟨"x>y", true⟩ :: after := by decide +kernel
  obtain ⟨-, -, hredirect, hkept⟩ := isolate_apart t
  have hmem : ⟨"2>&1", false⟩ ∈ Word.ofChars (isolate t) := by
    rw [hwords]
    decide
  refine ⟨hwords, hredirect _ hmem rfl (by decide), hkept before _ after hwords rfl, ?_⟩
  exact (isolate_apart "echo 'a>b'".toList).2.1 (by decide +kernel)

end Stage

end ProjectShell
