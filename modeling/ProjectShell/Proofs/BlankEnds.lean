import Mathlib.Data.List.Forall2
import ProjectShell.Proofs.Operators
import ProjectShell.Shell.Line

namespace ProjectShell

theorem Text.ne_of_isBlank {c d : Char} (hc : isBlank c = true) (hd : isBlank d = false) :
    c ≠ d := by
  rintro rfl
  simp [hc] at hd

theorem Text.allBlank_blank {b : Char} (hb : isBlank b = true) (cs : List Char) :
    allBlank (b :: cs) = allBlank cs := by
  simp [allBlank, hb]

theorem Text.allBlank_concat {b : Char} (hb : isBlank b = true) (cs : List Char) :
    allBlank (cs ++ [b]) = allBlank cs := by
  simp [allBlank, hb]

theorem Text.isDigit_of_isBlank {c : Char} (hc : isBlank c = true) : c.isDigit = false := by
  by_contra h
  have hd : 48 ≤ c.toNat ∧ c.toNat ≤ 57 := by
    simpa [Char.isDigit, UInt32.le_iff_toNat_le] using h
  simp only [isBlank, Bool.or_eq_true, Bool.and_eq_true, decide_eq_true_eq] at hc
  omega

theorem Word.isQuote_of_isBlank {c : Char} (hc : Text.isBlank c = true) : isQuote c = false := by
  have hdouble := Text.ne_of_isBlank hc (rfl : Text.isBlank '"' = false)
  have hsingle := Text.ne_of_isBlank hc (rfl : Text.isBlank '\'' = false)
  simp [isQuote, hdouble, hsingle]

theorem Word.isQuote_of_isDigit {c : Char} (hc : c.isDigit = true) : isQuote c = false := by
  have hdouble : c ≠ '"' := by
    rintro rfl
    exact absurd hc (by decide)
  have hsingle : c ≠ '\'' := by
    rintro rfl
    exact absurd hc (by decide)
  simp [isQuote, hdouble, hsingle]

theorem Operator.isBlank_sign (op : Operator) : Text.isBlank op.sign = false := by cases op <;> rfl

namespace Word

theorem ofChars_blank {c : Char} (hc : Text.isBlank c = true) (cs : List Char) :
    ofChars (c :: cs) = ofChars cs := by
  simp [ofChars, scan, isQuote_of_isBlank hc, hc]

theorem scan_concat_blank {c : Char} (hc : Text.isBlank c = true) {quote : Option Char}
    {draft : Option Draft} {cs : List Char} (hq : quoteAfter quote cs = none) :
    scan quote draft (cs ++ [c]) = scan quote draft cs := by
  induction cs generalizing quote draft with
  | nil =>
    obtain rfl : quote = none := hq
    simp [scan, isQuote_of_isBlank hc, hc]
  | cons d cs ih =>
    rw [quoteAfter_cons] at hq
    rw [List.cons_append]
    cases quote with
    | some q =>
      by_cases hd : d = q
      · rw [quoteStep, if_pos hd] at hq
        simp only [scan, if_pos hd, ih hq]
      · rw [quoteStep, if_neg hd] at hq
        simp only [scan, if_neg hd, ih hq]
    | none =>
      by_cases hd : isQuote d = true
      · rw [quoteStep, if_pos hd] at hq
        simp only [scan, if_pos hd, ih hq]
      · rw [quoteStep, if_neg hd] at hq
        simp only [scan, if_neg hd, ih hq]

end Word

namespace Stage

def cutRedirect (fd : List Char) : List Char → List Char × List Char
  | '>' :: cs => (['>', '>'], cs)
  | '&' :: d :: cs =>
      if fd = ['2'] then
        if d.isDigit then (['>', '&', d], cs) else (['>', '&'], d :: cs)
      else (['>'], '&' :: d :: cs)
  | ['&'] => if fd = ['2'] then (['>', '&'], []) else (['>'], ['&'])
  | cs => (['>'], cs)

def setApart (read cs : List Char) : List Char × List Char :=
  let (fd, before) := takeDescriptor read
  let (op, rest) := cutRedirect fd cs
  (' ' :: (fd ++ op).reverse ++ ' ' :: before, rest)

theorem takeDescriptor_append (read : List Char) :
    (takeDescriptor read).1 ++ (takeDescriptor read).2 = read := by
  cases read with
  | nil => rfl
  | cons c read =>
    rw [takeDescriptor]
    split <;> rfl

theorem isQuote_takeDescriptor (read : List Char) :
    ∀ c ∈ (takeDescriptor read).1, Word.isQuote c = false := by
  cases read with
  | nil => nofun
  | cons d read =>
    rw [takeDescriptor]
    split
    · rename_i h
      simp only [Bool.and_eq_true, Bool.or_eq_true, decide_eq_true_eq] at h
      rintro c hc
      obtain rfl := List.mem_singleton.1 hc
      rcases h.1 with rfl | rfl <;> rfl
    · nofun

theorem takeDescriptor_concat {b : Char} (hb : Text.isBlank b = true) (read : List Char) :
    takeDescriptor (read ++ [b]) = ((takeDescriptor read).1, (takeDescriptor read).2 ++ [b]) := by
  cases read with
  | nil =>
    have hone := Text.ne_of_isBlank hb (rfl : Text.isBlank '1' = false)
    have htwo := Text.ne_of_isBlank hb (rfl : Text.isBlank '2' = false)
    simp [takeDescriptor, hone, htwo]
  | cons c read =>
    have hhead : (read ++ [b]).head?.all Text.isBlank = read.head?.all Text.isBlank := by
      cases read <;> simp [hb]
    rw [List.cons_append, takeDescriptor, takeDescriptor, hhead]
    split <;> rfl

theorem cutRedirect_append (fd cs : List Char) :
    (cutRedirect fd cs).1 ++ (cutRedirect fd cs).2 = '>' :: cs := by
  fun_cases cutRedirect fd cs <;> rfl

theorem isQuote_cutRedirect (fd cs : List Char) :
    ∀ c ∈ (cutRedirect fd cs).1, Word.isQuote c = false := by
  have hdigit (d : Char) : d.isDigit = true → Word.isQuote d = false := Word.isQuote_of_isDigit
  fun_cases cutRedirect fd cs <;> simp_all [Word.isQuote]

theorem cutRedirect_concat {b : Char} (hb : Text.isBlank b = true) (fd cs : List Char) :
    cutRedirect fd (cs ++ [b]) = ((cutRedirect fd cs).1, (cutRedirect fd cs).2 ++ [b]) := by
  have hand := Text.ne_of_isBlank hb (rfl : Text.isBlank '&' = false)
  have hgt := Text.ne_of_isBlank hb (rfl : Text.isBlank '>' = false)
  have hdigit := Text.isDigit_of_isBlank hb
  fun_cases cutRedirect fd cs
  case case7 hnext hdup hlast =>
    cases cs with
    | nil => simp [cutRedirect, hand, hgt]
    | cons c cs =>
      have hc : c ≠ '>' ∧ c ≠ '&' := by
        refine ⟨fun h => hnext cs (by rw [h]), ?_⟩
        rintro rfl
        cases cs with
        | nil => exact hlast rfl
        | cons d cs => exact hdup d cs rfl
      simp [cutRedirect, hc]
  all_goals simp_all [cutRedirect]

theorem isolateFrom_plain {quote : Option Char} {c : Char} (h : quote = none → c ≠ '>')
    (read cs : List Char) :
    isolateFrom read quote (c :: cs) = isolateFrom (c :: read) (Word.quoteStep quote c) cs := by
  cases quote with
  | some q => rw [isolateFrom, Word.quoteStep]
  | none =>
    rw [isolateFrom, Word.quoteStep]
    by_cases hq : Word.isQuote c = true
    · rw [if_pos hq, if_pos hq]
    · rw [if_neg hq, if_neg hq, if_pos (h rfl)]

theorem isolateFrom_redirect (read cs : List Char) :
    isolateFrom read none ('>' :: cs) =
      isolateFrom (setApart read cs).1 none (setApart read cs).2 := by
  have hq : ¬ Word.isQuote '>' = true := by decide
  rw [isolateFrom, if_neg hq, if_neg (not_not_intro rfl), setApart]
  obtain ⟨fd, before⟩ := takeDescriptor read
  dsimp only
  split
  · rfl
  · split
    · rename_i hfd
      split
      · rename_i hd
        rw [cutRedirect, if_pos hfd, if_pos hd]
      · rename_i hd
        rw [cutRedirect, if_pos hfd, if_neg hd]
    · rename_i hfd
      rw [cutRedirect, if_neg hfd]
  · split
    · rename_i hfd
      rw [cutRedirect, if_pos hfd]
    · rename_i hfd
      rw [cutRedirect, if_neg hfd]
  · rw [cutRedirect] <;> assumption

theorem setApart_read_concat {b : Char} (hb : Text.isBlank b = true) (read cs : List Char) :
    setApart (read ++ [b]) cs = ((setApart read cs).1 ++ [b], (setApart read cs).2) := by
  simp [setApart, takeDescriptor_concat hb]

theorem setApart_concat {b : Char} (hb : Text.isBlank b = true) (read cs : List Char) :
    setApart read (cs ++ [b]) = ((setApart read cs).1, (setApart read cs).2 ++ [b]) := by
  simp [setApart, cutRedirect_concat hb]

theorem length_setApart_le (read cs : List Char) : (setApart read cs).2.length ≤ cs.length := by
  have h := congrArg List.length (cutRedirect_append (takeDescriptor read).1 cs)
  have hpos : 0 < (cutRedirect (takeDescriptor read).1 cs).1.length := by
    fun_cases cutRedirect (takeDescriptor read).1 cs <;> simp
  simp only [List.length_append, List.length_cons] at h
  simp only [setApart]
  omega

theorem quoteAfter_setApart (read cs : List Char) :
    Word.quoteAfter none (setApart read cs).1.reverse = Word.quoteAfter none read.reverse := by
  obtain ⟨fd, hfd⟩ : ∃ fd, fd = (takeDescriptor read).1 := ⟨_, rfl⟩
  have hread : read.reverse = (takeDescriptor read).2.reverse ++ fd.reverse := by
    rw [hfd, ← List.reverse_append, takeDescriptor_append]
  have hapart : (setApart read cs).1.reverse =
      (takeDescriptor read).2.reverse ++ (' ' :: (fd ++ (cutRedirect fd cs).1) ++ [' ']) := by
    simp [setApart, hfd]
  have hplain : ∀ c ∈ fd, Word.isQuote c = false := hfd ▸ isQuote_takeDescriptor read
  rw [hread, hapart, Word.quoteAfter_append_plain, Word.quoteAfter_append_plain]
  · intro c hc
    exact hplain c (List.mem_reverse.1 hc)
  · have hop := isQuote_cutRedirect fd cs
    have hblank : Word.isQuote ' ' = false := rfl
    intro c hc
    simp only [List.mem_append, List.mem_cons, List.not_mem_nil, or_false] at hc
    rcases hc with (rfl | hc | hc) | rfl
    · exact hblank
    · exact hplain c hc
    · exact hop c hc
    · exact hblank

theorem quoteAfter_setApart_rest (read cs : List Char) :
    Word.quoteAfter none (setApart read cs).2 = Word.quoteAfter none cs := by
  have hcut := cutRedirect_append (takeDescriptor read).1 cs
  have hop : Word.quoteAfter none (cutRedirect (takeDescriptor read).1 cs).1 = none :=
    @Word.quoteAfter_append_plain [] _ (isQuote_cutRedirect _ cs)
  calc Word.quoteAfter none (setApart read cs).2
      = Word.quoteAfter none (cutRedirect (takeDescriptor read).1 cs).2 := rfl
    _ = Word.quoteAfter none ('>' :: cs) := by rw [← hcut, Word.quoteAfter_append, hop]
    _ = Word.quoteAfter none cs := rfl

theorem isolate_induction {motive : List Char → Option Char → List Char → Prop}
    (nil : ∀ read quote, motive read quote [])
    (plain : ∀ read quote c cs, (quote = none → c ≠ '>') →
      motive (c :: read) (Word.quoteStep quote c) cs → motive read quote (c :: cs))
    (redirect : ∀ read cs, motive (setApart read cs).1 none (setApart read cs).2 →
      motive read none ('>' :: cs))
    (read : List Char) (quote : Option Char) : (cs : List Char) → motive read quote cs
  | [] => nil read quote
  | c :: cs => by
    by_cases h : quote = none → c ≠ '>'
    · exact plain read quote c cs h
        (isolate_induction nil plain redirect (c :: read) (Word.quoteStep quote c) cs)
    · obtain ⟨rfl, rfl⟩ : quote = none ∧ c = '>' := by
        simpa using h
      have hlt := length_setApart_le read cs
      exact redirect read cs
        (isolate_induction nil plain redirect (setApart read cs).1 none (setApart read cs).2)
termination_by cs => cs.length
decreasing_by
  · simp
  · simp only [List.length_cons]
    omega

theorem isolateFrom_read_concat {b : Char} (hb : Text.isBlank b = true) (read : List Char)
    (quote : Option Char) (cs : List Char) :
    isolateFrom (read ++ [b]) quote cs = b :: isolateFrom read quote cs := by
  induction read, quote, cs using isolate_induction with
  | nil read quote => simp [isolateFrom]
  | plain read quote c cs h ih =>
    rw [isolateFrom_plain h, isolateFrom_plain h]
    exact ih
  | redirect read cs ih =>
    rw [isolateFrom_redirect, isolateFrom_redirect, setApart_read_concat hb]
    exact ih

theorem isolateFrom_concat {b : Char} (hb : Text.isBlank b = true) (read : List Char)
    (quote : Option Char) (cs : List Char) :
    isolateFrom read quote (cs ++ [b]) = isolateFrom read quote cs ++ [b] := by
  induction read, quote, cs using isolate_induction with
  | nil read quote =>
    have hgt := Text.ne_of_isBlank hb (rfl : Text.isBlank '>' = false)
    rw [List.nil_append, isolateFrom_plain (fun _ => hgt)]
    simp [isolateFrom]
  | plain read quote c cs h ih =>
    rw [List.cons_append, isolateFrom_plain h, isolateFrom_plain h, ih]
  | redirect read cs ih =>
    rw [List.cons_append, isolateFrom_redirect, isolateFrom_redirect, setApart_concat hb]
    exact ih

theorem quoteAfter_isolateFrom {read : List Char} {quote : Option Char} {cs : List Char}
    (h : Word.quoteAfter none read.reverse = quote) :
    Word.quoteAfter none (isolateFrom read quote cs) = Word.quoteAfter quote cs := by
  induction read, quote, cs using isolate_induction with
  | nil read quote => rwa [isolateFrom]
  | plain read quote c cs hc ih =>
    rw [isolateFrom_plain hc, ih, Word.quoteAfter_cons]
    rw [List.reverse_cons, Word.quoteAfter_append, h]
    rfl
  | redirect read cs ih =>
    have hq : Word.quoteStep none '>' = none := rfl
    rw [isolateFrom_redirect, ih ((quoteAfter_setApart read cs).trans h),
      quoteAfter_setApart_rest, Word.quoteAfter_cons, hq]

theorem ofChars?_blank {b : Char} (hb : Text.isBlank b = true) (cs : List Char) :
    ofChars? (b :: cs) = ofChars? cs := by
  have hgt := Text.ne_of_isBlank hb (rfl : Text.isBlank '>' = false)
  have hstep : Word.quoteStep none b = none := Word.quoteStep_none (Word.isQuote_of_isBlank hb)
  have hi : isolate (b :: cs) = b :: isolate cs := by
    rw [isolate, isolateFrom_plain (fun _ => hgt), hstep]
    exact isolateFrom_read_concat hb [] none cs
  rw [ofChars?, ofChars?, hi, Word.ofChars_blank hb]

theorem ofChars?_concat {b : Char} (hb : Text.isBlank b = true) {cs : List Char}
    (hc : Word.Closed cs) : ofChars? (cs ++ [b]) = ofChars? cs := by
  have hi : isolate (cs ++ [b]) = isolate cs ++ [b] := isolateFrom_concat hb [] none cs
  have hclosed : Word.Closed (isolate cs) :=
    (quoteAfter_isolateFrom rfl).trans hc
  rw [ofChars?, ofChars?, hi, Word.ofChars, Word.scan_concat_blank hb hclosed, Word.ofChars]

end Stage

def Padded (b : Char) (quote : Option Char) (x y : List Char) : Prop :=
  y = x ∨ y = x ++ [b] ∧ Word.quoteAfter quote x = none

theorem Padded.cons {b c : Char} {quote : Option Char} {x y : List Char}
    (h : Padded b (Word.quoteStep quote c) x y) : Padded b quote (c :: x) (c :: y) := by
  rcases h with rfl | ⟨rfl, hq⟩
  · exact .inl rfl
  · exact .inr ⟨rfl, hq⟩

namespace Pieces

variable {ops : List Operator}

theorem next?_blank {b : Char} (hb : Text.isBlank b = true) (quote : Option Char)
    (cs : List Char) : next? ops quote (b :: cs) = none := by
  cases hn : next? ops quote (b :: cs) with
  | none => rfl
  | some op =>
    have hs := Operator.sign_eq_of_prefix_cons (next?_eq_some hn).2.2
    exact absurd hs.symm (Text.ne_of_isBlank hb op.isBlank_sign)

theorem split_blank {b : Char} (hb : Text.isBlank b = true) (cs : List Char) :
    split ops (b :: cs) = (split ops cs).push b := by
  rw [split, scan_push (next?_blank hb none cs),
    Word.quoteStep_none (Word.isQuote_of_isBlank hb), split]

theorem next?_concat {b : Char} (hb : Text.isBlank b = true) (quote : Option Char)
    (cs : List Char) : next? ops quote (cs ++ [b]) = next? ops quote cs := by
  have hpre (op : Operator) : op.chars.isPrefixOf (cs ++ [b]) = op.chars.isPrefixOf cs := by
    rw [Bool.eq_iff_iff, List.isPrefixOf_iff_prefix, List.isPrefixOf_iff_prefix,
      List.prefix_concat_iff]
    refine or_iff_right (fun h => ?_)
    have hsign : b = op.sign := by
      have hmem : b ∈ op.chars := by simp [h]
      rcases op.chars_eq with hc | hc <;> simpa [hc] using hmem
    exact Text.ne_of_isBlank hb op.isBlank_sign hsign
  cases quote with
  | some q => rfl
  | none => simp only [next?, hpre]

theorem padded_scan (ops : List Operator) {b : Char} (hb : Text.isBlank b = true)
    {quote : Option Char} {skip : Nat} {cs : List Char} (hs : skip ≤ cs.length)
    (hq : Word.quoteAfter quote (cs.drop skip) = none) :
    Padded b quote (scan ops quote skip cs).first (scan ops quote skip (cs ++ [b])).first ∧
      List.Forall₂ (fun u v => Padded b none u.2 v.2) (scan ops quote skip cs).rest
        (scan ops quote skip (cs ++ [b])).rest := by
  induction cs generalizing quote skip with
  | nil =>
    obtain rfl : skip = 0 := Nat.le_zero.1 hs
    obtain rfl : quote = none := hq
    rw [List.nil_append, scan_push (next?_blank hb none [])]
    exact ⟨.inr ⟨rfl, rfl⟩, .nil⟩
  | cons c cs ih =>
    cases skip with
    | succ skip => exact ih (Nat.le_of_succ_le_succ hs) hq
    | zero =>
      have hnext : next? ops quote (c :: (cs ++ [b])) = next? ops quote (c :: cs) :=
        next?_concat hb quote (c :: cs)
      cases hn : next? ops quote (c :: cs) with
      | none =>
        rw [hn] at hnext
        obtain ⟨hfirst, hrest⟩ := ih (Nat.zero_le _) hq
        rw [scan_push hn, List.cons_append, scan_push hnext]
        exact ⟨hfirst.cons, hrest⟩
      | some o =>
        obtain ⟨rfl, -, hpre⟩ := next?_eq_some hn
        rw [hn] at hnext
        have hlen : o.chars.length - 1 ≤ cs.length := Nat.sub_le_of_le_add hpre.length_le
        rw [List.drop_zero, ← Operator.chars_append_drop hpre, Operator.quoteAfter_chars] at hq
        obtain ⟨hfirst, hrest⟩ := ih hlen hq
        rw [scan_operator hn, List.cons_append, scan_operator hnext]
        exact ⟨.inl rfl, .cons hfirst hrest⟩

end Pieces

def SameStage (x y : List Char) : Prop :=
  Text.allBlank x = Text.allBlank y ∧ Stage.ofChars? x = Stage.ofChars? y

theorem sameStage_blank {b : Char} (hb : Text.isBlank b = true) (cs : List Char) :
    SameStage (b :: cs) cs :=
  ⟨Text.allBlank_blank hb cs, Stage.ofChars?_blank hb cs⟩

theorem Padded.sameStage {b : Char} (hb : Text.isBlank b = true) {x y : List Char}
    (h : Padded b none x y) : SameStage x y := by
  rcases h with rfl | ⟨rfl, hq⟩
  · exact ⟨rfl, rfl⟩
  · exact ⟨(Text.allBlank_concat hb x).symm, (Stage.ofChars?_concat hb hq).symm⟩

theorem stagesOf_congr (many : Bool) {xs ys : List (List Char)} (h : List.Forall₂ SameStage xs ys) :
    stagesOf many xs = stagesOf many ys := by
  induction h with
  | nil => rfl
  | cons hxy _ ih => rw [stagesOf, stagesOf, hxy.1, hxy.2, ih]

theorem runPipeline_congr {cs ds : List Char}
    (hfirst : SameStage (Pieces.split [.pipe] cs).first (Pieces.split [.pipe] ds).first)
    (hrest : List.Forall₂ (fun u v => SameStage u.2 v.2) (Pieces.split [.pipe] cs).rest
      (Pieces.split [.pipe] ds).rest) :
    runPipeline cs = runPipeline ds := by
  have hempty :
      (Pieces.split [.pipe] cs).rest.isEmpty = (Pieces.split [.pipe] ds).rest.isEmpty := by
    rw [Bool.eq_iff_iff, List.isEmpty_iff_length_eq_zero, List.isEmpty_iff_length_eq_zero,
      hrest.length_eq]
  have hall : List.Forall₂ SameStage (Pieces.split [.pipe] cs).all (Pieces.split [.pipe] ds).all :=
    .cons hfirst (List.forall₂_map_left_iff.2 (List.forall₂_map_right_iff.2 hrest))
  rw [runPipeline, runPipeline, hempty, stagesOf_congr _ hall]

theorem runPipeline_blank {b : Char} (hb : Text.isBlank b = true) (cs : List Char) :
    runPipeline (b :: cs) = runPipeline cs := by
  refine runPipeline_congr ?_ ?_ <;> rw [Pieces.split_blank hb]
  · exact sameStage_blank hb _
  · exact List.forall₂_same.2 (fun _ _ => ⟨rfl, rfl⟩)

theorem runPipeline_concat {b : Char} (hb : Text.isBlank b = true) {cs : List Char}
    (hc : Word.Closed cs) : runPipeline (cs ++ [b]) = runPipeline cs := by
  obtain ⟨hfirst, hrest⟩ := Pieces.padded_scan [.pipe] hb (Nat.zero_le cs.length) hc
  symm
  exact runPipeline_congr (hfirst.sameStage hb) (hrest.imp (fun _ _ h => h.sameStage hb))

end ProjectShell
