import ProjectShell.Proofs.Quoting
import ProjectShell.Proofs.Redirections

namespace ProjectShell

namespace Word

structure Plain (cs : List Char) : Prop where
  ne_nil : cs ≠ []
  chars : ∀ c ∈ cs, isQuote c = false ∧ Text.isBlank c = false ∧ c ≠ '>'
  operators : ∀ op : Operator, ¬ op.chars <:+: cs

theorem ofChars_append_blank {cs : List Char} (h : Plain cs) (rest : List Char) :
    ofChars (cs ++ ' ' :: rest) = ⟨String.ofList cs, false⟩ :: ofChars rest := by
  have hword : Progress.read {} cs = { draft := some ⟨cs.reverse, false⟩ } :=
    Progress.read_word rfl rfl h.ne_nil (fun c hc => ⟨(h.chars c hc).1, (h.chars c hc).2.1⟩)
  have hblank : Progress.step { draft := some ⟨cs.reverse, false⟩ } ' ' =
      { words := [⟨String.ofList cs, false⟩] } := by
    rw [Progress.step_blank rfl]
    simp [Progress.finish, Draft.word]
  rw [Progress.ofChars_eq_finish, Progress.read_append, hword, Progress.read, List.foldl_cons,
    hblank]
  exact Progress.finish_read _ rest

theorem ofChars_plain {cs : List Char} (h : Plain cs) : ofChars cs = [⟨String.ofList cs, false⟩] := by
  have hword : Progress.read {} cs = { draft := some ⟨cs.reverse, false⟩ } :=
    Progress.read_word rfl rfl h.ne_nil (fun c hc => ⟨(h.chars c hc).1, (h.chars c hc).2.1⟩)
  rw [Progress.ofChars_eq_finish, hword]
  simp [Progress.finish, Draft.word]

theorem mem_of_mem_marked {quote : Option Char} {cs : List Char} {c : Char} {inside : Bool}
    (h : (c, inside) ∈ marked quote cs) : c ∈ cs := by
  induction cs generalizing quote with
  | nil => exact absurd h List.not_mem_nil
  | cons d cs ih =>
    rcases List.mem_cons.1 h with h | h
    · cases h
      exact List.mem_cons_self
    · exact List.mem_cons_of_mem _ (ih h)

end Word

theorem Text.infix_or_infix_of_not_mem {sep : Char} {xs cs ds : List Char} (hs : sep ∉ xs)
    (h : xs <:+: cs ++ sep :: ds) : xs <:+: cs ∨ xs <:+: ds := by
  obtain ⟨before, behind, h⟩ := h
  rcases List.append_eq_append_iff.1 h with ⟨more, rfl, -⟩ | ⟨rest, hleft, hright⟩
  · exact .inl ⟨before, more, rfl⟩
  · cases rest with
    | nil => exact .inl ⟨before, [], by rw [List.append_nil, hleft, List.append_nil]⟩
    | cons c rest =>
      obtain ⟨rfl, rfl⟩ := List.cons.inj hright
      rcases List.append_eq_append_iff.1 hleft with ⟨more, -, rfl⟩ | ⟨more, -, hmore⟩
      · exact absurd (List.mem_append_right _ List.mem_cons_self) hs
      · cases more with
        | nil =>
          rw [List.nil_append] at hmore
          exact absurd (hmore ▸ List.mem_cons_self) hs
        | cons d more =>
          obtain ⟨-, rfl⟩ := List.cons.inj hmore
          exact .inr ⟨more, behind, rfl⟩

def plainLine (words : List String) : String :=
  String.ofList ([' '].intercalate (words.map String.toList))

section Line

variable {words : List String}

theorem toList_plainLine_cons (w v : String) (ws : List String) :
    (plainLine (w :: v :: ws)).toList = w.toList ++ ' ' :: (plainLine (v :: ws)).toList := by
  simp [plainLine, List.intercalate_cons_cons]

theorem toList_plainLine_singleton (w : String) : (plainLine [w]).toList = w.toList := by
  simp [plainLine]

theorem not_infix_plainLine (op : Operator) (h : ∀ w ∈ words, ¬ op.chars <:+: w.toList) :
    ¬ op.chars <:+: (plainLine words).toList := by
  have hblank : ' ' ∉ op.chars := by cases op <;> decide
  induction words with
  | nil => cases op <;> decide
  | cons w ws ih =>
    obtain ⟨hw, hws⟩ := List.forall_mem_cons.1 h
    cases ws with
    | nil => rwa [toList_plainLine_singleton]
    | cons v ws =>
      rw [toList_plainLine_cons]
      intro hinfix
      exact (Text.infix_or_infix_of_not_mem hblank hinfix).elim hw (ih hws)

theorem not_mem_plainLine {c : Char} (hc : c ≠ ' ') (h : ∀ w ∈ words, c ∉ w.toList) :
    c ∉ (plainLine words).toList := by
  induction words with
  | nil => exact List.not_mem_nil
  | cons w ws ih =>
    obtain ⟨hw, hws⟩ := List.forall_mem_cons.1 h
    cases ws with
    | nil => rwa [toList_plainLine_singleton]
    | cons v ws =>
      rw [toList_plainLine_cons, List.mem_append, List.mem_cons]
      exact not_or.2 ⟨hw, not_or.2 ⟨hc, ih hws⟩⟩

variable (h : ∀ w ∈ words, Word.Plain w.toList)

include h

theorem ofChars_plainLine :
    Word.ofChars (plainLine words).toList = words.map (fun w => ⟨w, false⟩) := by
  induction words with
  | nil => rfl
  | cons w ws ih =>
    obtain ⟨hw, hws⟩ := List.forall_mem_cons.1 h
    cases ws with
    | nil => rw [toList_plainLine_singleton, Word.ofChars_plain hw, String.ofList_toList]; rfl
    | cons v ws =>
      rw [toList_plainLine_cons, Word.ofChars_append_blank hw, ih hws, String.ofList_toList]
      rfl

theorem split_plainLine (ops : List Operator) :
    Pieces.split ops (plainLine words).toList = ⟨(plainLine words).toList, []⟩ := by
  refine Pieces.split_eq_self (fun op _ => ?_)
  rintro ⟨before, behind, hline, -⟩
  refine not_infix_plainLine op (fun w hw => (h w hw).operators op) ⟨before, behind, ?_⟩
  rw [hline, List.append_assoc]

theorem isolate_plainLine :
    Stage.isolate (plainLine words).toList = (plainLine words).toList := by
  refine Stage.isolateFrom_of_not_mem [] (fun hm => ?_)
  exact not_mem_plainLine (by decide) (fun w hw hgt => ((h w hw).chars _ hgt).2.2 rfl)
    (Word.mem_of_mem_marked hm)

end Line

namespace Stage

theorem opOf?_of_not_mem {w : Word} (h : '>' ∉ w.text.toList) : opOf? w = none := by
  rw [opOf?]
  split
  · rfl
  · unfold redirectOp?
    split <;> simp_all

theorem run_words (s : FileStore) (w : Word) (ws : List Word) (stdin : Option String) :
    (Stage.run { words := w :: ws } stdin).run s =
      (dispatch w.text (ws.flatMap (expandWord s.files)) stdin).run s := by
  simp only [Stage.run, command, Script.files, Script.run_bind, Script.run_read, mergeStreams,
    putStderr, putStdout, Script.run_pure, Bool.false_eq_true, if_false]
  rfl

end Stage

variable {words : List String}

theorem ofChars?_plainLine (h : ∀ w ∈ words, Word.Plain w.toList) :
    Stage.ofChars? (plainLine words).toList =
      some { words := words.map (fun w => ⟨w, false⟩) } := by
  rw [Stage.ofChars?, isolate_plainLine h, ofChars_plainLine h, Stage.ofWords_text]
  · rfl
  · intro word hword
    obtain ⟨w, hw, rfl⟩ := List.mem_map.1 hword
    exact Stage.opOf?_of_not_mem (fun hgt => ((h w hw).chars _ hgt).2.2 rfl)

theorem allBlank_plainLine {w : String} {ws : List String} (h : Word.Plain w.toList) :
    Text.allBlank (plainLine (w :: ws)).toList = false := by
  obtain ⟨c, cs, hc⟩ := List.exists_cons_of_ne_nil h.ne_nil
  have hblank : Text.isBlank c = false := (h.chars c (hc ▸ List.mem_cons_self)).2.1
  cases ws with
  | nil => rw [toList_plainLine_singleton, hc, Text.allBlank, List.all_cons, hblank, Bool.false_and]
  | cons v ws =>
    rw [toList_plainLine_cons, hc, List.cons_append, Text.allBlank, List.all_cons, hblank,
      Bool.false_and]

theorem run_runLine_plainLine {w : String} {ws : List String}
    (h : ∀ v ∈ w :: ws, Word.Plain v.toList) (s : FileStore) :
    (runLine (plainLine (w :: ws))).run s =
      (dispatch w (ws.flatMap (fun v => expandWord s.files ⟨v, false⟩)) none).run s := by
  have hblank : Text.allBlank (plainLine (w :: ws)).toList = false :=
    allBlank_plainLine (h w List.mem_cons_self)
  have hstages : stagesOf false [(plainLine (w :: ws)).toList] =
      .ok [{ words := (w :: ws).map (fun w => ⟨w, false⟩) }] := by
    simp [stagesOf, ofChars?_plainLine h]
  have hline : runLine (plainLine (w :: ws)) =
      Stage.run { words := (w :: ws).map (fun w => ⟨w, false⟩) } none := by
    simp only [runLine, runSegments, runSegment, runPipeline, runStages, split_plainLine h,
      Pieces.all, List.map_nil, List.filter_cons, List.filter_nil, hblank, Bool.not_false, if_true,
      List.isEmpty_nil, Bool.not_true, hstages]
  rw [hline, List.map_cons, Stage.run_words, List.flatMap_map]

end ProjectShell
