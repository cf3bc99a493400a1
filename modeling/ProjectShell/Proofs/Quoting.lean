import ProjectShell.Shell.Line

namespace ProjectShell

namespace Word

def quoteChar (c : Char) : List Char :=
  if c = '"' then ['"', '\'', '"', '\'', '"'] else [c]

def quoteChars (cs : List Char) : List Char := '"' :: cs.flatMap quoteChar ++ ['"']

/-- Outside quotes there are only blanks, and the last quote is closed. -/
def Shielded : Option Char → List Char → Prop
  | quote, [] => quote = none
  | some q, c :: cs => Shielded (if c = q then none else some q) cs
  | none, c :: cs => if isQuote c then Shielded (some c) cs else c = ' ' ∧ Shielded none cs

theorem shielded_append {quote : Option Char} {cs ds : List Char} (hc : Shielded quote cs)
    (hd : Shielded none ds) : Shielded quote (cs ++ ds) := by
  induction cs generalizing quote with
  | nil =>
    have hq : quote = none := by simpa [Shielded] using hc
    simpa [hq] using hd
  | cons c cs ih =>
    cases quote with
    | some q =>
      simp only [List.cons_append, Shielded] at hc ⊢
      exact ih hc
    | none =>
      simp only [List.cons_append, Shielded] at hc ⊢
      split at hc
      · rename_i hq
        rw [if_pos hq]
        exact ih hc
      · rename_i hq
        rw [if_neg hq]
        exact ⟨hc.1, ih hc.2⟩

theorem shielded_flatMap_quoteChar (cs : List Char) :
    Shielded (some '"') (cs.flatMap quoteChar ++ ['"']) := by
  induction cs with
  | nil => simp [Shielded]
  | cons c cs ih =>
    rw [List.flatMap_cons, List.append_assoc]
    by_cases hc : c = '"'
    · simpa [quoteChar, hc, Shielded, isQuote] using ih
    · simpa [quoteChar, hc, Shielded] using ih

theorem shielded_quoteChars (cs : List Char) : Shielded none (quoteChars cs) := by
  have h := shielded_flatMap_quoteChar cs
  simpa [quoteChars, Shielded, isQuote] using h

theorem scan_flatMap_quoteChar (d : Draft) (hd : d.quoted = true) (cs rest : List Char) :
    scan (some '"') (some d) (cs.flatMap quoteChar ++ '"' :: rest) =
      scan none (some ⟨cs.reverse ++ d.text, true⟩) rest := by
  induction cs generalizing d with
  | nil =>
    obtain ⟨text, quoted⟩ := d
    cases hd
    simp [scan]
  | cons c cs ih =>
    have hp := ih (d.push c) hd
    rw [List.flatMap_cons, List.append_assoc]
    have hstep : scan (some '"') (some d) (quoteChar c ++ (cs.flatMap quoteChar ++ '"' :: rest)) =
        scan (some '"') (some (d.push c)) (cs.flatMap quoteChar ++ '"' :: rest) := by
      obtain ⟨text, quoted⟩ := d
      cases hd
      by_cases hc : c = '"'
      · simp [quoteChar, hc, scan, isQuote, Draft.push]
      · simp [quoteChar, hc, scan]
    rw [hstep, hp]
    simp [Draft.push]

theorem scan_quoteChars (cs rest : List Char) :
    scan none none (quoteChars cs ++ rest) = scan none (some ⟨cs.reverse, true⟩) rest := by
  have h := scan_flatMap_quoteChar ⟨[], true⟩ rfl cs rest
  simpa [quoteChars, scan, isQuote] using h

end Word

def quotedLine (words : List String) : String :=
  String.ofList ([' '].intercalate (words.map (fun w => Word.quoteChars w.toList)))

theorem shielded_quotedLine (words : List String) :
    Word.Shielded none (quotedLine words).toList := by
  rw [quotedLine, String.toList_ofList]
  induction words with
  | nil => rfl
  | cons w ws ih =>
    cases ws with
    | nil => simpa using Word.shielded_quoteChars w.toList
    | cons v ws =>
      have hb : Word.Shielded none [' '] := by simp [Word.Shielded, Word.isQuote]
      simp only [List.map_cons, List.intercalate_cons_cons]
      exact Word.shielded_append (Word.shielded_append (Word.shielded_quoteChars _) hb) ih

theorem ofChars_quotedLine (words : List String) :
    Word.ofChars (quotedLine words).toList = words.map (fun w => ⟨w, true⟩) := by
  rw [quotedLine, String.toList_ofList, Word.ofChars]
  induction words with
  | nil => rfl
  | cons w ws ih =>
    have hw : Word.Draft.word ⟨w.toList.reverse, true⟩ = ⟨w, true⟩ := by
      simp [Word.Draft.word]
    cases ws with
    | nil =>
      have h := Word.scan_quoteChars w.toList []
      simpa [Word.scan, hw] using h
    | cons v ws =>
      simp only [List.map_cons, List.intercalate_cons_cons, List.append_assoc] at ih ⊢
      rw [Word.scan_quoteChars]
      have hb : Text.isBlank ' ' = true := rfl
      have hq : Word.isQuote ' ' = false := rfl
      simp only [List.singleton_append, Word.scan, hb, hq, Option.map_some, hw, Bool.false_eq_true,
        if_false, if_true, Option.toList_some, ih]

namespace Operator

theorem isPrefixOf_blank (op : Operator) (cs : List Char) :
    op.chars.isPrefixOf (' ' :: cs) = false := by
  cases op <;> rfl

end Operator

theorem Pieces.scan_shielded (ops : List Operator) {quote : Option Char} {cs : List Char}
    (h : Word.Shielded quote cs) : scan ops quote 0 cs = ⟨cs, []⟩ := by
  induction cs generalizing quote with
  | nil => simp [scan]
  | cons c cs ih =>
    cases quote with
    | some q =>
      simp only [Word.Shielded] at h
      simp [scan, ih h, push]
    | none =>
      simp only [Word.Shielded] at h
      split at h
      · rename_i hq
        simp [scan, hq, ih h, push]
      · rename_i hq
        obtain ⟨rfl, hs⟩ := h
        have hf : ops.find? (fun op => op.chars.isPrefixOf (' ' :: cs)) = none :=
          List.find?_eq_none.2 (fun op _ => by simp [Operator.isPrefixOf_blank])
        simp [scan, hq, hf, ih hs, push]

namespace Stage

theorem isolateFrom_shielded (read : List Char) {quote : Option Char} {cs : List Char}
    (h : Word.Shielded quote cs) : isolateFrom read quote cs = read.reverse ++ cs := by
  induction cs generalizing quote read with
  | nil => simp [isolateFrom]
  | cons c cs ih =>
    cases quote with
    | some q =>
      simp only [Word.Shielded] at h
      simp [isolateFrom, ih _ h]
    | none =>
      simp only [Word.Shielded] at h
      split at h
      · rename_i hq
        simp [isolateFrom, hq, ih _ h]
      · rename_i hq
        obtain ⟨rfl, hs⟩ := h
        simp [isolateFrom, hq, ih _ hs]

theorem ofWords_text (s : Stage) {ws : List Word} (h : ∀ w ∈ ws, opOf? w = none) :
    ofWords s ws = some { s with words := s.words ++ ws } := by
  induction ws generalizing s with
  | nil => simp [ofWords]
  | cons w ws ih =>
    obtain ⟨hw, hws⟩ := List.forall_mem_cons.1 h
    simp [ofWords, hw, ih _ hws]

theorem ofChars?_quotedLine (words : List String) :
    ofChars? (quotedLine words).toList = some { words := words.map (fun w => ⟨w, true⟩) } := by
  have hi := isolateFrom_shielded [] (shielded_quotedLine words)
  rw [ofChars?, isolate, hi, List.reverse_nil, List.nil_append, ofChars_quotedLine, ofWords_text]
  · rfl
  · simp [opOf?]

end Stage

theorem flatMap_expandWord_quoted (files : FileMap) (words : List String) :
    (words.map (fun w => (⟨w, true⟩ : Word))).flatMap (expandWord files) = words := by
  induction words with
  | nil => rfl
  | cons w ws ih => simp [expandWord, ih]

theorem allBlank_quotedLine (w : String) (ws : List String) :
    Text.allBlank (quotedLine (w :: ws)).toList = false := by
  have hq : Text.isBlank '"' = false := rfl
  rw [quotedLine, String.toList_ofList]
  cases ws <;> simp [Word.quoteChars, Text.allBlank, hq]

theorem runPipeline_quotedLine (words : List String) :
    runPipeline (quotedLine words).toList =
      Stage.run { words := words.map (fun w => ⟨w, true⟩) } none := by
  have hp := Pieces.scan_shielded [.pipe] (shielded_quotedLine words)
  have hs : stagesOf false [(quotedLine words).toList] =
      .ok [{ words := words.map (fun w => ⟨w, true⟩) }] := by
    simp [stagesOf, Stage.ofChars?_quotedLine]
  simp only [runPipeline, Pieces.split, hp, Pieces.all, List.map_nil, List.isEmpty_nil,
    Bool.not_true, hs, runStages]

theorem runLine_quotedLine (w : String) (ws : List String) :
    runLine (quotedLine (w :: ws)) =
      Stage.run { words := (w :: ws).map (fun w => ⟨w, true⟩) } none := by
  have hl := Pieces.scan_shielded [.sequence] (shielded_quotedLine (w :: ws))
  have hc := Pieces.scan_shielded [.both, .either] (shielded_quotedLine (w :: ws))
  have hb := allBlank_quotedLine w ws
  have hr : runLine (quotedLine (w :: ws)) = runSegment (quotedLine (w :: ws)).toList := by
    simp [runLine, Pieces.split, hl, Pieces.all, hb, runSegments]
  rw [hr, ← runPipeline_quotedLine]
  simp only [runSegment, Pieces.split, hc]

theorem run_command_quoted (s : FileStore) (w : String) (ws : List String)
    (stdin : Option String) :
    (Stage.command { words := (w :: ws).map (fun w => ⟨w, true⟩) } stdin).run s =
      (dispatch w ws stdin).run s := by
  simp only [Stage.command, List.map_cons, Script.files, Script.run_bind, Script.run_read,
    flatMap_expandWord_quoted]

theorem run_runLine_quotedLine (s : FileStore) (w : String) (ws : List String) :
    (runLine (quotedLine (w :: ws))).run s = (dispatch w ws none).run s := by
  have hc := run_command_quoted s w ws none
  rw [runLine_quotedLine]
  simp only [Stage.run, Script.run_bind, hc, Stage.mergeStreams, Stage.putStderr, Stage.putStdout,
    Script.run_pure, Bool.false_eq_true, if_false]

end ProjectShell
