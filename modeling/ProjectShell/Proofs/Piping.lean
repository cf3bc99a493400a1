import ProjectShell.Proofs.BlankEnds
import ProjectShell.Proofs.Quoting

namespace ProjectShell

namespace Word

theorem Shielded.tail {quote : Option Char} {c : Char} {cs : List Char}
    (h : Shielded quote (c :: cs)) : Shielded (quoteStep quote c) cs := by
  cases quote with
  | some q => exact h
  | none =>
    rw [Shielded] at h
    rw [quoteStep]
    split at h
    · rwa [if_pos ‹_›]
    · rw [if_neg ‹_›]
      exact h.2

theorem Shielded.quoteAfter {quote : Option Char} {cs : List Char} (h : Shielded quote cs) :
    quoteAfter quote cs = none := by
  induction cs generalizing quote with
  | nil => exact h
  | cons c cs ih => exact ih h.tail

end Word

namespace Pieces

variable {ops : List Operator}

theorem next?_shielded {quote : Option Char} {c : Char} {cs : List Char}
    (h : Word.Shielded quote (c :: cs)) (ds : List Char) :
    next? ops quote (c :: ds) = none := by
  cases hn : next? ops quote (c :: ds) with
  | none => rfl
  | some op =>
    obtain ⟨rfl, -, hpre⟩ := next?_eq_some hn
    have hsign := Operator.sign_eq_of_prefix_cons hpre
    rw [Word.Shielded, ← hsign, op.isQuote_sign] at h
    have hblank := op.isBlank_sign
    rw [h.1] at hblank
    cases hblank

theorem scan_shielded_append {quote : Option Char} {cs : List Char}
    (h : Word.Shielded quote cs) (ds : List Char) :
    scan ops quote 0 (cs ++ ds) = ⟨cs ++ (split ops ds).first, (split ops ds).rest⟩ := by
  induction cs generalizing quote with
  | nil =>
    obtain rfl : quote = none := h
    rfl
  | cons c cs ih =>
    rw [List.cons_append, scan_push (next?_shielded h _), ih h.tail]
    rfl

abbrev barred (cs ds : List Char) : List Char := cs ++ ' ' :: '|' :: ' ' :: ds

variable {cs ds : List Char}

theorem split_barred (ops : List Operator) (hc : Word.Shielded none cs) (hd : Word.Shielded none ds)
    (hbar : next? ops none ('|' :: ' ' :: ds) = none) :
    split ops (barred cs ds) = ⟨barred cs ds, []⟩ := by
  have hdivider : split ops ('|' :: ' ' :: ds) = ⟨'|' :: ' ' :: ds, []⟩ := by
    rw [split, scan_push hbar]
    change (split ops (' ' :: ds)).push '|' = _
    rw [split_blank rfl, split, scan_shielded ops hd]
    rfl
  rw [split, scan_shielded_append hc, split_blank rfl, hdivider]
  rfl

theorem split_pipe_barred (hc : Word.Shielded none cs) (hd : Word.Shielded none ds) :
    split [.pipe] (barred cs ds) = ⟨cs ++ [' '], [(.pipe, ' ' :: ds)]⟩ := by
  have hbar : next? [.pipe] none ('|' :: ' ' :: ds) = some .pipe := rfl
  have hdivider : split [.pipe] ('|' :: ' ' :: ds) = ⟨[], [(.pipe, ' ' :: ds)]⟩ := by
    rw [split, scan_operator hbar]
    change followedBy ⟨[], []⟩ .pipe (split [.pipe] (' ' :: ds)) = _
    rw [split_blank rfl, split, scan_shielded _ hd]
    rfl
  rw [split, scan_shielded_append hc, split_blank rfl, hdivider]
  rfl

end Pieces

def pipedLine (first second : List String) : String :=
  quotedLine first ++ " | " ++ quotedLine second

abbrev quotedStage (words : List String) : Stage := { words := words.map (fun w => ⟨w, true⟩) }

variable {w v : String} {ws vs : List String}

theorem toList_pipedLine (first second : List String) :
    (pipedLine first second).toList =
      Pieces.barred (quotedLine first).toList (quotedLine second).toList := by
  simp [pipedLine]

theorem runPipeline_pipedLine :
    runPipeline (pipedLine (w :: ws) (v :: vs)).toList =
      runStages none [quotedStage (w :: ws), quotedStage (v :: vs)] := by
  have hb : Text.isBlank ' ' = true := rfl
  have hw := shielded_quotedLine (w :: ws)
  have hstages : stagesOf true [(quotedLine (w :: ws)).toList ++ [' '],
      ' ' :: (quotedLine (v :: vs)).toList] =
        .ok [quotedStage (w :: ws), quotedStage (v :: vs)] := by
    simp only [stagesOf, Text.allBlank_concat hb, Text.allBlank_blank hb, allBlank_quotedLine,
      Stage.ofChars?_concat hb hw.quoteAfter, Stage.ofChars?_blank hb,
      Stage.ofChars?_quotedLine, Bool.false_and, Bool.false_eq_true, if_false]
  have hsplit := Pieces.split_pipe_barred hw (shielded_quotedLine (v :: vs))
  simp only [runPipeline, toList_pipedLine, hsplit, Pieces.all, List.map_cons, List.map_nil,
    List.isEmpty_cons, Bool.not_false, hstages]

theorem runLine_pipedLine :
    runLine (pipedLine (w :: ws) (v :: vs)) =
      runPipeline (pipedLine (w :: ws) (v :: vs)).toList := by
  have hw := shielded_quotedLine (w :: ws)
  have hv := shielded_quotedLine (v :: vs)
  have hsegments := Pieces.split_barred [.sequence] hw hv rfl
  have hlinks := Pieces.split_barred [.both, .either] hw hv rfl
  have hblank : Text.allBlank (Pieces.barred (quotedLine (w :: ws)).toList
      (quotedLine (v :: vs)).toList) = false := by
    have hfirst := allBlank_quotedLine w ws
    rw [Text.allBlank] at hfirst ⊢
    rw [List.all_append, hfirst, Bool.false_and]
  simp only [runLine, toList_pipedLine, hsegments, Pieces.all, List.map_nil, List.filter_cons,
    hblank, Bool.not_false, if_true, List.filter_nil, runSegments, runSegment, hlinks]

theorem run_stage_quoted (s : FileStore) (stdin : Option String) :
    ((quotedStage (w :: ws)).run stdin).run s = (dispatch w ws stdin).run s := by
  simp only [Stage.run, Script.run_bind, run_command_quoted s w ws stdin, Stage.mergeStreams,
    Stage.putStderr, Stage.putStdout, Script.run_pure, Bool.false_eq_true, if_false]

theorem run_runLine_pipedLine (s : FileStore) :
    (runLine (pipedLine (w :: ws) (v :: vs))).run s =
      let r := (dispatch w ws none).run s
      (dispatch v vs (some r.1.stdout)).run r.2 := by
  rw [runLine_pipedLine, runPipeline_pipedLine]
  simp only [runStages, Script.run_bind, run_stage_quoted]

end ProjectShell
