import ProjectShell.Proofs.BlankEnds
import ProjectShell.Proofs.LineUndo

namespace ProjectShell

theorem foldl_joinOutput (a : String) (texts : List String) :
    texts.foldl joinOutput a = joinOutput a (texts.foldl joinOutput "") := by
  induction texts generalizing a with
  | nil => rfl
  | cons b texts ih =>
    rw [List.foldl_cons, List.foldl_cons, ih, ih (joinOutput "" b), joinOutput_empty_left,
      joinOutput_assoc]

theorem foldl_joinOutput_cons (a : String) (texts : List String) :
    (a :: texts).foldl joinOutput "" = joinOutput a (texts.foldl joinOutput "") := by
  rw [List.foldl_cons, joinOutput_empty_left, foldl_joinOutput]

namespace Script

variable {α β : Type}

theorem run_mapM_cons (s : FileStore) (f : α → Script β) (a : α) (as : List α) :
    ((a :: as).mapM f).run s =
      (((f a).run s).1 :: ((as.mapM f).run ((f a).run s).2).1,
        ((as.mapM f).run ((f a).run s).2).2) := by
  rw [List.mapM_cons, run_bind, run_bind, run_pure]

theorem edits_mapM_cons (s : FileStore) (f : α → Script β) (a : α) (as : List α) :
    ((a :: as).mapM f).edits s = (f a).edits s ++ (as.mapM f).edits ((f a).run s).2 := by
  rw [List.mapM_cons, edits_bind, edits_bind]
  exact congrArg _ (List.append_nil _)

end Script

/-- On this store the script does what the pipelines do that come first, no more and no less: all
of them, or those up to the first whose outcome stops the chain. -/
def RunsUntil (stop : Outcome → Prop) (pipelines : List (List Char)) (s : FileStore)
    (x : Script Outcome) : Prop :=
  ∃ ran skipped before last, pipelines = ran ++ skipped ∧
    ((ran.mapM runPipeline).run s).1 = before ++ [last] ∧
    (∀ o ∈ before, ¬ stop o) ∧ (skipped = [] ∨ stop last) ∧
    (x.run s).1 = ⟨((before ++ [last]).map Outcome.stdout).foldl joinOutput "",
      ((before ++ [last]).map Outcome.stderr).foldl joinOutput "", last.exitCode⟩ ∧
    (x.run s).2 = ((ran.mapM runPipeline).run s).2 ∧
    x.edits s = (ran.mapM runPipeline).edits s

theorem runsUntil_runPipeline {stop : Outcome → Prop} {p : List Char} {ps : List (List Char)}
    {s : FileStore} (h : ps = [] ∨ stop ((runPipeline p).run s).1) :
    RunsUntil stop (p :: ps) s (runPipeline p) := by
  refine ⟨[p], ps, [], ((runPipeline p).run s).1, rfl, ?_, nofun, h, ?_, ?_, ?_⟩
  · rw [Script.run_mapM_cons]
    rfl
  · simp [joinOutput_empty_left]
  · rw [Script.run_mapM_cons]
    rfl
  · rw [Script.edits_mapM_cons]
    exact (List.append_nil _).symm

theorem RunsUntil.cons {stop : Outcome → Prop} {p : List Char} {ps : List (List Char)}
    {s : FileStore} {x y : Script Outcome} (hgo : ¬ stop ((runPipeline p).run s).1)
    (h : RunsUntil stop ps ((runPipeline p).run s).2 x)
    (hrun : y.run s = (((runPipeline p).run s).1.andThen (x.run ((runPipeline p).run s).2).1,
      (x.run ((runPipeline p).run s).2).2))
    (hedits : y.edits s = (runPipeline p).edits s ++ x.edits ((runPipeline p).run s).2) :
    RunsUntil stop (p :: ps) s y := by
  obtain ⟨ran, skipped, before, last, rfl, hos, hbefore, hlast, ho, hs, he⟩ := h
  refine ⟨p :: ran, skipped, ((runPipeline p).run s).1 :: before, last, rfl, ?_,
    List.forall_mem_cons.2 ⟨hgo, hbefore⟩, hlast, ?_, ?_, ?_⟩
  · rw [Script.run_mapM_cons, hos, List.cons_append]
  · rw [hrun, ho, Outcome.andThen]
    simp only [List.cons_append, List.map_cons, foldl_joinOutput_cons]
  · rw [hrun, hs, Script.run_mapM_cons]
  · rw [hedits, he, Script.edits_mapM_cons]

theorem RunsUntil.congr {stop : Outcome → Prop} {ps : List (List Char)} {s : FileStore}
    {x y : Script Outcome} (h : RunsUntil stop ps s x) (hrun : y.run s = x.run s)
    (hedits : y.edits s = x.edits s) : RunsUntil stop ps s y := by
  rwa [RunsUntil, hrun, hedits]

theorem runChain_cons (op : Operator) (p q : List Char) (ps : List (List Char)) :
    runChain op (p :: q :: ps) = runPipeline p >>= fun a =>
      if op.stopsAfter a then pure a
      else runChain op (q :: ps) >>= fun b => pure (a.andThen b) := rfl

theorem runsUntil_runChain {op : Operator} {stop : Outcome → Prop}
    (hstop : ∀ o, op.stopsAfter o = true ↔ stop o) {ps : List (List Char)} (hne : ps ≠ [])
    (s : FileStore) : RunsUntil stop ps s (runChain op ps) := by
  induction ps generalizing s with
  | nil => exact absurd rfl hne
  | cons p ps ih =>
    cases ps with
    | nil => exact runsUntil_runPipeline (.inl rfl)
    | cons q ps =>
      rw [runChain_cons]
      by_cases h : op.stopsAfter ((runPipeline p).run s).1 = true
      · refine (runsUntil_runPipeline (.inr ((hstop _).1 h))).congr ?_ ?_
        · rw [Script.run_bind, if_pos h, Script.run_pure]
        · rw [Script.edits_bind, if_pos h]
          exact List.append_nil _
      · have hrest := ih (List.cons_ne_nil q ps) ((runPipeline p).run s).2
        refine hrest.cons (fun ht => h ((hstop _).2 ht)) ?_ ?_
        · rw [Script.run_bind, if_neg h, Script.run_bind, Script.run_pure]
        · rw [Script.edits_bind, if_neg h, Script.edits_bind]
          exact congrArg _ (List.append_nil _)

theorem runChain_congr (op : Operator) {xs ys : List (List Char)}
    (h : List.Forall₂ (fun x y => runPipeline x = runPipeline y) xs ys) :
    runChain op xs = runChain op ys := by
  induction h with
  | nil => rfl
  | cons hxy hrest ih =>
    cases hrest with
    | nil => exact hxy
    | cons _ _ => rw [runChain_cons, runChain_cons, hxy, ih]

abbrev links : List Operator := [.both, .either]

theorem apart_links : Operator.Apart links := by decide

structure Operand (p : List Char) : Prop where
  closed : Word.Closed p
  nonblank : Text.allBlank p = false
  plain : ∀ op ∈ links, ¬ op.StandsIn p

instance (p : List Char) : Decidable (Operand p) :=
  decidable_of_iff (Word.Closed p ∧ Text.allBlank p = false ∧ ∀ op ∈ links, ¬ op.StandsIn p)
    ⟨fun ⟨h, h', h''⟩ => ⟨h, h', h''⟩, fun h => ⟨h.closed, h.nonblank, h.plain⟩⟩

def chained (op : Operator) (ps : List (List Char)) : List Char :=
  (' ' :: op.chars ++ [' ']).intercalate ps

theorem chained_cons (op : Operator) (p q : List Char) (ps : List (List Char)) :
    chained op (p :: q :: ps) = p ++ [' '] ++ (op.chars ++ ' ' :: chained op (q :: ps)) := by
  simp [chained, List.intercalate_cons_cons]

theorem standsIn_of_concat {op : Operator} {b : Char} (hb : Text.isBlank b = true)
    {cs : List Char} (h : op.StandsIn (cs ++ [b])) : op.StandsIn cs := by
  obtain ⟨before, behind, heq, hq⟩ := h
  rcases List.eq_nil_or_concat behind with rfl | ⟨behind, d, rfl⟩
  · have hlast := congrArg List.getLast? heq
    have hsign : b = op.sign := by
      rcases op.chars_eq with hc | hc <;> simpa [hc] using hlast
    exact absurd hsign (Text.ne_of_isBlank hb op.isBlank_sign)
  · rw [List.concat_eq_append, ← List.append_assoc, ← List.append_assoc] at heq
    obtain ⟨rfl, -⟩ := List.append_inj' heq rfl
    exact ⟨before, behind, List.append_assoc .., hq⟩

theorem split_link {op : Operator} (hop : op ∈ links) {p : List Char} (hp : Operand p)
    (cs : List Char) :
    Pieces.split links (p ++ [' '] ++ (op.chars ++ ' ' :: cs)) =
      Pieces.followedBy ⟨p ++ [' '], []⟩ op ((Pieces.split links cs).push ' ') := by
  have hb : Text.isBlank ' ' = true := rfl
  have hlast : ∀ d, (p ++ [' ']).getLast? = some d → op.chars ≠ [d, d] := by
    intro d hd hc
    rw [List.getLast?_concat, Option.some.injEq] at hd
    have hsign : op.sign = ' ' :=
      Operator.sign_eq_of_prefix_cons (hd ▸ hc ▸ List.prefix_rfl : op.chars <+: [' ', ' '])
    exact Text.ne_of_isBlank hb op.isBlank_sign hsign.symm
  have hclosed : Word.Closed (p ++ [' ']) :=
    (Word.quoteAfter_concat (Word.isQuote_of_isBlank hb)).trans hp.closed
  have hfirst : Pieces.split links (p ++ [' ']) = ⟨p ++ [' '], []⟩ :=
    Pieces.split_eq_self (fun o ho hs => hp.plain o ho (standsIn_of_concat hb hs))
  rw [Pieces.split, Pieces.scan_append apart_links hop (Nat.zero_le _) hclosed hlast,
    Pieces.split_blank hb, ← Pieces.split, hfirst]

theorem split_chained {op : Operator} (hop : op ∈ links) {ps : List (List Char)} (hne : ps ≠ [])
    (h : ∀ p ∈ ps, Operand p) :
    (∀ o ∈ (Pieces.split links (chained op ps)).operators, o = op) ∧
      List.Forall₂ (fun x p => Text.allBlank x = false ∧ runPipeline x = runPipeline p)
        (Pieces.split links (chained op ps)).all ps := by
  have hb : Text.isBlank ' ' = true := rfl
  induction ps with
  | nil => exact absurd rfl hne
  | cons p ps ih =>
    obtain ⟨hp, hps⟩ := List.forall_mem_cons.1 h
    cases ps with
    | nil =>
      rw [chained, List.intercalate_singleton, Pieces.split_eq_self hp.plain]
      exact ⟨nofun, .cons ⟨hp.nonblank, rfl⟩ .nil⟩
    | cons q ps =>
      obtain ⟨hops, hall⟩ := ih (List.cons_ne_nil q ps) hps
      rw [chained_cons, split_link hop hp, Pieces.operators_followedBy, Pieces.all_followedBy]
      refine ⟨List.forall_mem_cons.2 ⟨rfl, hops⟩, .cons ⟨?_, runPipeline_concat hb hp.closed⟩ ?_⟩
      · exact (Text.allBlank_concat hb p).trans hp.nonblank
      · cases hall with
        | cons hq hrest =>
          exact .cons ⟨(Text.allBlank_blank hb _).trans hq.1, (runPipeline_blank hb _).trans hq.2⟩
            hrest

theorem runSegment_of_operators {op : Operator} {cs : List Char}
    (hops : ∀ o ∈ (Pieces.split links cs).operators, o = op)
    (hblank : ∀ x ∈ (Pieces.split links cs).all, Text.allBlank x = false) :
    runSegment cs = runChain op (Pieces.split links cs).all := by
  unfold runSegment
  generalize Pieces.split links cs = p at hops hblank ⊢
  obtain ⟨first, rest⟩ := p
  cases rest with
  | nil => rfl
  | cons r others =>
    obtain ⟨rfl, hothers⟩ := List.forall_mem_cons.1 hops
    have hmixed : ¬ others.any (fun q => decide (q.1 ≠ r.1)) = true := by
      simpa [Pieces.operators] using hothers
    have hsome : ¬ (Pieces.all ⟨first, r :: others⟩).any Text.allBlank = true := by
      simpa using hblank
    exact (if_neg hmixed).trans (if_neg hsome)

inductive Malformed (cs : List Char) : Prop
  | mixed (hb : Operator.both.StandsIn cs) (he : Operator.either.StandsIn cs)
  | blank {op : Operator} (hop : op ∈ links) (hs : op.StandsIn cs) {x : List Char}
      (hx : x ∈ (Pieces.split links cs).all) (hblank : Text.allBlank x = true)

theorem runSegment_malformed {cs : List Char} (h : Malformed cs) :
    ∃ o, runSegment cs = pure o ∧ o.exitCode = 1 := by
  have hmem : ∀ {o}, o ∈ links → o.StandsIn cs → o ∈ (Pieces.split links cs).operators :=
    fun ho hs => Pieces.mem_operators_split apart_links ho hs
  obtain ⟨op, hop, hbad⟩ : ∃ op ∈ (Pieces.split links cs).operators,
      (∃ o ∈ (Pieces.split links cs).operators, o ≠ op) ∨
        (Pieces.split links cs).all.any Text.allBlank = true := by
    cases h with
    | mixed hb he => exact ⟨_, hmem (by simp) hb, .inl ⟨_, hmem (by simp) he, by decide⟩⟩
    | blank hop hs hx hblank =>
      exact ⟨_, hmem hop hs, .inr (List.any_eq_true.2 ⟨_, hx, hblank⟩)⟩
  unfold runSegment
  generalize Pieces.split links cs = p at hop hbad ⊢
  obtain ⟨first, rest⟩ := p
  cases rest with
  | nil => cases hop
  | cons r others =>
    by_cases hmixed : others.any (fun q => decide (q.1 ≠ r.1)) = true
    · exact ⟨_, if_pos hmixed, rfl⟩
    · have hsame : ∀ o ∈ Pieces.operators ⟨first, r :: others⟩, o = r.1 := by
        simpa [Pieces.operators] using hmixed
      rcases hbad with ⟨o, ho, hne⟩ | hblank
      · exact absurd ((hsame o ho).trans (hsame op hop).symm) hne
      · exact ⟨_, (if_neg hmixed).trans (if_pos hblank), rfl⟩

theorem runSegment_chained {op : Operator} (hop : op ∈ links) {ps : List (List Char)}
    (hne : ps ≠ []) (h : ∀ p ∈ ps, Operand p) :
    runSegment (chained op ps) = runChain op ps := by
  obtain ⟨hops, hall⟩ := split_chained hop hne h
  obtain ⟨hblank, hsame⟩ := (List.forall₂_and_left _ _).1 hall
  rw [runSegment_of_operators hops hblank, runChain_congr op hsame]

theorem runSegment_chains :
    (∀ ps : List (List Char), ps ≠ [] → (∀ p ∈ ps, Operand p) → ∀ s,
      RunsUntil (fun o => o.exitCode ≠ 0) ps s (runSegment (" && ".toList.intercalate ps)) ∧
        RunsUntil (fun o => o.exitCode = 0) ps s (runSegment (" || ".toList.intercalate ps))) ∧
    ∀ cs, Malformed cs → ∃ o, runSegment cs = pure o ∧ o.exitCode = 1 := by
  refine ⟨?_, fun cs h => runSegment_malformed h⟩
  intro ps hne h s
  have hboth : " && ".toList.intercalate ps = chained .both ps := rfl
  have heither : " || ".toList.intercalate ps = chained .either ps := rfl
  rw [hboth, heither, runSegment_chained (by simp) hne h, runSegment_chained (by simp) hne h]
  constructor
  · exact runsUntil_runChain (by simp [Operator.stopsAfter, Outcome.succeeded]) hne s
  · exact runsUntil_runChain (by simp [Operator.stopsAfter, Outcome.succeeded]) hne s

theorem runSegment_chains_stopped :
    let s := FileStore.new ⟨0⟩
    let ps := ["echo 'a && b' | wc -w > n", "cat n none", "touch c"].map String.toList
    let cs := "touch c && echo '&' || pwd".toList
    (ps ≠ [] ∧ ∀ p ∈ ps, Operand p) ∧ Malformed cs ∧
      RunsUntil (fun o => o.exitCode ≠ 0) ps s (runSegment (" && ".toList.intercalate ps)) ∧
      ((runSegment (" && ".toList.intercalate ps)).run s).2.files.keys = ["n"] ∧
      ((runSegment cs).run s).2 = s := by
  intro s ps cs
  have hne : ps ≠ [] := by decide
  have hps : ∀ p ∈ ps, Operand p := by decide
  have hcs : Malformed cs := .mixed (by decide) (by decide)
  obtain ⟨o, hrun, -⟩ := runSegment_chains.2 cs hcs
  refine ⟨⟨hne, hps⟩, hcs, (runSegment_chains.1 ps hne hps s).1, by decide +kernel, ?_⟩
  rw [hrun, Script.run_pure]

end ProjectShell
