import ProjectShell.Proofs.PlainWords
import ProjectShell.Proofs.Removal

namespace ProjectShell

namespace OptionTable

variable {t : OptionTable}

theorem cluster_none (ht : ∀ f ∈ t.flags, f.takesValue = false) (o : Options) (cs : List Char) :
    (t.cluster o cs).2 = none := by
  induction cs generalizing o with
  | nil => rfl
  | cons c cs ih =>
    rw [cluster]
    split
    · rename_i flag hflag
      rw [ht flag (List.mem_of_find?_eq_some hflag)]
      exact ih _
    · exact ih _

theorem argument_dashed (ht : ∀ f ∈ t.flags, f.takesValue = false) (o : Options) {arg : String}
    (h : dashed arg = true) :
    (t.argument o arg).1.operands = o.operands ∧ (t.argument o arg).2 = none := by
  unfold argument
  split
  · dsimp only
    split
    · rename_i flag hflag
      rw [ht flag (List.mem_of_find?_eq_some hflag)]
      exact ⟨rfl, rfl⟩
    · exact ⟨rfl, rfl⟩
  · split
    · split
      · exact ⟨rfl, rfl⟩
      · exact ⟨operands_cluster .., cluster_none ht ..⟩
    · exact ⟨operands_cluster .., cluster_none ht ..⟩
  · rename_i hlong hshort
    unfold dashed at h
    split at h
    · rename_i c cs hcs
      exact absurd hcs (hshort c cs)
    · cases h

def operandsOf : List String → List String
  | [] => []
  | arg :: rest =>
      if arg = "--" then rest
      else if dashed arg then operandsOf rest
      else arg :: operandsOf rest

theorem operands_parseFrom (ht : ∀ f ∈ t.flags, f.takesValue = false) (o : Options)
    (args : List String) : (t.parseFrom o args).operands = o.operands ++ operandsOf args := by
  induction args generalizing o with
  | nil => simp [parseFrom, operandsOf]
  | cons arg rest ih =>
    rw [parseFrom, operandsOf]
    split
    · rfl
    · cases hd : dashed arg with
      | true =>
        obtain ⟨hoperands, hnone⟩ := argument_dashed ht o hd
        rw [← Prod.mk.eta (p := t.argument o arg), hnone]
        simpa [hoperands] using ih (t.argument o arg).1
      | false =>
        rw [argument_of_not_dashed hd]
        simpa [Options.addOperand] using ih (o.addOperand arg)

theorem operandsOf_sublist (args : List String) : (operandsOf args).Sublist args := by
  induction args with
  | nil => exact .slnil
  | cons arg rest ih =>
    rw [operandsOf]
    split
    · exact List.sublist_cons_self arg rest
    · split
      · exact ih.cons arg
      · exact ih.cons_cons arg

def IsOperand (args : List String) (arg : String) : Prop :=
  dashed arg = false ∨ "--" ∈ args ∧ "--" < arg

instance (args : List String) (arg : String) : Decidable (IsOperand args arg) :=
  inferInstanceAs (Decidable (_ ∨ _))

theorem isOperand_cons {arg : String} (h : arg ≠ "--") (rest : List String) (a : String) :
    IsOperand (arg :: rest) a ↔ IsOperand rest a := by
  simp [IsOperand, h.symm]

theorem mem_operandsOf_iff {args : List String} (h : args.Pairwise (· < ·)) {a : String} :
    a ∈ operandsOf args ↔ a ∈ args ∧ IsOperand args a := by
  have hdashes : dashed "--" = true := by decide
  induction args with
  | nil => simp [operandsOf]
  | cons arg rest ih =>
    obtain ⟨hlt, hrest⟩ := List.pairwise_cons.1 h
    have hmem : a ∈ operandsOf rest ↔ a ∈ rest ∧ IsOperand rest a := ih hrest
    rw [operandsOf]
    split
    · rename_i harg
      subst harg
      have hself : ¬ IsOperand ("--" :: rest) "--" := by
        simp [IsOperand, hdashes]
      constructor
      · exact fun ha => ⟨List.mem_cons_of_mem _ ha, .inr ⟨List.mem_cons_self, hlt a ha⟩⟩
      · rintro ⟨ha, hop⟩
        exact (List.mem_cons.1 ha).resolve_left (fun he => hself (he ▸ hop))
    · rename_i hne
      rw [isOperand_cons hne]
      split
      · rename_i hd
        -- Two dashes behind `arg` are greater, so they do not make it an operand.
        have hself : ¬ IsOperand rest arg := by
          rintro (hf | ⟨hm, hgt⟩)
          · rw [hd] at hf
            cases hf
          · exact String.lt_irrefl _ (String.lt_trans hgt (hlt _ hm))
        rw [hmem]
        constructor
        · exact fun ha => ⟨List.mem_cons_of_mem _ ha.1, ha.2⟩
        · rintro ⟨ha, hop⟩
          exact ⟨(List.mem_cons.1 ha).resolve_left (fun he => hself (he ▸ hop)), hop⟩
      · rename_i hd
        have hself : IsOperand rest arg := .inl (by simpa using hd)
        rw [List.mem_cons, List.mem_cons, hmem]
        constructor
        · rintro (rfl | ha)
          · exact ⟨.inl rfl, hself⟩
          · exact ⟨.inr ha.1, ha.2⟩
        · rintro ⟨rfl | ha, hop⟩
          · exact .inl rfl
          · exact .inr ⟨ha, hop⟩

end OptionTable

namespace Command

variable {s : FileStore} {o : Options}

theorem run_forEach_rmOperand {keys : List String} (hnodup : keys.Nodup)
    (hkeys : ∀ key ∈ keys, Path.normalize key = .ok key ∧ key ∈ s.files.keys) :
    ∃ r, Script.run s (Report.forEach (rmOperand o) keys).run = (.ok r, s.without keys) ∧
      r.failed = false := by
  induction keys generalizing s with
  | nil => exact ⟨{}, rfl, rfl⟩
  | cons key keys ih =>
    obtain ⟨hnot, hnodup⟩ := List.nodup_cons.1 hnodup
    obtain ⟨⟨hn, hk⟩, hrest⟩ := List.forall_mem_cons.1 hkeys
    obtain ⟨a, hrun, ha⟩ := run_rmOperand_file (o := o) hn hk
    obtain ⟨b, hruns, hb⟩ := ih (s := s.without [key]) hnodup (fun k hm =>
      ⟨(hrest k hm).1, SortedMap.mem_keys_erase.2 ⟨fun h => hnot (h ▸ hm), (hrest k hm).2⟩⟩)
    refine ⟨a ++ b, ?_, ?_⟩
    · rw [Report.forEach, Attempt.run_bind_of_ok hrun, Attempt.run_bind_of_ok hruns]
      rfl
    · change (a.failed || b.failed) = false
      rw [ha, hb, Bool.or_false]

theorem run_dispatch_rm_missing {args : List String} (h : (rmTable.parse args).operands = [])
    (hf : (rmTable.parse args).has "force" = false) (stdin : Option String) :
    (dispatch "rm" args stdin).run s = ((Report.error "rm: missing operand").outcome, s) := by
  have hrm : rm args = pure (Report.error "rm: missing operand").outcome := by
    simp [rm, h, hf]
  exact run_dispatch_of_ok (b := .rm) (congrArg (fun x => Script.run s (ExceptT.run x)) hrm)

theorem run_dispatch_rm_keys {args : List String} (hnodup : args.Nodup)
    (hargs : ∀ key ∈ args, Path.normalize key = .ok key ∧ key ∈ s.files.keys)
    (stdin : Option String) :
    ∃ o, (dispatch "rm" args stdin).run s = (o, s.without (OptionTable.operandsOf args)) ∧
      o.exitCode = if OptionTable.operandsOf args = [] ∧
        (rmTable.parse args).has "force" = false then 1 else 0 := by
  have hvalues : ∀ f ∈ rmTable.flags, f.takesValue = false := by decide
  have hparse : (rmTable.parse args).operands = OptionTable.operandsOf args :=
    OptionTable.operands_parseFrom hvalues {} args
  by_cases hnone : OptionTable.operandsOf args = [] ∧ (rmTable.parse args).has "force" = false
  · refine ⟨(Report.error "rm: missing operand").outcome,
      (run_dispatch_rm_missing (hparse.trans hnone.1) hnone.2 stdin).trans ?_, ?_⟩
    · rw [hnone.1]
      rfl
    · rw [if_pos hnone]
      rfl
  · have hsub := OptionTable.operandsOf_sublist args
    obtain ⟨r, hrun, hfailed⟩ := run_forEach_rmOperand (o := rmTable.parse args)
      (hnodup.sublist hsub) (fun key hk => hargs key (hsub.subset hk))
    rw [← hparse] at hrun hnone ⊢
    have hgiven : (rmTable.parse args).operands ≠ [] ∨ (rmTable.parse args).has "force" = true := by
      rwa [not_and_or, Bool.not_eq_false] at hnone
    refine ⟨r.outcome, run_dispatch_rm hgiven hrun stdin, ?_⟩
    rw [if_neg hnone, Report.outcome, hfailed]
    rfl

end Command

theorem FileStore.execute_of_run {s t : FileStore} {line : String} {o : Outcome}
    (h : (runLine line).run s = (o, t)) :
    (s.execute line).2 = t ∧ (s.execute line).1.exitCode = o.exitCode := by
  rw [execute, h]
  exact ⟨rfl, rfl⟩

theorem Word.plain_rm : Plain "rm".toList := by
  refine ⟨by decide, ?_, fun op => by cases op <;> decide⟩
  exact List.forall_mem_cons.2 ⟨by decide, List.forall_mem_singleton.2 (by decide)⟩

section Glob

variable {s : FileStore} {g : String} (hglob : PathPattern.isGlob g.toList = true)
  (hmatch : ∃ key ∈ s.files.keys, (PathPattern.new g).isMatch key = true)

include hglob hmatch

theorem expandWord_glob :
    expandWord s.files ⟨g, false⟩ = (PathPattern.new g).filter s.files.keys := by
  have hne : (PathPattern.new g).filter s.files.keys ≠ [] := by
    obtain ⟨key, hk, hm⟩ := hmatch
    exact List.ne_nil_of_mem (List.mem_filter.2 ⟨hk, hm⟩)
  rw [expandWord, hglob]
  split
  · rename_i h
    cases h
  · split
    · rename_i h
      exact absurd h hne
    · rfl

theorem run_runLine_rm_glob (hplain : Word.Plain g.toList) :
    (runLine ("rm " ++ g)).run s =
      (dispatch "rm" ((PathPattern.new g).filter s.files.keys) none).run s := by
  have hline : "rm " ++ g = plainLine ["rm", g] := by
    rw [← String.toList_inj, toList_plainLine_cons, toList_plainLine_singleton]
    simp
  have hplains : ∀ w ∈ ["rm", g], Word.Plain w.toList := by
    simpa using ⟨Word.plain_rm, hplain⟩
  rw [hline, run_runLine_plainLine hplains]
  simp only [List.flatMap_cons, List.flatMap_nil, List.append_nil, expandWord_glob hglob hmatch]

end Glob

open OptionTable in
theorem execute_rm_glob {s : FileStore} {g : String} (hglob : PathPattern.isGlob g.toList = true)
    (hplain : Word.Plain g.toList)
    (hmatch : ∃ key ∈ s.files.keys, (PathPattern.new g).isMatch key = true)
    (hself : ∀ key ∈ s.files.keys, (PathPattern.new g).isMatch key = true →
      Path.normalize key = .ok key) :
    let found := (PathPattern.new g).filter s.files.keys
    let r := s.execute ("rm " ++ g)
    (∀ key, r.2.files.get? key =
      if key ∈ found ∧ IsOperand found key then none else s.files.get? key) ∧
      ((∃ key ∈ found, IsOperand found key) → r.1.exitCode = 0) ∧
      ((∀ key ∈ found, ¬ IsOperand found key) →
        r.1.exitCode = if (Command.rmTable.parse found).has "force" then 0 else 1) := by
  intro found r
  have hsorted : found.Pairwise (· < ·) := (List.pairwise_map.2 s.files.sorted).filter _
  have hgone (key : String) : key ∈ operandsOf found ↔ key ∈ found ∧ IsOperand found key :=
    mem_operandsOf_iff hsorted
  have hkeys (key : String) (hk : key ∈ found) :
      Path.normalize key = .ok key ∧ key ∈ s.files.keys := by
    obtain ⟨hmem, hm⟩ := List.mem_filter.1 hk
    exact ⟨hself key hmem hm, hmem⟩
  have hnodup : found.Nodup := s.files.nodup_keys.filter _
  obtain ⟨o, hrun, hcode⟩ := Command.run_dispatch_rm_keys hnodup hkeys none
  obtain ⟨hfiles, hexit⟩ : r.2 = s.without (operandsOf found) ∧ r.1.exitCode = o.exitCode :=
    FileStore.execute_of_run ((run_runLine_rm_glob hglob hmatch hplain).trans hrun)
  refine ⟨fun key => ?_, fun hsome => ?_, fun hall => ?_⟩
  · rw [hfiles, FileStore.get?_without]
    simp only [hgone]
  · obtain ⟨key, hk⟩ := hsome
    rw [hexit, hcode, if_neg]
    exact fun h => List.ne_nil_of_mem ((hgone key).2 hk) h.1
  · have hnil : operandsOf found = [] := by
      refine List.eq_nil_iff_forall_not_mem.2 (fun key hk => ?_)
      obtain ⟨hmem, hop⟩ := (hgone key).1 hk
      exact hall key hmem hop
    rw [hexit, hcode]
    cases (Command.rmTable.parse found).has "force" <;> simp [hnil]

theorem Word.plain_star : Plain "*".toList :=
  ⟨by decide, List.forall_mem_singleton.2 (by decide), fun op => by cases op <;> decide⟩

open OptionTable in
theorem execute_rm_glob_dashes :
    let s := ((FileStore.new ⟨0⟩).seed
      [("-", "0"), ("--", "1"), ("-a", "2"), ("a", "3"), ("d/a", "4")]).2
    (PathPattern.isGlob "*".toList = true ∧ Word.Plain "*".toList ∧
      (∃ key ∈ s.files.keys, (PathPattern.new "*").isMatch key = true) ∧
      (∀ key ∈ s.files.keys, (PathPattern.new "*").isMatch key = true →
        Path.normalize key = .ok key)) ∧
      (s.execute ("rm " ++ "*")).2.files.get? "a" = none ∧
      (s.execute ("rm " ++ "*")).1.exitCode = 0 ∧
      (s.execute ("rm " ++ "*")).2.files.keys = ["--", "d/a"] := by
  intro s
  have hglob : PathPattern.isGlob "*".toList = true := by decide
  have hmatch : ∃ key ∈ s.files.keys, (PathPattern.new "*").isMatch key = true := by
    decide +kernel
  have hself : ∀ key ∈ s.files.keys, (PathPattern.new "*").isMatch key = true →
      Path.normalize key = .ok key := by decide +kernel
  have hop : "a" ∈ (PathPattern.new "*").filter s.files.keys ∧
      IsOperand ((PathPattern.new "*").filter s.files.keys) "a" := by decide +kernel
  have hremoved := execute_rm_glob (s := s) hglob Word.plain_star hmatch hself
  exact ⟨⟨hglob, Word.plain_star, hmatch, hself⟩, (hremoved.1 "a").trans (if_pos hop),
    hremoved.2.1 ⟨"a", hop⟩, by decide +kernel⟩

theorem execute_rm_glob_keeps_dashed :
    let s := ((FileStore.new ⟨0⟩).seed [("-f", "1"), ("a", "2")]).2
    let r := s.execute ("rm " ++ "*")
    PathPattern.isGlob "*".toList = true ∧ Word.Plain "*".toList ∧
      (PathPattern.new "*").filter s.files.keys = ["-f", "a"] ∧
      r.2.files.keys = ["-f"] ∧ r.1.exitCode = 0 := by
  intro s r
  exact ⟨by decide, Word.plain_star, by decide +kernel, by decide +kernel, by decide +kernel⟩

end ProjectShell
