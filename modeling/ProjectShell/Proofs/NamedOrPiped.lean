import ProjectShell.Proofs.CommandRequests
import ProjectShell.Proofs.Faults
import ProjectShell.Proofs.LineEnds
import ProjectShell.Proofs.Operands
import ProjectShell.Proofs.Piping

namespace ProjectShell

theorem Attempt.run_read_bind {α β : Type} (f : View → α) (x : α → Attempt β) (s : FileStore) :
    Script.run s (Attempt.read f >>= x).run = Script.run s (x (f s.view)).run := rfl

namespace Command.Sed

def expression? (o : Options) : Option String :=
  match o.value? "expression", o.operands with
  | some e, [] => some e
  | none, [e] => some e
  | _, _ => none

def Gives (o : Options) (expression : String) (files : List String) : Prop :=
  o.value? "expression" = some expression ∧ o.operands = files ∨
    o.value? "expression" = none ∧ o.operands = expression :: files

theorem gives_of_expression? {o : Options} {e : String} (h : expression? o = some e) :
    Gives o e [] := by
  unfold expression? at h
  split at h
  · rename_i hvalue hoperands
    cases h
    exact .inl ⟨hvalue, hoperands⟩
  · rename_i hvalue hoperands
    cases h
    exact .inr ⟨hvalue, hoperands⟩
  · cases h

theorem Gives.addOperand {o : Options} {e f : String} {files : List String} (h : Gives o e files) :
    Gives (o.addOperand f) e (files ++ [f]) := by
  rcases h with ⟨hvalue, hoperands⟩ | ⟨hvalue, hoperands⟩
  · exact .inl ⟨hvalue, congrArg (· ++ [f]) hoperands⟩
  · exact .inr ⟨hvalue, congrArg (· ++ [f]) hoperands⟩

def shown (text : String) : Report :=
  if (Text.trimNewline text).isEmpty then {} else .line (Text.trimNewline text)

def outcome (expression text : String) : Outcome :=
  match Program.ofString expression with
  | .error message => .failure message
  | .ok p => (shown (p.apply text)).outcome

def endsPlain (expression text : String) : Bool :=
  match Program.ofString expression with
  | .error _ => true
  | .ok p => (p.apply text).toList.getLast?.all (fun c => c ≠ '\n' && c ≠ '\r')

theorem trimNewline_apply {p : Program} {text : String}
    (hlast : (Text.linesOf text).getLast? ≠ some "") (hnewline : text.toList.getLast? = some '\n')
    (hend : ∀ c ∈ (p.apply (Text.trimNewline text)).toList.getLast?, c ≠ '\n' ∧ c ≠ '\r') :
    Text.trimNewline (p.apply text) = Text.trimNewline (p.apply (Text.trimNewline text)) := by
  obtain ⟨hlines, hopen⟩ := Text.lines_trimNewline hlast
  -- The lines are the same, and so are the edited lines; only `text` gets its newline back.
  obtain ⟨result, hresult⟩ : ∃ result, result = p.apply (Text.trimNewline text) := ⟨_, rfl⟩
  have hbare : result =
      "\n".intercalate (p.editLines (Text.lines text.toList).length 0 (Text.lines text.toList)) := by
    rw [hresult, Program.apply, hlines]
    simp [hopen]
  have happly : p.apply text = if result.isEmpty then result else result ++ "\n" := by
    rw [Program.apply, ← hbare, hnewline]
    cases result.isEmpty <;> rfl
  rw [← hresult] at hend ⊢
  rw [happly]
  split
  · rfl
  · have hline : result.toList.getLast? ≠ some '\n' := fun h => (hend '\n' h).1 rfl
    have hreturn : result.toList.getLast? ≠ some '\r' := fun h => (hend '\r' h).2 rfl
    rw [Text.trimNewline_append hreturn, Text.trimNewline_of_ne hline]

theorem outcome_trimNewline {e text : String}
    (hlast : (Text.linesOf text).getLast? ≠ some "")
    (hend : text.toList.getLast? = some '\n' → endsPlain e (Text.trimNewline text) = true) :
    outcome e (Text.trimNewline text) = outcome e text := by
  by_cases hnewline : text.toList.getLast? = some '\n'
  · have hplain := hend hnewline
    unfold outcome
    rw [endsPlain] at hplain
    cases he : Program.ofString e with
    | error message => rfl
    | ok p =>
      rw [he] at hplain
      have hends : ∀ c ∈ (p.apply (Text.trimNewline text)).toList.getLast?,
          c ≠ '\n' ∧ c ≠ '\r' := by
        simpa [Option.all_eq_true] using hplain
      have hsame := trimNewline_apply hlast hnewline hends
      simp only [shown, hsame]
  · rw [Text.trimNewline_of_ne hnewline]

end Command.Sed

inductive LineFilter
  | sort
  | uniq
  | edge (e : Command.Edge)
  | sed
deriving DecidableEq, Repr

namespace LineFilter

open Command

def builtin : LineFilter → Builtin
  | sort => .sort
  | uniq => .uniq
  | edge .head => .head
  | edge .tail => .tail
  | sed => .sed

def table : LineFilter → OptionTable
  | sort => sortTable
  | uniq => uniqTable
  | edge _ => headTable
  | sed => Sed.table

def ready (k : LineFilter) (args : List String) : Bool :=
  let o := k.table.parse args
  k.table.settled args &&
    match k with
    | sed => !o.has "in-place" && (Sed.expression? o).isSome
    | _ => o.operands.isEmpty

def keepsEnd (k : LineFilter) (args : List String) (text : String) : Bool :=
  match k with
  | sed => text.toList.getLast? ≠ some '\n' ||
      (Sed.expression? (Sed.table.parse args)).all (Sed.endsPlain · (Text.trimNewline text))
  | _ => true

def span? (e : Edge) (o : Options) : Option Span :=
  match o.value? "lines" with
  | none => some (e.span 10)
  | some raw => e.parseSpan raw

def outcome (k : LineFilter) (o : Options) (text : String) : Outcome :=
  match k with
  | sort =>
      let ls := sortLines o (Text.linesOf text)
      (Report.lines (if ls.isEmpty then [] else ["\n".intercalate ls])).outcome
  | uniq => (Report.lines ((runsOf (Text.linesOf text)).flatMap (uniqLine o))).outcome
  | edge e =>
      match span? e o with
      | none =>
          .failure (e.name ++ ": invalid number of lines: '" ++ (o.value? "lines").getD "" ++ "'")
      | some span => (Report.lines (Edge.selected span ⟨none, text⟩)).outcome
  | sed =>
      match Sed.expression? o with
      | none => {}
      | some e => Sed.outcome e text

end LineFilter

variable {s : FileStore} {f : String} {file : File}

namespace View

theorem sources_stdin (v : View) (cmd text : String) :
    v.sources cmd [] (some text) = ([⟨none, text⟩], {}) := rfl

theorem sources_file {v : View} (cmd : String) (hname : f.toList.head? ≠ some '-')
    (hfile : v.files.read? f = some file) :
    v.sources cmd [f] none = ([⟨some f, file.content⟩], {}) := by
  have hdash : f ≠ "-" := by
    rintro rfl
    exact hname rfl
  simp [sources, operandSources, readOperand, hdash, hfile]

end View

namespace LineFilter

open Command

variable {args : List String} {stdin : Option String} {source : Source}

theorem sort_eq {v : View}
    (h : v.sources "sort" (sortTable.parse args).operands stdin = ([source], {})) :
    Command.sort args stdin v = sort.outcome (sortTable.parse args) source.text := by
  rw [Command.sort, h]
  simp only [List.flatMap_singleton]
  rfl

theorem uniq_eq {v : View}
    (h : v.sources "uniq" (uniqTable.parse args).operands stdin = ([source], {})) :
    Command.uniq args stdin v = uniq.outcome (uniqTable.parse args) source.text := by
  rw [Command.uniq, h]
  simp only [List.flatMap_singleton]
  rfl

theorem edge_eq {e : Edge} {v : View}
    (h : v.sources e.name (headTable.parse args).operands stdin = ([source], {})) :
    e.run args stdin v = (edge e).outcome (headTable.parse args) source.text := by
  unfold Edge.run outcome span?
  simp only [h, List.length_singleton, Nat.lt_irrefl, decide_false, Bool.false_and,
    Bool.false_eq_true, if_false, List.flatMap_singleton]
  cases (headTable.parse args).value? "lines" with
  | none => rfl
  | some raw =>
    dsimp only
    cases e.parseSpan raw with
    | none => rfl
    | some span => rfl

theorem run_dispatch_plain {k : LineFilter} (hk : k ≠ sed)
    (h : s.view.sources k.builtin.name (k.table.parse args).operands stdin = ([source], {})) :
    (dispatch k.builtin.name args stdin).run s =
      (k.outcome (k.table.parse args) source.text, s) := by
  cases k with
  | sort => exact (run_dispatch_read s rfl).trans (congrArg (·, s) (sort_eq h))
  | uniq => exact (run_dispatch_read s rfl).trans (congrArg (·, s) (uniq_eq h))
  | edge e => cases e <;> exact (run_dispatch_read s rfl).trans (congrArg (·, s) (edge_eq h))
  | sed => exact absurd rfl hk

theorem editSource_shown (p : Sed.Program) (source : Source) :
    Sed.editSource p false source = pure (Sed.shown (p.apply source.text)) := by
  obtain ⟨name, text⟩ := source
  cases name <;> rfl

theorem forEach_singleton {x : Source → Attempt Report} {source : Source} {r : Report}
    (h : x source = pure r) : Report.forEach x [source] = pure r := by
  rw [Report.forEach, h, pure_bind, Report.forEach, pure_bind, Report.append_empty]

theorem run_sed {e : String} {files : List String}
    (hplace : (Sed.table.parse args).has "in-place" = false)
    (hgives : Sed.Gives (Sed.table.parse args) e files)
    (h : s.view.sources "sed" files stdin = ([source], {})) :
    (Sed.run args stdin).run.run s = (.ok (Sed.outcome e source.text), s) := by
  have hedit (p : Sed.Program) :
      (Attempt.read id >>= fun v : View => do
        let report ← Report.forEach (Sed.editSource p false) (v.sources "sed" files stdin).1
        pure ((v.sources "sed" files stdin).2 ++ report).outcome).run.run s =
          (.ok (Sed.shown (p.apply source.text)).outcome, s) := by
    rw [Attempt.run_read_bind, id, h, forEach_singleton (editSource_shown p source), pure_bind,
      Report.empty_append, ExceptT.run_pure, Script.run_pure]
  unfold Sed.run Sed.outcome
  rcases hgives with ⟨hvalue, hoperands⟩ | ⟨hvalue, hoperands⟩
  all_goals
    simp only [hplace, hvalue, hoperands, Bool.false_and, Bool.false_eq_true, if_false]
    cases Sed.Program.ofString e with
    | error message => rfl
    | ok p => exact hedit p

theorem run_dispatch_sed {e : String} {files : List String}
    (hplace : (sed.table.parse args).has "in-place" = false)
    (hgives : Sed.Gives (sed.table.parse args) e files)
    (h : s.view.sources "sed" files stdin = ([source], {})) :
    (dispatch sed.builtin.name args stdin).run s = (Sed.outcome e source.text, s) :=
  run_dispatch_of_ok (b := .sed) (run_sed hplace hgives h)

theorem outcome_sed {o : Options} {e : String} (he : Sed.expression? o = some e)
    (text : String) : sed.outcome o text = Sed.outcome e text := by
  rw [outcome, he]

theorem outcome_addOperand {k : LineFilter} (hk : k ≠ sed) (o : Options) (operand text : String) :
    k.outcome (o.addOperand operand) text = k.outcome o text := by
  cases k with
  | sort => rfl
  | uniq => rfl
  | edge e => rfl
  | sed => exact absurd rfl hk

theorem settled_of_ready {k : LineFilter} (h : k.ready args = true) :
    k.table.settled args = true := by
  simp only [ready, Bool.and_eq_true] at h
  exact h.1

theorem operands_of_ready {k : LineFilter} (hk : k ≠ sed) (h : k.ready args = true) :
    (k.table.parse args).operands = [] := by
  simp only [ready, Bool.and_eq_true] at h
  cases k with
  | sed => exact absurd rfl hk
  | sort => exact List.isEmpty_iff.1 h.2
  | uniq => exact List.isEmpty_iff.1 h.2
  | edge e => exact List.isEmpty_iff.1 h.2

theorem expression_of_ready (h : sed.ready args = true) :
    (sed.table.parse args).has "in-place" = false ∧
      ∃ e, Sed.expression? (sed.table.parse args) = some e := by
  simp only [ready, Bool.and_eq_true, Bool.not_eq_true', Option.isSome_iff_exists] at h
  exact h.2

theorem run_dispatch_stdin {k : LineFilter} (hargs : k.ready args = true) (text : String) :
    (dispatch k.builtin.name args (some text)).run s =
      (k.outcome (k.table.parse args) text, s) := by
  by_cases hk : k = sed
  · subst hk
    obtain ⟨hplace, e, he⟩ := expression_of_ready hargs
    rw [outcome_sed he]
    exact (run_dispatch_sed hplace (Sed.gives_of_expression? he)
      (View.sources_stdin s.view "sed" text) :)
  · have h : s.view.sources k.builtin.name (k.table.parse args).operands (some text) =
        ([⟨none, text⟩], {}) := by
      rw [operands_of_ready hk hargs]
      exact View.sources_stdin ..
    exact (run_dispatch_plain hk h :)

theorem run_dispatch_file {k : LineFilter} (hargs : k.ready args = true)
    (hname : f.toList.head? ≠ some '-') (hfile : s.read? f = some file) :
    (dispatch k.builtin.name (args ++ [f]) none).run s =
      (k.outcome (k.table.parse args) file.content, s) := by
  have hparse := OptionTable.parse_concat hname (settled_of_ready hargs)
  by_cases hk : k = sed
  · subst hk
    obtain ⟨hplace, e, he⟩ := expression_of_ready hargs
    have hgives : Sed.Gives (sed.table.parse (args ++ [f])) e [f] := by
      rw [hparse]
      exact (Sed.gives_of_expression? he).addOperand
    have hplace' : (sed.table.parse (args ++ [f])).has "in-place" = false := by
      rw [hparse]
      exact hplace
    have hrun := run_dispatch_sed hplace' hgives (View.sources_file "sed" hname hfile)
    rw [hrun, outcome_sed he]
  · have h : s.view.sources k.builtin.name (k.table.parse (args ++ [f])).operands none =
        ([⟨some f, file.content⟩], {}) := by
      rw [hparse, Options.addOperand, operands_of_ready hk hargs]
      exact View.sources_file _ hname hfile
    rw [run_dispatch_plain hk h, hparse, outcome_addOperand hk]

theorem endsPlain_of_keepsEnd {e text : String} (h : sed.keepsEnd args text = true)
    (he : Sed.expression? (sed.table.parse args) = some e)
    (hnewline : text.toList.getLast? = some '\n') :
    Sed.endsPlain e (Text.trimNewline text) = true := by
  have he' : Sed.expression? (Sed.table.parse args) = some e := he
  rw [keepsEnd, he', hnewline] at h
  exact h

theorem outcome_congr {k : LineFilter} {o : Options} {c t : String}
    (hlines : Text.linesOf c = Text.linesOf t)
    (hsed : ∀ e, k = sed → Sed.expression? o = some e → Sed.outcome e c = Sed.outcome e t) :
    k.outcome o c = k.outcome o t := by
  cases k with
  | sort => simp only [outcome, hlines]
  | uniq => simp only [outcome, hlines]
  | edge e =>
    have hselected (span : Span) :
        Edge.selected span ⟨none, c⟩ = Edge.selected span ⟨none, t⟩ := by
      rw [Edge.selected, Edge.selected, Source.lines, Source.lines, hlines]
    simp only [outcome, hselected]
  | sed =>
    rw [outcome, outcome]
    cases he : Sed.expression? o with
    | none => rfl
    | some e => exact hsed e rfl he

end LineFilter

theorem run_dispatch_cat (hname : f.toList.head? ≠ some '-') (hfile : s.read? f = some file) :
    (dispatch "cat" [f] none).run s = (⟨Text.trimNewline file.content, "", 0⟩, s) := by
  have hrun : (dispatch Builtin.cat.name [f] none).run s = _ := run_dispatch_read s rfl
  refine hrun.trans (congrArg (·, s) ?_)
  have hparse : Command.catTable.parse ([] ++ [f]) = ({} : Options).addOperand f :=
    OptionTable.parse_concat hname rfl
  rw [List.nil_append] at hparse
  have hsources : s.view.sources "cat" [f] none = ([⟨some f, file.content⟩], {}) :=
    View.sources_file "cat" hname hfile
  have hoperands :
      Command.catOperands s.view (({} : Options).addOperand f).operands none = [f] := rfl
  have hnumber : (({} : Options).addOperand f).has "number" = false := rfl
  simp only [Command.cat, hparse, hoperands, hsources, hnumber, Bool.false_eq_true, if_false,
    List.map_cons, List.map_nil, List.filter_cons, List.filter_nil]
  cases h : (Text.trimNewline file.content).isEmpty with
  | true =>
    rw [String.isEmpty_iff.1 h]
    rfl
  | false => rfl

theorem FileStore.read?_write (hfile : s.read? f = some file) (text : String) :
    ∃ file', (s.write f text).2.read? f = some file' ∧ file'.content = text := by
  obtain ⟨key, -, hkey⟩ := FileMap.exists_key_of_read? hfile
  exact ⟨File.new key text s.now, read?_write_of_normalize hkey s text, rfl⟩

theorem stdout_cat_pipe (k : LineFilter) {args : List String} (hfile : s.read? f = some file)
    (hname : f.toList.head? ≠ some '-') (hargs : k.ready args = true) :
    let piped := ((runLine (pipedLine ["cat", f] (k.builtin.name :: args))).run s).1.stdout
    let named (t : FileStore) :=
      ((runLine (quotedLine (k.builtin.name :: (args ++ [f])))).run t).1.stdout
    piped = named (s.write f (Text.trimNewline file.content)).2 ∧
      (file.lines.getLast? ≠ some "" → k.keepsEnd args file.content = true → piped = named s) := by
  intro piped named
  have hpiped : piped =
      (k.outcome (k.table.parse args) (Text.trimNewline file.content)).stdout := by
    simp only [piped, run_runLine_pipedLine, run_dispatch_cat hname hfile,
      LineFilter.run_dispatch_stdin hargs]
  have hnamed {t : FileStore} {file' : File} (h : t.read? f = some file') :
      named t = (k.outcome (k.table.parse args) file'.content).stdout := by
    simp only [named, run_runLine_quotedLine, LineFilter.run_dispatch_file hargs hname h]
  obtain ⟨file', hfile', hcontent⟩ := FileStore.read?_write hfile (Text.trimNewline file.content)
  refine ⟨?_, fun hlast hend => ?_⟩
  · rw [hpiped, hnamed hfile', hcontent]
  · rw [hpiped, hnamed hfile]
    refine congrArg Outcome.stdout (LineFilter.outcome_congr ?_ ?_)
    · exact congrArg (List.map String.ofList) (Text.lines_trimNewline hlast).1
    · intro e hk he
      subst hk
      exact Command.Sed.outcome_trimNewline hlast
        (fun hnewline => LineFilter.endsPlain_of_keepsEnd hend he hnewline)

theorem stdout_cat_pipe_returns :
    let s := ((FileStore.new ⟨0⟩).seed [("log", "b 2\r\n\na 1\r\n")]).2
    let file := File.new "log" "b 2\r\n\na 1\r\n" ⟨0⟩
    let k := LineFilter.sed
    let args := ["-e", "s/ .*//"]
    (s.read? "log" = some file ∧ "log".toList.head? ≠ some '-' ∧ k.ready args = true ∧
      file.lines.getLast? ≠ some "" ∧ k.keepsEnd args file.content = true) ∧
      ((runLine (pipedLine ["cat", "log"] (k.builtin.name :: args))).run s).1.stdout =
        "b\n\na" ∧
      ((runLine (quotedLine (k.builtin.name :: (args ++ ["log"])))).run s).1.stdout =
        "b\n\na" := by
  intro s file k args
  have hfile : s.read? "log" = some file := by decide +kernel
  have hname : "log".toList.head? ≠ some '-' := by decide
  have hargs : k.ready args = true := by decide +kernel
  have hlast : file.lines.getLast? ≠ some "" := by decide +kernel
  have hend : k.keepsEnd args file.content = true := by decide +kernel
  have hsame := (stdout_cat_pipe k hfile hname hargs).2 hlast hend
  have hnamed : ((runLine (quotedLine (k.builtin.name :: (args ++ ["log"])))).run s).1.stdout =
      "b\n\na" := by
    decide +kernel
  exact ⟨⟨hfile, hname, hargs, hlast, hend⟩, hsame.trans hnamed, hnamed⟩

theorem stdout_cat_pipe_ne :
    let s := ((FileStore.new ⟨0⟩).seed
      [("f", "a\n\n"), ("g", "a\n"), ("h", "a\r\r\n"), ("-d", "b")]).2
    let out (line : String) := ((runLine line).run s).1.stdout
    out "cat f | tail -n 1" ≠ out "tail -n 1 f" ∧
      out "cat g | sed 's/a/b\\n/'" ≠ out "sed 's/a/b\\n/' g" ∧
      out "cat h | sed s/b/c/" ≠ out "sed s/b/c/ h" ∧
      out "cat -d | uniq --" ≠ out "uniq -- -d" := by
  decide +kernel

end ProjectShell
