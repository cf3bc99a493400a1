import ProjectShell.Proofs.NamedOrPiped

namespace ProjectShell

namespace Text

def plainEnds : List Char → List Char
  | [] => []
  | '\r' :: '\n' :: cs => '\n' :: plainEnds cs
  | c :: cs => c :: plainEnds cs

def rejoined (text : String) : String :=
  if plainEnds text.toList = ['\n'] then "" else String.ofList (plainEnds text.toList)

def KeepsEnds (text : String) : Prop := ¬ ['\r', '\n'] <:+: text.toList ∧ text ≠ "\n"

instance (text : String) : Decidable (KeepsEnds text) :=
  inferInstanceAs (Decidable (_ ∧ _))

theorem plainEnds_cons {c : Char} {cs : List Char} (h : c = '\r' → cs.head? ≠ some '\n') :
    plainEnds (c :: cs) = c :: plainEnds cs := by
  rw [plainEnds]
  rintro ds rfl rfl
  exact h rfl rfl

theorem plainEnds_newline (cs : List Char) : plainEnds ('\n' :: cs) = '\n' :: plainEnds cs :=
  plainEnds_cons (fun h => absurd h (by decide))

theorem plainEnds_of_not_mem {cs : List Char} (h : '\n' ∉ cs) : plainEnds cs = cs := by
  induction cs with
  | nil => rfl
  | cons c cs ih =>
    have hcs : '\n' ∉ cs := fun hmem => h (List.mem_cons_of_mem _ hmem)
    rw [plainEnds_cons (fun _ hd => hcs (List.mem_of_mem_head? hd)), ih hcs]

theorem dropReturn_cons {c : Char} {cs : List Char} (h : cs ≠ []) :
    dropReturn (c :: cs) = c :: dropReturn cs := by
  obtain ⟨d, ds, rfl⟩ := List.exists_cons_of_ne_nil h
  rw [dropReturn, dropReturn, List.getLast?_cons_cons]
  split
  · rw [List.dropLast_cons_cons]
  · rfl

theorem plainEnds_line {l : List Char} (h : '\n' ∉ l) (cs : List Char) :
    plainEnds (l ++ '\n' :: cs) = dropReturn l ++ '\n' :: plainEnds cs := by
  induction l with
  | nil => exact plainEnds_newline cs
  | cons c l ih =>
    have hl : '\n' ∉ l := fun hmem => h (List.mem_cons_of_mem _ hmem)
    by_cases hnil : l = []
    · subst hnil
      by_cases hc : c = '\r'
      · subst hc
        rfl
      · rw [List.singleton_append, plainEnds_cons (fun h => absurd h hc),
          plainEnds_newline]
        simp [dropReturn, hc]
    · have hhead : (l ++ '\n' :: cs).head? ≠ some '\n' := by
        rw [List.head?_append_of_ne_nil _ hnil]
        exact fun hd => hl (List.mem_of_mem_head? hd)
      rw [List.cons_append, plainEnds_cons (fun _ => hhead), ih hl, dropReturn_cons hnil]
      rfl

theorem endLines_eq_nil_iff {ps : List (List Char)} (h : ps ≠ []) : endLines ps = [] ↔ ps = [[]] := by
  match ps with
  | [l] => cases l <;> simp [endLines]
  | p :: q :: ps => simp [endLines]

theorem plainEnds_intercalate {ps : List (List Char)} (hne : ps ≠ []) (h : ∀ p ∈ ps, '\n' ∉ p) :
    plainEnds (['\n'].intercalate ps) = ['\n'].intercalate (endLines ps) ++
      if (['\n'].intercalate ps).getLast? = some '\n' then ['\n'] else [] := by
  induction ps with
  | nil => exact absurd rfl hne
  | cons p ps ih =>
    obtain ⟨hp, hps⟩ := List.forall_mem_cons.1 h
    cases ps with
    | nil =>
      have hlast : p.getLast? ≠ some '\n' := fun hl => hp (List.mem_of_getLast? hl)
      rw [List.intercalate_singleton, plainEnds_of_not_mem hp, if_neg hlast, endLines]
      cases p <;> simp
    | cons q qs =>
      have hqs : q :: qs ≠ [] := List.cons_ne_nil q qs
      rw [List.intercalate_cons_cons, List.append_assoc, List.singleton_append, plainEnds_line hp,
        ih hqs hps, endLines, List.getLast?_append_cons]
      by_cases hlast : q :: qs = [[]]
      · rw [hlast]
        simp [endLines]
      · have hlines : endLines (q :: qs) ≠ [] := fun hl => hlast ((endLines_eq_nil_iff hqs).1 hl)
        have hrest : ['\n'].intercalate (q :: qs) ≠ [] := by
          intro hnil
          have hpieces := pieces_intercalate hqs hps
          rw [hnil] at hpieces
          exact hlast hpieces.symm
        obtain ⟨c, cs, hcs⟩ := List.exists_cons_of_ne_nil hrest
        rw [List.intercalate_cons_of_ne_nil hlines, hcs, List.getLast?_cons_cons]
        simp

theorem plainEnds_eq (cs : List Char) :
    plainEnds cs = ['\n'].intercalate (lines cs) ++
      if cs.getLast? = some '\n' then ['\n'] else [] := by
  have h := plainEnds_intercalate (pieces_ne_nil '\n' cs) (fun _ => not_mem_of_mem_pieces)
  rwa [intercalate_pieces] at h

theorem plainEnds_eq_self_iff {cs : List Char} : plainEnds cs = cs ↔ ¬ ['\r', '\n'] <:+: cs := by
  fun_induction plainEnds cs with
  | case1 => simp
  | case2 cs ih =>
    have hends : ['\r', '\n'] <:+: '\r' :: '\n' :: cs := (List.prefix_append _ cs).isInfix
    simp [hends]
  | case3 c cs hreturn ih =>
    have hprefix : ¬ ['\r', '\n'] <+: c :: cs := by
      rintro ⟨t, ht⟩
      cases ht
      exact hreturn t rfl rfl
    rw [List.infix_cons_iff, or_iff_right hprefix, ← ih, List.cons_inj_right]

theorem getLast?_plainEnds (cs : List Char) : (plainEnds cs).getLast? = cs.getLast? := by
  fun_induction plainEnds cs with
  | case1 => rfl
  | case2 cs ih => simp [List.getLast?_cons, ih]
  | case3 c cs hreturn ih => simp [List.getLast?_cons, ih]

theorem rejoined_eq_self_iff {text : String} : rejoined text = text ↔ KeepsEnds text := by
  rw [KeepsEnds, ← plainEnds_eq_self_iff, rejoined]
  split
  · rename_i hnewline
    rw [hnewline]
    constructor
    · rintro rfl
      cases hnewline
    · rintro ⟨htext, hne⟩
      exact absurd (String.toList_inj.1 htext.symm) hne
  · rename_i hnewline
    rw [← String.toList_inj, String.toList_ofList]
    refine ⟨fun h => ⟨h, ?_⟩, And.left⟩
    rintro rfl
    exact hnewline h

theorem rejoined_eq {text result : String} (h : result = "\n".intercalate (linesOf text)) :
    (if text.toList.getLast? = some '\n' && !result.isEmpty then result ++ "\n" else result) =
      rejoined text := by
  have hresult : result.toList = ['\n'].intercalate (lines text.toList) := by
    rw [h, String.toList_intercalate, linesOf, List.map_map]
    simp [Function.comp_def]
  have hplain := plainEnds_eq text.toList
  rw [← hresult] at hplain
  rw [rejoined]
  by_cases hend : text.toList.getLast? = some '\n'
  · rw [if_pos hend] at hplain
    by_cases hempty : result = ""
    · subst hempty
      simp [hplain]
    · have hne : result.toList ≠ [] := by simpa using hempty
      rw [hplain, if_pos (by simp [hend, hempty]), if_neg (by simp [hne]), ← String.toList_inj]
      simp
  · rw [if_neg hend, List.append_nil] at hplain
    have hne : plainEnds text.toList ≠ ['\n'] := fun hn => hend (by rw [← getLast?_plainEnds, hn]; rfl)
    rw [if_neg hne, if_neg (by simp [hend]), hplain, String.ofList_toList]

end Text

namespace Regex

variable {r : Regex} {cs : List Char}

theorem replaceFirst_of_not_isMatch (h : r.isMatch cs = false) (template : List Char) :
    r.replaceFirst cs template = cs := by
  rw [replaceFirst, Option.isSome_eq_false_iff.1 h |> Option.isNone_iff_eq_none.1]
  rfl

theorem replaceAll_of_not_isMatch (h : r.isMatch cs = false) (template : List Char) :
    r.replaceAll cs template = cs := by
  have hnone : r.findFrom (cs.length + 1) (Place.start cs) = none :=
    Option.isNone_iff_eq_none.1 (Option.isSome_eq_false_iff.1 h)
  rw [replaceAll, findAll, matchesFrom, hnone]
  rfl

def Misses (r : Regex) (text : String) : Prop :=
  ∀ l ∈ Text.lines text.toList, r.isMatch l = false

instance (r : Regex) (text : String) : Decidable (r.Misses text) :=
  inferInstanceAs (Decidable (∀ l ∈ Text.lines text.toList, r.isMatch l = false))

end Regex

namespace Command.Sed

def Program.regex? : Program → Option Regex
  | substitute r _ _ => some r
  | delete (.pattern r) => some r
  | delete _ => none

variable {p : Program} {r : Regex}

theorem editLine_of_not_isMatch (hr : p.regex? = some r) {l : List Char}
    (h : r.isMatch l = false) (count index : Nat) : p.editLine count index l = some l := by
  match p, hr with
  | .substitute _ template everywhere, rfl =>
    cases everywhere with
    | true => exact congrArg some (Regex.replaceAll_of_not_isMatch h template)
    | false => exact congrArg some (Regex.replaceFirst_of_not_isMatch h template)
  | .delete (.pattern _), rfl => exact if_neg (by simp [Address.selects, h])

theorem editLines_of_not_isMatch (hr : p.regex? = some r) {ls : List (List Char)}
    (h : ∀ l ∈ ls, r.isMatch l = false) (count index : Nat) :
    p.editLines count index ls = ls.map String.ofList := by
  induction ls generalizing index with
  | nil => rfl
  | cons l ls ih =>
    obtain ⟨hl, hls⟩ := List.forall_mem_cons.1 h
    rw [Program.editLines, editLine_of_not_isMatch hr hl, ih hls]
    rfl

theorem apply_of_misses (hr : p.regex? = some r) {text : String} (h : r.Misses text) :
    p.apply text = Text.rejoined text := by
  rw [Program.apply]
  exact Text.rejoined_eq (congrArg "\n".intercalate (editLines_of_not_isMatch hr h _ 0))

end Command.Sed

namespace View

variable {v : View} {cmd path text : String} {operands : List String} {stdin : Option String}

theorem operandSources_dash (v : View) (cmd : String) (stdin : Option String)
    (rest : List String) : (v.operandSources cmd stdin ("-" :: rest)).1 =
      (stdin.map (Source.mk none)).toList ++ (v.operandSources cmd stdin rest).1 := rfl

theorem operandSources_file {operand : String} {file : File} (hdash : operand ≠ "-")
    (hread : v.files.read? operand = some file) (rest : List String) :
    (v.operandSources cmd stdin (operand :: rest)).1 =
      ⟨some operand, file.content⟩ :: (v.operandSources cmd stdin rest).1 := by
  simp only [operandSources, hdash, if_false, readOperand, hread]

theorem operandSources_missing {operand : String} (hdash : operand ≠ "-")
    (hread : v.files.read? operand = none) (rest : List String) :
    (v.operandSources cmd stdin (operand :: rest)).1 = (v.operandSources cmd stdin rest).1 := by
  simp only [operandSources, hdash, if_false, readOperand, hread]
  cases v.files.isDir operand <;> rfl

theorem mem_operandSources_iff :
    ⟨some path, text⟩ ∈ (v.operandSources cmd stdin operands).1 ↔
      path ∈ operands ∧ path ≠ "-" ∧ (v.files.read? path).map File.content = some text := by
  induction operands with
  | nil => simp [operandSources]
  | cons operand rest ih =>
    by_cases hdash : operand = "-"
    · subst hdash
      rw [operandSources_dash, List.mem_append, ih, List.mem_cons]
      have hnamed : ⟨some path, text⟩ ∉ (stdin.map (Source.mk none)).toList := by
        cases stdin <;> simp
      constructor
      · rintro (h | ⟨hp, h⟩)
        · exact absurd h hnamed
        · exact ⟨.inr hp, h⟩
      · rintro ⟨hp, h⟩
        exact .inr ⟨hp.resolve_left h.1, h⟩
    · cases hread : v.files.read? operand with
      | none =>
        rw [operandSources_missing hdash hread, ih, List.mem_cons]
        have hmissing : path = operand → ¬ (v.files.read? path).map File.content = some text := by
          rintro rfl
          simp [hread]
        constructor
        · rintro ⟨hp, h⟩
          exact ⟨.inr hp, h⟩
        · rintro ⟨hp, h⟩
          exact ⟨hp.resolve_left (fun he => hmissing he h.2), h⟩
      | some file =>
        rw [operandSources_file hdash hread, List.mem_cons, ih, List.mem_cons]
        have hsource : (⟨some path, text⟩ : Source) = ⟨some operand, file.content⟩ ↔
            path = operand ∧ (v.files.read? path).map File.content = some text := by
          rw [Source.mk.injEq, Option.some.injEq, and_congr_right_iff]
          rintro rfl
          rw [hread, Option.map_some, Option.some.injEq, eq_comm]
        constructor
        · rintro (h | ⟨hp, h⟩)
          · obtain ⟨rfl, hcontent⟩ := hsource.1 h
            exact ⟨.inl rfl, hdash, hcontent⟩
          · exact ⟨.inr hp, h⟩
        · rintro ⟨hp | hp, h⟩
          · exact .inl (hsource.2 ⟨hp, h.2⟩)
          · exact .inr ⟨hp, h⟩

theorem mem_sources_iff :
    ⟨some path, text⟩ ∈ (v.sources cmd operands stdin).1 ↔
      path ∈ operands ∧ path ≠ "-" ∧ (v.files.read? path).map File.content = some text := by
  unfold sources
  split
  · rename_i hall
    have hdash : path ∈ operands → path = "-" :=
      fun hp => of_decide_eq_true (List.all_eq_true.1 hall path hp)
    refine iff_of_false ?_ (fun h => h.2.1 (hdash h.1))
    cases stdin <;> simp
  · exact mem_operandSources_iff

end View

namespace Command.Sed

def withoutSuffix (o : Options) : Options :=
  if o.has "in-place" && o.operands.head? = some "" then { o with operands := o.operands.tail }
  else o

theorem value?_withoutSuffix (o : Options) (name : String) :
    (withoutSuffix o).value? name = o.value? name := by
  unfold withoutSuffix
  split <;> rfl

theorem operands_withoutSuffix (o : Options) :
    (if o.has "in-place" && o.operands.head? = some "" then o.operands.tail else o.operands) =
      (withoutSuffix o).operands := by
  unfold withoutSuffix
  split <;> rfl

variable {p : Program} {s : FileStore} {sources : List Source}

def Program.putBack (p : Program) (s : FileStore) (source : Source) : FileStore :=
  match source.name with
  | none => s
  | some path => if p.apply source.text = source.text then s else (s.write path (p.apply source.text)).2

theorem run_editSource {source : Source}
    (h : ∀ path ∈ source.name, ∃ key, Path.normalize path = .ok key) :
    ∃ r, Script.run s (editSource p true source).run = (.ok r, p.putBack s source) := by
  obtain ⟨name, text⟩ := source
  cases name with
  | none => exact ⟨_, rfl⟩
  | some path =>
    obtain ⟨key, hn⟩ := h path rfl
    simp only [editSource, Program.putBack, Bool.not_true, Bool.false_eq_true, if_false]
    split
    · exact ⟨_, rfl⟩
    · have hwrite : Script.run s (ExceptT.mk (Script.write path (p.apply text)) :
          Attempt Bool).run = (.ok (!s.files.contains key), (s.write path (p.apply text)).2) := by
        change s.write path (p.apply text) = _
        rw [FileStore.write_of_normalize hn]
      have hrun : Script.run s (discard (ExceptT.mk (Script.write path (p.apply text)) :
          Attempt Bool)).run = (.ok (), (s.write path (p.apply text)).2) := by
        rw [Attempt.discard_eq]
        exact Attempt.run_bind_of_ok hwrite _
      exact ⟨{}, Attempt.run_bind_of_ok hrun _⟩

theorem run_forEach_editSource
    (h : ∀ source ∈ sources, ∀ path ∈ source.name, ∃ key, Path.normalize path = .ok key) :
    ∃ r, Script.run s (Report.forEach (editSource p true) sources).run =
      (.ok r, sources.foldl p.putBack s) := by
  induction sources generalizing s with
  | nil => exact ⟨_, rfl⟩
  | cons source sources ih =>
    obtain ⟨hsource, hsources⟩ := List.forall_mem_cons.1 h
    obtain ⟨r, hr⟩ := run_editSource (p := p) (s := s) hsource
    obtain ⟨r', hr'⟩ := ih (s := p.putBack s source) hsources
    refine ⟨r ++ r', ?_⟩
    rw [Report.forEach, Attempt.run_bind_of_ok hr, Attempt.run_bind_of_ok hr']
    rfl

theorem run_dispatch_in_place {args : List String} {stdin : Option String} {e : String}
    {files : List String} (hplace : (table.parse args).has "in-place" = true)
    (hgives : Gives (withoutSuffix (table.parse args)) e files) (hp : Program.ofString e = .ok p)
    (hkeys : ∀ source ∈ (s.view.sources "sed" files stdin).1, ∀ path ∈ source.name,
      ∃ key, Path.normalize path = .ok key) :
    ((dispatch "sed" args stdin).run s).2 =
      (s.view.sources "sed" files stdin).1.foldl p.putBack s := by
  have hrun : ∃ o, Script.run s (run args stdin).run =
      (.ok o, (s.view.sources "sed" files stdin).1.foldl p.putBack s) := by
    unfold run
    dsimp only
    rw [operands_withoutSuffix, hplace]
    have hedit : ∃ o, Script.run s (if files.isEmpty then
        (pure (.failure "sed: -i requires a file operand") : Attempt Outcome)
      else do
        let v ← Attempt.read id
        let report ← Report.forEach (editSource p true) (v.sources "sed" files stdin).1
        pure ((v.sources "sed" files stdin).2 ++ report).outcome).run =
          (.ok o, (s.view.sources "sed" files stdin).1.foldl p.putBack s) := by
      split
      · rename_i hempty
        rw [List.isEmpty_iff.1 hempty]
        cases stdin <;> exact ⟨_, rfl⟩
      · obtain ⟨report, hreport⟩ := run_forEach_editSource hkeys
        rw [Attempt.run_read_bind, id, Attempt.run_bind_of_ok hreport]
        exact ⟨_, rfl⟩
    rcases hgives with ⟨hvalue, hoperands⟩ | ⟨hvalue, hoperands⟩
    all_goals
      rw [value?_withoutSuffix] at hvalue
      simp only [hvalue, hoperands, hp]
      exact hedit
  obtain ⟨o, ho⟩ := hrun
  exact congrArg Prod.snd (run_dispatch_of_ok (b := .sed) ho)

section Contents

variable {source : Source} {key text : String}

theorem get?_putBack (h : ∀ path ∈ source.name, Path.normalize path ≠ .ok key) :
    (p.putBack s source).files.get? key = s.files.get? key := by
  unfold Program.putBack
  split
  · rfl
  · rename_i path hname
    split
    · rfl
    · rw [FileStore.write]
      split
      · rename_i key' hn
        have hne : key' ≠ key := by
          rintro rfl
          exact h path hname hn
        exact (SortedMap.get?_insert _ _ _ _).trans (if_neg hne)
      · rfl

theorem content_putBack {path : String} (hname : source.name = some path)
    (hn : Path.normalize path = .ok key)
    (h : (s.files.get? key).map File.content = some source.text ∨
      (s.files.get? key).map File.content = some (p.apply source.text)) :
    ((p.putBack s source).files.get? key).map File.content = some (p.apply source.text) := by
  unfold Program.putBack
  rw [hname]
  dsimp only
  split
  · rename_i hsame
    rcases h with h | h
    · rw [h, hsame]
    · exact h
  · rw [FileStore.write_of_normalize hn]
    exact congrArg (Option.map File.content)
      ((SortedMap.get?_insert _ _ _ _).trans (if_pos rfl))

/-- A file that is named has the edited text in the end. That it may be named twice does no harm: the
texts are read before the first is put back. -/
theorem content_foldl_putBack
    (htext : ∀ source ∈ sources, ∀ path ∈ source.name, Path.normalize path = .ok key →
      source.text = text)
    (h : (s.files.get? key).map File.content = some (p.apply text) ∨
      (s.files.get? key).map File.content = some text ∧
        ∃ source ∈ sources, ∃ path ∈ source.name, Path.normalize path = .ok key) :
    ((sources.foldl p.putBack s).files.get? key).map File.content = some (p.apply text) := by
  induction sources generalizing s with
  | nil =>
    rcases h with h | ⟨-, source, hmem, -⟩
    · exact h
    · exact absurd hmem List.not_mem_nil
  | cons source sources ih =>
    obtain ⟨hsource, hsources⟩ := List.forall_mem_cons.1 htext
    refine ih hsources ?_
    by_cases hnamed : ∃ path ∈ source.name, Path.normalize path = .ok key
    · obtain ⟨path, hname, hn⟩ := hnamed
      obtain rfl := hsource path hname hn
      exact .inl (content_putBack hname hn (h.symm.imp And.left id))
    · have hother : ∀ path ∈ source.name, Path.normalize path ≠ .ok key :=
        fun path hname hn => hnamed ⟨path, hname, hn⟩
      rw [get?_putBack hother]
      refine h.imp id (fun ⟨hcontent, other, hmem, hpath⟩ => ⟨hcontent, other, ?_, hpath⟩)
      rcases List.mem_cons.1 hmem with rfl | hmem
      · exact absurd hpath hnamed
      · exact hmem

theorem foldl_putBack_eq_self
    (h : ∀ source ∈ sources, source.name.isSome = true → p.apply source.text = source.text) :
    sources.foldl p.putBack s = s := by
  induction sources with
  | nil => rfl
  | cons source sources ih =>
    obtain ⟨hsource, hsources⟩ := List.forall_mem_cons.1 h
    have hself : p.putBack s source = s := by
      unfold Program.putBack
      split
      · rfl
      · rename_i path hname
        exact if_pos (hsource (by rw [hname]; rfl))
    rw [List.foldl_cons, hself, ih hsources]

end Contents

def named? (s : FileStore) (operand : String) : Option String :=
  if operand = "-" then none else (s.read? operand).map File.content

section Named

variable {path key text : String} {files : List String} {stdin : Option String}

theorem named?_of_normalize (hdash : path ≠ "-") (hn : Path.normalize path = .ok key)
    (s : FileStore) : named? s path = (s.files.get? key).map File.content := by
  rw [named?, if_neg hdash, FileStore.read?, FileMap.read?, hn]

theorem exists_key_of_named? (h : named? s path = some text) :
    path ≠ "-" ∧ ∃ key, Path.normalize path = .ok key := by
  rw [named?] at h
  split at h
  · cases h
  · rename_i hdash
    obtain ⟨file, hfile, -⟩ := Option.map_eq_some_iff.1 h
    obtain ⟨key, -, hn⟩ := FileMap.exists_key_of_read? hfile
    exact ⟨hdash, key, hn⟩

theorem mem_sources_iff_named? :
    ⟨some path, text⟩ ∈ (s.view.sources "sed" files stdin).1 ↔
      path ∈ files ∧ named? s path = some text := by
  rw [View.mem_sources_iff, named?]
  refine and_congr_right (fun _ => ?_)
  split
  · rename_i hdash
    simp [hdash]
  · rename_i hdash
    exact and_iff_right hdash

theorem named?_run_in_place (s : FileStore) (stdin : Option String) {args : List String}
    {e : String} (hplace : (table.parse args).has "in-place" = true)
    (hgives : Gives (withoutSuffix (table.parse args)) e files) (hp : Program.ofString e = .ok p) :
    let t := ((dispatch "sed" args stdin).run s).2
    (∀ path ∈ files, ∀ text ∈ named? s path, named? t path = some (p.apply text)) ∧
      ((∀ path ∈ files, ∀ text ∈ named? s path, p.apply text = text) → t = s) := by
  intro t
  have hfound : ∀ source ∈ (s.view.sources "sed" files stdin).1, ∀ path ∈ source.name,
      path ∈ files ∧ named? s path = some source.text := by
    rintro ⟨name, text⟩ hmem path rfl
    exact mem_sources_iff_named?.1 hmem
  have ht : t = (s.view.sources "sed" files stdin).1.foldl p.putBack s :=
    run_dispatch_in_place hplace hgives hp
      (fun source hmem path hname => (exists_key_of_named? (hfound source hmem path hname).2).2)
  constructor
  · intro path hpath text htext
    obtain ⟨hdash, key, hn⟩ := exists_key_of_named? htext
    have hbefore : (s.files.get? key).map File.content = some text :=
      (named?_of_normalize hdash hn s).symm.trans htext
    have hsame : ∀ source ∈ (s.view.sources "sed" files stdin).1, ∀ path' ∈ source.name,
        Path.normalize path' = .ok key → source.text = text := by
      intro source hmem path' hname hn'
      have hnamed := (hfound source hmem path' hname).2
      rw [named?_of_normalize (exists_key_of_named? hnamed).1 hn', hbefore] at hnamed
      exact (Option.some.inj hnamed).symm
    rw [named?_of_normalize hdash hn, ht]
    exact content_foldl_putBack hsame
      (.inr ⟨hbefore, _, mem_sources_iff_named?.2 ⟨hpath, htext⟩, path, rfl, hn⟩)
  · intro hsame
    refine ht.trans (foldl_putBack_eq_self (fun source hmem hname => ?_))
    obtain ⟨path, hname⟩ := Option.isSome_iff_exists.1 hname
    obtain ⟨hpath, htext⟩ := hfound source hmem path hname
    exact hsame path hpath _ htext

end Named

theorem in_place_misses {r : Regex} (hr : p.regex? = some r) :
    (∀ text, r.Misses text →
      p.apply text = Text.rejoined text ∧ (p.apply text = text ↔ Text.KeepsEnds text)) ∧
    ∀ (s : FileStore) (args : List String) (stdin : Option String) (e : String)
      (files : List String), (table.parse args).has "in-place" = true →
      Gives (withoutSuffix (table.parse args)) e files → Program.ofString e = .ok p →
      (∀ path ∈ files, ∀ text ∈ named? s path, r.Misses text) →
      let t := ((dispatch "sed" args stdin).run s).2
      (∀ path ∈ files, ∀ text ∈ named? s path, named? t path = some (Text.rejoined text)) ∧
        (t.files = s.files ∧ t.history = s.history ↔
          ∀ path ∈ files, ∀ text ∈ named? s path, Text.KeepsEnds text) := by
  refine ⟨fun text hmiss => ?_, fun s args stdin e files hplace hgives hp hmiss => ?_⟩
  · rw [apply_of_misses hr hmiss]
    exact ⟨rfl, Text.rejoined_eq_self_iff⟩
  · obtain ⟨hafter, hself⟩ := named?_run_in_place s stdin hplace hgives hp
    intro t
    have hrejoined : ∀ path ∈ files, ∀ text ∈ named? s path,
        named? t path = some (Text.rejoined text) := by
      intro path hpath text htext
      rw [← apply_of_misses hr (hmiss path hpath text htext)]
      exact hafter path hpath text htext
    refine ⟨hrejoined, ?_, fun hkeeps => ?_⟩
    · rintro ⟨hfiles, -⟩ path hpath text htext
      have hsame : named? t path = named? s path := by
        rw [named?, named?, FileStore.read?, FileStore.read?, hfiles]
      rw [hrejoined path hpath text htext, htext] at hsame
      exact Text.rejoined_eq_self_iff.1 (Option.some.inj hsame)
    · have ht : t = s := hself (fun path hpath text htext => by
        rw [apply_of_misses hr (hmiss path hpath text htext)]
        exact Text.rejoined_eq_self_iff.2 (hkeeps path hpath text htext))
      rw [ht]
      exact ⟨rfl, rfl⟩

theorem in_place_misses_carriage_return :
    let s := ((FileStore.new ⟨0⟩).seed [("f", "a\r\nb\n"), ("g", "b\n")]).2
    let t := ((dispatch "sed" ["-i", "", "s/x/y/", "g", "./f"] none).run s).2
    named? t "./f" = some "a\nb\n" ∧ named? t "g" = some "b\n" ∧
      ¬ (t.files = s.files ∧ t.history = s.history) := by
  intro s t
  obtain ⟨r, hr⟩ : ∃ r, Regex.compileLenient ['x'] false = some r :=
    Option.isSome_iff_exists.1 (by decide +kernel)
  have hp : Program.ofString "s/x/y/" = .ok (.substitute r ['y'] false) := by
    have hexpression : "s/x/y/".toList = ['s', '/', 'x', '/', 'y', '/'] := by decide +kernel
    have hdelimiter : isDelimiter '/' = true := by decide +kernel
    have hfields : fields '/' ['x', '/', 'y', '/'] = [['x'], ['y'], []] := by decide +kernel
    have hflags : flags false false [] = .ok (false, false) := rfl
    have htemplate : template ['y'] = ['y'] := by decide +kernel
    simp only [Program.ofString, hexpression, hdelimiter, if_true, substitution, hfields, hflags, hr,
      htemplate]
  have hf : named? s "./f" = some "a\r\nb\n" := by decide +kernel
  have hg : named? s "g" = some "b\n" := by decide +kernel
  have hmiss : ∀ path ∈ ["g", "./f"], ∀ text ∈ named? s path, r.Misses text := by
    have hmiss : ∀ r ∈ Regex.compileLenient ['x'] false,
        ∀ path ∈ ["g", "./f"], ∀ text ∈ named? s path, r.Misses text := by decide +kernel
    exact hmiss r hr
  obtain ⟨hnamed, hself⟩ := (in_place_misses (r := r) rfl).2 s
    ["-i", "", "s/x/y/", "g", "./f"] none "s/x/y/" ["g", "./f"] (by decide +kernel)
    (.inr (by decide +kernel)) hp hmiss
  refine ⟨?_, ?_, fun h => ?_⟩
  · rw [hnamed "./f" (by simp) _ hf]
    decide +kernel
  · rw [hnamed "g" (by simp) _ hg]
    decide +kernel
  · exact absurd (hself.1 h "./f" (by simp) _ hf) (by decide +kernel)

theorem in_place_loses_line_ends :
    let s := ((FileStore.new ⟨0⟩).seed [("f", "\n"), ("g", "a\r\n")]).2
    let t := ((dispatch "sed" ["-i", "s/x/y/", "f", "g"] none).run s).2
    (∃ p ∈ (Program.ofString "s/x/y/").toOption, ∃ r ∈ p.regex?, ∀ text ∈ ["\n", "a\r\n"],
      r.Misses text ∧ p.apply text ≠ text) ∧
    t.files.contents.entries = [("f", ""), ("g", "a\n")] ∧
      s.history.snapshots.length = 0 ∧ t.history.snapshots.length = 2 := by
  decide +kernel

end Command.Sed

end ProjectShell
