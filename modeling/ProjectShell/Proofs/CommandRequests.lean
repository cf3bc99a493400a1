import ProjectShell.Command.Builtin
import ProjectShell.Proofs.Requests

namespace ProjectShell

namespace OptionTable

theorem operands_cluster (t : OptionTable) (o : Options) (cs : List Char) :
    (t.cluster o cs).1.operands = o.operands := by
  induction cs generalizing o with
  | nil => rfl
  | cons c cs ih =>
    rw [cluster]
    split
    · split
      · split <;> rfl
      · exact ih _
    · exact ih _

theorem operands_argument_sublist (t : OptionTable) (o : Options) (arg : String) :
    (t.argument o arg).1.operands.Sublist (o.operands ++ [arg]) := by
  have hsame := List.sublist_append_left o.operands [arg]
  rw [argument]
  split
  · dsimp only
    split
    · split
      · split <;> exact hsame
      · exact hsame
    · exact hsame
  · split
    · split
      · exact hsame
      · rwa [operands_cluster]
    · rwa [operands_cluster]
  · exact List.Sublist.refl _

theorem operands_parseFrom_sublist (t : OptionTable) (o : Options) (args : List String) :
    (t.parseFrom o args).operands.Sublist (o.operands ++ args) := by
  have hcons {o o' : Options} {arg : String} {next : Option String} (rest : List String)
      (heq : t.argument o arg = (o', next)) :
      (o'.operands ++ rest).Sublist (o.operands ++ arg :: rest) := by
    have h := operands_argument_sublist t o arg
    rw [heq] at h
    simpa using h.append (List.Sublist.refl rest)
  fun_induction parseFrom t o args with
  | case1 o => simp
  | case2 o rest => exact (List.sublist_cons_self _ _).append_left _
  | case3 o arg rest _ o' heq ih => exact ih.trans (hcons rest heq)
  | case4 o arg _ o' name heq => simpa using hcons [] heq
  | case5 o arg _ o' name heq v rest ih =>
    have hvalue : (o'.operands ++ rest).Sublist (o'.operands ++ v :: rest) :=
      (List.sublist_cons_self v rest).append_left _
    exact (ih.trans hvalue).trans (hcons (v :: rest) heq)

theorem operands_parse_sublist (t : OptionTable) (args : List String) :
    (t.parse args).operands.Sublist args :=
  operands_parseFrom_sublist t {} args

theorem mem_operands_parse {t : OptionTable} {args : List String} {a : String}
    (h : a ∈ (t.parse args).operands) : a ∈ args :=
  (operands_parse_sublist t args).subset h

end OptionTable

namespace Command

variable {Seen : View → Prop} {Asked : Edit → Prop}

theorem asks_deleteAll {paths : List String} (h : ∀ path ∈ paths, Asked (.delete path)) :
    Attempt.Asks Seen Asked (fun _ => True) (deleteAll paths) := by
  induction paths with
  | nil => exact Attempt.asks_done _
  | cons path paths ih =>
    obtain ⟨hp, hps⟩ := List.forall_mem_cons.1 h
    rw [deleteAll, Attempt.asks_bind]
    exact (Attempt.asks_mk (Script.asks_edit hp (fun _ => trivial))).mono (fun _ _ => ih hps)

theorem asks_rmOperand (o : Options) {operand : String} (hfile : Asked (.delete operand))
    (hdir : ∀ v, Seen v → ∀ dir, Path.normalizeDir operand = .ok dir → dir ≠ "" →
      ∀ path ∈ v.files.pathsUnder dir, Asked (.delete path)) :
    Attempt.Asks Seen Asked (fun _ => True) (rmOperand o operand) := by
  rw [rmOperand, Attempt.asks_bind]
  refine Attempt.asks_read (f := View.files) (fun v hv => ?_)
  split
  · rw [Attempt.asks_bind]
    exact (Attempt.asks_mk (Script.asks_edit hfile (fun _ => trivial))).mono
      (fun _ _ => Attempt.asks_done _)
  · dsimp only
    split
    · exact Attempt.asks_done _
    · rename_i dir hn
      split
      · exact Attempt.asks_done _
      · rename_i hne
        split
        · split
          · rw [Attempt.asks_bind]
            have hroot : dir ≠ "" := fun h => hne (h ▸ rfl)
            exact (asks_deleteAll (hdir v hv dir hn hroot)).mono (fun _ _ => Attempt.asks_done _)
          · exact Attempt.asks_done _
        · exact Attempt.asks_done _

theorem asks_rm {args : List String} (hfile : ∀ a ∈ args, Asked (.delete a))
    (hdir : ∀ v, Seen v → ∀ a ∈ args, ∀ dir, Path.normalizeDir a = .ok dir → dir ≠ "" →
      ∀ path ∈ v.files.pathsUnder dir, Asked (.delete path)) :
    Attempt.Asks Seen Asked (fun _ => True) (rm args) := by
  rw [rm]
  split
  · exact Attempt.asks_done _
  · rw [Attempt.asks_bind]
    refine (Attempt.asks_forEach ?_).mono (fun _ _ => Attempt.asks_done _)
    intro a ha
    have hm := OptionTable.mem_operands_parse ha
    exact asks_rmOperand _ (hfile a hm) (fun v hv => hdir v hv a hm)

namespace Transfer

def Target (args : List String) (source target : String) : Prop :=
  target ∈ args ∨ ∃ destination ∈ args, target = inside destination source

inductive Pair (Seen : View → Prop) (args : List String) : String → String → Prop
  | file {source target : String} (hs : source ∈ args) (ht : Target args source target) :
      Pair Seen args source target
  | below {v : View} {source dir path target : String} (hv : Seen v) (hs : source ∈ args)
      (hn : Path.normalizeDir source = .ok dir) (hne : dir ≠ "")
      (hp : path ∈ v.files.pathsUnder dir) (ht : Target args source target) :
      Pair Seen args path
        (String.ofList (Path.trimSlashes target.toList ++ path.toList.drop dir.length))

theorem asks_fileReported (t : Transfer) {source target : String}
    (h : Asked (.rename source target) ∧ ∀ content, Asked (.write target content)) :
    Script.Asks Seen Asked (fun _ => True) (t.fileReported source target) := by
  rw [fileReported, Script.asks_bind]
  suffices hfile : Script.Asks Seen Asked (fun _ => True) (t.file source target) by
    refine hfile.mono (fun r _ => ?_)
    cases r <;> trivial
  cases t with
  | move => exact Script.asks_edit h.1 (fun _ => trivial)
  | copy =>
    rw [file, Script.asks_bind]
    refine (Script.asks_read View.files).2 (fun v _ => ?_)
    split
    · trivial
    · rw [Script.asks_bind]
      refine Script.asks_edit (h.2 _) (fun r => ?_)
      split <;> trivial

theorem asks_operand (t : Transfer) (recursive : Bool) {args : List String}
    {source target : String} (hs : source ∈ args) (ht : Target args source target)
    (h : ∀ source target, Pair Seen args source target →
      Asked (.rename source target) ∧ ∀ content, Asked (.write target content)) :
    Script.Asks Seen Asked (fun _ => True) (t.operand recursive source target) := by
  rw [operand, Script.asks_bind]
  refine (Script.asks_read id).2 (fun v hv => ?_)
  rw [id]
  split
  · exact asks_fileReported t (h _ _ (.file hs ht))
  · split
    · trivial
    · rename_i dir hd
      have hn : Path.normalizeDir source = .ok dir := by
        rw [View.existingDir?] at hd
        split at hd
        · rename_i key hk
          split at hd
          · cases hd
            exact hk
          · cases hd
        · cases hd
      split
      · trivial
      · rename_i hne
        have hroot : dir ≠ "" := fun h => hne (h ▸ rfl)
        split
        · trivial
        · refine Script.asks_forEach (fun path hp => ?_)
          exact asks_fileReported t (h _ _ (.below hv hs hn hroot hp ht))

theorem asks_run (t : Transfer) {args : List String}
    (h : ∀ source target, Pair Seen args source target →
      Asked (.rename source target) ∧ ∀ content, Asked (.write target content)) :
    Script.Asks Seen Asked (fun _ => True) (t.run args) := by
  rw [run]
  dsimp only
  split
  · trivial
  · rename_i destination hd
    have hda := OptionTable.mem_operands_parse (List.mem_of_getLast? hd)
    split
    · trivial
    · rw [Script.asks_bind]
      refine (Script.asks_read View.files).2 (fun v hv => ?_)
      rw [Script.asks_bind]
      refine (Script.asks_forEach (fun source hs => ?_)).mono (fun _ _ => trivial)
      have hsa := OptionTable.mem_operands_parse (List.dropLast_subset _ hs)
      refine asks_operand t _ hsa ?_ h
      split
      · exact .inr ⟨destination, hda, rfl⟩
      · exact .inl hda

end Transfer

theorem asks_touch {args : List String} (h : ∀ a ∈ args, Asked (.write a "")) :
    Script.Asks Seen Asked (fun _ => True) (touch args) := by
  rw [touch]
  split
  · trivial
  · rw [Script.asks_bind]
    refine (Script.asks_forEach (fun a ha => ?_)).mono (fun _ _ => trivial)
    rw [touchOperand, Script.asks_bind]
    refine (Script.asks_read View.files).2 (fun v _ => ?_)
    split
    · trivial
    · rw [Script.asks_bind]
      refine Script.asks_edit (h a (List.mem_filter.1 ha |>.1)) (fun r => ?_)
      split <;> trivial

theorem asks_tee {args : List String} (stdin : Option String)
    (hwrite : ∀ a ∈ args, ∀ text, Asked (.write a text))
    (happend : ∀ a ∈ args, ∀ text, Asked (.append a text)) :
    Script.Asks Seen Asked (fun _ => True) (tee args stdin) := by
  rw [tee, Script.asks_bind]
  refine (Script.asks_forEach (fun a ha => ?_)).mono (fun _ _ => trivial)
  have hm := OptionTable.mem_operands_parse ha
  rw [teeOperand]
  split
  · rw [Script.asks_bind]
    refine (Script.asks_appendOutput (happend a hm)).mono (fun r _ => ?_)
    cases r <;> trivial
  · rw [Script.asks_bind]
    refine Script.asks_edit (hwrite a hm _) (fun r => ?_)
    cases r <;> trivial

end Command

theorem View.mem_operandSources {v : View} {cmd : String} {stdin : Option String}
    {operands : List String} {s : Source} (h : s ∈ (v.operandSources cmd stdin operands).1)
    {path : String} (hp : s.name = some path) :
    path ∈ operands ∧ v.readOperand cmd path = .ok s.text := by
  induction operands with
  | nil => simp [operandSources] at h
  | cons operand rest ih =>
    have hrest (h : s ∈ (v.operandSources cmd stdin rest).1) :
        path ∈ operand :: rest ∧ v.readOperand cmd path = .ok s.text :=
      ⟨List.mem_cons_of_mem _ (ih h).1, (ih h).2⟩
    simp only [operandSources] at h
    split at h
    · rcases List.mem_append.1 h with h | h
      · cases stdin with
        | none => simp at h
        | some text =>
          have hs : s = ⟨none, text⟩ := by simpa using h
          rw [hs] at hp
          cases hp
      · exact hrest h
    · split at h
      · rename_i text hread
        rcases List.mem_cons.1 h with rfl | h
        · cases hp
          exact ⟨List.mem_cons_self, hread⟩
        · exact hrest h
      · exact hrest h

theorem View.mem_sources {v : View} {cmd : String} {stdin : Option String} {operands : List String}
    {s : Source} (h : s ∈ (v.sources cmd operands stdin).1) {path : String}
    (hp : s.name = some path) : path ∈ operands ∧ v.readOperand cmd path = .ok s.text := by
  unfold sources at h
  split at h
  · split at h
    · rw [List.mem_singleton.1 h] at hp
      cases hp
    · simp at h
  · exact mem_operandSources h hp

namespace Command

variable {Seen : View → Prop} {Asked : Edit → Prop}

namespace Sed

theorem asks_editSource (p : Program) (inPlace : Bool) {s : Source}
    (h : ∀ path, s.name = some path → ∀ text, Asked (.write path text)) :
    Attempt.Asks Seen Asked (fun _ => True) (editSource p inPlace s) := by
  rw [editSource]
  split
  · exact Attempt.asks_done _
  · rename_i path hp
    split
    · exact Attempt.asks_done _
    · split
      · exact Attempt.asks_done _
      · rw [Attempt.asks_bind]
        refine (Attempt.asks_discard (Attempt.asks_mk ?_)).mono
          (fun _ _ => Attempt.asks_done _)
        exact Script.asks_edit (h path hp _) (fun _ => trivial)

theorem asks_run {args : List String} (stdin : Option String)
    (h : ∀ a ∈ args, ∀ text, Asked (.write a text)) :
    Attempt.Asks Seen Asked (fun _ => True) (run args stdin) := by
  rw [run]
  dsimp only
  split
  · exact Attempt.asks_done _
  · rename_i expression operands hsplit
    have hsub : ∀ a ∈ operands, a ∈ args := by
      have hargs : ∀ a ∈ (if (table.parse args).has "in-place" &&
          (table.parse args).operands.head? = some "" then (table.parse args).operands.tail
        else (table.parse args).operands), a ∈ args := by
        intro a ha
        split at ha
        · exact OptionTable.mem_operands_parse (List.mem_of_mem_tail ha)
        · exact OptionTable.mem_operands_parse ha
      generalize (if (table.parse args).has "in-place" &&
          (table.parse args).operands.head? = some "" then (table.parse args).operands.tail
        else (table.parse args).operands) = rest at hsplit hargs
      split at hsplit
      · cases hsplit
        exact hargs
      · cases hsplit
        exact fun a ha => hargs a (List.mem_cons_of_mem _ ha)
      · cases hsplit
    split
    · exact Attempt.asks_done _
    · split
      · exact Attempt.asks_done _
      · rw [Attempt.asks_bind]
        refine Attempt.asks_read (f := id) (fun v hv => ?_)
        rw [Attempt.asks_bind]
        refine (Attempt.asks_forEach (fun s hs => ?_)).mono
          (fun _ _ => Attempt.asks_done _)
        exact asks_editSource _ _ (fun path hp => h path (hsub path (View.mem_sources hs hp).1))

end Sed

namespace Npm

theorem asks_installOne (installed : SortedMap String) (s : String)
    (h : ∀ name version, Asked (.addDependency name version)) :
    Attempt.Asks Seen Asked (fun _ => True) (installOne installed s) := by
  rw [installOne]
  dsimp only
  split
  · exact Attempt.asks_done _
  · split
    · exact Attempt.asks_done _
    · rw [Attempt.asks_bind]
      refine (Attempt.asks_mk (Script.asks_edit (h _ _) (fun _ => trivial))).mono (fun r _ => ?_)
      split <;> exact Attempt.asks_done _

theorem asks_uninstallOne (s : String) (h : ∀ name, Asked (.removeDependency name)) :
    Attempt.Asks Seen Asked (fun _ => True) (uninstallOne s) := by
  rw [uninstallOne, Attempt.asks_bind]
  refine (Attempt.asks_mk (Script.asks_edit (h _) (fun _ => trivial))).mono (fun r _ => ?_)
  split <;> exact Attempt.asks_done _

theorem asks_reported {x : Attempt Report} (h : Attempt.Asks Seen Asked (fun _ => True) x) :
    Script.Asks Seen Asked (fun _ => True) (reported x) := by
  rw [reported, Script.asks_bind]
  refine Script.Asks.mono h (fun r _ => ?_)
  split <;> trivial

theorem asks_run (args : List String) (hadd : ∀ name version, Asked (.addDependency name version))
    (hremove : ∀ name, Asked (.removeDependency name)) :
    Script.Asks Seen Asked (fun _ => True) (run args) := by
  have hinstall (packages : List String) :
      Attempt.Asks Seen Asked (fun _ => True) (install packages) := by
    rw [install, Attempt.asks_bind]
    refine Attempt.asks_read (f := fun v => v.files.dependencies) (fun v _ => ?_)
    split
    · exact Attempt.asks_done _
    · exact Attempt.asks_forEach (fun s _ => asks_installOne _ s hadd)
  have huninstall (packages : List String) :
      Attempt.Asks Seen Asked (fun _ => True) (uninstall packages) := by
    rw [uninstall]
    split
    · exact Attempt.asks_done _
    · exact Attempt.asks_forEach (fun s _ => asks_uninstallOne s hremove)
  unfold run
  split
  · trivial
  · dsimp only
    split
    · exact asks_reported (hinstall _)
    · exact asks_reported (hinstall _)
    · exact asks_reported (hinstall _)
    · exact asks_reported (huninstall _)
    · exact asks_reported (huninstall _)
    · exact asks_reported (huninstall _)
    · exact asks_reported (huninstall _)
    · exact fun _ _ => trivial
    · exact fun _ _ => trivial
    · trivial

end Npm

theorem asks_errors (args : List String) (h : Asked .clearErrors) :
    Script.Asks Seen Asked (fun _ => True) (errors args) := by
  rw [errors, Script.asks_bind]
  refine (Script.asks_read id).2 (fun v _ => ?_)
  split
  · split <;> trivial
  · rw [Script.asks_bind]
    exact Script.asks_edit h (fun _ => trivial)
  · trivial

theorem asks_plan (args : List String) (h : ∀ id status, Asked (.setTaskStatus id status)) :
    Script.Asks Seen Asked (fun _ => True) (plan args) := by
  unfold plan
  split
  · exact fun _ _ => trivial
  · split
    · trivial
    · trivial
    · rw [Script.asks_bind]
      refine Script.asks_edit (h _ _) (fun r => ?_)
      split <;> trivial

namespace Xargs

theorem asks_runAll {inner : String → List String → Script Outcome}
    (h : ∀ name args, Script.Asks Seen Asked (fun _ => True) (inner name args))
    (all : List (List String)) : Script.Asks Seen Asked (fun _ => True) (runAll inner all) := by
  induction all with
  | nil => trivial
  | cons words rest ih =>
    cases words with
    | nil => exact ih
    | cons name args =>
      rw [runAll, Script.asks_bind]
      refine (h name args).mono (fun a _ => ?_)
      rw [Script.asks_bind]
      exact ih.mono (fun _ _ => trivial)

theorem asks_run {inner : String → List String → Script Outcome} (args : List String)
    (stdin : Option String)
    (h : ∀ name args, Script.Asks Seen Asked (fun _ => True) (inner name args)) :
    Script.Asks Seen Asked (fun _ => True) (run inner args stdin) := by
  rw [run]
  split
  · trivial
  · rw [Script.asks_bind]
    refine (Script.asks_read View.maxInvocations).2 (fun v _ => ?_)
    dsimp only
    split
    · trivial
    · exact asks_runAll h _

end Xargs

end Command

namespace Builtin

variable {Seen : View → Prop} {Asked : Edit → Prop}

def writers : List Builtin := [npm, rm, mv, cp, touch, tee, sed]

theorem asks_run_of_not_mem_writers {b : Builtin} (hb : b ∉ writers) (hu : b ≠ undo)
    (hx : b ≠ xargs) (inner : String → List String → Script Outcome) (args : List String)
    (stdin : Option String) (herrors : Asked .clearErrors)
    (hplan : ∀ id status, Asked (.setTaskStatus id status)) :
    Attempt.Asks Seen Asked (fun _ => True) (b.run inner args stdin) := by
  cases b
  case errors => exact Attempt.asks_lift (Command.asks_errors args herrors)
  case plan => exact Attempt.asks_lift (Command.asks_plan args hplan)
  case undo => exact absurd rfl hu
  case xargs => exact absurd rfl hx
  case npm | rm | mv | cp | touch | tee | sed => exact absurd (by decide) hb
  case echo | mkdir | cd | true | false | help => exact Attempt.asks_done _
  all_goals exact Attempt.asks_read (fun _ _ => trivial)

theorem asks_run_of_ne_undo {b : Builtin} (hu : b ≠ undo)
    {inner : String → List String → Script Outcome}
    (hinner : b = xargs → ∀ name args,
      Script.Asks Seen (· ≠ .rollback) (fun _ => True) (inner name args))
    (args : List String) (stdin : Option String) :
    Attempt.Asks Seen (· ≠ .rollback) (fun _ => True) (b.run inner args stdin) := by
  by_cases hb : b ∈ writers
  · cases b
    case npm => exact Attempt.asks_lift (Command.Npm.asks_run args (by simp) (by simp))
    case rm => exact Command.asks_rm (by simp) (by simp)
    case mv => exact Attempt.asks_lift (Command.Transfer.asks_run .move (by simp))
    case cp => exact Attempt.asks_lift (Command.Transfer.asks_run .copy (by simp))
    case touch => exact Attempt.asks_lift (Command.asks_touch (by simp))
    case tee => exact Attempt.asks_lift (Command.asks_tee stdin (by simp) (by simp))
    case sed => exact Command.Sed.asks_run stdin (by simp)
    all_goals exact absurd hb (by decide)
  · by_cases hx : b = xargs
    · subst hx
      exact Attempt.asks_lift (Command.Xargs.asks_run args stdin (hinner rfl))
    · exact asks_run_of_not_mem_writers hb hu hx inner args stdin (by simp) (by simp)

end Builtin

theorem asks_guarded {Seen : View → Prop} {Asked : Edit → Prop} {x : Attempt Outcome}
    (name : String) (h : Attempt.Asks Seen Asked (fun _ => True) x) :
    Script.Asks Seen Asked (fun _ => True) (guarded name x) := by
  rw [guarded, Script.asks_bind]
  refine Script.Asks.mono h (fun r _ => ?_)
  split <;> trivial

theorem dispatchInner_name (b : Builtin) (args : List String) :
    dispatchInner b.name args = guarded b.name (b.run (fun _ _ => pure {}) args none) := by
  rw [dispatchInner, dispatchWith, Builtin.ofName?_name]

theorem dispatch_name (b : Builtin) (args : List String) (stdin : Option String) :
    dispatch b.name args stdin = guarded b.name (b.run dispatchInner args stdin) := by
  rw [dispatch, dispatchWith, Builtin.ofName?_name]

theorem guarded_safely (name : String) (x : Script Outcome) :
    guarded name (Attempt.safely x) = x := by
  change (Except.ok <$> x) >>= _ = x
  rw [map_eq_pure_bind, bind_assoc]
  simp only [pure_bind, bind_pure]

theorem dispatch_of_safely {b : Builtin} {args : List String} {stdin : Option String}
    {x : Script Outcome} (h : b.run dispatchInner args stdin = Attempt.safely x) :
    dispatch b.name args stdin = x := by
  rw [dispatch_name, h, guarded_safely]

theorem run_dispatch_of_ok {b : Builtin} {args : List String} {stdin : Option String}
    {o : Outcome} {s t : FileStore}
    (h : Script.run s (b.run dispatchInner args stdin).run = (.ok o, t)) :
    (dispatch b.name args stdin).run s = (o, t) := by
  rw [dispatch_name, guarded, Script.run_bind, h, Script.run_pure]

theorem run_dispatch_read {b : Builtin} {args : List String} {stdin : Option String}
    {f : View → Outcome} (s : FileStore) (h : b.run dispatchInner args stdin = Attempt.read f) :
    (dispatch b.name args stdin).run s = (f s.view, s) :=
  run_dispatch_of_ok (by rw [h, Attempt.run_read])

end ProjectShell
