import ProjectShell.Proofs.Independence
import ProjectShell.Proofs.OutputCuts

namespace ProjectShell

namespace Script

variable {α β : Type} {Q R : α → Prop}

def Always (Q : α → Prop) (x : Script α) : Prop := x.Asks (fun _ => True) (fun _ => True) Q

theorem always_pure {a : α} (h : Q a) : Always Q (pure a) := h

theorem always_read {f : View → α} (h : ∀ v, Q (f v)) : Always Q (read f) := fun v _ => h v

theorem Always.bind {x : Script α} {f : α → Script β} {R : β → Prop} (hx : Always Q x)
    (hf : ∀ a, Q a → Always R (f a)) : Always R (x >>= f) :=
  (asks_bind x f).2 (hx.mono hf)

theorem always_true (x : Script α) : Always (fun _ => True) x := by
  induction x with
  | done a => trivial
  | look k ih => exact fun v _ => ih v
  | edit e k ih => exact ⟨trivial, ih⟩

theorem always_bind (x : Script α) {f : α → Script β} {R : β → Prop}
    (hf : ∀ a, Always R (f a)) : Always R (x >>= f) :=
  (always_true x).bind (fun a _ => hf a)

theorem Always.run {x : Script α} (h : Always Q x) (s : FileStore) : Q (x.run s).1 := by
  induction x generalizing s with
  | done a => exact h
  | look k ih => exact ih s.view (h s.view trivial) s
  | edit e k ih => exact ih (s.apply e).1 (h.2 (s.apply e).1) (s.apply e).2

end Script

namespace Attempt

variable {α β : Type} {Q : α → Prop}

def Always (Q : α → Prop) (x : Attempt α) : Prop := x.Asks (fun _ => True) (fun _ => True) Q

theorem always_pure {a : α} (h : Q a) : Always Q (pure a) := (asks_pure a).2 h

theorem always_safely {x : Script α} (h : x.Always Q) : Always Q (safely x) := asks_lift h

theorem always_read {f : View → α} (h : ∀ v, Q (f v)) : Always Q (read f) :=
  asks_read (fun v _ => h v)

theorem always_bind (x : Attempt α) {f : α → Attempt β} {R : β → Prop}
    (hf : ∀ a, Always R (f a)) : Always R (x >>= f) :=
  (asks_bind x f).2 (Script.Asks.mono (Script.always_true x.run) (fun _ _ a _ => hf a))

end Attempt

namespace Outcome

def IsBinary (o : Outcome) : Prop := o.exitCode = 0 ∨ o.exitCode = 1

theorem isBinary_nothing : IsBinary {} := .inl rfl

theorem isBinary_ok (stdout : String) : (ok stdout).IsBinary := .inl rfl

theorem isBinary_failure (stderr : String) : (failure stderr).IsBinary := .inr rfl

theorem isBinary_outcome (r : Report) : r.outcome.IsBinary :=
  Nat.le_one_iff_eq_zero_or_eq_one.1 r.exitCode_outcome_le_one

end Outcome

open Outcome Script

namespace Command

theorem isBinary_edge (e : Edge) (args : List String) (stdin : Option String) (v : View) :
    (e.run args stdin v).IsBinary := by
  unfold Edge.run
  dsimp only
  split
  · exact isBinary_failure _
  · exact isBinary_outcome _

theorem isBinary_grep (args : List String) (stdin : Option String) (v : View) :
    (Grep.run args stdin v).IsBinary := by
  have hsearch (o : Options) (pattern : String) (targets : List String) :
      (Grep.search o pattern targets stdin v).IsBinary := by
    unfold Grep.search
    split
    · exact isBinary_failure _
    · dsimp only
      split
      · exact isBinary_failure _
      · exact isBinary_outcome _
  unfold Grep.run
  dsimp only
  split
  · exact hsearch _ _ _
  · exact hsearch _ _ _
  · exact isBinary_failure _

theorem isBinary_find (args : List String) (v : View) : (Find.run args v).IsBinary := by
  unfold Find.run
  split
  · exact isBinary_failure _
  · exact isBinary_outcome _

theorem isBinary_tree (args : List String) (v : View) : (tree args v).IsBinary := by
  unfold tree
  dsimp only
  split
  · exact isBinary_failure _
  · exact isBinary_ok _

theorem isBinary_stat (args : List String) (v : View) : (stat args v).IsBinary := by
  unfold stat
  split <;> exact isBinary_outcome _

theorem isBinary_deps (v : View) : (deps v).IsBinary := by
  unfold deps
  dsimp only
  split
  · exact isBinary_ok _
  · exact isBinary_outcome _

theorem always_rm (args : List String) : Attempt.Always IsBinary (rm args) := by
  unfold rm
  dsimp only
  split
  · exact Attempt.always_pure (isBinary_outcome _)
  · exact Attempt.always_bind _ (fun _ => Attempt.always_pure (isBinary_outcome _))

theorem always_transfer (t : Transfer) (args : List String) : Always IsBinary (t.run args) := by
  unfold Transfer.run
  dsimp only
  split
  · exact isBinary_outcome _
  · split
    · exact isBinary_outcome _
    · exact always_bind _ (fun _ => always_bind _ (fun _ => isBinary_outcome _))

theorem always_touch (args : List String) : Always IsBinary (touch args) := by
  unfold touch
  dsimp only
  split
  · exact isBinary_outcome _
  · exact always_bind _ (fun _ => isBinary_outcome _)

theorem always_tee (args : List String) (stdin : Option String) :
    Always IsBinary (tee args stdin) :=
  always_bind _ (fun _ => isBinary_outcome _)

theorem always_sed (args : List String) (stdin : Option String) :
    Attempt.Always IsBinary (Sed.run args stdin) := by
  unfold Sed.run
  dsimp only
  split
  · exact Attempt.always_pure (isBinary_failure _)
  · split
    · exact Attempt.always_pure (isBinary_failure _)
    · split
      · exact Attempt.always_pure (isBinary_failure _)
      · exact Attempt.always_bind _ (fun _ => Attempt.always_bind _
          (fun _ => Attempt.always_pure (isBinary_outcome _)))

theorem always_reported (x : Attempt Report) : Always IsBinary (Npm.reported x) := by
  refine always_bind _ (fun r => ?_)
  cases r with
  | ok r => exact isBinary_outcome r
  | error e => exact isBinary_failure _

theorem always_npm (args : List String) : Always IsBinary (Npm.run args) := by
  unfold Npm.run
  split
  · exact isBinary_failure _
  · dsimp only
    split
    case h_8 | h_9 => exact always_read (fun v => isBinary_outcome _)
    case h_10 => exact isBinary_failure _
    all_goals exact always_reported _

theorem always_errors (args : List String) : Always IsBinary (errors args) := by
  refine always_bind _ (fun v => ?_)
  split
  · split
    · exact isBinary_ok _
    · exact isBinary_outcome _
  · exact always_bind _ (fun _ => isBinary_ok _)
  · exact isBinary_failure _

theorem always_plan (args : List String) : Always IsBinary (plan args) := by
  unfold plan
  split
  · refine always_read (fun v => ?_)
    split <;> exact isBinary_ok _
  · split
    · exact isBinary_failure _
    · exact isBinary_failure _
    · refine always_bind _ (fun r => ?_)
      cases r with
      | ok _ => exact isBinary_ok _
      | error e => exact isBinary_failure _

theorem always_undo : Always IsBinary undo := by
  refine always_bind _ (fun done => ?_)
  split
  · exact isBinary_ok _
  · exact isBinary_failure _

theorem always_runAll {inner : String → List String → Script Outcome}
    (h : ∀ name args, Always IsBinary (inner name args)) (all : List (List String)) :
    Always IsBinary (Xargs.runAll inner all) := by
  induction all with
  | nil => exact isBinary_nothing
  | cons words rest ih =>
    cases words with
    | nil => exact ih
    | cons name args =>
      refine (h name args).bind (fun a _ => ih.bind (fun b hb => always_pure ?_))
      rw [IsBinary]
      dsimp only
      split
      · exact hb
      · exact .inr rfl

theorem always_xargs {inner : String → List String → Script Outcome}
    (h : ∀ name args, Always IsBinary (inner name args)) (args : List String)
    (stdin : Option String) : Always IsBinary (Xargs.run inner args stdin) := by
  unfold Xargs.run
  split
  · exact isBinary_failure _
  · refine always_bind _ (fun limit => ?_)
    dsimp only
    split
    · exact isBinary_failure _
    · exact always_runAll h _

end Command

theorem Builtin.isBinary_help (args : List String) : (helpOutcome args).IsBinary := by
  unfold helpOutcome
  split
  · exact isBinary_outcome _
  · split
    · exact isBinary_ok _
    · exact isBinary_failure _

theorem Builtin.always_run {inner : String → List String → Script Outcome}
    (h : ∀ name args, Always IsBinary (inner name args)) (b : Builtin) (args : List String)
    (stdin : Option String) : Attempt.Always IsBinary (b.run inner args stdin) := by
  open Command in
  cases b with
  | ls | cat | wc | sort | uniq | project => exact Attempt.always_read (fun v => isBinary_outcome _)
  | head | tail => exact Attempt.always_read (isBinary_edge _ args stdin)
  | grep => exact Attempt.always_read (isBinary_grep args stdin)
  | find => exact Attempt.always_read (isBinary_find args)
  | tree => exact Attempt.always_read (isBinary_tree args)
  | stat => exact Attempt.always_read (isBinary_stat args)
  | deps => exact Attempt.always_read isBinary_deps
  | pwd => exact Attempt.always_read (fun v => isBinary_ok _)
  | echo => exact Attempt.always_pure (isBinary_ok _)
  | mkdir | cd | true => exact Attempt.always_pure isBinary_nothing
  | false => exact Attempt.always_pure (.inr rfl)
  | help => exact Attempt.always_pure (isBinary_help args)
  | rm => exact always_rm args
  | sed => exact always_sed args stdin
  | mv | cp => exact Attempt.always_safely (always_transfer _ args)
  | touch => exact Attempt.always_safely (always_touch args)
  | tee => exact Attempt.always_safely (always_tee args stdin)
  | npm => exact Attempt.always_safely (always_npm args)
  | errors => exact Attempt.always_safely (always_errors args)
  | plan => exact Attempt.always_safely (always_plan args)
  | undo => exact Attempt.always_safely always_undo
  | xargs => exact Attempt.always_safely (always_xargs h args stdin)

theorem always_dispatchWith {inner : String → List String → Script Outcome}
    (h : ∀ name args, Always IsBinary (inner name args)) (name : String) (args : List String)
    (stdin : Option String) : Always IsBinary (dispatchWith inner name args stdin) := by
  unfold dispatchWith
  split
  · exact isBinary_failure _
  · rename_i b hb
    refine Always.bind (b.always_run h args stdin) (fun r hr => ?_)
    cases r with
    | ok o => exact hr o rfl
    | error e => exact isBinary_failure _

theorem always_dispatchInner (name : String) (args : List String) :
    Always IsBinary (dispatchInner name args) :=
  always_dispatchWith (fun _ _ => always_pure isBinary_nothing) name args none

theorem always_dispatch (name : String) (args : List String) (stdin : Option String) :
    Always IsBinary (dispatch name args stdin) :=
  always_dispatchWith always_dispatchInner name args stdin

namespace Stage

theorem always_command (s : Stage) (stdin : Option String) : Always IsBinary (s.command stdin) := by
  unfold command
  split
  · exact isBinary_nothing
  · exact always_bind _ (fun files => always_dispatch _ _ _)

theorem isBinary_mergeStreams (s : Stage) {o : Outcome} (h : o.IsBinary) :
    (s.mergeStreams o).IsBinary := by
  unfold mergeStreams
  split <;> exact h

theorem always_putStderr (s : Stage) {o : Outcome} (h : o.IsBinary) :
    Always IsBinary (s.putStderr o) := by
  unfold putStderr
  split
  · exact h
  · refine always_bind _ (fun complaint => ?_)
    cases complaint with
    | none => exact h
    | some complaint => exact .inr rfl

theorem always_putStdout (s : Stage) {o : Outcome} (h : o.IsBinary) :
    Always IsBinary (s.putStdout o) := by
  unfold putStdout
  split
  · exact h
  · refine always_bind _ (fun complaint => ?_)
    cases complaint with
    | none =>
      refine always_pure ?_
      rw [IsBinary]
      dsimp only
      split
      · exact h
      · exact .inl rfl
    | some complaint => exact .inr rfl

theorem always_run (s : Stage) (stdin : Option String) : Always IsBinary (s.run stdin) :=
  (s.always_command stdin).bind (fun _ ho =>
    (s.always_putStderr (s.isBinary_mergeStreams ho)).bind (fun _ ho => s.always_putStdout ho))

end Stage

theorem always_runStages (stdin : Option String) (stages : List Stage) :
    Always IsBinary (runStages stdin stages) := by
  induction stages generalizing stdin with
  | nil => exact isBinary_nothing
  | cons s rest ih =>
    cases rest with
    | nil => exact s.always_run stdin
    | cons t rest => exact always_bind _ (fun o => ih _)

theorem always_runPipeline (cs : List Char) : Always IsBinary (runPipeline cs) := by
  unfold runPipeline
  dsimp only
  split
  · exact always_runStages _ _
  · exact isBinary_failure _

theorem always_runChain (op : Operator) (parts : List (List Char)) :
    Always IsBinary (runChain op parts) := by
  induction parts with
  | nil => exact isBinary_nothing
  | cons cs rest ih =>
    cases rest with
    | nil => exact always_runPipeline cs
    | cons ds rest =>
      refine (always_runPipeline cs).bind (fun a ha => ?_)
      split
      · exact ha
      · exact ih.bind (fun b hb => hb)

theorem always_runSegment (cs : List Char) : Always IsBinary (runSegment cs) := by
  unfold runSegment
  dsimp only
  split
  · exact always_runPipeline _
  · split
    · exact isBinary_failure _
    · split
      · exact isBinary_failure _
      · exact always_runChain _ _

theorem always_runSegments (segments : List (List Char)) :
    Always IsBinary (runSegments segments) := by
  induction segments with
  | nil => exact isBinary_nothing
  | cons cs rest ih =>
    cases rest with
    | nil => exact always_runSegment cs
    | cons ds rest => exact always_bind _ (fun a => ih.bind (fun b hb => hb))

theorem always_runLine (line : String) : Always IsBinary (runLine line) := always_runSegments _

namespace FileStore

theorem execute_bounded (s : FileStore) (line : String) :
    let o := (s.execute line).1
    (o.exitCode = 0 ∨ o.exitCode = 1) ∧
      o.stdout.utf8ByteSize ≤ s.limits.maxOutputBytes + truncationMarker.utf8ByteSize ∧
      o.stderr.utf8ByteSize ≤ s.limits.maxOutputBytes + truncationMarker.utf8ByteSize := by
  intro o
  obtain ⟨r, hr⟩ : ∃ r, ((runLine line).run s).1 = r := ⟨_, rfl⟩
  have ho : o = r.capped s.limits.maxOutputBytes := by
    simp only [o, execute_eq_capped, hr]
  have hbinary : r.IsBinary := by
    rw [← hr]
    exact (always_runLine line).run s
  rw [ho]
  exact ⟨hbinary, utf8ByteSize_truncateOutput_le _ _, utf8ByteSize_truncateOutput_le _ _⟩

end FileStore

end ProjectShell
