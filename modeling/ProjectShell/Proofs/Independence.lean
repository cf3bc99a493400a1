import ProjectShell.Proofs.LineUndo

namespace ProjectShell

namespace FileStore

structure SameSession (s t : FileStore) : Prop where
  files : s.files = t.files
  errors : s.errors = t.errors
  plan : s.plan = t.plan
  maxXargsInvocations : s.limits.maxXargsInvocations = t.limits.maxXargsInvocations
  maxSearchResults : s.limits.maxSearchResults = t.limits.maxSearchResults
  workingDir : s.limits.workingDir = t.limits.workingDir
  now : s.now = t.now

def EndAlike {α : Type} (r r' : α × FileStore) : Prop := r.1 = r'.1 ∧ SameSession r.2 r'.2

namespace SameSession

variable {s t : FileStore}

theorem view (h : SameSession s t) : s.view = t.view := by
  rw [FileStore.view, FileStore.view, h.files, h.errors, h.plan, h.workingDir,
    h.maxXargsInvocations]

theorem change (h : SameSession s t) (files : FileMap) :
    SameSession (s.change files) (t.change files) :=
  { h with files := rfl }

theorem write (h : SameSession s t) (path content : String) :
    EndAlike (s.write path content) (t.write path content) := by
  rw [FileStore.write, FileStore.write, h.files, h.now]
  cases Path.normalize path with
  | ok key => exact ⟨rfl, h.change _⟩
  | error e => exact ⟨rfl, h⟩

theorem append (h : SameSession s t) (path content : String) :
    EndAlike (s.append path content) (t.append path content) := by
  have hr : s.read? path = t.read? path := congrArg (FileMap.read? · path) h.files
  rw [FileStore.append, FileStore.append, hr]
  exact h.write path _

theorem delete (h : SameSession s t) (path : String) :
    EndAlike (s.delete path) (t.delete path) := by
  rw [FileStore.delete, FileStore.delete, h.files]
  cases Path.normalize path with
  | error e => exact ⟨rfl, h⟩
  | ok key =>
    dsimp only
    split
    · exact ⟨rfl, h.change _⟩
    · exact ⟨rfl, h⟩

theorem rename (h : SameSession s t) (source target : String) :
    EndAlike (s.rename source target) (t.rename source target) := by
  rw [FileStore.rename, FileStore.rename, h.files]
  cases Path.normalize source with
  | error e => exact ⟨rfl, h⟩
  | ok sourceKey =>
    cases Path.normalize target with
    | error e => exact ⟨rfl, h⟩
    | ok targetKey =>
      dsimp only
      cases t.files.get? sourceKey with
      | none => exact ⟨rfl, h⟩
      | some file =>
        dsimp only
        split
        · exact ⟨rfl, h⟩
        · exact ⟨rfl, h.change _⟩

theorem saveManifest {α : Type} (h : SameSession s t) (members : Json.Members) (answer : α) :
    EndAlike (s.saveManifest members answer) (t.saveManifest members answer) := by
  rw [saveManifest_eq, saveManifest_eq, h.files, h.now]
  exact ⟨rfl, h.change _⟩

theorem manifest (h : SameSession s t) : s.manifest = t.manifest := by
  rw [FileStore.manifest, FileStore.manifest, read?, read?, h.files]

theorem addDependency (h : SameSession s t) (name version : String) :
    EndAlike (s.addDependency name version) (t.addDependency name version) := by
  rw [FileStore.addDependency, FileStore.addDependency, h.manifest]
  cases t.manifest with
  | error e => exact ⟨rfl, h⟩
  | ok members =>
    dsimp only
    cases Json.Members.get? name (Manifest.dependenciesIn members) with
    | none => exact h.saveManifest _ _
    | some v =>
      dsimp only
      split
      · exact ⟨rfl, h⟩
      · exact h.saveManifest _ _

theorem removeDependency (h : SameSession s t) (name : String) :
    EndAlike (s.removeDependency name) (t.removeDependency name) := by
  have hf : s.hasFile Manifest.path = t.hasFile Manifest.path :=
    congrArg (FileMap.hasFile · Manifest.path) h.files
  rw [FileStore.removeDependency, FileStore.removeDependency, h.manifest, hf]
  split
  · cases t.manifest with
    | error e => exact ⟨rfl, h⟩
    | ok members =>
      dsimp only
      cases Json.Members.get? name (Manifest.dependenciesIn members) with
      | none => exact ⟨rfl, h⟩
      | some v => exact h.saveManifest _ _
  · exact ⟨rfl, h⟩

theorem setTaskStatus (h : SameSession s t) (id : String) (status : TaskStatus) :
    EndAlike (s.setTaskStatus id status) (t.setTaskStatus id status) := by
  rw [FileStore.setTaskStatus, FileStore.setTaskStatus, h.plan]
  cases t.plan with
  | none => exact ⟨rfl, h⟩
  | some plan =>
    dsimp only
    cases Plan.setStatus id status plan.tasks with
    | none => exact ⟨rfl, h⟩
    | some tasks => exact ⟨rfl, { h with plan := rfl }⟩

theorem apply (h : SameSession s t) {e : Edit} (hr : e ≠ .rollback) :
    EndAlike (s.apply e) (t.apply e) := by
  cases e with
  | write path content => exact h.write path content
  | append path content => exact h.append path content
  | delete path => exact h.delete path
  | rename source target => exact h.rename source target
  | addDependency name version => exact h.addDependency name version
  | removeDependency name => exact h.removeDependency name
  | setTaskStatus id status => exact h.setTaskStatus id status
  | clearErrors => exact ⟨rfl, { h with errors := rfl }⟩
  | rollback => exact absurd rfl hr

theorem run {α : Type} (h : SameSession s t) (x : Script α) (hu : Edit.rollback ∉ x.edits s) :
    x.edits t = x.edits s ∧ EndAlike (x.run s) (x.run t) := by
  induction x generalizing s t with
  | done a => exact ⟨rfl, rfl, h⟩
  | look k ih =>
    simp only [Script.edits, Script.run, h.view] at hu ⊢
    exact ih t.view h hu
  | edit e k ih =>
    simp only [Script.edits, List.mem_cons, not_or] at hu
    obtain ⟨hr, hu⟩ := hu
    obtain ⟨hanswer, hstore⟩ := h.apply (Ne.symm hr)
    obtain ⟨hedits, hend⟩ := ih (s.apply e).1 hstore hu
    simp only [Script.edits, Script.run, ← hanswer]
    exact ⟨congrArg (e :: ·) hedits, hend⟩

end SameSession

theorem Ends.limits {s : FileStore} {α : Type} {Idle : α → Prop}
    {r : Except StoreError α × FileStore} (h : s.Ends Idle r) : r.2.limits = s.limits := by
  cases h with
  | failed e => rfl
  | idle h => rfl
  | changed h files => rfl

theorem limits_apply (s : FileStore) (e : Edit) : (s.apply e).2.limits = s.limits := by
  cases e with
  | write path content => exact (ends_write ..).limits
  | append path content => exact (ends_append ..).limits
  | delete path => exact (ends_delete ..).limits
  | rename source target => exact (ends_rename ..).limits
  | addDependency name version => exact (ends_addDependency ..).limits
  | removeDependency name => exact (ends_removeDependency ..).limits
  | setTaskStatus id status =>
    simp only [apply, setTaskStatus]
    split
    · rfl
    · split <;> rfl
  | clearErrors => rfl
  | rollback =>
    simp only [apply, rollback]
    split <;> rfl

theorem limits_run {α : Type} (s : FileStore) (x : Script α) :
    (x.run s).2.limits = s.limits := by
  induction x generalizing s with
  | done a => rfl
  | look k ih => exact ih s.view s
  | edit e k ih => exact (ih (s.apply e).1 (s.apply e).2).trans (limits_apply s e)

end FileStore

def Outcome.capped (o : Outcome) (limit : Nat) : Outcome :=
  ⟨truncateOutput o.stdout limit, truncateOutput o.stderr limit, o.exitCode⟩

namespace FileStore

theorem execute_eq_capped (s : FileStore) (line : String) :
    s.execute line =
      (((runLine line).run s).1.capped s.limits.maxOutputBytes, ((runLine line).run s).2) := by
  rw [execute, Outcome.capped, ← limits_run s (runLine line)]

theorem execute_independent_of_past {s t : FileStore} (h : SameSession s t) (line : String)
    (hu : Edit.rollback ∉ (runLine line).edits s) :
    ∃ o : Outcome,
      ((runLine line).run s).1 = o ∧ ((runLine line).run t).1 = o ∧
        (s.execute line).1 = o.capped s.limits.maxOutputBytes ∧
        (t.execute line).1 = o.capped t.limits.maxOutputBytes ∧
        (runLine line).edits t = (runLine line).edits s ∧
        SameSession (s.execute line).2 (t.execute line).2 := by
  obtain ⟨hedits, hout, hend⟩ := h.run (runLine line) hu
  rw [execute_eq_capped, execute_eq_capped]
  exact ⟨_, rfl, hout.symm, rfl, congrArg (Outcome.capped · _) hout.symm, hedits, hend⟩

theorem execute_independent_of_past_cut :
    let s := ((withLimits { maxOutputBytes := 3, historyDepth := 0 } ⟨0⟩).write "a" "one\ntwo").2
    let t := (((new ⟨0⟩).write "a" "old").2.write "a" "one\ntwo").2
    let line := "cat a > b && cat a b | tee c; echo b | xargs rm; cat nowhere"
    (SameSession s t ∧ Edit.rollback ∉ (runLine line).edits s) ∧
      (s.execute line).1.stdout = "one\n... [output truncated] ..." ∧
      (t.execute line).1.stdout = "one\ntwo\none\ntwo" ∧
      (s.execute line).1.exitCode = (t.execute line).1.exitCode ∧
      SameSession (s.execute line).2 (t.execute line).2 := by
  intro s t line
  have hfiles : s.files = t.files := by decide +kernel
  have hsame : SameSession s t := ⟨hfiles, by decide +kernel, by decide +kernel, by decide +kernel,
    by decide +kernel, by decide +kernel, by decide +kernel⟩
  have hu : Edit.rollback ∉ (runLine line).edits s := by decide +kernel
  obtain ⟨o, -, -, hs, ht, -, hend⟩ := execute_independent_of_past hsame line hu
  have hcode : (s.execute line).1.exitCode = (t.execute line).1.exitCode := by rw [hs, ht]; rfl
  exact ⟨⟨hsame, hu⟩, by decide +kernel, by decide +kernel, hcode, hend⟩

end FileStore

end ProjectShell
