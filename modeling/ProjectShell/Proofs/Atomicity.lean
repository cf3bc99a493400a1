import ProjectShell.Proofs.StoreCalls

namespace ProjectShell

inductive FallibleCall
  | write (path content : String)
  | append (path content : String)
  | delete (path : String)
  | rename (source target : String)
  | patch (path old new : String)
  | addDependency (name version : String)
  | removeDependency (name : String)
  | setTaskStatus (id : String) (status : TaskStatus)
  | seed (files : List (String × String))

namespace FallibleCall

def Answer : FallibleCall → Type
  | write .. | append .. | removeDependency _ => Bool
  | addDependency .. => DependencyChange
  | delete _ | rename .. | patch .. | setTaskStatus .. | seed _ => Unit

def ChangesFiles : FallibleCall → Prop
  | setTaskStatus .. | seed _ => False
  | _ => True

end FallibleCall

namespace FileStore

variable {s : FileStore} {α : Type} {Idle : α → Prop} {r : Except StoreError α × FileStore}

def attempt (s : FileStore) : (c : FallibleCall) → Except StoreError c.Answer × FileStore
  | .write path content => s.write path content
  | .append path content => s.append path content
  | .delete path => s.delete path
  | .rename source target => s.rename source target
  | .patch path old new => s.patch path old new
  | .addDependency name version => s.addDependency name version
  | .removeDependency name => s.removeDependency name
  | .setTaskStatus id status => s.setTaskStatus id status
  | .seed files => s.seed files

theorem Ends.eq_of_error (h : s.Ends Idle r) {e : StoreError} (he : r.1 = .error e) : r.2 = s := by
  cases h with
  | failed _ => rfl
  | idle _ => cases he
  | changed _ _ => cases he

theorem Ends.eq_or_change (h : s.Ends Idle r) : r.2 = s ∨ ∃ files, r.2 = s.change files := by
  cases h with
  | failed _ => exact .inl rfl
  | idle _ => exact .inl rfl
  | changed _ files => exact .inr ⟨files, rfl⟩

theorem setTaskStatus_error {id : String} {status : TaskStatus} {e : StoreError}
    (h : (s.setTaskStatus id status).1 = .error e) : (s.setTaskStatus id status).2 = s := by
  rw [setTaskStatus] at h ⊢
  split at h
  · rfl
  · split at h
    · rfl
    · cases h

theorem seed_error {files : List (String × String)} {e : StoreError}
    (h : (s.seed files).1 = .error e) : (s.seed files).2 = s := by
  rw [seed] at h ⊢
  split at h
  · cases h
  · rfl

theorem ends_attempt (s : FileStore) {c : FallibleCall} (hc : c.ChangesFiles) :
    ∃ Idle, s.Ends Idle (s.attempt c) := by
  cases c with
  | write path content => exact ⟨_, ends_write s path content⟩
  | append path content => exact ⟨_, ends_append s path content⟩
  | delete path => exact ⟨_, ends_delete s path⟩
  | rename source target => exact ⟨_, ends_rename s source target⟩
  | patch path old new => exact ⟨_, ends_patch s path old new⟩
  | addDependency name version => exact ⟨_, ends_addDependency s name version⟩
  | removeDependency name => exact ⟨_, ends_removeDependency s name⟩
  | setTaskStatus id status => exact hc.elim
  | seed files => exact hc.elim

theorem attempt_error {c : FallibleCall} {e : StoreError} (h : (s.attempt c).1 = .error e) :
    (s.attempt c).2 = s := by
  by_cases hc : c.ChangesFiles
  · obtain ⟨_, hends⟩ := ends_attempt s hc
    exact hends.eq_of_error h
  · cases c with
    | setTaskStatus id status => exact setTaskStatus_error h
    | seed files => exact seed_error h
    | write | append | delete | rename | patch | addDependency | removeDependency =>
      exact absurd trivial hc

theorem attempt_atomic (s : FileStore) (c : FallibleCall) :
    (∀ e, (s.attempt c).1 = .error e → (s.attempt c).2 = s) ∧
    (c.ChangesFiles → 0 < s.history.depth → ∀ a, (s.attempt c).1 = .ok a →
      (s.attempt c).2.history.snapshots =
          s.files :: s.history.snapshots.take (s.history.depth - 1) ∨
        (s.attempt c).2.history = s.history ∧ (s.attempt c).2.files = s.files) := by
  refine ⟨fun e => attempt_error, ?_⟩
  intro hc hdepth a _
  obtain ⟨_, hends⟩ := ends_attempt s hc
  rcases hends.eq_or_change with heq | ⟨files, heq⟩
  · exact .inr ⟨by rw [heq], by rw [heq]⟩
  · rw [heq]
    exact .inl (List.take_cons hdepth)

theorem attempt_atomic_steps :
    let files := [("a", "x"), ("package.json", "[]")]
    let s : FileStore := (((withLimits { historyDepth := 1 } ⟨0⟩).seed files).2.write "b" "").2
    let failing : List FallibleCall := [.rename "a" "..", .patch "a" "y" "", .addDependency "p" "1",
      .setTaskStatus "t" .completed, .seed [("c", ""), ("/", ""), ("d", "")]]
    (∀ c ∈ failing, (s.attempt c).2 = s) ∧
      (s.attempt (.rename "a" "./b")).2.history.snapshots = [s.files] ∧
      (s.attempt (.rename "a" "./a")).2.files = s.files := by
  intro files s failing
  have hfails : ∀ c ∈ failing, ∃ e, (s.attempt c).1 = .error e := by
    simp only [failing, List.forall_mem_cons]
    exact ⟨⟨_, rfl⟩, ⟨_, rfl⟩, ⟨_, rfl⟩, ⟨_, rfl⟩, ⟨_, rfl⟩, nofun⟩
  have hmoved := (attempt_atomic s (.rename "a" "./b")).2 trivial (by decide) () (by rfl)
  have hstays := (attempt_atomic s (.rename "a" "./a")).2 trivial (by decide) () (by rfl)
  refine ⟨?_, ?_, ?_⟩
  · intro c hc
    obtain ⟨e, he⟩ := hfails c hc
    exact (attempt_atomic s c).1 e he
  · rcases hmoved with hpushed | ⟨-, hfiles⟩
    · exact hpushed
    · exact absurd hfiles (by decide +kernel)
  · rcases hstays with hpushed | ⟨-, hfiles⟩
    · exact absurd hpushed (by decide +kernel)
    · exact hfiles

def attemptAll (s : FileStore) : List FallibleCall → FileStore
  | [] => s
  | c :: cs => (s.attempt c).2.attemptAll cs

def succeeding (s : FileStore) : List FallibleCall → List FallibleCall
  | [] => []
  | c :: cs =>
      match (s.attempt c).1 with
      | .ok _ => c :: (s.attempt c).2.succeeding cs
      | .error _ => (s.attempt c).2.succeeding cs

theorem attemptAll_succeeding (s : FileStore) (cs : List FallibleCall) :
    s.attemptAll (s.succeeding cs) = s.attemptAll cs := by
  induction cs generalizing s with
  | nil => rfl
  | cons c cs ih =>
    rw [succeeding]
    split
    · exact ih (s.attempt c).2
    · rename_i e he
      have hs : (s.attempt c).2 = s := attempt_error he
      rw [attemptAll, hs, ih]

theorem size_attempt_le (s : FileStore) (c : FallibleCall) :
    (s.attempt c).2.history.size ≤ s.history.size + 1 := by
  by_cases hc : c.ChangesFiles
  · obtain ⟨_, hends⟩ := ends_attempt s hc
    rcases hends.eq_or_change with heq | ⟨files, heq⟩
    · rw [heq]
      exact Nat.le_succ _
    · rw [heq, change, History.size_push]
      exact Nat.min_le_right ..
  · cases c with
    | setTaskStatus id status =>
      have hsame : (s.setTaskStatus id status).2.history = s.history := by
        rw [setTaskStatus]
        split
        · rfl
        · split <;> rfl
      rw [attempt, hsame]
      exact Nat.le_succ _
    | seed files =>
      rw [attempt, seed]
      split
      · exact Nat.zero_le _
      · exact Nat.le_succ _
    | write | append | delete | rename | patch | addDependency | removeDependency =>
      exact absurd trivial hc

theorem size_attemptAll_le (s : FileStore) (cs : List FallibleCall) :
    (s.attemptAll cs).history.size ≤ s.history.size + (s.succeeding cs).length := by
  rw [← attemptAll_succeeding]
  generalize s.succeeding cs = cs
  induction cs generalizing s with
  | nil => exact Nat.le_refl _
  | cons c cs ih =>
    calc ((s.attempt c).2.attemptAll cs).history.size
        ≤ (s.attempt c).2.history.size + cs.length := ih _
      _ ≤ s.history.size + 1 + cs.length := Nat.add_le_add_right (size_attempt_le s c) _
      _ = s.history.size + (cs.length + 1) := by omega

end FileStore

end ProjectShell
