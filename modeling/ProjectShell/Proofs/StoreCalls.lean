import ProjectShell.Command.Script

namespace ProjectShell

namespace FileStore

/-- How a call ends that may change files. `Idle` says of which answers it found nothing to do. -/
inductive Ends (s : FileStore) {α : Type} (Idle : α → Prop) :
    Except StoreError α × FileStore → Prop
  | failed (e : StoreError) : Ends s Idle (.error e, s)
  | idle {a : α} (h : Idle a) : Ends s Idle (.ok a, s)
  | changed {a : α} (h : ¬ Idle a) (files : FileMap) : Ends s Idle (.ok a, s.change files)

theorem ends_write (s : FileStore) (path content : String) :
    Ends s (fun _ => False) (s.write path content) := by
  rw [write]
  split
  · exact .changed not_false _
  · exact .failed _

theorem ends_append (s : FileStore) (path content : String) :
    Ends s (fun _ => False) (s.append path content) :=
  ends_write ..

theorem ends_delete (s : FileStore) (path : String) :
    Ends s (fun _ => False) (s.delete path) := by
  rw [delete]
  split
  · split
    · exact .changed not_false _
    · exact .failed _
  · exact .failed _

theorem ends_rename (s : FileStore) (source target : String) :
    Ends s (fun _ => Path.key? source.toList = Path.key? target.toList)
      (s.rename source target) := by
  rw [rename]
  split
  · rename_i sourceKey targetKey hs ht
    rw [Path.normalize_eq_ok_iff] at hs ht
    have hiff : Path.key? source.toList = Path.key? target.toList ↔ sourceKey = targetKey := by
      rw [hs, ht, Option.some.injEq, String.toList_inj]
    split
    · exact .failed _
    · split
      · rename_i heq
        exact .idle (hiff.2 heq)
      · rename_i hne
        refine .changed ?_ _
        exact fun heq => hne (hiff.1 heq)
  · exact .failed _
  · exact .failed _

theorem ends_patch (s : FileStore) (path old new : String) :
    Ends s (fun _ => False) (s.patch path old new) := by
  rw [patch]
  split
  · exact .failed _
  · rename_i file _
    split
    · exact .failed _
    · have hw := ends_write s path (Text.replaceFirst old new file.content)
      generalize s.write path (Text.replaceFirst old new file.content) = r at hw
      cases hw with
      | failed e => exact .failed e
      | idle h => exact h.elim
      | changed h files => exact .changed h files

theorem saveManifest_eq {α : Type} (s : FileStore) (members : Json.Members) (answer : α) :
    s.saveManifest members answer =
      (.ok answer, s.change (s.files.insert Manifest.path
        (File.new Manifest.path (Manifest.text members) s.now))) :=
  rfl

theorem ends_saveManifest {α : Type} (s : FileStore) (members : Json.Members) (answer : α)
    {Idle : α → Prop} (h : ¬ Idle answer) : Ends s Idle (s.saveManifest members answer) := by
  rw [saveManifest_eq]
  exact .changed h _

theorem ends_addDependency (s : FileStore) (name version : String) :
    Ends s (· = .unchanged) (s.addDependency name version) := by
  rw [addDependency]
  split
  · exact .failed _
  · dsimp only
    split
    · exact ends_saveManifest s _ _ (by simp)
    · split
      · exact .idle rfl
      · exact ends_saveManifest s _ _ (by simp)

theorem ends_removeDependency (s : FileStore) (name : String) :
    Ends s (· = false) (s.removeDependency name) := by
  rw [removeDependency]
  split
  · split
    · exact .failed _
    · dsimp only
      split
      · exact .idle rfl
      · exact ends_saveManifest s _ _ (by simp)
  · exact .idle rfl

end FileStore

inductive Mark
  | idle
  | change
  | undo
deriving DecidableEq, Repr

/-- Read off the answer alone: a failure, a renaming onto the same key, a dependency that stays as
it is and one that was not listed leave the files alone. -/
def Edit.mark : (e : Edit) → e.Reply → Mark
  | .write .., .ok _ => .change
  | .append .., .ok _ => .change
  | .delete _, .ok _ => .change
  | .rename source target, .ok _ =>
      if Path.key? source.toList = Path.key? target.toList then .idle else .change
  | .addDependency .., .ok answer => if answer = .unchanged then .idle else .change
  | .removeDependency _, .ok listed => if listed = false then .idle else .change
  | .rollback, true => .undo
  | _, _ => .idle

inductive Call
  | edit (e : Edit)
  | patch (path old new : String)

def Call.patchMark : Except StoreError Unit → Mark
  | .ok _ => .change
  | .error _ => .idle

namespace FileStore

def call (s : FileStore) : Call → Mark × FileStore
  | .edit e => (e.mark (s.apply e).1, (s.apply e).2)
  | .patch path old new =>
      (Call.patchMark (s.patch path old new).1, (s.patch path old new).2)

inductive Marked (s : FileStore) : Mark → FileStore → Prop
  | idle {t : FileStore} (hf : t.files = s.files) (hh : t.history = s.history) : Marked s .idle t
  | change (files : FileMap) : Marked s .change (s.change files)
  | undo {files : FileMap} {history : History} (hp : s.history.pop? = some (files, history)) :
      Marked s .undo { s with files, history }

theorem Ends.marked {s : FileStore} {α : Type} {Idle : α → Prop}
    {r : Except StoreError α × FileStore} (h : s.Ends Idle r) (mark : Except StoreError α → Mark)
    (hfailed : ∀ e, mark (.error e) = .idle) (hidle : ∀ a, Idle a → mark (.ok a) = .idle)
    (hchanged : ∀ a, ¬ Idle a → mark (.ok a) = .change) : s.Marked (mark r.1) r.2 := by
  cases h with
  | failed e =>
    rw [hfailed]
    exact .idle rfl rfl
  | idle h =>
    rw [hidle _ h]
    exact .idle rfl rfl
  | changed h files =>
    rw [hchanged _ h]
    exact .change files

theorem marked_apply (s : FileStore) (e : Edit) :
    s.Marked (e.mark (s.apply e).1) (s.apply e).2 := by
  cases e with
  | write path content =>
    exact (ends_write ..).marked (Edit.mark (.write path content)) (fun _ => rfl)
      (fun _ h => h.elim) (fun _ _ => rfl)
  | append path content =>
    exact (ends_append ..).marked (Edit.mark (.append path content)) (fun _ => rfl)
      (fun _ h => h.elim) (fun _ _ => rfl)
  | delete path =>
    exact (ends_delete ..).marked (Edit.mark (.delete path)) (fun _ => rfl)
      (fun _ h => h.elim) (fun _ _ => rfl)
  | rename source target =>
    exact (ends_rename ..).marked (Edit.mark (.rename source target)) (fun _ => rfl)
      (fun _ h => if_pos h) (fun _ h => if_neg h)
  | addDependency name version =>
    exact (ends_addDependency ..).marked (Edit.mark (.addDependency name version)) (fun _ => rfl)
      (fun _ h => if_pos h) (fun _ h => if_neg h)
  | removeDependency name =>
    exact (ends_removeDependency ..).marked (Edit.mark (.removeDependency name)) (fun _ => rfl)
      (fun _ h => if_pos h) (fun _ h => if_neg h)
  | setTaskStatus id status =>
    simp only [apply, setTaskStatus]
    split
    · exact .idle rfl rfl
    · split <;> exact .idle rfl rfl
  | clearErrors => exact .idle rfl rfl
  | rollback =>
    simp only [apply, rollback]
    split
    · rename_i files history hp
      exact .undo hp
    · exact .idle rfl rfl

theorem marked_call (s : FileStore) (c : Call) : s.Marked (s.call c).1 (s.call c).2 := by
  cases c with
  | edit e => exact marked_apply s e
  | patch path old new =>
    exact (ends_patch ..).marked Call.patchMark (fun _ => rfl) (fun _ h => h.elim) (fun _ _ => rfl)

end FileStore

end ProjectShell
