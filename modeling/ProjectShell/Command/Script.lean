import ProjectShell.FileStore.Manifest
/-!
What a command may do: look at the session, and ask for changes one at a time. A script says so
without a store; running it on a store is the only way in which a command changes one.
-/

namespace ProjectShell

structure View where
  files : FileMap
  errors : List String
  plan : Option Plan
  workingDir : String
  maxInvocations : Nat

inductive Edit
  | write (path content : String)
  | append (path content : String)
  | delete (path : String)
  | rename (source target : String)
  | addDependency (name version : String)
  | removeDependency (name : String)
  | setTaskStatus (id : String) (status : TaskStatus)
  | clearErrors
  | rollback
deriving DecidableEq, Repr

def Edit.Reply : Edit → Type
  | write .. => Except StoreError Bool
  | append .. => Except StoreError Bool
  | delete _ => Except StoreError Unit
  | rename .. => Except StoreError Unit
  | addDependency .. => Except StoreError DependencyChange
  | removeDependency _ => Except StoreError Bool
  | setTaskStatus .. => Except StoreError Unit
  | clearErrors => Unit
  | rollback => Bool

namespace FileStore

def view (s : FileStore) : View :=
  ⟨s.files, s.errors, s.plan, s.limits.workingDir, s.limits.maxXargsInvocations⟩

def apply (s : FileStore) : (e : Edit) → e.Reply × FileStore
  | .write path content => s.write path content
  | .append path content => s.append path content
  | .delete path => s.delete path
  | .rename source target => s.rename source target
  | .addDependency name version => s.addDependency name version
  | .removeDependency name => s.removeDependency name
  | .setTaskStatus id status => s.setTaskStatus id status
  | .clearErrors => ((), s.setErrors [])
  | .rollback => s.rollback

end FileStore

inductive Script (α : Type) : Type
  | done (a : α)
  | look (k : View → Script α)
  | edit (e : Edit) (k : e.Reply → Script α)

namespace Script

variable {α β γ : Type}

def bind (x : Script α) (f : α → Script β) : Script β :=
  match x with
  | done a => f a
  | look k => look (fun v => (k v).bind f)
  | edit e k => edit e (fun r => (k r).bind f)

instance : Monad Script where
  pure := done
  bind := bind

theorem bind_done (x : Script α) : x.bind done = x := by
  induction x with
  | done a => rfl
  | look k ih => simp [bind, ih]
  | edit e k ih => simp [bind, ih]

theorem bind_bind (x : Script α) (f : α → Script β) (g : β → Script γ) :
    (x.bind f).bind g = x.bind (fun a => (f a).bind g) := by
  induction x with
  | done a => rfl
  | look k ih => simp [bind, ih]
  | edit e k ih => simp [bind, ih]

instance : LawfulMonad Script :=
  LawfulMonad.mk' Script bind_done (fun _ _ => rfl) bind_bind

def run (s : FileStore) : Script α → α × FileStore
  | done a => (a, s)
  | look k => run s (k s.view)
  | edit e k => run (s.apply e).2 (k (s.apply e).1)

@[simp]
theorem run_pure (s : FileStore) (a : α) : run s (pure a) = (a, s) := rfl

@[simp]
theorem run_bind (s : FileStore) (x : Script α) (f : α → Script β) :
    run s (x >>= f) = run (run s x).2 (f (run s x).1) := by
  induction x generalizing s with
  | done a => rfl
  | look k ih => exact ih s.view s
  | edit e k ih => exact ih (s.apply e).1 (s.apply e).2

def read (f : View → α) : Script α := look (fun v => done (f v))

def files : Script FileMap := read View.files

def write (path content : String) : Script (Except StoreError Bool) :=
  edit (.write path content) done

def append (path content : String) : Script (Except StoreError Bool) :=
  edit (.append path content) done

def delete (path : String) : Script (Except StoreError Unit) := edit (.delete path) done

def rename (source target : String) : Script (Except StoreError Unit) :=
  edit (.rename source target) done

def addDependency (name version : String) : Script (Except StoreError DependencyChange) :=
  edit (.addDependency name version) done

def removeDependency (name : String) : Script (Except StoreError Bool) :=
  edit (.removeDependency name) done

def setTaskStatus (id : String) (status : TaskStatus) : Script (Except StoreError Unit) :=
  edit (.setTaskStatus id status) done

def clearErrors : Script Unit := edit .clearErrors done

def rollback : Script Bool := edit .rollback done

@[simp]
theorem run_read (s : FileStore) (f : View → α) : run s (read f) = (f s.view, s) := rfl

@[simp]
theorem run_write (s : FileStore) (path content : String) :
    run s (write path content) = s.write path content := rfl

@[simp]
theorem run_append (s : FileStore) (path content : String) :
    run s (append path content) = s.append path content := rfl

@[simp]
theorem run_delete (s : FileStore) (path : String) : run s (delete path) = s.delete path := rfl

@[simp]
theorem run_rename (s : FileStore) (source target : String) :
    run s (rename source target) = s.rename source target := rfl

@[simp]
theorem run_addDependency (s : FileStore) (name version : String) :
    run s (addDependency name version) = s.addDependency name version := rfl

@[simp]
theorem run_removeDependency (s : FileStore) (name : String) :
    run s (removeDependency name) = s.removeDependency name := rfl

@[simp]
theorem run_setTaskStatus (s : FileStore) (id : String) (status : TaskStatus) :
    run s (setTaskStatus id status) = s.setTaskStatus id status := rfl

@[simp]
theorem run_clearErrors (s : FileStore) : run s clearErrors = ((), s.setErrors []) := rfl

@[simp]
theorem run_rollback (s : FileStore) : run s rollback = s.rollback := rfl

def appendOutput (path text : String) : Script (Except StoreError Bool) := do
  let unfinished := match (← files).read? path with
    | some f => !f.content.isEmpty && f.content.toList.getLast? ≠ some '\n'
    | none => false
  append path (if unfinished then "\n" ++ text else text)

end Script

/-- A script that a fault of the store may end; what was changed before stays. -/
abbrev Attempt := ExceptT StoreError Script

namespace Attempt

def safely {α : Type} (x : Script α) : Attempt α := ExceptT.lift x

def read {α : Type} (f : View → α) : Attempt α := safely (Script.read f)

@[simp]
theorem run_safely {α : Type} (x : Script α) (s : FileStore) :
    Script.run s (safely x).run = (.ok (x.run s).1, (x.run s).2) := by
  simp [safely, ← bind_pure_comp]

@[simp]
theorem run_read {α : Type} (f : View → α) (s : FileStore) :
    Script.run s (read f).run = (.ok (f s.view), s) := by
  simp [read]

end Attempt

end ProjectShell
