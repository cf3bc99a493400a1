import ProjectShell.FileStore.History
import ProjectShell.FileStore.Plan
import ProjectShell.Limits.Basic

namespace ProjectShell

/-- `now` is what the clock says at the call or the command line under way. -/
structure FileStore where
  files : FileMap
  errors : List String
  plan : Option Plan
  history : History
  limits : Limits
  now : Timestamp
deriving DecidableEq

namespace FileStore

def withLimits (limits : Limits) (now : Timestamp) : FileStore :=
  ⟨∅, [], none, History.new limits.historyDepth, limits, now⟩

def new (now : Timestamp) : FileStore := withLimits {} now

def seededMap (now : Timestamp) (m : FileMap) : List (String × String) → Except StoreError FileMap
  | [] => .ok m
  | (path, content) :: rest =>
      match Path.normalize path with
      | .ok key => seededMap now (m.insert key (File.new key content now)) rest
      | .error e => .error e

def seed (s : FileStore) (files : List (String × String)) : Except StoreError Unit × FileStore :=
  match seededMap s.now ∅ files with
  | .ok m => (.ok (), { s with files := m, history := s.history.clear })
  | .error e => (.error e, s)

def ofFiles (files : List (String × String)) (limits : Limits) (now : Timestamp) :
    Except StoreError FileStore :=
  match (withLimits limits now).seed files with
  | (.ok _, s) => .ok s
  | (.error e, _) => .error e

def read? (s : FileStore) (path : String) : Option File := s.files.read? path

def hasFile (s : FileStore) (path : String) : Bool := s.files.hasFile path

def isDir (s : FileStore) (dir : String) : Bool := s.files.isDir dir

def change (s : FileStore) (files : FileMap) : FileStore :=
  { s with files, history := s.history.push s.files }

/-- Yields whether the file is new. -/
def write (s : FileStore) (path content : String) : Except StoreError Bool × FileStore :=
  match Path.normalize path with
  | .ok key =>
      (.ok (!s.files.contains key), s.change (s.files.insert key (File.new key content s.now)))
  | .error e => (.error e, s)

def append (s : FileStore) (path content : String) : Except StoreError Bool × FileStore :=
  s.write path (((s.read? path).map File.content).getD "" ++ content)

def delete (s : FileStore) (path : String) : Except StoreError Unit × FileStore :=
  match Path.normalize path with
  | .ok key =>
      if s.files.contains key then (.ok (), s.change (s.files.erase key))
      else (.error (.notFound path), s)
  | .error e => (.error e, s)

def rename (s : FileStore) (source target : String) : Except StoreError Unit × FileStore :=
  match Path.normalize source, Path.normalize target with
  | .ok sourceKey, .ok targetKey =>
      match s.files.get? sourceKey with
      | none => (.error (.notFound source), s)
      | some file =>
          if sourceKey = targetKey then (.ok (), s)
          else
            (.ok (), s.change ((s.files.erase sourceKey).insert targetKey
              (File.new targetKey file.content file.modified)))
  | .error e, _ => (.error e, s)
  | _, .error e => (.error e, s)

def patch (s : FileStore) (path old new : String) : Except StoreError Unit × FileStore :=
  match s.read? path with
  | none => (.error (.notFound path), s)
  | some file =>
      if old.isEmpty || !Text.occursIn old file.content then (.error (.patternNotFound path), s)
      else
        match s.write path (Text.replaceFirst old new file.content) with
        | (.ok _, s') => (.ok (), s')
        | (.error e, s') => (.error e, s')

def rollback (s : FileStore) : Bool × FileStore :=
  match s.history.pop? with
  | some (files, history) => (true, { s with files, history })
  | none => (false, s)

def setErrors (s : FileStore) (errors : List String) : FileStore := { s with errors }

def addError (s : FileStore) (error : String) : FileStore :=
  { s with errors := s.errors ++ [error] }

def setPlan (s : FileStore) (tasks : List Task) : FileStore := { s with plan := some ⟨tasks⟩ }

def setTaskStatus (s : FileStore) (id : String) (status : TaskStatus) :
    Except StoreError Unit × FileStore :=
  match s.plan with
  | none => (.error .noPlan, s)
  | some plan =>
      match Plan.setStatus id status plan.tasks with
      | none => (.error (.taskNotFound id), s)
      | some tasks => (.ok (), { s with plan := some ⟨tasks⟩ })

end FileStore

end ProjectShell
