namespace ProjectShell

inductive StoreError
  | notFound (path : String)
  | invalidPath (path : String)
  | patternNotFound (path : String)
  | invalidManifest (detail : String)
  | noPlan
  | taskNotFound (id : String)
deriving DecidableEq, Repr

def StoreError.message : StoreError → String
  | notFound path => "No such file or directory: " ++ path
  | invalidPath path => "invalid path: " ++ path
  | patternNotFound path => "text to replace not found in " ++ path
  | invalidManifest detail => "invalid manifest: " ++ detail
  | noPlan => "no plan has been set"
  | taskNotFound id => "no task with id " ++ id

end ProjectShell
