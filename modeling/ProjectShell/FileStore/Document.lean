import ProjectShell.FileStore.Basic

namespace ProjectShell.FileStore

def toJson (s : FileStore) : Json :=
  .obj (s.files.entries.map (fun e => (e.1, .str e.2.content)))

def documentFiles : Json.Members → Except StoreError (List (String × String))
  | [] => .ok []
  | (path, .str content) :: rest =>
      match documentFiles rest with
      | .ok files => .ok ((path, content) :: files)
      | .error e => .error e
  | (path, _) :: _ => .error (.invalidManifest ("content of " ++ path ++ " is not a string"))

def ofJson (document : Json) (limits : Limits) (now : Timestamp) : Except StoreError FileStore :=
  match document with
  | .obj members =>
      match documentFiles members with
      | .ok files => ofFiles files limits now
      | .error e => .error e
  | _ => .error (.invalidManifest "session document is not an object")

end ProjectShell.FileStore
