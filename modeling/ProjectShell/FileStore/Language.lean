import ProjectShell.FileStore.Path

namespace ProjectShell

inductive Language
  | tsx
  | ts
  | json
  | css
  | md
deriving DecidableEq, Repr

namespace Language

def name : Language → String
  | tsx => "tsx"
  | ts => "ts"
  | json => "json"
  | css => "css"
  | md => "md"

def ofExtension (ext : String) : Language :=
  match ext with
  | "tsx" | "jsx" => tsx
  | "ts" | "js" | "mjs" | "cjs" => ts
  | "json" => json
  | "css" => css
  | _ => md

def ofPath (path : String) : Language :=
  match Text.cutAtLast '.' (Path.baseName path).toList with
  | some (_ :: _, ext) => ofExtension (String.ofList (ext.map Char.toLower))
  | _ => md

end Language

end ProjectShell
