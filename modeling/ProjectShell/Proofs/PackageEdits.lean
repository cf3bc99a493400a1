import ProjectShell.Proofs.CommandRequests
import ProjectShell.Proofs.Faults
import ProjectShell.Proofs.ManifestEdits

namespace ProjectShell

open Attempt

namespace Attempt

theorem completes_foldl {σ γ : Type} {P : σ → FileStore → Prop} {step : σ → γ → σ}
    {f : γ → Attempt Report} (h : ∀ m x, Completes (P m) (f x) (fun _ => P (step m x)))
    (xs : List γ) (m : σ) :
    Completes (P m) (Report.forEach f xs) (fun _ => P (xs.foldl step m)) := by
  induction xs generalizing m with
  | nil => exact completes_done _
  | cons x xs ih =>
    rw [Report.forEach]
    exact (h m x).bind (fun _ => (ih (step m x)).bind (fun _ => completes_done _))

def Refused (s : FileStore) (e : StoreError) (x : Attempt Report) : Prop :=
  (∃ r, Script.run s x.run = (.ok r, s)) ∨ Script.run s x.run = (.error e, s)

theorem refused_pure (s : FileStore) (e : StoreError) (r : Report) : Refused s e (pure r) :=
  .inl ⟨r, rfl⟩

theorem run_bind_of_error {α β : Type} {s t : FileStore} {x : Attempt α} {e : StoreError}
    (h : Script.run s x.run = (.error e, t)) (f : α → Attempt β) :
    Script.run s (x >>= f).run = (.error e, t) := by
  rw [ExceptT.run_bind, Script.run_bind, h]
  rfl

theorem refused_forEach {γ : Type} {s : FileStore} {e : StoreError} {f : γ → Attempt Report}
    (h : ∀ x, Refused s e (f x)) (xs : List γ) : Refused s e (Report.forEach f xs) := by
  induction xs with
  | nil => exact refused_pure s e {}
  | cons x xs ih =>
    rw [Report.forEach]
    rcases h x with ⟨r, hx⟩ | hx
    · rcases ih with ⟨r', hxs⟩ | hxs
      · refine .inl ⟨r ++ r', ?_⟩
        rw [run_bind_of_ok hx, run_bind_of_ok hxs]
        rfl
      · refine .inr ?_
        rw [run_bind_of_ok hx, run_bind_of_error hxs]
    · exact .inr (run_bind_of_error hx _)

end Attempt

namespace Command.Npm

def settled (installed listed : SortedMap String) (p : String) : SortedMap String :=
  if (specName p).isEmpty then listed
  else
    match specVersion p, installed.get? (specName p) with
    | none, some _ => listed
    | requested, _ => listed.insert (specName p) (requested.getD "latest")

theorem completes_addDependency (listed : SortedMap String) (name version : String) :
    Completes (fun s => s.Editable ∧ s.dependencies = listed)
      (ExceptT.mk (Script.addDependency name version))
      (fun _ s => s.Editable ∧ s.dependencies = listed.insert name version) := by
  rintro s ⟨hs, rfl⟩
  exact FileStore.addDependency_of_editable hs name version

theorem completes_installOne (installed listed : SortedMap String) (p : String) :
    Completes (fun s => s.Editable ∧ s.dependencies = listed) (installOne installed p)
      (fun _ s => s.Editable ∧ s.dependencies = settled installed listed p) := by
  rw [installOne, settled]
  dsimp only
  split
  · exact completes_done _
  · cases specVersion p with
    | some version =>
      refine (completes_addDependency listed _ _).bind (fun change => ?_)
      cases change <;> exact completes_done _
    | none =>
      cases installed.get? (specName p) with
      | some pinned => exact completes_done _
      | none =>
        refine (completes_addDependency listed _ _).bind (fun change => ?_)
        cases change <;> exact completes_done _

theorem run_addDependency_of_error {s : FileStore} {e : StoreError} (h : s.manifest = .error e)
    (name version : String) :
    Script.run s (ExceptT.mk (Script.addDependency name version)).run = (.error e, s) :=
  FileStore.addDependency_of_error h name version

theorem refused_installOne {s : FileStore} {e : StoreError} (h : s.manifest = .error e)
    (installed : SortedMap String) (p : String) : Refused s e (installOne installed p) := by
  rw [installOne]
  dsimp only
  split
  · exact refused_pure s e _
  · split
    · exact refused_pure s e _
    · exact .inr (run_bind_of_error (run_addDependency_of_error h _ _) _)

theorem completes_uninstallOne (p : String) :
    Completes FileStore.Editable (uninstallOne p) (fun _ => FileStore.Editable) := by
  have hremove : Completes FileStore.Editable (ExceptT.mk (Script.removeDependency (specName p)))
      (fun _ => FileStore.Editable) :=
    fun s hs => FileStore.removeDependency_of_editable hs (specName p)
  refine hremove.bind (fun listed => ?_)
  cases listed <;> exact completes_done _

theorem refused_uninstallOne {s : FileStore} {e : StoreError} (h : s.manifest = .error e)
    (p : String) : Refused s e (uninstallOne p) := by
  refine .inr (run_bind_of_error ?_ _)
  exact FileStore.removeDependency_of_error h (specName p)

def each? : String → Option (SortedMap String → String → Attempt Report)
  | "install" | "i" | "add" => some installOne
  | "uninstall" | "remove" | "rm" | "un" => some (fun _ => uninstallOne)
  | _ => none

def packages (args : List String) : List String := args.filter (fun a => !Text.startsWith "-" a)

section Each

variable {command : String} {each : SortedMap String → String → Attempt Report}

theorem each?_cases (h : each? command = some each) :
    (each = installOne ∧
      ∀ args, run (command :: args) = reported (install (packages args))) ∨
    (each = (fun _ => uninstallOne) ∧
      ∀ args, run (command :: args) = reported (uninstall (packages args))) := by
  rw [each?.eq_def] at h
  split at h
  case h_1 | h_2 | h_3 =>
    cases h
    exact .inl ⟨rfl, fun _ => rfl⟩
  case h_4 | h_5 | h_6 | h_7 =>
    cases h
    exact .inr ⟨rfl, fun _ => rfl⟩
  case h_8 => cases h

theorem completes_each (h : each? command = some each) (installed : SortedMap String) (p : String) :
    Completes FileStore.Editable (each installed p) (fun _ => FileStore.Editable) := by
  rcases each?_cases h with ⟨rfl, -⟩ | ⟨rfl, -⟩
  · intro s hs
    obtain ⟨r, t, hrun, ht, -⟩ := completes_installOne installed s.dependencies p s ⟨hs, rfl⟩
    exact ⟨r, t, hrun, ht⟩
  · exact completes_uninstallOne p

theorem refused_each (h : each? command = some each) {s : FileStore} {e : StoreError}
    (he : s.manifest = .error e) (installed : SortedMap String) (p : String) :
    Refused s e (each installed p) := by
  rcases each?_cases h with ⟨rfl, -⟩ | ⟨rfl, -⟩
  · exact refused_installOne he installed p
  · exact refused_uninstallOne he p

theorem run_of_each? (h : each? command = some each) (s : FileStore) {args : List String}
    (hargs : packages args ≠ []) :
    (run (command :: args)).run s =
      (reported (Report.forEach (each s.dependencies) (packages args))).run s := by
  have hempty : ¬ (packages args).isEmpty := by simpa using hargs
  rcases each?_cases h with ⟨rfl, hrun⟩ | ⟨rfl, hrun⟩
  · rw [hrun, install]
    simp only [if_neg hempty]
    rfl
  · rw [hrun, uninstall, if_neg hempty]

theorem run_of_no_packages (h : each? command = some each) (s : FileStore) {args : List String}
    (hargs : packages args = []) : ((run (command :: args)).run s).2 = s := by
  rcases each?_cases h with ⟨-, hrun⟩ | ⟨-, hrun⟩ <;> rw [hrun, hargs] <;> rfl

end Each

end Command.Npm

open Command

theorem dispatch_npm (args : List String) (stdin : Option String) :
    dispatch "npm" args stdin = Npm.run args :=
  dispatch_of_safely (b := .npm) rfl

theorem reported_of_ok {s t : FileStore} {x : Attempt Report} {r : Report}
    (h : Script.run s x.run = (.ok r, t)) : (Npm.reported x).run s = (r.outcome, t) := by
  rw [Npm.reported, Script.run_bind, h]
  rfl

theorem reported_of_error {s t : FileStore} {x : Attempt Report} {e : StoreError}
    (h : Script.run s x.run = (.error e, t)) :
    (Npm.reported x).run s = (.failure ("npm: " ++ e.message), t) := by
  rw [Npm.reported, Script.run_bind, h]
  rfl

theorem forEach_each_ends {s : FileStore} (hfloats : s.FloatsReadBack) {command : String}
    {each : SortedMap String → String → Attempt Report} (heach : Npm.each? command = some each)
    (ps : List String) :
    (∃ r t, Script.run s (Report.forEach (each s.dependencies) ps).run = (.ok r, t) ∧
      (t = s ∨ t.Editable)) ∨
    ∃ detail, s.manifest = .error (.invalidManifest detail) ∧
      Script.run s (Report.forEach (each s.dependencies) ps).run =
        (.error (.invalidManifest detail), s) := by
  cases hm : s.manifest with
  | ok members =>
    have hs := FileStore.editable_of_manifest hfloats hm
    obtain ⟨r, t, hrun, ht⟩ :=
      completes_forEach (fun p _ => Npm.completes_each heach s.dependencies p) s hs
    exact .inl ⟨r, t, hrun, .inr ht⟩
  | error e =>
    obtain ⟨detail, rfl⟩ := FileStore.eq_invalidManifest hm
    rcases refused_forEach (Npm.refused_each heach hm s.dependencies) ps with ⟨r, hrun⟩ | hrun
    · exact .inl ⟨r, s, hrun, .inl rfl⟩
    · exact .inr ⟨detail, rfl, hrun⟩

theorem npm_edits_all_or_nothing {s : FileStore} (hfloats : s.FloatsReadBack) {command : String}
    {each : SortedMap String → String → Attempt Report} (heach : Npm.each? command = some each)
    (args : List String) (stdin : Option String) :
    let one := each s.dependencies
    let packages := Npm.packages args
    let npm := (dispatch "npm" (command :: args) stdin).run s
    (packages = [] → npm.2 = s) ∧
    (packages ≠ [] →
      (∃ r t, Script.run s (Report.forEach one packages).run = (.ok r, t) ∧
        npm = (r.outcome, t)) ∨
      ∃ detail, s.manifest = .error (.invalidManifest detail) ∧
        Script.run s (Report.forEach one packages).run = (.error (.invalidManifest detail), s) ∧
        npm = (.failure ("npm: invalid manifest: " ++ detail), s)) ∧
    ∀ before p after r t, packages = before ++ p :: after →
      Script.run s (Report.forEach one before).run = (.ok r, t) → t ≠ s →
      ∃ r' t', Script.run t (one p).run = (.ok r', t') := by
  intro one packages npm
  have hnpm : npm = (Npm.run (command :: args)).run s :=
    congrArg (Script.run s) (dispatch_npm (command :: args) stdin)
  refine ⟨?_, ?_, ?_⟩
  · intro hargs
    rw [hnpm]
    exact Npm.run_of_no_packages heach s hargs
  · intro hargs
    rw [hnpm, Npm.run_of_each? heach s hargs]
    rcases forEach_each_ends hfloats heach packages with ⟨r, t, hrun, -⟩ | ⟨detail, hm, hrun⟩
    · exact .inl ⟨r, t, hrun, reported_of_ok hrun⟩
    · exact .inr ⟨detail, hm, hrun, reported_of_error hrun⟩
  · intro before p after r t _ hbefore hne
    rcases forEach_each_ends hfloats heach before with ⟨r', t', hrun, ht⟩ | ⟨detail, -, hrun⟩
    · cases hbefore.symm.trans hrun
      have ht' : t.Editable := ht.resolve_left hne
      obtain ⟨r', t', hp, -⟩ := Npm.completes_each heach s.dependencies p t ht'
      exact ⟨r', t', hp⟩
    · cases hbefore.symm.trans hrun

theorem npm_edits_all_or_nothing_pair :
    let invalid := ((FileStore.new ⟨0⟩).write "package.json" "\x7b not json").2
    let fault := "package.json: key must be a string at line 1 column 3"
    let empty := FileStore.new ⟨0⟩
    let args := ["zod@3", "-D", "lodash"]
    Npm.each? "add" = some Npm.installOne ∧
      (invalid.FloatsReadBack ∧ (dispatch "npm" ("add" :: args) none).run invalid =
        (.failure ("npm: invalid manifest: " ++ fault), invalid)) ∧
      empty.FloatsReadBack ∧ ∃ r t r' t',
        Script.run empty (Report.forEach (Npm.installOne empty.dependencies) ["zod@3"]).run =
          (.ok r, t) ∧ t ≠ empty ∧
        Script.run t (Npm.installOne empty.dependencies "lodash").run = (.ok r', t') := by
  intro invalid fault empty args
  have heach : Npm.each? "add" = some Npm.installOne := rfl
  have hpackages : Npm.packages args = ["zod@3", "lodash"] := by decide
  refine ⟨heach, ?_, ?_⟩
  · have htext : Manifest.ofText "\x7b not json" = .error (.invalidManifest fault) := by cbv
    have hm : invalid.manifest = _ := (FileStore.manifest_write empty _).trans htext
    clear_value invalid
    have hfloats : invalid.FloatsReadBack := by
      intro members h
      cases hm.symm.trans h
    have hname : Npm.specName "zod@3" = "zod" := by decide
    have hversion : Npm.specVersion "zod@3" = some "3" := by decide
    have hfirst : Script.run invalid (Npm.installOne invalid.dependencies "zod@3").run =
        (.error (.invalidManifest fault), invalid) := by
      rw [Npm.installOne, hname, hversion]
      exact run_bind_of_error (Npm.run_addDependency_of_error hm "zod" "3") _
    obtain ⟨-, hends, -⟩ := npm_edits_all_or_nothing hfloats heach args none
    rw [hpackages] at hends
    rcases hends (List.cons_ne_nil _ _) with ⟨r, t, hok, -⟩ | ⟨detail, hdetail, -, hnpm⟩
    · cases (run_bind_of_error hfirst _).symm.trans hok
    · cases hm.symm.trans hdetail
      exact ⟨hfloats, hnpm⟩
  · have hfloats : empty.FloatsReadBack := FileStore.floatsReadBack_new ⟨0⟩
    obtain ⟨r, t, hrun, -, hdeps⟩ := completes_foldl (Npm.completes_installOne empty.dependencies)
      ["zod@3"] empty.dependencies empty ⟨FileStore.editable_new ⟨0⟩, rfl⟩
    have hne : t ≠ empty := by
      rintro rfl
      exact absurd (congrArg (fun m => m.get? "zod") hdeps) (by decide)
    obtain ⟨-, -, hlater⟩ := npm_edits_all_or_nothing hfloats heach args none
    obtain ⟨r', t', hrun'⟩ := hlater ["zod@3"] "lodash" [] r t hpackages hrun hne
    exact ⟨hfloats, r, t, r', t', hrun, hne, hrun'⟩

end ProjectShell
