import Mathlib.Data.List.Induction
import ProjectShell.Proofs.Faults
import ProjectShell.Shell.Line

namespace ProjectShell

def joinOutputs (texts : List String) : String := texts.foldl joinOutput ""

def unfinished (text : String) : Bool := !text.isEmpty && text.toList.getLast? ≠ some '\n'

def onNewLine (content text : String) : String :=
  content ++ if unfinished content then "\n" ++ text else text

def lineLeft (texts : List String) : String :=
  if joinOutputs texts ≠ "" ∧ texts.getLast? = some "" then "\n" else ""

section Texts

variable {a b text : String} {texts : List String}

theorem unfinished_iff : unfinished a = true ↔ a ≠ "" ∧ a.toList.getLast? ≠ some '\n' := by
  simp [unfinished]

theorem eq_empty_or_unfinished (h : text.toList.getLast? ≠ some '\n') :
    text = "" ∨ unfinished text = true :=
  (em (text = "")).imp_right (fun hne => unfinished_iff.2 ⟨hne, h⟩)

theorem unfinished_append (h : unfinished b = true) (a : String) : unfinished (a ++ b) = true := by
  obtain ⟨hne, hlast⟩ := unfinished_iff.1 h
  have hb : b.toList ≠ [] := by simpa using hne
  refine unfinished_iff.2 ⟨by simp [hne], ?_⟩
  rwa [String.toList_append, List.getLast?_append_of_ne_nil _ hb]

theorem onNewLine_of_unfinished (h : unfinished a = true) (text : String) :
    onNewLine a text = a ++ "\n" ++ text := by
  rw [onNewLine, if_pos h, String.append_assoc]

theorem onNewLine_endLine (a text : String) : onNewLine (a ++ "\n") text = a ++ "\n" ++ text := by
  have h : unfinished (a ++ "\n") = false := by simp [unfinished]
  simp [onNewLine, h]

theorem onNewLine_empty (a : String) :
    onNewLine a "" = a ++ if unfinished a then "\n" else "" := by
  rw [onNewLine]
  cases unfinished a <;> rfl

theorem joinOutputs_concat (texts : List String) (text : String) :
    joinOutputs (texts ++ [text]) = joinOutput (joinOutputs texts) text := List.foldl_concat ..

theorem joinOutputs_cases (h : ∀ t ∈ texts, t.toList.getLast? ≠ some '\n') :
    joinOutputs texts = "" ∨ unfinished (joinOutputs texts) = true := by
  induction texts using List.reverseRecOn with
  | nil => exact .inl rfl
  | append_singleton texts t ih =>
    rw [joinOutputs_concat]
    rcases eq_empty_or_unfinished (h t (by simp)) with rfl | ht
    · exact ih (fun u hu => h u (by simp [hu]))
    · rw [joinOutput]
      have hne : t.isEmpty = false := by simpa using (unfinished_iff.1 ht).1
      rw [hne, if_neg Bool.false_ne_true]
      split
      · exact .inr ht
      · exact .inr (unfinished_append ht _)

theorem lineLeft_concat (texts : List String) (text : String) :
    lineLeft (texts ++ [text]) =
      if joinOutput (joinOutputs texts) text ≠ "" ∧ text = "" then "\n" else "" := by
  simp only [lineLeft, joinOutputs_concat, List.getLast?_concat, Option.some_inj]

theorem lineLeft_eq_empty_iff :
    lineLeft texts = "" ↔ joinOutputs texts = "" ∨ texts.getLast? ≠ some "" := by
  rw [lineLeft]
  split
  · rename_i hleft
    simp [hleft]
  · rename_i hleft
    simpa [or_iff_not_imp_left] using hleft

theorem onNewLine_joinOutputs (h : ∀ t ∈ texts ++ [text], t.toList.getLast? ≠ some '\n') :
    onNewLine (joinOutputs texts ++ lineLeft texts) text =
      joinOutputs (texts ++ [text]) ++ lineLeft (texts ++ [text]) := by
  have hfronts : ∀ t ∈ texts, t.toList.getLast? ≠ some '\n' := fun t ht => h t (by simp [ht])
  rw [lineLeft_concat, joinOutputs_concat]
  rcases joinOutputs_cases hfronts with hj | hj
  · -- Nothing but empty outputs so far: the file is empty.
    have hnone : lineLeft texts = "" := if_neg (by simp [hj])
    rw [hnone, hj, joinOutput_empty_left]
    have hnot : ¬(text ≠ "" ∧ text = "") := fun hand => hand.1 hand.2
    simp [onNewLine, unfinished, hnot]
  · have hne : joinOutputs texts ≠ "" := (unfinished_iff.1 hj).1
    have hnew : onNewLine (joinOutputs texts ++ lineLeft texts) text =
        joinOutputs texts ++ "\n" ++ text := by
      rw [lineLeft]
      split
      · exact onNewLine_endLine ..
      · rw [String.append_empty]
        exact onNewLine_of_unfinished hj text
    rw [hnew]
    by_cases ht : text = ""
    · subst ht
      rw [joinOutput_empty_right, if_pos ⟨hne, rfl⟩, String.append_empty]
    · rw [joinOutput_of_nonempty (by simpa using hne) (by simpa using ht),
        if_neg (fun hand => ht hand.2), String.append_empty]

end Texts

namespace FileStore

def content? (s : FileStore) (path : String) : Option String := (s.read? path).map File.content

def appendOutputs (s : FileStore) (path : String) (texts : List String) : FileStore :=
  texts.foldl (fun s text => ((Script.appendOutput path text).run s).2) s

variable {s : FileStore} {path key : String} {texts : List String}

theorem appendOutputs_concat (s : FileStore) (path : String) (texts : List String) (text : String) :
    s.appendOutputs path (texts ++ [text]) =
      ((Script.appendOutput path text).run (s.appendOutputs path texts)).2 := List.foldl_concat ..

theorem run_appendOutput (s : FileStore) (path text : String) :
    (Script.appendOutput path text).run s =
      s.write path (onNewLine ((s.content? path).getD "") text) := by
  have hview : s.view.files.read? path = s.read? path := rfl
  have hrun : (Script.appendOutput path text).run s = s.append path
      (if unfinished ((s.content? path).getD "") then "\n" ++ text else text) := by
    rw [Script.appendOutput, Script.files, Script.run_bind, Script.run_read, hview, content?]
    cases s.read? path <;> rfl
  exact hrun

theorem content?_appendOutput (hn : Path.normalize path = .ok key) (s : FileStore) (text : String) :
    ((Script.appendOutput path text).run s).2.content? path =
      some (onNewLine ((s.content? path).getD "") text) := by
  rw [run_appendOutput, content?, read?_write_of_normalize hn]
  rfl

theorem appendOutputs_of_error {e : StoreError} (he : Path.normalize path = .error e)
    (s : FileStore) (texts : List String) : s.appendOutputs path texts = s := by
  induction texts using List.reverseRecOn with
  | nil => rfl
  | append_singleton texts t ih =>
    rw [appendOutputs_concat, ih, run_appendOutput, write, he]

theorem content?_appendOutputs (hn : Path.normalize path = .ok key) (hnew : s.read? path = none)
    (hends : ∀ t ∈ texts, t.toList.getLast? ≠ some '\n') :
    (s.appendOutputs path texts).content? path =
      if texts = [] then none else some (joinOutputs texts ++ lineLeft texts) := by
  -- From the last output back: that one alone decides whether a line end is left.
  induction texts using List.reverseRecOn with
  | nil =>
    rw [if_pos rfl, content?]
    exact congrArg (Option.map File.content) hnew
  | append_singleton texts t ih =>
    have hbefore : ((s.appendOutputs path texts).content? path).getD "" =
        joinOutputs texts ++ lineLeft texts := by
      rw [ih (fun u hu => hends u (by simp [hu]))]
      split
      · rename_i hnil
        rw [hnil]
        rfl
      · rfl
    rw [appendOutputs_concat, content?_appendOutput hn, hbefore, onNewLine_joinOutputs hends,
      if_neg (by simp)]

end FileStore

theorem Stage.store_putStdout (stage : Stage) {path : String}
    (hto : stage.stdout = some ⟨path, true⟩) (hpath : path ≠ devNull) (o : Outcome) (s : FileStore) :
    ((stage.putStdout o).run s).2 = s.appendOutputs path [o.stdout] := by
  have hput : ((Redirect.put ⟨path, true⟩ o.stdout).run s).2 = s.appendOutputs path [o.stdout] := by
    rw [Redirect.put, if_neg hpath, if_pos rfl, Script.run_bind]
    dsimp only
    split <;> rfl
  rw [putStdout, hto]
  dsimp only
  rw [Script.run_bind, ← hput]
  split <;> rfl

theorem Command.store_tee (path : String) (text : String) (s : FileStore) :
    ((dispatch "tee" ["-a", "--", path] (some text)).run s).2 = s.appendOutputs path [text] := by
  have hname : dispatch "tee" ["-a", "--", path] (some text) =
      Command.tee ["-a", "--", path] (some text) :=
    dispatch_of_safely (b := .tee) rfl
  have hparse : (teeTable.parse ["-a", "--", path]).operands = [path] := rfl
  have happend : (teeTable.parse ["-a", "--", path]).has "append" = true := rfl
  have hoperand : ((teeOperand true text path).run s).2 = s.appendOutputs path [text] := by
    rw [teeOperand, if_pos rfl, Script.run_bind]
    dsimp only
    split <;> rfl
  rw [hname, tee]
  simp only [hparse, happend, Option.getD_some]
  rw [Script.run_bind, Report.forEach, Script.run_bind, ← hoperand]
  rfl

theorem FileStore.appendOutputs_joined {s : FileStore} {path : String} {texts : List String}
    (hnew : s.read? path = none) (hends : ∀ t ∈ texts, t.toList.getLast? ≠ some '\n') :
    (∀ e, Path.normalize path = .error e → s.appendOutputs path texts = s) ∧
    (∀ key, Path.normalize path = .ok key →
      (s.appendOutputs path texts).content? path =
        (if texts = [] then none else some (joinOutputs texts ++ lineLeft texts)) ∧
      (texts ≠ [] →
        ((s.appendOutputs path texts).content? path = some (joinOutputs texts) ↔
          joinOutputs texts = "" ∨ texts.getLast? ≠ some ""))) ∧
    (∀ (s' : FileStore) (file : File), s'.read? path = some file →
      (s'.appendOutputs path [""]).content? path =
        some (file.content ++ if unfinished file.content then "\n" else "")) ∧
    (∀ (stage : Stage) (o : Outcome) (s' : FileStore),
      stage.stdout = some ⟨path, true⟩ → path ≠ devNull →
      ((stage.putStdout o).run s').2 = s'.appendOutputs path [o.stdout]) ∧
    (∀ (text : String) (s' : FileStore),
      ((dispatch "tee" ["-a", "--", path] (some text)).run s').2 =
        s'.appendOutputs path [text]) := by
  refine ⟨fun e he => appendOutputs_of_error he s texts, fun key hn => ?_, fun s' file hfile => ?_,
    fun stage o s' hto hpath => stage.store_putStdout hto hpath o s',
    fun text s' => Command.store_tee path text s'⟩
  · have hcontent := content?_appendOutputs hn hnew hends
    refine ⟨hcontent, fun hne => ?_⟩
    rw [hcontent, if_neg hne, Option.some_inj, String.append_eq_left_iff, lineLeft_eq_empty_iff]
  · obtain ⟨key, -, hn⟩ := FileMap.exists_key_of_read? hfile
    have hbefore : (s'.content? path).getD "" = file.content := by rw [content?, hfile]; rfl
    have hafter := content?_appendOutput hn s' ""
    rw [hbefore, onNewLine_empty] at hafter
    exact hafter

theorem FileStore.appendOutputs_joined_between :
    (FileStore.new ⟨0⟩).read? "log" = none ∧
    (∀ t ∈ ["one", "", "two"], t.toList.getLast? ≠ some '\n') ∧
    ((FileStore.new ⟨0⟩).appendOutputs "log" ["one", "", "two"]).content? "log" =
      some "one\ntwo" := by
  have hnew : (FileStore.new ⟨0⟩).read? "log" = none := rfl
  have hends : ∀ t ∈ ["one", "", "two"], t.toList.getLast? ≠ some '\n' := by decide
  have hn : Path.normalize "log" = .ok "log" := by decide +kernel
  have hcontent := ((appendOutputs_joined hnew hends).2.1 "log" hn).1
  exact ⟨hnew, hends, hcontent⟩

theorem FileStore.appendOutputs_ends_line :
    let s := ((FileStore.new ⟨0⟩).execute "echo one >> log").2
    let t := (s.execute "true >> log").2
    s.content? "log" = some "one" ∧ t.content? "log" = some "one\n" ∧
    ((FileStore.new ⟨0⟩).appendOutputs "log" ["one", ""]).content? "log" = some "one\n" ∧
    joinOutputs ["one", ""] = "one" := by
  decide +kernel

end ProjectShell
