import ProjectShell.Proofs.Operands
import ProjectShell.Proofs.Relocation

namespace ProjectShell

namespace Path

theorem holds_or_holds_of_append {dir place a b : String}
    (h : dir ++ "/" ++ a = place ++ "/" ++ b) : Holds dir place ∨ Holds place dir := by
  have hchars : dir.toList ++ '/' :: a.toList = place.toList ++ '/' :: b.toList := by
    simpa using congrArg String.toList h
  have hbelow {d p : List Char} {x y : List Char} (he : d ++ '/' :: x = p ++ '/' :: y)
      (hlen : d.length ≤ p.length) : p = d ∨ ∃ rest, p = d ++ '/' :: rest := by
    obtain ⟨more, rfl⟩ := List.prefix_of_prefix_length_le
      ⟨'/' :: x, he⟩ (List.prefix_append p ('/' :: y)) hlen
    rw [List.append_assoc, List.append_cancel_left_eq] at he
    cases more with
    | nil => exact .inl (List.append_nil d)
    | cons c more =>
      obtain ⟨rfl, -⟩ := List.cons.inj he
      exact .inr ⟨more, rfl⟩
  have hholds {d p : String}
      (h : p.toList = d.toList ∨ ∃ rest, p.toList = d.toList ++ '/' :: rest) : Holds d p := by
    rcases h with h | ⟨rest, h⟩
    · exact .inr (.inl (String.toList_inj.1 h))
    · refine .inr (.inr ⟨String.ofList rest, ?_⟩)
      rw [← String.toList_inj, h]
      simp
  rcases Nat.le_total dir.toList.length place.toList.length with hlen | hlen
  · exact .inl (hholds (hbelow hchars hlen))
  · exact .inr (hholds (hbelow hchars.symm hlen))

end Path

namespace Command.Transfer

def directoryArgs (t : Transfer) (source destination : String) : List String :=
  match t with
  | .move => [source, destination]
  | .copy => ["-r", source, destination]

theorem parse_directoryArgs (t : Transfer) {source destination : String}
    (hs : source.toList.head? ≠ some '-') (hd : destination.toList.head? ≠ some '-') :
    (t.table.parse (t.directoryArgs source destination)).operands = [source, destination] ∧
      (t = .move ∨
        (t.table.parse (t.directoryArgs source destination)).has "recursive" = true) := by
  have hne {a : String} (ha : a.toList.head? ≠ some '-') : a ≠ "--" := by
    rintro rfl
    exact ha rfl
  cases t with
  | move =>
    simp [directoryArgs, OptionTable.parse, OptionTable.parseFrom, hne hs, hne hd,
      OptionTable.argument_operand hs, OptionTable.argument_operand hd, Options.addOperand]
  | copy =>
    have hr : Transfer.copy.table.argument {} "-r" = ({ switches := ["recursive"] }, none) := by
      decide +kernel
    simp [directoryArgs, OptionTable.parse, OptionTable.parseFrom, hne hs, hne hd, hr,
      OptionTable.argument_operand hs, OptionTable.argument_operand hd, Options.addOperand,
      Options.has]

theorem dispatch_directory {s : FileStore} (t : Transfer) {source destination dir : String}
    (hs : source.toList.head? ≠ some '-') (hd : destination.toList.head? ≠ some '-')
    (hfile : s.files.hasFile source = false) (hdir : s.view.existingDir? source = some dir)
    (hroot : dir ≠ "") (stdin : Option String) :
    (dispatch t.name (t.directoryArgs source destination) stdin).run s =
      let r := (Report.forEach (fun p => t.fileReported p
        (rebased (target s.files source destination) dir p)) (s.files.pathsUnder dir)).run s
      (r.1.outcome, r.2) := by
  obtain ⟨hoperands, hrecursive⟩ := parse_directoryArgs t hs hd
  have hr : (decide (t = .move) ||
      (t.table.parse (t.directoryArgs source destination)).has "recursive") = true := by
    rcases hrecursive with rfl | hrecursive
    · rfl
    · rw [hrecursive, Bool.or_true]
  rw [run_dispatch, run_pair hoperands, hr, run_operand_directory hfile hdir hroot]

theorem trimmed_target {files : FileMap} {source destination : String}
    (hs : Path.Trimmed source.toList) (hd : Path.Trimmed destination.toList) :
    Path.Trimmed (target files source destination).toList := by
  rw [target]
  split
  · exact (Path.named_inside (List.mem_singleton_self destination) hd hs).1
  · exact hd

section Run

variable {s : FileStore} {target dir place : String}

theorem exists_rest_of_mem_pathsUnder (hw : s.files.WellKept) (hs : s.files.Trimmed)
    (htarget : Path.Trimmed target.toList) (hdir : dir ≠ "") (hplace : place ≠ "")
    (hnormal : Path.normalizeDir target = .ok place) {p : String}
    (hp : p ∈ s.files.pathsUnder dir) :
    ∃ rest : String, p = dir ++ "/" ++ rest ∧
      Path.normalize (rebased target dir p) = .ok (place ++ "/" ++ rest) := by
  obtain ⟨hkey, hu⟩ := FileMap.mem_pathsUnder.1 hp
  obtain ⟨rest, rfl⟩ := Path.exists_rest_of_under hu hdir
  obtain ⟨hkeyrest, htrimrest⟩ := FileMap.isKey_and_trimmed_rest hw hs hkey
  refine ⟨rest, rfl, ?_⟩
  rw [rebased_append]
  exact Path.normalize_below htarget hnormal hplace hkeyrest htrimrest

theorem run_forEach_directory (hw : s.files.WellKept) (hs : s.files.Trimmed) (t : Transfer)
    (htarget : Path.Trimmed target.toList) (hdir : dir ≠ "")
    (hnormal : Path.normalizeDir target = .ok place)
    (hdp : ¬ Path.Holds dir place) (hpd : ¬ Path.Holds place dir) :
    ∃ s', (Report.forEach (fun p => t.fileReported p (rebased target dir p))
        (s.files.pathsUnder dir)).run s = (({} : Report), s') ∧
      (∀ rest, dir ++ "/" ++ rest ∈ s.files.keys →
        (s'.files.get? (place ++ "/" ++ rest)).map File.content =
          (s.files.get? (dir ++ "/" ++ rest)).map File.content) ∧
      (∀ key, Path.under dir key = true →
        s'.files.get? key = if t = .move then none else s.files.get? key) ∧
      ∀ key, Path.under dir key = false →
        (∀ rest, dir ++ "/" ++ rest ∈ s.files.keys → key ≠ place ++ "/" ++ rest) →
        s'.files.get? key = s.files.get? key := by
  have hplace : place ≠ "" := fun h => hpd (.inl h)
  have hcut (p : String) (hp : p ∈ s.files.pathsUnder dir) :=
    exists_rest_of_mem_pathsUnder hw hs htarget hdir hplace hnormal hp
  choose! rest hrest hkey using hcut
  have hdisjoint (a b : String) : dir ++ "/" ++ a ≠ place ++ "/" ++ b :=
    fun h => (Path.holds_or_holds_of_append h).elim hdp hpd
  have hinj : ∀ p ∈ s.files.pathsUnder dir, ∀ p' ∈ s.files.pathsUnder dir,
      place ++ "/" ++ rest p = place ++ "/" ++ rest p' → p = p' := by
    intro p hp p' hp' h
    rw [hrest p hp, hrest p' hp', (String.append_right_inj _).1 h]
  have hapart : ∀ p ∈ s.files.pathsUnder dir,
      place ++ "/" ++ rest p ∉ s.files.pathsUnder dir := by
    intro p hp h
    exact hdisjoint _ _ (hrest _ h).symm
  obtain ⟨s', hrun, harrives, hother⟩ := run_forEach_apart (t := t) (s := s)
    (FileMap.nodup_pathsUnder dir)
    (fun p hp => (hw.wellAddressed hs) p (FileMap.mem_pathsUnder.1 hp).1) hkey hinj hapart
    (fun p hp => (FileMap.mem_pathsUnder.1 hp).1)
  refine ⟨s', hrun, ?_, ?_, ?_⟩
  · intro rest' hk
    have hm := FileMap.mem_pathsUnder.2 ⟨hk, Path.under_append dir rest'⟩
    rw [← harrives _ hm, ← (String.append_right_inj _).1 (hrest _ hm)]
  · intro key hu
    obtain ⟨below, hbelow⟩ := Path.exists_rest_of_under hu hdir
    rw [hother key (fun p hp h => hdisjoint _ _ (h.trans hbelow).symm)]
    by_cases hm : key ∈ s.files.pathsUnder dir
    · simp [hm]
    · have hk : key ∉ s.files.keys := fun hk => hm (FileMap.mem_pathsUnder.2 ⟨hk, hu⟩)
      rw [SortedMap.mem_keys_iff, Option.not_isSome_iff_eq_none] at hk
      simp [hk]
  · intro key hu hne
    have hm : key ∉ s.files.pathsUnder dir := fun h => by
      rw [(FileMap.mem_pathsUnder.1 h).2] at hu
      cases hu
    have hnone : ∀ p ∈ s.files.pathsUnder dir, place ++ "/" ++ rest p ≠ key := fun p hp h =>
      hne (rest p) (hrest p hp ▸ (FileMap.mem_pathsUnder.1 hp).1) h.symm
    rw [hother key hnone, if_neg (fun h => hm h.2)]

end Run

end Command.Transfer

open Command

theorem transfer_directory {s : FileStore} (hw : s.files.WellKept) (hs : s.files.Trimmed)
    {source destination dir place : String} (hsource : Path.Trimmed source.toList)
    (hdest : Path.Trimmed destination.toList) (hdash : source.toList.head? ≠ some '-')
    (hdash' : destination.toList.head? ≠ some '-') (hfile : s.files.hasFile source = false)
    (hdir : s.view.existingDir? source = some dir) (hroot : dir ≠ "")
    (hplace : Path.normalizeDir (Transfer.target s.files source destination) = .ok place)
    (hdp : ¬ Path.Holds dir place) (hpd : ¬ Path.Holds place dir) (t : Transfer)
    (stdin : Option String) :
    let r := (dispatch t.name (t.directoryArgs source destination) stdin).run s
    r.1.exitCode = 0 ∧
      (∀ rest, dir ++ "/" ++ rest ∈ s.files.keys →
        (r.2.files.get? (place ++ "/" ++ rest)).map File.content =
          (s.files.get? (dir ++ "/" ++ rest)).map File.content) ∧
      (∀ key, Path.under dir key = true →
        r.2.files.get? key = if t = .move then none else s.files.get? key) ∧
      ∀ key, Path.under dir key = false →
        (∀ rest, dir ++ "/" ++ rest ∈ s.files.keys → key ≠ place ++ "/" ++ rest) →
        r.2.files.get? key = s.files.get? key := by
  intro r
  obtain ⟨s', hrun, hresult⟩ := Transfer.run_forEach_directory hw hs t
    (Transfer.trimmed_target hsource hdest) hroot hplace hdp hpd
  have hr : r = (({} : Report).outcome, s') := by
    have h := Transfer.dispatch_directory t hdash hdash' hfile hdir hroot stdin
    rwa [hrun] at h
  rw [hr]
  exact ⟨rfl, hresult⟩

theorem transfer_directory_overwriting :
    let files := [("src/a", "1"), ("src/b/c", "2"), ("srcfoo/a", "3"), ("lib/src/a", "4"),
      ("lib/src/d", "5")]
    let s := ((FileStore.new ⟨0⟩).seed files).2
    let t := ((dispatch "mv" ["./src/", "lib"] none).run s).2
    s.view.existingDir? "./src/" = some "src" ∧
      Path.normalizeDir (Transfer.target s.files "./src/" "lib") = .ok "lib/src" ∧
      (t.files.get? "lib/src/b/c").map File.content = some "2" ∧
      (t.files.get? "lib/src/d").map File.content = some "5" := by
  intro files s t
  have hw : s.files.WellKept := ((FileStore.Sound.withLimits {} ⟨0⟩).seed files).files
  have hdir : s.view.existingDir? "./src/" = some "src" := by decide +kernel
  have hplace : Path.normalizeDir (Transfer.target s.files "./src/" "lib") = .ok "lib/src" := by
    decide +kernel
  have hstays : ∀ rest, "src" ++ "/" ++ rest ∈ s.files.keys →
      "lib/src/d" ≠ "lib/src" ++ "/" ++ rest := by
    rintro rest hk h
    have hrest : rest = "d" := (String.append_right_inj ("lib/src" ++ "/")).1 h.symm
    subst hrest
    revert hk
    decide +kernel
  have h := transfer_directory hw (by decide +kernel) (by decide +kernel) (by decide +kernel)
    (by decide) (by decide) (by decide +kernel) hdir (by decide) hplace (by decide +kernel)
    (by decide +kernel) .move none
  simp only [Transfer.name, Transfer.directoryArgs] at h
  obtain ⟨-, hmoved, -, hother⟩ := h
  have hbelow : "lib/src" ++ "/" ++ "b/c" = "lib/src/b/c" := by decide
  have hc := hmoved "b/c" (by decide +kernel)
  have hd := hother "lib/src/d" (by decide +kernel) hstays
  rw [hbelow] at hc
  exact ⟨hdir, hplace, hc.trans (by decide +kernel), (congrArg _ hd).trans (by decide +kernel)⟩

end ProjectShell
