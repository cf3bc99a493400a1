import ProjectShell.Proofs.Relocation

namespace ProjectShell

theorem FileMap.pairwise_pathsUnder (m : FileMap) (dir : String) :
    (m.pathsUnder dir).Pairwise (· < ·) :=
  (List.pairwise_map.2 m.sorted).filter _

namespace Command.Transfer

variable {s : FileStore} {t : Transfer} {k : String}

theorem get?_run_fileReported {source target : String} (hs : Path.normalize source ≠ .ok k)
    (ht : Path.normalize target ≠ .ok k) :
    ((t.fileReported source target).run s).2.files.get? k = s.files.get? k := by
  have hfile : ((t.file source target).run s).2.files.get? k = s.files.get? k := by
    cases t with
    | move => exact FileStore.get?_rename hs ht
    | copy =>
      rw [file, Script.run_bind]
      split
      · rfl
      · rw [Script.run_bind]
        split <;> exact FileStore.get?_write _ ht
  rw [fileReported, Script.run_bind]
  split <;> exact hfile

theorem run_fileReported_invalid {source target : String} {e : StoreError}
    (h : Path.normalize target = .error e) : ((t.fileReported source target).run s).2 = s := by
  have hfile : ((t.file source target).run s).2 = s := by
    cases t with
    | move =>
      rw [file, Script.run_rename, FileStore.rename, h]
      split <;> simp_all
    | copy =>
      rw [file, Script.run_bind]
      split
      · rfl
      · rw [Script.run_bind]
        split <;> simp [FileStore.write, h, Script.files]
  rw [fileReported, Script.run_bind]
  split <;> exact hfile

theorem run_operand_root {recursive : Bool} {source target : String}
    (hfile : s.files.hasFile source = false) (hdir : s.view.existingDir? source = some "") :
    ((t.operand recursive source target).run s).2 = s := by
  have hf : s.view.files.hasFile source = false := hfile
  simp only [operand, Script.run_bind, Script.run_read, id, hf, hdir]
  rfl

theorem get?_run_forEach {target : String → String} {paths : List String}
    (h : ∀ p ∈ paths, Path.normalize p ≠ .ok k ∧ Path.normalize (target p) ≠ .ok k) :
    ((Report.forEach (fun p => t.fileReported p (target p)) paths).run s).2.files.get? k =
      s.files.get? k := by
  induction paths generalizing s with
  | nil => rfl
  | cons p ps ih =>
    obtain ⟨hp, hps⟩ := List.forall_mem_cons.1 h
    rw [Report.forEach, Script.run_bind, Script.run_bind]
    exact (ih hps).trans (get?_run_fileReported hp.1 hp.2)

theorem run_forEach_append_cons (f : String → Script Report) (before : List String) (p : String)
    (after : List String) :
    ((Report.forEach f (before ++ p :: after)).run s).2 =
      ((Report.forEach f after).run ((f p).run ((Report.forEach f before).run s).2).2).2 := by
  induction before generalizing s with
  | nil => simp only [List.nil_append, Report.forEach, Script.run_bind, Script.run_pure]
  | cons q before ih =>
    simp only [List.cons_append, Report.forEach, Script.run_bind, Script.run_pure]
    exact ih

theorem run_of_length_operands_le {args : List String}
    (h : (t.table.parse args).operands.length ≤ 1) : ((t.run args).run s).2 = s := by
  rw [run]
  dsimp only
  split
  · rfl
  · have hempty : (t.table.parse args).operands.dropLast.isEmpty = true := by
      rw [List.isEmpty_iff, ← List.length_eq_zero_iff, List.length_dropLast]
      omega
    rw [if_pos hempty]
    rfl

/-- Of the paths that go below `target`, those before `key` do not arrive at it, and none behind it
is where it arrives. -/
def Unharmed (m : FileMap) (target dir key : String) : Prop :=
  (∀ p ∈ m.pathsUnder dir, p < key → Path.normalize (rebased target dir p) ≠ .ok key) ∧
    ∀ p ∈ m.pathsUnder dir, key < p → Path.normalize (rebased target dir key) ≠ .ok p

instance (m : FileMap) (target dir key : String) : Decidable (Unharmed m target dir key) :=
  inferInstanceAs (Decidable (_ ∧ _))

theorem exists_key?_rebased {m : FileMap} (hw : m.WellKept) (hs : m.Trimmed) {dir p : String}
    (hroot : dir ≠ "") (hp : p ∈ m.pathsUnder dir) (target : String) :
    ∃ rest : List Char, p.toList = dir.toList ++ '/' :: rest ∧ Path.IsKey rest ∧
      Path.Trimmed rest ∧
      (rebased target dir p).toList = Path.trimSlashes target.toList ++ '/' :: rest := by
  obtain ⟨hkey, hu⟩ := FileMap.mem_pathsUnder.1 hp
  obtain ⟨rest, rfl⟩ := Path.exists_rest_of_under hu hroot
  obtain ⟨hkeyrest, htrimrest⟩ := FileMap.isKey_and_trimmed_rest hw hs hkey
  exact ⟨rest.toList, Path.toList_below dir rest, hkeyrest, htrimrest, by simp [rebased_append]⟩

theorem rebased_inj {m : FileMap} (hw : m.WellKept) (hs : m.Trimmed) {target dir p q key : String}
    (hroot : dir ≠ "") (hp : p ∈ m.pathsUnder dir) (hq : q ∈ m.pathsUnder dir)
    (h : Path.normalize (rebased target dir p) = .ok key)
    (h' : Path.normalize (rebased target dir q) = .ok key) : p = q := by
  obtain ⟨r, hpr, hkey, htrim, hr⟩ := exists_key?_rebased hw hs hroot hp target
  obtain ⟨r', hqr, hkey', htrim', hr'⟩ := exists_key?_rebased hw hs hroot hq target
  rw [Path.normalize_eq_ok_iff, hr] at h
  rw [Path.normalize_eq_ok_iff, hr'] at h'
  rw [← String.toList_inj, hpr, hqr, Path.eq_of_key?_append_slash hkey htrim hkey' htrim' h h']

theorem exists_normalize_rebased {m : FileMap} (hw : m.WellKept) (hs : m.Trimmed)
    {target dir p q key : String} (hroot : dir ≠ "") (hp : p ∈ m.pathsUnder dir)
    (hq : q ∈ m.pathsUnder dir) (h : Path.normalize (rebased target dir p) = .ok key) :
    ∃ key', Path.normalize (rebased target dir q) = .ok key' := by
  obtain ⟨r, -, hkey, htrim, hr⟩ := exists_key?_rebased hw hs hroot hp target
  obtain ⟨r', -, hkey', htrim', hr'⟩ := exists_key?_rebased hw hs hroot hq target
  rw [Path.normalize_eq_ok_iff, hr, Path.key?_append_slash_iff hkey htrim] at h
  have h' := (Path.key?_append_slash_iff hkey' htrim').2 ⟨h.1, rfl⟩
  exact ⟨String.ofList (Path.joined _),
    Path.normalize_eq_ok_iff.2 (by rw [hr', h', String.toList_ofList])⟩

theorem get?_run_forEach_unharmed (hw : s.files.WellKept) (hs : s.files.Trimmed)
    {target dir key : String} (hroot : dir ≠ "") (hkey : key ∈ s.files.pathsUnder dir)
    (h : Unharmed s.files target dir key) :
    let s' := ((Report.forEach (fun p => t.fileReported p (rebased target dir p))
      (s.files.pathsUnder dir)).run s).2
    (s'.files.get? key).map File.content = (s.files.get? key).map File.content ∨
      (s'.files.read? (rebased target dir key)).map File.content =
        (s.files.get? key).map File.content := by
  have hself : ∀ p ∈ s.files.pathsUnder dir, Path.normalize p = .ok p := fun p hp =>
    hw.wellAddressed hs p (FileMap.mem_pathsUnder.1 hp).1
  have hother (p : String) (hp : p ∈ s.files.pathsUnder dir) (hlt : p < key ∨ key < p) :
      Path.normalize p ≠ .ok key := by
    intro he
    obtain rfl : p = key := Except.ok.inj ((hself p hp).symm.trans he)
    exact hlt.elim (String.lt_irrefl p) (String.lt_irrefl p)
  obtain ⟨before, after, hsplit⟩ := List.append_of_mem hkey
  have hsorted := s.files.pairwise_pathsUnder dir
  rw [hsplit, List.pairwise_append, List.pairwise_cons] at hsorted
  have hbefore (p : String) (hp : p ∈ before) : p ∈ s.files.pathsUnder dir ∧ p < key :=
    ⟨hsplit ▸ List.mem_append_left _ hp, hsorted.2.2 p hp key List.mem_cons_self⟩
  have hafter (p : String) (hp : p ∈ after) : p ∈ s.files.pathsUnder dir ∧ key < p :=
    ⟨hsplit ▸ List.mem_append_right _ (List.mem_cons_of_mem _ hp), hsorted.2.1.1 p hp⟩
  obtain ⟨file, hfile⟩ := Option.isSome_iff_exists.1
    (SortedMap.mem_keys_iff.1 (FileMap.mem_pathsUnder.1 hkey).1)
  dsimp only
  have hs' := run_forEach_append_cons (s := s) (fun p => t.fileReported p (rebased target dir p))
    before key after
  rw [← hsplit] at hs'
  generalize hs₁ : ((Report.forEach (fun p => t.fileReported p (rebased target dir p))
    before).run s).2 = s₁ at hs'
  have hfile₁ : s₁.files.get? key = some file := by
    rw [← hs₁]
    refine (get?_run_forEach (fun p hp => ?_)).trans hfile
    obtain ⟨hmem, hlt⟩ := hbefore p hp
    exact ⟨hother p hmem (.inl hlt), h.1 p hmem hlt⟩
  rw [hfile, hs']
  cases hn : Path.normalize (rebased target dir key) with
  | error e =>
    left
    rw [run_fileReported_invalid hn, get?_run_forEach (fun p hp => ?_), hfile₁]
    obtain ⟨hmem, hlt⟩ := hafter p hp
    refine ⟨hother p hmem (.inr hlt), fun he => ?_⟩
    obtain ⟨place, hplace⟩ := exists_normalize_rebased hw hs hroot hmem hkey he
    cases hn.symm.trans hplace
  | ok place =>
    right
    obtain ⟨s₂, hrun, harrives, -⟩ := run_fileReported (t := t) (hself key hkey) hfile₁ hn
    rw [FileMap.read?, hn, hrun]
    dsimp only
    rw [get?_run_forEach (fun p hp => ?_), harrives]
    · rfl
    · obtain ⟨hmem, hlt⟩ := hafter p hp
      refine ⟨fun he => ?_, fun he => ?_⟩
      · rw [hself p hmem] at he
        exact h.2 p hmem hlt (hn.trans he.symm)
      · exact String.lt_irrefl _ (rebased_inj hw hs hroot hmem hkey he hn ▸ hlt)

end Command.Transfer

open Command

theorem move_directory_keeps {s : FileStore} (hw : s.files.WellKept) (hs : s.files.Trimmed)
    {source destination dir key : String} (hfile : s.files.hasFile source = false)
    (hdir : s.view.existingDir? source = some dir) (hkey : key ∈ s.files.pathsUnder dir)
    (h : Transfer.Unharmed s.files (Transfer.target s.files source destination) dir key)
    (stdin : Option String) :
    let t := ((dispatch "mv" [source, destination] stdin).run s).2
    let path := Transfer.rebased (Transfer.target s.files source destination) dir key
    (t.files.get? key).map File.content = (s.files.get? key).map File.content ∨
      (t.files.read? path).map File.content = (s.files.get? key).map File.content := by
  have hrun : (dispatch "mv" [source, destination] stdin).run s =
      (Transfer.move.run [source, destination]).run s := Transfer.run_dispatch .move _ stdin
  rw [hrun]
  have hoperands := OptionTable.operands_parse_sublist Transfer.move.table [source, destination]
  by_cases hlen : (Transfer.move.table.parse [source, destination]).operands.length ≤ 1
  · rw [Transfer.run_of_length_operands_le hlen]
    exact .inl rfl
  · have hpair := hoperands.eq_of_length_le (by simp; omega)
    rw [Transfer.run_pair hpair]
    dsimp only
    by_cases hroot : dir = ""
    · subst hroot
      rw [Transfer.run_operand_root hfile hdir]
      exact .inl rfl
    · have hrecursive : (decide (Transfer.move = .move) ||
          (Transfer.move.table.parse [source, destination]).has "recursive") = true := rfl
      rw [hrecursive, Transfer.run_operand_directory hfile hdir hroot]
      exact Transfer.get?_run_forEach_unharmed hw hs hroot hkey h

theorem move_directory_keeps_nested :
    let files := [("a/x", "1"), ("a/z/a/y", "2")]
    let s := ((FileStore.new ⟨0⟩).seed files).2
    let t := ((dispatch "mv" ["a", "a/z"] none).run s).2
    Transfer.Unharmed s.files (Transfer.target s.files "a" "a/z") "a" "a/z/a/y" ∧
      ((t.files.get? "a/z/a/y").map File.content = some "2" ∨
        (t.files.read? "a/z/a/z/a/y").map File.content = some "2") := by
  intro files s t
  have hw : s.files.WellKept := ((FileStore.Sound.withLimits {} ⟨0⟩).seed files).files
  have hunharmed : Transfer.Unharmed s.files (Transfer.target s.files "a" "a/z") "a" "a/z/a/y" := by
    decide +kernel
  have h := move_directory_keeps hw (by decide +kernel) (by decide +kernel)
    (show s.view.existingDir? "a" = some "a" by decide +kernel) (by decide +kernel) hunharmed none
  have hpath : Transfer.rebased (Transfer.target s.files "a" "a/z") "a" "a/z/a/y" =
      "a/z/a/z/a/y" := by decide +kernel
  have hcontent : (s.files.get? "a/z/a/y").map File.content = some "2" := by decide +kernel
  rw [hpath, hcontent] at h
  exact ⟨hunharmed, h⟩

theorem move_directory_loses_file :
    let files := [("a/x", "1"), ("a/z/a/x", "2")]
    let s := ((FileStore.new ⟨0⟩).seed files).2
    let r := (dispatch "mv" ["a", "a/z"] none).run s
    s.files.Trimmed ∧ s.files.hasFile "a" = false ∧ s.view.existingDir? "a" = some "a" ∧
      "a/z/a/x" ∈ s.files.pathsUnder "a" ∧ Transfer.target s.files "a" "a/z" = "a/z/a" ∧
      r.1 = {} ∧ r.2.files.contents.entries = [("a/z/a/z/a/x", "1")] := by
  decide +kernel

end ProjectShell
