import ProjectShell.Proofs.Operands
import ProjectShell.Proofs.Relocation

namespace ProjectShell

def FileMap.erasing (m : FileMap) : List String → List FileMap
  | [] => []
  | key :: keys => erasing (SortedMap.erase m key) keys ++ [m]

theorem FileMap.length_erasing (m : FileMap) (keys : List String) :
    (m.erasing keys).length = keys.length := by
  induction keys generalizing m with
  | nil => rfl
  | cons key keys ih => simp [erasing, ih]

namespace FileStore

def without (s : FileStore) : List String → FileStore
  | [] => s
  | key :: keys => without (s.change (s.files.erase key)) keys

theorem get?_without (s : FileStore) (keys : List String) (k : String) :
    (s.without keys).files.get? k = if k ∈ keys then none else s.files.get? k := by
  induction keys generalizing s with
  | nil => rfl
  | cons key keys ih =>
    have hchange : (s.change (s.files.erase key)).files.get? k =
        if key = k then none else s.files.get? k := SortedMap.get?_erase ..
    rw [without, ih, hchange]
    by_cases hk : k = key <;> by_cases hm : k ∈ keys <;> simp [hk, hm, eq_comm]

theorem snapshots_without (s : FileStore) (keys : List String) :
    (s.without keys).history.snapshots =
      (s.files.erasing keys ++ s.history.snapshots).take s.history.depth := by
  induction keys generalizing s with
  | nil => exact (List.take_of_length_le s.history.bounded).symm
  | cons key keys ih =>
    rw [without, ih]
    simp [change, History.push, FileMap.erasing, List.take_append, List.take_take]

theorem rolledBack_without {s : FileStore} {keys : List String}
    (h : s.history.size + keys.length ≤ s.history.depth) :
    (s.without keys).rolledBack keys.length = s := by
  induction keys generalizing s with
  | nil => rfl
  | cons key keys ih =>
    rw [List.length_cons] at h
    have hsize : (s.change (s.files.erase key)).history.size ≤ s.history.size + 1 :=
      (History.size_push ..).trans_le (Nat.min_le_right ..)
    have hroom : (s.change (s.files.erase key)).history.size + keys.length ≤
        (s.change (s.files.erase key)).history.depth := by
      change _ ≤ s.history.depth
      omega
    rw [List.length_cons, rolledBack_succ, without, ih hroom, rollback_change _ (by omega)]

end FileStore

namespace Path

open Text

theorem trimSlashes_of_getLast? {cs : List Char} (h : cs.getLast? ≠ some '/') :
    trimSlashes cs = cs := by
  induction cs using List.reverseRecOn with
  | nil => rfl
  | append_singleton cs c =>
    have hc : c ≠ '/' := by simpa using h
    simp [trimSlashes, hc]

theorem normalizeDir_of_normalize {key : String} (h : normalize key = .ok key) :
    normalizeDir key = .ok key := by
  obtain ⟨hkey, htrimmed⟩ := normalize_eq_self_iff.1 h
  have htrim : trim key.toList = key.toList := trimmed_eq_self_iff.1 htrimmed
  have hdot : key.toList ≠ ['.'] := by
    intro hd
    exact (hkey.pieces ['.'] (by simp [hd, pieces])).2.1 rfl
  rw [normalizeDir, htrim, trimSlashes_of_getLast? hkey.getLast?_ne, String.ofList_toList]
  exact (if_neg (not_or.2 ⟨hkey.ne_nil, hdot⟩)).trans h

theorem normalize_of_trimmed {path key : String} (ht : Trimmed path.toList)
    (h : normalize path = .ok key) : normalize key = .ok key := by
  have hk := normalize_eq_ok_iff.1 h
  have htrim : trim key.toList = key.toList := trim_of_trimmed (trimmed_key ht hk)
  exact normalize_eq_self_iff.2 ⟨isKey_of_key? hk, trimmed_eq_self_iff.2 htrim⟩

theorem normalizeDir_of_trimmed {path dir : String} (ht : Trimmed path.toList)
    (h : normalizeDir path = .ok dir) (hne : dir ≠ "") : normalizeDir dir = .ok dir := by
  refine normalizeDir_of_normalize ?_
  simp only [normalizeDir, trim_of_trimmed ht] at h
  split at h
  · exact absurd (Except.ok.inj h).symm hne
  · refine normalize_of_trimmed ?_ h
    rw [String.toList_ofList]
    exact trimmed_trimSlashes ht

end Path

namespace FileMap

variable {m : FileMap} {operand dir key : String}

theorem hasFile_of_mem (hn : Path.normalize operand = .ok key) (hk : key ∈ m.keys) :
    m.hasFile operand = true := by
  rw [hasFile, read?, hn]
  exact SortedMap.mem_keys_iff.1 hk

theorem exists_of_hasFile (h : m.hasFile operand = true) :
    ∃ key ∈ m.keys, Path.normalize operand = .ok key := by
  obtain ⟨file, hread⟩ := Option.isSome_iff_exists.1 h
  exact exists_key_of_read? hread

theorem isDir_eq (hn : Path.normalizeDir dir = .ok dir) (hne : dir ≠ "") :
    m.isDir dir = !(m.pathsUnder dir).isEmpty := by
  have hempty : dir.isEmpty = false := by simpa using hne
  rw [isDir, hn]
  simp [hempty]

def Doomed (m : FileMap) (operand key : String) : Prop :=
  Path.normalize operand = .ok key ∨
    m.hasFile operand = false ∧
      ∃ dir, Path.normalizeDir operand = .ok dir ∧ dir ≠ "" ∧ ∃ rest, key = dir ++ "/" ++ rest

theorem doomed_of_hasFile (h : m.hasFile operand = true) :
    m.Doomed operand key ↔ Path.normalize operand = .ok key := by
  simp [Doomed, h]

theorem mem_keys_and_doomed_iff (h : m.hasFile operand = false) :
    key ∈ m.keys ∧ m.Doomed operand key ↔
      ∃ dir, Path.normalizeDir operand = .ok dir ∧ dir ≠ "" ∧ key ∈ m.pathsUnder dir := by
  constructor
  · rintro ⟨hk, hn | ⟨-, dir, hdir, hne, rest, rfl⟩⟩
    · rw [hasFile_of_mem hn hk] at h
      cases h
    · exact ⟨dir, hdir, hne, mem_pathsUnder.2 ⟨hk, Path.under_append dir rest⟩⟩
  · rintro ⟨dir, hdir, hne, hp⟩
    obtain ⟨hk, hu⟩ := mem_pathsUnder.1 hp
    exact ⟨hk, .inr ⟨h, dir, hdir, hne, Path.exists_rest_of_under hu hne⟩⟩

end FileMap

namespace Command

variable {s : FileStore} {o : Options} {operand : String}

theorem run_files (s : FileStore) :
    Script.run s (liftM Script.files : Attempt FileMap).run = (.ok s.files, s) := rfl

theorem run_deleteAll {keys : List String} (hnodup : keys.Nodup)
    (hkeys : ∀ key ∈ keys, Path.normalize key = .ok key ∧ key ∈ s.files.keys) :
    Script.run s (deleteAll keys).run = (.ok (), s.without keys) := by
  induction keys generalizing s with
  | nil => rfl
  | cons key keys ih =>
    obtain ⟨hnot, hnodup⟩ := List.nodup_cons.1 hnodup
    obtain ⟨⟨hn, hk⟩, hrest⟩ := List.forall_mem_cons.1 hkeys
    rw [deleteAll, Attempt.run_bind_of_ok (x := ExceptT.mk (Script.delete key))
      (FileStore.delete_of_mem hn hk)]
    refine ih hnodup (fun k hm => ⟨(hrest k hm).1, ?_⟩)
    exact SortedMap.mem_keys_erase.2 ⟨fun h => hnot (h ▸ hm), (hrest k hm).2⟩

theorem run_rmOperand_file {key : String} (hn : Path.normalize operand = .ok key)
    (hk : key ∈ s.files.keys) :
    ∃ r, Script.run s (rmOperand o operand).run = (.ok r, s.without [key]) ∧
      r.failed = false := by
  refine ⟨if o.has "verbose" then .line ("removed '" ++ operand ++ "'") else {}, ?_, ?_⟩
  · rw [rmOperand, Attempt.run_bind_of_ok (run_files s), if_pos (FileMap.hasFile_of_mem hn hk),
      Attempt.run_bind_of_ok (x := ExceptT.mk (Script.delete operand))
        (FileStore.delete_of_mem hn hk)]
    rfl
  · split <;> rfl

theorem run_rmOperand_directory {dir : String} (hs : s.files.WellAddressed)
    (hfile : s.files.hasFile operand = false) (hdir : Path.normalizeDir operand = .ok dir)
    (hne : dir ≠ "") (his : s.files.isDir dir = true) (hr : o.has "recursive" = true) :
    Script.run s (rmOperand o operand).run = (.ok {}, s.without (s.files.pathsUnder dir)) := by
  have hempty : dir.isEmpty = false := by simpa using hne
  have hdelete := run_deleteAll (s := s) (FileMap.nodup_pathsUnder dir) (fun key hp =>
    ⟨hs key (FileMap.mem_pathsUnder.1 hp).1, (FileMap.mem_pathsUnder.1 hp).1⟩)
  rw [rmOperand, Attempt.run_bind_of_ok (run_files s)]
  simp only [hfile, hdir, hempty, his, hr, Bool.false_eq_true, if_false, if_true]
  rw [Attempt.run_bind_of_ok hdelete]
  rfl

theorem run_rmOperand_nothing (hfile : s.files.hasFile operand = false)
    (h : ∀ dir, Path.normalizeDir operand = .ok dir → dir ≠ "" → s.files.isDir dir = false)
    (hf : o.has "force" = false) :
    ∃ r, Script.run s (rmOperand o operand).run = (.ok r, s) ∧ r.failed = true := by
  rw [rmOperand, Attempt.run_bind_of_ok (run_files s)]
  simp only [hfile, hf, Bool.false_eq_true, if_false]
  split
  · exact ⟨_, rfl, rfl⟩
  · rename_i dir hdir
    split
    · exact ⟨_, rfl, rfl⟩
    · rename_i hempty
      have his := h dir hdir (by simpa using hempty)
      rw [if_neg (by simp [his])]
      exact ⟨_, rfl, rfl⟩

theorem run_rmOperand (hs : s.files.WellAddressed) (ht : Path.Trimmed operand.toList)
    (hr : o.has "recursive" = true) (hf : o.has "force" = false) :
    ∃ gone r, Script.run s (rmOperand o operand).run = (.ok r, s.without gone) ∧
      r.failed = gone.isEmpty ∧ gone.Nodup ∧
      ∀ key, key ∈ gone ↔ key ∈ s.files.keys ∧ s.files.Doomed operand key := by
  by_cases hfile : s.files.hasFile operand = true
  · obtain ⟨key, hk, hn⟩ := FileMap.exists_of_hasFile hfile
    obtain ⟨r, hrun, hfailed⟩ := run_rmOperand_file (o := o) hn hk
    refine ⟨[key], r, hrun, hfailed, List.nodup_cons.2 ⟨List.not_mem_nil, .nil⟩, fun key' => ?_⟩
    rw [FileMap.doomed_of_hasFile hfile, hn, Except.ok.injEq, List.mem_singleton]
    exact ⟨fun h => ⟨h ▸ hk, h.symm⟩, fun h => h.2.symm⟩
  · have hfile : s.files.hasFile operand = false := by simpa using hfile
    simp only [FileMap.mem_keys_and_doomed_iff hfile]
    have hisDir {dir : String} (hdir : Path.normalizeDir operand = .ok dir) (hne : dir ≠ "") :=
      FileMap.isDir_eq (m := s.files) (Path.normalizeDir_of_trimmed ht hdir hne) hne
    by_cases h : ∃ dir, Path.normalizeDir operand = .ok dir ∧ dir ≠ "" ∧
        s.files.isDir dir = true
    · obtain ⟨dir, hdir, hne, his⟩ := h
      refine ⟨s.files.pathsUnder dir, {}, run_rmOperand_directory hs hfile hdir hne his hr, ?_,
        FileMap.nodup_pathsUnder dir, fun key => ?_⟩
      · rw [hisDir hdir hne, Bool.not_eq_true'] at his
        exact his.symm
      · simp [hdir, hne]
    · have hnone : ∀ dir, Path.normalizeDir operand = .ok dir → dir ≠ "" →
          s.files.isDir dir = false := by
        intro dir hdir hne
        simpa using fun his => h ⟨dir, hdir, hne, his⟩
      obtain ⟨r, hrun, hfailed⟩ := run_rmOperand_nothing hfile hnone hf
      refine ⟨[], r, hrun, hfailed, .nil, fun key => ?_⟩
      rw [iff_false_left List.not_mem_nil]
      rintro ⟨dir, hdir, hne, hp⟩
      have his := hnone dir hdir hne
      rw [hisDir hdir hne, Bool.not_eq_false', List.isEmpty_iff] at his
      exact absurd (his ▸ hp) List.not_mem_nil

theorem run_dispatch_rm {t : FileStore} {args : List String} {r : Report}
    (h : (rmTable.parse args).operands ≠ [] ∨ (rmTable.parse args).has "force" = true)
    (hrun : Script.run s (Report.forEach (rmOperand (rmTable.parse args))
      (rmTable.parse args).operands).run = (.ok r, t)) (stdin : Option String) :
    (dispatch "rm" args stdin).run s = (r.outcome, t) := by
  have hgiven : ((rmTable.parse args).operands.isEmpty && !(rmTable.parse args).has "force") =
      false := by
    rcases h with h | h
    · simp [h]
    · simp [h]
  have hrm : Script.run s (rm args).run = (.ok r.outcome, t) := by
    simp only [rm, hgiven, Bool.false_eq_true, if_false]
    rw [Attempt.run_bind_of_ok hrun]
    rfl
  exact run_dispatch_of_ok (b := .rm) hrm

theorem parse_recursive (hdash : operand.toList.head? ≠ some '-') :
    rmTable.parse ["-r", operand] = { switches := ["recursive"], operands := [operand] } := by
  have hsettled : rmTable.settled ["-r"] = true := by decide +kernel
  have hflag : rmTable.parse ["-r"] = { switches := ["recursive"] } := by decide +kernel
  have hconcat := OptionTable.parse_concat hdash hsettled
  rwa [hflag] at hconcat

end Command

theorem rm_recursive {s : FileStore} (hs : s.files.WellAddressed) {operand : String}
    (hdash : operand.toList.head? ≠ some '-') (ht : Path.Trimmed operand.toList)
    (stdin : Option String) :
    let r := (dispatch "rm" ["-r", operand] stdin).run s
    ∃ gone : List String, gone.Nodup ∧
      (∀ key, key ∈ gone ↔ key ∈ s.files.keys ∧ s.files.Doomed operand key) ∧
      r.1.exitCode = (if gone = [] then 1 else 0) ∧
      (∀ key, r.2.files.get? key = if key ∈ gone then none else s.files.get? key) ∧
      (s.files.erasing gone).length = gone.length ∧
      r.2.history.snapshots = (s.files.erasing gone ++ s.history.snapshots).take s.history.depth ∧
      (s.history.size + gone.length ≤ s.history.depth → r.2.rolledBack gone.length = s) := by
  intro r
  have hparse := Command.parse_recursive hdash
  obtain ⟨gone, report, hrun, hfailed, hnodup, hgone⟩ :=
    Command.run_rmOperand (o := Command.rmTable.parse ["-r", operand]) hs ht
      (by rw [hparse]; rfl) (by rw [hparse]; rfl)
  have hr : r = (report.outcome, s.without gone) := by
    refine Command.run_dispatch_rm (.inl (by rw [hparse]; exact List.cons_ne_nil _ _)) ?_ stdin
    have hoperands : (Command.rmTable.parse ["-r", operand]).operands = [operand] := by rw [hparse]
    rw [hoperands, Report.forEach, Attempt.run_bind_of_ok hrun]
    exact congrArg (fun a => (Except.ok a, s.without gone)) report.append_empty
  rw [hr]
  refine ⟨gone, hnodup, hgone, ?_, FileStore.get?_without s gone, s.files.length_erasing gone,
    FileStore.snapshots_without s gone, FileStore.rolledBack_without⟩
  simp only [Report.outcome, hfailed, List.isEmpty_iff]

theorem rm_recursive_below_file :
    let files := [("lib", "0"), ("lib/b/c", "1"), ("lib/d", "2"), ("libs/d", "3")]
    let s := ((FileStore.new ⟨0⟩).seed files).2
    let r := (dispatch "rm" ["-r", "./lib/"] none).run s
    (s.files.WellAddressed ∧ "./lib/".toList.head? ≠ some '-' ∧ Path.Trimmed "./lib/".toList) ∧
      r.1.exitCode = 0 ∧ r.2.files.keys = ["lib", "libs/d"] ∧ r.2.history.size = 2 ∧
      r.2.rolledBack 2 = s := by
  intro files s r
  have hs : s.files.WellAddressed := by decide +kernel
  have hdash : "./lib/".toList.head? ≠ some '-' := by decide
  have ht : Path.Trimmed "./lib/".toList := by decide +kernel
  have hsize : r.2.history.size = 2 := by decide +kernel
  obtain ⟨gone, -, -, -, -, hlength, hsnapshots, hback⟩ := rm_recursive hs hdash ht none
  have hempty : s.history.snapshots = [] := rfl
  have hdepth : s.history.depth = 10 := by decide +kernel
  have htwo : gone.length = 2 := by
    have h := congrArg List.length hsnapshots
    rw [List.length_take, List.length_append, hlength, hempty, hdepth, List.length_nil] at h
    change r.2.history.size = min 10 (gone.length + 0) at h
    omega
  refine ⟨⟨hs, hdash, ht⟩, by decide +kernel, by decide +kernel, hsize, ?_⟩
  have hroom : s.history.size + gone.length ≤ s.history.depth := by
    rw [History.size, hempty, hdepth, htwo]
    decide
  exact htwo ▸ hback hroom

end ProjectShell
