import ProjectShell.Proofs.Faults
import ProjectShell.Proofs.Footprint

namespace ProjectShell

namespace Text

theorem trimStart_append {c : Char} (hc : isBlank c = false) (cs ds : List Char) :
    trimStart (cs ++ c :: ds) = trimStart cs ++ c :: ds := by
  induction cs with
  | nil => exact trimStart_eq_self hc
  | cons b cs ih =>
    by_cases hb : isBlank b = true
    · simpa [trimStart, hb] using ih
    · simp [trimStart, hb]

end Text

namespace Path

open Text

theorem IsKey.of_append {cs ds : List Char} (h : IsKey (cs ++ '/' :: ds)) : IsKey ds := by
  refine ⟨fun hm => h.nul (List.mem_append_right _ (List.mem_cons_of_mem _ hm)), ?_⟩
  intro seg hs
  refine h.pieces seg ?_
  rw [pieces_append]
  exact List.mem_append_right _ hs

theorem trim_append_slash (base : List Char) {rest : List Char} (hne : rest ≠ [])
    (ht : Trimmed rest) : trim (base ++ '/' :: rest) = trimStart base ++ '/' :: rest := by
  rw [trim, trimStart_append rfl]
  induction rest using List.reverseRecOn with
  | nil => exact absurd rfl hne
  | append_singleton cs c =>
    rw [← List.cons_append, ← List.append_assoc]
    exact trimEnd_concat (isBlank_last_of_trimmed ht)

theorem key?_append_slash_iff {base rest key : List Char} (hkey : IsKey rest) (ht : Trimmed rest) :
    key? (base ++ '/' :: rest) = some key ↔
      ('\x00' ∉ trimStart base ∧ ['.', '.'] ∉ segments (trimStart base)) ∧
        key = joined (segments (trimStart base) ++ pieces '/' rest) := by
  have hsegments : segments (trimStart base ++ '/' :: rest) =
      segments (trimStart base) ++ pieces '/' rest := by
    rw [segments_append, hkey.segments_eq]
  have hlast : (trimStart base ++ '/' :: rest).getLast? ≠ some '/' := by
    rw [List.getLast?_append_of_ne_nil _ (by simp), List.getLast?_cons_of_ne_nil hkey.ne_nil]
    exact hkey.getLast?_ne
  have hnul : '\x00' ∉ trimStart base ++ '/' :: rest ↔ '\x00' ∉ trimStart base := by
    simp [hkey.nul]
  have hup : ['.', '.'] ∉ segments (trimStart base) ++ pieces '/' rest ↔
      ['.', '.'] ∉ segments (trimStart base) := by
    rw [List.mem_append, or_iff_left (fun hm => (hkey.pieces _ hm).2.2 rfl)]
  have hne : segments (trimStart base) ++ pieces '/' rest ≠ [] := by simp [pieces_ne_nil]
  rw [key?_eq_some_iff, trim_append_slash base hkey.ne_nil ht, hsegments, hnul, hup]
  have hcons : trimStart base ++ '/' :: rest ≠ [] := by simp
  tauto

theorem eq_of_key?_append_slash {base rest rest' key : List Char} (hkey : IsKey rest)
    (ht : Trimmed rest) (hkey' : IsKey rest') (ht' : Trimmed rest')
    (h : key? (base ++ '/' :: rest) = some key) (h' : key? (base ++ '/' :: rest') = some key) :
    rest = rest' := by
  have hslash (cs : List Char) :
      ∀ seg ∈ segments (trimStart base) ++ pieces '/' cs, '/' ∉ seg := by
    intro seg hs
    rcases List.mem_append.1 hs with hs | hs
    · exact not_mem_of_mem_pieces (mem_segments.1 hs).1
    · exact not_mem_of_mem_pieces hs
  have hjoined : joined (segments (trimStart base) ++ pieces '/' rest) =
      joined (segments (trimStart base) ++ pieces '/' rest') :=
    ((key?_append_slash_iff hkey ht).1 h).2.symm.trans ((key?_append_slash_iff hkey' ht').1 h').2
  have hpieces := congrArg (pieces '/') hjoined
  rw [joined, joined, pieces_intercalate (by simp [pieces_ne_nil]) (hslash rest),
    pieces_intercalate (by simp [pieces_ne_nil]) (hslash rest')] at hpieces
  calc rest = ['/'].intercalate (pieces '/' rest) := (intercalate_pieces '/' rest).symm
    _ = ['/'].intercalate (pieces '/' rest') := by rw [List.append_cancel_left hpieces]
    _ = rest' := intercalate_pieces '/' rest'

theorem normalize_below {target dir rest : String} (ht : Trimmed target.toList)
    (hdir : normalizeDir target = .ok dir) (hne : dir ≠ "") (hkey : IsKey rest.toList)
    (hrest : Trimmed rest.toList) :
    normalize (String.ofList (trimSlashes target.toList ++ '/' :: rest.toList)) =
      .ok (dir ++ "/" ++ rest) := by
  have hbase := trimmed_trimSlashes ht
  have hdir' : key? (trimSlashes target.toList) = some dir.toList := by
    simp only [normalizeDir, trim_of_trimmed ht] at hdir
    split at hdir
    · cases hdir
      exact absurd rfl hne
    · rwa [normalize_eq_ok_iff, String.toList_ofList] at hdir
  rw [key?_eq_some_iff, trim_of_trimmed hbase] at hdir'
  obtain ⟨⟨-, -, hnul⟩, hup, hsegs, hjoined⟩ := hdir'
  rw [normalize_eq_ok_iff, String.toList_ofList, key?_append_slash_iff hkey hrest,
    trimStart_of_trimmed hbase]
  refine ⟨⟨hnul, hup⟩, ?_⟩
  rw [joined_append _ _ hsegs (pieces_ne_nil _ _), ← hjoined, joined, intercalate_pieces]
  simp

theorem under_append (dir rest : String) : under dir (dir ++ "/" ++ rest) = true := by
  have hd : dropFront dir.toList (dir ++ "/" ++ rest).toList = some ('/' :: rest.toList) := by
    rw [dropFront_eq_some_iff]
    simp
  rw [under, hd]
  simp

theorem exists_rest_of_under {dir key : String} (hu : under dir key = true) (hne : dir ≠ "") :
    ∃ rest, key = dir ++ "/" ++ rest := by
  obtain ⟨rest, hr⟩ := exists_of_under hu hne
  refine ⟨String.ofList rest, ?_⟩
  rw [← String.toList_inj, hr]
  simp

theorem toList_below (dir rest : String) :
    (dir ++ "/" ++ rest).toList = dir.toList ++ '/' :: rest.toList := by
  simp

theorem holds_iff {place key : String} :
    Holds place key ↔ place = "" ∨ key = place ∨ under place key = true := by
  rw [Holds]
  by_cases hp : place = ""
  · simp [hp]
  · refine or_congr_right (or_congr_right ⟨?_, fun h => exists_rest_of_under h hp⟩)
    rintro ⟨rest, rfl⟩
    exact under_append place rest

instance (place key : String) : Decidable (Holds place key) := decidable_of_iff _ holds_iff.symm

end Path

namespace FileMap

variable {m : FileMap}

theorem WellKept.isKey (h : m.WellKept) {key : String} (hk : key ∈ m.keys) :
    Path.IsKey key.toList := by
  obtain ⟨file, hf⟩ := Option.isSome_iff_exists.1 (SortedMap.mem_keys_iff.1 hk)
  exact (h key file hf).1

theorem WellKept.wellAddressed (h : m.WellKept) (ht : m.Trimmed) : m.WellAddressed := by
  refine h.wellAddressed_iff.2 (fun key hk => ?_)
  rw [Text.trimmed, Path.trim_of_trimmed (ht key hk), String.ofList_toList]

theorem isKey_and_trimmed_rest (h : m.WellKept) (ht : m.Trimmed) {dir rest : String}
    (hk : dir ++ "/" ++ rest ∈ m.keys) : Path.IsKey rest.toList ∧ Path.Trimmed rest.toList := by
  have hkey := h.isKey hk
  have htrim := ht _ hk
  rw [Path.toList_below] at hkey htrim
  exact ⟨hkey.of_append, (Path.trimmed_append_iff.1 htrim).2⟩

theorem mem_pathsUnder {dir key : String} :
    key ∈ m.pathsUnder dir ↔ key ∈ m.keys ∧ Path.under dir key = true :=
  List.mem_filter

theorem nodup_pathsUnder (dir : String) : (m.pathsUnder dir).Nodup :=
  m.nodup_keys.filter _

end FileMap

namespace Command.Transfer

variable {s : FileStore} {t : Transfer}

theorem run_fileReported {path target key : String} {file : File}
    (hp : Path.normalize path = .ok path) (hf : s.files.get? path = some file)
    (ht : Path.normalize target = .ok key) :
    ∃ s', (t.fileReported path target).run s = ({}, s') ∧
      (s'.files.get? key).map File.content = some file.content ∧
      ∀ k, k ≠ key →
        s'.files.get? k = if t = .move ∧ k = path then none else s.files.get? k := by
  cases t with
  | move =>
    by_cases hkey : path = key
    · subst hkey
      have hrun : s.rename path target = (.ok (), s) := by simp [FileStore.rename, hp, ht, hf]
      refine ⟨s, ?_, by rw [hf]; rfl, ?_⟩
      · simp [fileReported, Transfer.file, hrun]
      · intro k hk
        rw [if_neg (fun h => hk h.2)]
    · have hrun : s.rename path target = (.ok (), s.change ((s.files.erase path).insert key
          (File.new key file.content file.modified))) := by
        simp [FileStore.rename, hp, ht, hf, hkey]
      refine ⟨s.change ((s.files.erase path).insert key
          (File.new key file.content file.modified)), ?_, ?_, ?_⟩
      · simp only [fileReported, Transfer.file, Script.run_bind, Script.run_rename, hrun]
        rfl
      · simp [FileStore.change, File.new]
      · intro k hk
        simp only [FileStore.change, SortedMap.get?_insert, if_neg hk.symm, SortedMap.get?_erase,
          true_and, eq_comm]
  | copy =>
    have hread : s.files.read? path = some file := by simp [FileMap.read?, hp, hf]
    have hrun := FileStore.write_of_normalize ht s file.content
    refine ⟨s.change (s.files.insert key (File.new key file.content s.now)), ?_, ?_, ?_⟩
    · simp only [fileReported, Transfer.file, Script.files, Script.run_bind, Script.run_read,
        FileStore.view, hread, Script.run_write, hrun]
      rfl
    · simp [FileStore.change, File.new]
    · intro k hk
      simp [FileStore.change, SortedMap.get?_insert, hk.symm]

theorem run_forEach_apart {target key : String → String} {paths : List String}
    (hnodup : paths.Nodup) (hpaths : ∀ p ∈ paths, Path.normalize p = .ok p)
    (htarget : ∀ p ∈ paths, Path.normalize (target p) = .ok (key p))
    (hinj : ∀ p ∈ paths, ∀ p' ∈ paths, key p = key p' → p = p')
    (hapart : ∀ p ∈ paths, key p ∉ paths) (hfiles : ∀ p ∈ paths, p ∈ s.files.keys) :
    ∃ s', (Report.forEach (fun p => t.fileReported p (target p)) paths).run s = ({}, s') ∧
      (∀ p ∈ paths,
        (s'.files.get? (key p)).map File.content = (s.files.get? p).map File.content) ∧
      ∀ k, (∀ p ∈ paths, key p ≠ k) →
        s'.files.get? k = if t = .move ∧ k ∈ paths then none else s.files.get? k := by
  induction paths generalizing s with
  | nil => exact ⟨s, rfl, nofun, fun k _ => by simp⟩
  | cons p ps ih =>
    obtain ⟨hp, hps⟩ := List.nodup_cons.1 hnodup
    obtain ⟨file, hfile⟩ :=
      Option.isSome_iff_exists.1 (SortedMap.mem_keys_iff.1 (hfiles p List.mem_cons_self))
    obtain ⟨s₁, hrun₁, harrives₁, hrest₁⟩ :=
      run_fileReported (t := t) (hpaths p List.mem_cons_self) hfile (htarget p List.mem_cons_self)
    have hstill (p' : String) (hp' : p' ∈ ps) : s₁.files.get? p' = s.files.get? p' := by
      have hkey : p' ≠ key p := fun h =>
        hapart p List.mem_cons_self (h ▸ List.mem_cons_of_mem _ hp')
      rw [hrest₁ p' hkey, if_neg]
      exact fun h => hp (h.2 ▸ hp')
    obtain ⟨s', hrun, harrives, hrest⟩ := ih (s := s₁) hps
      (fun p' hp' => hpaths p' (List.mem_cons_of_mem _ hp'))
      (fun p' hp' => htarget p' (List.mem_cons_of_mem _ hp'))
      (fun a ha b hb => hinj a (List.mem_cons_of_mem _ ha) b (List.mem_cons_of_mem _ hb))
      (fun p' hp' h => hapart p' (List.mem_cons_of_mem _ hp') (List.mem_cons_of_mem _ h))
      (fun p' hp' => by
        rw [SortedMap.mem_keys_iff, hstill p' hp', ← SortedMap.mem_keys_iff]
        exact hfiles p' (List.mem_cons_of_mem _ hp'))
    refine ⟨s', ?_, ?_, ?_⟩
    · rw [Report.forEach, Script.run_bind, hrun₁, Script.run_bind, hrun]
      rfl
    · intro p' hp'
      rcases List.mem_cons.1 hp' with rfl | hp'
      · -- The first file has arrived; no later one arrives at its key or leaves it.
        have hlater : ∀ a ∈ ps, key a ≠ key p' := fun a ha h =>
          hp (hinj a (List.mem_cons_of_mem _ ha) p' List.mem_cons_self h ▸ ha)
        have hout : key p' ∉ ps := fun h =>
          hapart p' List.mem_cons_self (List.mem_cons_of_mem _ h)
        rw [hrest _ hlater, if_neg (fun h => hout h.2), harrives₁, hfile]
        rfl
      · rw [harrives p' hp', hstill p' hp']
    · intro k hk
      rw [hrest k (fun a ha => hk a (List.mem_cons_of_mem _ ha)),
        hrest₁ k (hk p List.mem_cons_self).symm]
      by_cases ht : t = .move <;> by_cases hkp : k = p <;> simp [ht, hkp]

def target (files : FileMap) (source destination : String) : String :=
  if Text.endsWith "/" destination || (!files.hasFile destination && files.isDir destination) then
    inside destination source
  else destination

def rebased (target dir path : String) : String :=
  String.ofList (Path.trimSlashes target.toList ++ path.toList.drop dir.length)

theorem rebased_append (target dir rest : String) :
    rebased target dir (dir ++ "/" ++ rest) =
      String.ofList (Path.trimSlashes target.toList ++ '/' :: rest.toList) := by
  have hdrop : (dir ++ "/" ++ rest).toList.drop dir.length = '/' :: rest.toList := by
    simp [← String.length_toList]
  rw [rebased, hdrop]

theorem run_pair {args : List String} {source destination : String}
    (h : (t.table.parse args).operands = [source, destination]) :
    (t.run args).run s =
      let r := (t.operand (t = .move || (t.table.parse args).has "recursive") source
        (target s.files source destination)).run s
      (r.1.outcome, r.2) := by
  have hfiles : Script.run s Script.files = (s.files, s) := rfl
  have hone : decide (1 < [source].length) = false := rfl
  rw [run, h]
  simp only [List.getLast?_cons_cons, List.getLast?_singleton, List.dropLast_cons_cons,
    List.dropLast_singleton, List.isEmpty_cons, Bool.false_eq_true, if_false]
  rw [Script.run_bind, hfiles, Script.run_bind]
  simp only [Report.forEach, Script.run_bind, Script.run_pure, Report.append_empty, hone,
    Bool.or_false, target]

theorem run_dispatch (t : Transfer) (args : List String) (stdin : Option String) :
    (dispatch t.name args stdin).run s = (t.run args).run s := by
  cases t with
  | move => exact congrArg (Script.run s) (dispatch_of_safely (b := .mv) rfl)
  | copy => exact congrArg (Script.run s) (dispatch_of_safely (b := .cp) rfl)

theorem run_operand_directory {source target dir : String}
    (hfile : s.files.hasFile source = false) (hdir : s.view.existingDir? source = some dir)
    (hroot : dir ≠ "") :
    (t.operand true source target).run s =
      (Report.forEach (fun p => t.fileReported p (rebased target dir p))
        (s.files.pathsUnder dir)).run s := by
  have hempty : dir.isEmpty = false := by simpa using hroot
  have hf : s.view.files.hasFile source = false := hfile
  simp only [operand, Script.run_bind, Script.run_read, id, hf, hdir, hempty]
  rfl

end Command.Transfer

end ProjectShell
