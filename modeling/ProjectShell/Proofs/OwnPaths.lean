import ProjectShell.Proofs.Faults

namespace ProjectShell

namespace Text

theorem trimStart_eq_self_iff {cs : List Char} :
    trimStart cs = cs ↔ cs.head?.all (!isBlank ·) = true := by
  cases cs with
  | nil => simp [trimStart]
  | cons c cs =>
    cases hc : isBlank c with
    | false => simp [trimStart_eq_self hc, hc]
    | true =>
      have hle : (trimStart cs).length ≤ cs.length := (List.dropWhile_sublist isBlank).length_le
      have hdrop : trimStart (c :: cs) = trimStart cs := by simp [trimStart, hc]
      have hne : trimStart cs ≠ c :: cs := fun h => by simp [h] at hle
      simp [hdrop, hne, hc]

theorem trimEnd_eq_self_iff {cs : List Char} :
    trimEnd cs = cs ↔ cs.getLast?.all (!isBlank ·) = true := by
  rw [← List.head?_reverse, ← trimStart_eq_self_iff, ← List.reverse_inj, trimEnd,
    List.reverse_reverse, trimStart]

theorem trim_eq_self_iff {cs : List Char} :
    trim cs = cs ↔ cs.head?.all (!isBlank ·) = true ∧ cs.getLast?.all (!isBlank ·) = true := by
  rw [← trimStart_eq_self_iff, ← trimEnd_eq_self_iff]
  constructor
  · intro h
    have hend : (trim cs).length ≤ (trimStart cs).length := by
      have hsub := (List.dropWhile_sublist isBlank (l := (trimStart cs).reverse)).length_le
      rwa [List.length_reverse, ← List.length_reverse] at hsub
    have hstart : trimStart cs = cs :=
      (List.dropWhile_sublist isBlank).eq_of_length_le ((congrArg List.length h).ge.trans hend)
    rw [trim, hstart] at h
    exact ⟨hstart, h⟩
  · rintro ⟨hstart, hend⟩
    rw [trim, hstart, hend]

end Text

namespace Path

open Text

section Joined

variable {segs : List (List Char)} (h : ∀ seg ∈ segs, seg ≠ [])

include h

theorem head?_joined : (joined segs).head? = segs.head?.bind List.head? := by
  cases segs with
  | nil => rfl
  | cons seg segs =>
    by_cases hs : segs = []
    · simp [hs, joined]
    · rw [joined_cons seg hs, List.head?_append_of_ne_nil _ (h seg List.mem_cons_self)]
      rfl

theorem getLast?_joined : (joined segs).getLast? = segs.getLast?.bind List.getLast? := by
  induction segs with
  | nil => rfl
  | cons seg segs ih =>
    obtain ⟨-, hsegs⟩ := List.forall_mem_cons.1 h
    cases segs with
    | nil => simp [joined]
    | cons next segs =>
      obtain ⟨c, cs, hc⟩ := List.exists_cons_of_ne_nil (hsegs next List.mem_cons_self)
      have hne : joined (next :: segs) ≠ [] := by
        intro hnil
        have hhead := head?_joined hsegs
        rw [hnil, hc] at hhead
        cases hhead
      rw [joined_cons seg (List.cons_ne_nil next segs), List.getLast?_append_of_ne_nil _ (by simp),
        List.getLast?_cons_of_ne_nil hne, ih hsegs, List.getLast?_cons_cons]

end Joined

def BareEnds (cs : List Char) : Prop :=
  ((segments cs).head?.bind List.head?).all (!isBlank ·) = true ∧
    ((segments cs).getLast?.bind List.getLast?).all (!isBlank ·) = true

instance (cs : List Char) : Decidable (BareEnds cs) := inferInstanceAs (Decidable (_ ∧ _))

theorem normalize_key_iff {path key : String} (h : normalize path = .ok key) :
    normalize key = .ok key ↔ BareEnds (trim path.toList) := by
  have hk := normalize_eq_ok_iff.1 h
  have hsegs : ∀ seg ∈ segments (trim path.toList), seg ≠ [] := fun seg hs =>
    (mem_segments.1 hs).2.1
  obtain ⟨-, -, -, hjoined⟩ := key?_eq_some_iff.1 hk
  rw [normalize_eq_self_iff, and_iff_right (isKey_of_key? hk), trimmed_eq_self_iff,
    trim_eq_self_iff, hjoined, head?_joined hsegs, getLast?_joined hsegs, BareEnds]

end Path

namespace FileStore

variable {limits : Limits} {s : FileStore} {file : File}

theorem Reachable.get?_path (h : Reachable limits s) (hf : file ∈ s.files.values) :
    s.files.get? file.path = some file ∧ Path.IsKey file.path.toList := by
  obtain ⟨⟨key, value⟩, hm, rfl⟩ := List.mem_map.1 hf
  have hget := SortedMap.get?_eq_some_iff.2 hm
  obtain ⟨hkey, hpath, -⟩ := h.sound.files key value hget
  rw [hpath]
  exact ⟨hget, hkey⟩

theorem delete_keeps {path key : String} (hn : Path.normalize path ≠ .ok key)
    (hget : s.files.get? key = some file) : (s.delete path).2.files.get? key = some file := by
  rw [delete]
  split
  · rename_i key' hn'
    have hne : key' ≠ key := fun he => hn (he ▸ hn')
    split
    · exact (SortedMap.get?_erase ..).trans ((if_neg hne).trans hget)
    · exact hget
  · exact hget

theorem own_path_iff_trimmed {limits : Limits} {s : FileStore} (hs : Reachable limits s) :
    (∀ path key : String, Path.normalize path = .ok key →
      (Path.normalize key = .ok key ↔ Path.BareEnds (Text.trim path.toList))) ∧
    ∀ file ∈ s.files.values,
      (Text.trimmed file.path = file.path → s.read? file.path = some file ∧
        s.delete file.path = (.ok (), s.change (s.files.erase file.path))) ∧
      (Text.trimmed file.path ≠ file.path →
        (∀ other, s.read? file.path = some other → other.path.length < file.path.length) ∧
        (s.delete file.path).2.files.get? file.path = some file) := by
  refine ⟨fun path key => Path.normalize_key_iff, ?_⟩
  intro file hf
  obtain ⟨hget, hkey⟩ := hs.get?_path hf
  constructor
  · intro ht
    have hn : Path.normalize file.path = .ok file.path := Path.normalize_of_isKey hkey ht
    have hmem : file.path ∈ s.files.keys := SortedMap.mem_keys_iff.2 (hget ▸ rfl)
    refine ⟨?_, delete_of_mem hn hmem⟩
    rw [read?, FileMap.read?, hn]
    exact hget
  · intro hne
    have hn : Path.normalize file.path ≠ .ok file.path :=
      fun h => hne (Path.normalize_eq_self_iff.1 h).2
    refine ⟨fun other hother => ?_, delete_keeps hn hget⟩
    rw [read?, FileMap.read?] at hother
    split at hother
    · rename_i key hk
      have hpath : other.path = key := (hs.sound.files key other hother).2.1
      rw [hpath, ← Path.keyOf_eq hk]
      exact Path.length_keyOf_lt hne
    · cases hother

theorem own_path_iff_trimmed_padded :
    let s := (withLimits {} ⟨0⟩).perform (.execute "echo 1 > './ a'; echo 2 > './b /c'")
    (Path.normalize "./b /c" = .ok "b /c" ∧ Path.normalize "b /c" = .ok "b /c") ∧
      Reachable {} s ∧
      (∃ file ∈ s.files.values, Text.trimmed file.path = file.path ∧
        s.read? file.path = some file ∧
        s.delete file.path = (.ok (), s.change (s.files.erase file.path))) ∧
      ∃ file ∈ s.files.values, Text.trimmed file.path ≠ file.path ∧
        (s.delete file.path).2.files.get? file.path = some file := by
  intro s
  have hs : Reachable {} s := .perform (.withLimits ⟨0⟩) _
  have hn : Path.normalize "./b /c" = .ok "b /c" := by decide +kernel
  have hbare : Path.BareEnds (Text.trim "./b /c".toList) := by decide +kernel
  have hinner : ∃ file ∈ s.files.values, Text.trimmed file.path = file.path := by decide +kernel
  have hedge : ∃ file ∈ s.files.values, Text.trimmed file.path ≠ file.path := by decide +kernel
  obtain ⟨inner, hi, ht⟩ := hinner
  obtain ⟨edge, he, hne⟩ := hedge
  obtain ⟨hkeys, hfiles⟩ := own_path_iff_trimmed hs
  exact ⟨⟨hn, (hkeys _ _ hn).2 hbare⟩, hs, ⟨inner, hi, ht, (hfiles inner hi).1 ht⟩,
    ⟨edge, he, hne, ((hfiles edge he).2 hne).2⟩⟩

theorem own_path_lost :
    let s := (withLimits {} ⟨0⟩).perform (.call (.edit (.write "./ a" "1")))
    Reachable {} s ∧ s.files.values.map File.path = [" a"] ∧
      Path.normalize "./ a" = .ok " a" ∧ Path.normalize " a" = .ok "a" ∧
      s.read? " a" = none ∧ (s.delete " a").1 = .error (.notFound " a") := by
  intro s
  exact ⟨.perform (.withLimits ⟨0⟩) _, by decide +kernel⟩

end FileStore

end ProjectShell
