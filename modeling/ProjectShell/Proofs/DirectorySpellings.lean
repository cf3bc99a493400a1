import Mathlib.Data.List.Infix
import ProjectShell.Proofs.Keys

namespace ProjectShell

namespace Path

open Text

theorem getLast?_trimSlashes (cs : List Char) : (trimSlashes cs).getLast? ≠ some '/' := by
  induction cs using List.reverseRecOn with
  | nil => simp [trimSlashes]
  | append_singleton cs c ih =>
    by_cases hc : c = '/'
    · have ht : trimSlashes (cs ++ [c]) = trimSlashes cs := by simp [trimSlashes, hc]
      rwa [ht]
    · simp [trimSlashes, hc]

theorem trimSlashes_prefix_self (cs : List Char) : trimSlashes cs <+: cs := by
  refine trimSlashes_induction (motive := (· <+: cs)) cs List.prefix_rfl ?_
  exact fun ds h => (List.prefix_append ds ['/']).trans h

theorem infix_trimSlashes_iff (cs : List Char) :
    ['/', '.'] <:+: trimSlashes cs ↔ ['/', '.'] <:+: cs := by
  refine trimSlashes_induction (motive := fun ds => ['/', '.'] <:+: ds ↔ ['/', '.'] <:+: cs) cs
    Iff.rfl ?_
  intro ds h
  have hlast : ¬ ['/', '.'] <:+ ds ++ ['/'] := by
    rintro ⟨front, hf⟩
    have hl := congrArg List.getLast? hf
    simp at hl
  rw [← h, List.infix_concat_iff, or_iff_right hlast]

theorem segments_eq_nil_iff {cs : List Char} :
    segments cs = [] ↔ ∀ seg ∈ pieces '/' cs, seg = [] ∨ seg = ['.'] := by
  rw [segments, List.filter_eq_nil_iff]
  refine forall₂_congr (fun seg _ => ?_)
  simp [or_iff_not_imp_left]

theorem trimmed_of_segments_eq_nil {cs : List Char} (h : segments cs = []) : Trimmed cs := by
  intro seg hs
  rcases segments_eq_nil_iff.1 h seg hs with rfl | rfl <;> decide

theorem exists_last_piece (cs : List Char) :
    ∃ seg ∈ pieces '/' cs, cs = seg ∨ ∃ front, cs = front ++ '/' :: seg := by
  have hne := pieces_ne_nil '/' cs
  have hcs : joined ((pieces '/' cs).dropLast ++ [(pieces '/' cs).getLast hne]) = cs := by
    rw [List.dropLast_concat_getLast hne]
    exact intercalate_pieces '/' cs
  refine ⟨_, List.getLast_mem hne, ?_⟩
  by_cases hs : (pieces '/' cs).dropLast = []
  · left
    rw [hs] at hcs
    simpa [joined] using hcs.symm
  · right
    rw [joined_append _ _ hs (by simp)] at hcs
    exact ⟨_, by simpa [joined] using hcs.symm⟩

theorem infix_iff_of_segments_eq_nil {cs : List Char} (h : segments cs = [])
    (hlast : cs.getLast? ≠ some '/') : ['/', '.'] <:+: cs ↔ ¬ (cs = [] ∨ cs = ['.']) := by
  constructor
  · rintro hdot (rfl | rfl)
    · exact absurd hdot (by decide)
    · exact absurd hdot (by decide)
  · intro hne
    obtain ⟨seg, hs, hcs⟩ := exists_last_piece cs
    have hseg : seg = [] ∨ seg = ['.'] := segments_eq_nil_iff.1 h seg hs
    rcases hcs with rfl | ⟨front, rfl⟩
    · exact absurd hseg hne
    · rcases hseg with rfl | rfl
      · exact absurd (by simp) hlast
      · exact ⟨front, [], by simp⟩

theorem normalizeDir_of_segments_eq_nil {path : String} (h : segments path.toList = []) :
    normalizeDir path =
      if ['/', '.'] <:+: path.toList then
        .error (.invalidPath (String.ofList (trimSlashes path.toList)))
      else .ok "" := by
  have hsegs : segments (trimSlashes path.toList) = [] := (segments_trimSlashes _).trans h
  -- Slashes are cut off at the end only, so a dot that they leave behind a slash stays.
  have hdot : ['/', '.'] <:+: path.toList ↔
      ¬ (trimSlashes path.toList = [] ∨ trimSlashes path.toList = ['.']) := by
    rw [← infix_trimSlashes_iff]
    exact infix_iff_of_segments_eq_nil hsegs (getLast?_trimSlashes _)
  rw [normalizeDir, trim_of_trimmed (trimmed_of_segments_eq_nil h)]
  by_cases hroot : trimSlashes path.toList = [] ∨ trimSlashes path.toList = ['.']
  · rw [if_pos hroot, if_neg (fun h => hdot.1 h hroot)]
  · have hkey : key? (trimSlashes path.toList) = none := by
      rw [key?, trim_of_trimmed (trimmed_of_segments_eq_nil hsegs)]
      simp [hsegs]
    rw [if_neg hroot, if_pos (hdot.2 hroot), normalize, String.toList_ofList, hkey]

theorem trimSlashes_ne_of_segments_ne_nil {cs : List Char} (hne : segments cs ≠ []) :
    ¬ (trimSlashes cs = [] ∨ trimSlashes cs = ['.']) := by
  rw [← segments_trimSlashes] at hne
  rintro (h | h)
  · exact hne (by rw [h]; rfl)
  · exact hne (by rw [h]; rfl)

theorem key?_trimSlashes {cs : List Char} (ht : Trimmed cs) (hnul : '\x00' ∉ cs)
    (hup : ['.', '.'] ∉ pieces '/' cs) (hne : segments cs ≠ []) :
    key? (trimSlashes cs) = some (joined (segments cs)) := by
  have hnil : trimSlashes cs ≠ [] := (not_or.1 (trimSlashes_ne_of_segments_ne_nil hne)).1
  rw [key?_eq_some_iff, trim_of_trimmed (trimmed_trimSlashes ht), segments_trimSlashes]
  refine ⟨⟨hnil, getLast?_trimSlashes cs, ?_⟩, ?_, hne, rfl⟩
  · exact fun hm => hnul ((trimSlashes_prefix_self cs).mem hm)
  · exact fun hm => hup (mem_segments.1 hm).1

theorem normalizeDir_of_segments_ne_nil {path : String} (ht : Trimmed path.toList)
    (hnul : '\x00' ∉ path.toList) (hup : ['.', '.'] ∉ pieces '/' path.toList)
    (hne : segments path.toList ≠ []) : normalizeDir path = .ok (place path) := by
  have hkey := key?_trimSlashes ht hnul hup hne
  rw [normalizeDir, trim_of_trimmed ht]
  rw [if_neg (trimSlashes_ne_of_segments_ne_nil hne), normalize_eq_ok_iff, String.toList_ofList,
    hkey, place, String.toList_ofList]

theorem normalizeDir_spellings {path : String} (ht : Trimmed path.toList)
    (hnul : '\x00' ∉ path.toList) (hup : ['.', '.'] ∉ pieces '/' path.toList) :
    (segments path.toList ≠ [] → normalizeDir path = .ok (place path)) ∧
    (segments path.toList = [] →
      normalizeDir path =
        if ['/', '.'] <:+: path.toList then
          .error (.invalidPath (String.ofList (trimSlashes path.toList)))
        else .ok "") :=
  ⟨normalizeDir_of_segments_ne_nil ht hnul hup, normalizeDir_of_segments_eq_nil⟩

theorem normalizeDir_spellings_dotted :
    let path := "//.//a b/./.../"
    let root := ".//"
    (Trimmed path.toList ∧ '\x00' ∉ path.toList ∧ ['.', '.'] ∉ pieces '/' path.toList ∧
      segments path.toList ≠ [] ∧ normalizeDir path = .ok "a b/...") ∧
    (Trimmed root.toList ∧ '\x00' ∉ root.toList ∧ ['.', '.'] ∉ pieces '/' root.toList ∧
      segments root.toList = [] ∧ normalizeDir root = .ok "") := by
  intro path root
  have ht : Trimmed path.toList := by decide
  have hnul : '\x00' ∉ path.toList := by decide
  have hup : ['.', '.'] ∉ pieces '/' path.toList := by decide
  have hne : segments path.toList ≠ [] := by decide
  have hplace : place path = "a b/..." := by decide +kernel
  have ht' : Trimmed root.toList := by decide
  have hnul' : '\x00' ∉ root.toList := by decide
  have hup' : ['.', '.'] ∉ pieces '/' root.toList := by decide
  have hnil : segments root.toList = [] := by decide
  have hdot : ¬ ['/', '.'] <:+: root.toList := by decide
  refine ⟨⟨ht, hnul, hup, hne, ?_⟩, ht', hnul', hup', hnil, ?_⟩
  · rw [(normalizeDir_spellings ht hnul hup).1 hne, hplace]
  · rw [(normalizeDir_spellings ht' hnul' hup').2 hnil, if_neg hdot]

theorem normalizeDir_refuses_root :
    (Trimmed "./.".toList ∧ '\x00' ∉ "./.".toList ∧ ['.', '.'] ∉ pieces '/' "./.".toList) ∧
      segments "./.".toList = [] ∧ place "./." = "" ∧
      normalizeDir "./." = .error (.invalidPath "./.") := by
  decide +kernel

end Path

theorem FileMap.isDir_iff_place (m : FileMap) {path : String} (ht : Path.Trimmed path.toList)
    (hnul : '\x00' ∉ path.toList) (hup : ['.', '.'] ∉ Text.pieces '/' path.toList) :
    m.isDir path = true ↔
      if Path.segments path.toList = [] then ¬ ['/', '.'] <:+: path.toList
      else ∃ key ∈ m.keys, Path.under (Path.place path) key = true := by
  rw [isDir]
  split_ifs with hs
  · rw [Path.normalizeDir_of_segments_eq_nil hs]
    split_ifs with hdot <;> simp [hdot]
  · have hkey := Path.isKey_of_key? (Path.key?_trimSlashes ht hnul hup hs)
    have hplace : (Path.place path).isEmpty = false := by simpa [Path.place] using hkey.ne_nil
    rw [Path.normalizeDir_of_segments_ne_nil ht hnul hup hs]
    simp [hplace, pathsUnder]

end ProjectShell
