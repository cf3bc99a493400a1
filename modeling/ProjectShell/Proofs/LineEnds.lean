import Mathlib.Data.List.Infix
import ProjectShell.Proofs.Places

namespace ProjectShell

namespace Text

theorem dropReturn_newline (cs l : List Char) :
    dropReturn (cs ++ '\n' :: l) = cs ++ '\n' :: dropReturn l := by
  cases l with
  | nil => simp [dropReturn]
  | cons c l =>
    rw [dropReturn, dropReturn, List.getLast?_append_cons, List.getLast?_cons_cons]
    split
    · rw [List.dropLast_append_cons, List.dropLast_cons_cons]
    · rfl

theorem exists_pieces_dropReturn (cs : List Char) :
    ∃ ps l, pieces '\n' cs = ps ++ [l] ∧ pieces '\n' (dropReturn cs) = ps ++ [dropReturn l] := by
  have hdrop {l : List Char} (hl : '\n' ∉ l) : pieces '\n' (dropReturn l) = [dropReturn l] := by
    refine pieces_of_not_mem (fun hmem => hl ?_)
    rw [dropReturn] at hmem
    split at hmem
    · exact List.mem_of_mem_dropLast hmem
    · exact hmem
  by_cases h : '\n' ∈ cs
  -- The last piece stands behind the last newline, the first of the reversed text.
  · obtain ⟨l, before, hcs, hl⟩ := List.eq_append_cons_of_mem (List.mem_reverse.2 h)
    have hl' : '\n' ∉ l.reverse := fun hmem => hl (List.mem_reverse.1 hmem)
    obtain rfl : cs = before.reverse ++ '\n' :: l.reverse := by
      rw [← List.reverse_reverse cs, hcs]
      simp
    refine ⟨pieces '\n' before.reverse, l.reverse, ?_, ?_⟩
    · rw [pieces_append, pieces_of_not_mem hl']
    · rw [dropReturn_newline, pieces_append, hdrop hl']
  · exact ⟨[], cs, pieces_of_not_mem h, hdrop h⟩

theorem endLines_concat (ps : List (List Char)) (l : List Char) :
    endLines (ps ++ [l]) = ps.map dropReturn ++ if l.isEmpty then [] else [l] := by
  induction ps with
  | nil => rfl
  | cons p ps ih =>
    obtain ⟨q, qs, hq⟩ : ∃ q qs, ps ++ [l] = q :: qs := List.exists_cons_of_ne_nil (by simp)
    rw [hq] at ih
    rw [List.cons_append, hq, endLines, ih, List.map_cons, List.cons_append]

theorem lines_dropReturn {cs : List Char} (h : (lines (cs ++ ['\n'])).getLast? ≠ some []) :
    lines (dropReturn cs) = lines (cs ++ ['\n']) ∧ (dropReturn cs).getLast? ≠ some '\n' := by
  obtain ⟨ps, l, hcs, hdrop⟩ := exists_pieces_dropReturn cs
  have hended : lines (cs ++ ['\n']) = ps.map dropReturn ++ [dropReturn l] := by
    rw [lines, pieces_append, hcs, pieces, endLines_concat]
    simp
  rw [hended, List.getLast?_concat] at h
  have hl : dropReturn l ≠ [] := fun hl => h (congrArg some hl)
  have hlast : (dropReturn l).isEmpty = false := by simpa using hl
  refine ⟨?_, fun hnewline => hl ?_⟩
  · rw [hended, lines, hdrop, endLines_concat, hlast]
    rfl
  · obtain ⟨ds, hds⟩ := List.getLast?_eq_some_iff.1 hnewline
    rw [hds, pieces_append, pieces] at hdrop
    exact (List.singleton_inj.1 (List.append_inj' hdrop rfl).2).symm

theorem trimNewline_concat (cs : List Char) :
    trimNewline (String.ofList (cs ++ ['\n'])) = String.ofList (dropReturn cs) := by
  obtain rfl | ⟨ds, d, rfl⟩ := List.eq_nil_or_concat cs
  · rfl
  · simp only [trimNewline, String.toList_ofList, List.reverse_append, List.reverse_singleton,
      List.singleton_append]
    by_cases hd : d = '\r'
    · simp [hd, dropReturn]
    · simp [hd, dropReturn]

theorem trimNewline_of_ne {s : String} (h : s.toList.getLast? ≠ some '\n') :
    trimNewline s = s := by
  rw [← List.head?_reverse] at h
  rw [trimNewline]
  split
  · rename_i hs
    rw [hs] at h
    exact absurd rfl h
  · rename_i hs
    rw [hs] at h
    exact absurd rfl h
  · rfl

theorem trimNewline_append {s : String} (h : s.toList.getLast? ≠ some '\r') :
    trimNewline (s ++ "\n") = s := by
  have hs : s ++ "\n" = String.ofList (s.toList ++ ['\n']) := String.ext (by simp)
  rw [hs, trimNewline_concat, dropReturn, if_neg h, String.ofList_toList]

theorem lines_trimNewline {s : String} (h : (linesOf s).getLast? ≠ some "") :
    lines (trimNewline s).toList = lines s.toList ∧
      (trimNewline s).toList.getLast? ≠ some '\n' := by
  by_cases hs : s.toList.getLast? = some '\n'
  · obtain ⟨cs, hcs⟩ := List.getLast?_eq_some_iff.1 hs
    obtain rfl : s = String.ofList (cs ++ ['\n']) := String.ext (by rw [hcs, String.toList_ofList])
    have hlast : (lines (cs ++ ['\n'])).getLast? ≠ some [] := by
      intro hlast
      rw [linesOf, String.toList_ofList, List.getLast?_map, hlast] at h
      exact h rfl
    rw [trimNewline_concat, String.toList_ofList, String.toList_ofList]
    exact lines_dropReturn hlast
  · rw [trimNewline_of_ne hs]
    exact ⟨rfl, hs⟩

end Text

end ProjectShell
