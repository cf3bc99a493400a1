import ProjectShell.Proofs.Places

namespace ProjectShell

namespace Text

theorem mem_of_mem_pieces {sep c : Char} {cs p : List Char} (hp : p ∈ pieces sep cs)
    (hc : c ∈ p) : c ∈ cs := by
  induction cs generalizing p with
  | nil =>
    rw [pieces, List.mem_singleton] at hp
    rwa [hp] at hc
  | cons d cs ih =>
    obtain ⟨q, qs, hq⟩ := List.exists_cons_of_ne_nil (pieces_ne_nil sep cs)
    simp only [pieces, hq] at hp ih
    split at hp
    · rcases List.mem_cons.1 hp with rfl | hp
      · exact absurd hc List.not_mem_nil
      · exact List.mem_cons_of_mem _ (ih hp hc)
    · rcases List.mem_cons.1 hp with rfl | hp
      · rcases List.mem_cons.1 hc with rfl | hc
        · exact List.mem_cons_self
        · exact List.mem_cons_of_mem _ (ih List.mem_cons_self hc)
      · exact List.mem_cons_of_mem _ (ih (List.mem_cons_of_mem _ hp) hc)

theorem trim_sublist (cs : List Char) : (trim cs).Sublist cs := by
  have hend : (trimEnd (trimStart cs)).Sublist (trimStart cs) := by
    have h := (List.dropWhile_sublist isBlank (l := (trimStart cs).reverse)).reverse
    rwa [List.reverse_reverse] at h
  exact hend.trans (List.dropWhile_sublist isBlank)

theorem length_trim_lt {cs : List Char} (h : trim cs ≠ cs) : (trim cs).length < cs.length :=
  Nat.lt_of_le_of_ne (trim_sublist cs).length_le (fun he => h ((trim_sublist cs).eq_of_length he))

theorem trimmed_eq_self_iff {s : String} : trimmed s = s ↔ trim s.toList = s.toList := by
  rw [trimmed, ← String.toList_inj, String.toList_ofList]

end Text

namespace Path

open Text

theorem joined_cons (seg : List Char) {segs : List (List Char)} (h : segs ≠ []) :
    joined (seg :: segs) = seg ++ '/' :: joined segs :=
  (joined_append [seg] segs (by simp) h).trans (by simp [joined])

theorem mem_joined {c : Char} {segs : List (List Char)} (h : c ∈ joined segs) :
    c = '/' ∨ ∃ seg ∈ segs, c ∈ seg := by
  induction segs with
  | nil => exact absurd h List.not_mem_nil
  | cons seg segs ih =>
    by_cases hs : segs = []
    · subst hs
      exact .inr ⟨seg, List.mem_singleton_self seg, by simpa [joined] using h⟩
    · rw [joined_cons seg hs, List.mem_append, List.mem_cons] at h
      rcases h with h | h | h
      · exact .inr ⟨seg, List.mem_cons_self, h⟩
      · exact .inl h
      · rcases ih h with hc | ⟨t, ht, hc⟩
        · exact .inl hc
        · exact .inr ⟨t, List.mem_cons_of_mem _ ht, hc⟩

theorem length_joined_le {segs more : List (List Char)} (h : segs.Sublist more) :
    (joined segs).length ≤ (joined more).length := by
  have hcons (seg : List Char) (segs : List (List Char)) :
      (joined (seg :: segs)).length =
        seg.length + if segs = [] then 0 else 1 + (joined segs).length := by
    split
    · rename_i hs
      simp [hs, joined]
    · rename_i hs
      rw [joined_cons seg hs, List.length_append, List.length_cons]
      omega
  induction h with
  | slnil => exact Nat.le_refl _
  | @cons segs more seg h ih =>
    rw [hcons]
    split
    · rename_i hm
      rw [hm] at h
      simp [List.sublist_nil.1 h, joined]
    · omega
  | @cons_cons segs more seg h ih =>
    rw [hcons, hcons]
    by_cases hs : segs = []
    · simp [hs]
    · have hm : more ≠ [] := fun hm => hs (List.sublist_nil.1 (hm ▸ h))
      rw [if_neg hs, if_neg hm]
      omega

structure IsKey (cs : List Char) : Prop where
  nul : '\x00' ∉ cs
  pieces : ∀ seg ∈ pieces '/' cs, seg ≠ [] ∧ seg ≠ ['.'] ∧ seg ≠ ['.', '.']

theorem IsKey.ne_nil {cs : List Char} (h : IsKey cs) : cs ≠ [] := by
  rintro rfl
  exact (h.pieces [] List.mem_cons_self).1 rfl

theorem IsKey.segments_eq {cs : List Char} (h : IsKey cs) : segments cs = Text.pieces '/' cs := by
  refine List.filter_eq_self.2 (fun seg hs => ?_)
  obtain ⟨hempty, hdot, -⟩ := h.pieces seg hs
  simp [hempty, hdot]

theorem IsKey.getLast?_ne {cs : List Char} (h : IsKey cs) : cs.getLast? ≠ some '/' := by
  intro hl
  obtain ⟨ds, rfl⟩ := List.getLast?_eq_some_iff.1 hl
  have hm : [] ∈ Text.pieces '/' (ds ++ ['/']) := by simp [pieces_append, Text.pieces]
  exact (h.pieces [] hm).1 rfl

theorem key?_eq_some_iff {cs key : List Char} :
    key? cs = some key ↔
      (trim cs ≠ [] ∧ (trim cs).getLast? ≠ some '/' ∧ '\x00' ∉ trim cs) ∧
        ['.', '.'] ∉ segments (trim cs) ∧ segments (trim cs) ≠ [] ∧
          key = joined (segments (trim cs)) := by
  rw [key?]
  dsimp only
  split
  · rename_i h
    simp only [reduceCtorEq, false_iff]
    tauto
  · split
    · rename_i h
      simp only [reduceCtorEq, false_iff]
      tauto
    · simp only [Option.some.injEq]
      tauto

theorem isKey_of_key? {cs key : List Char} (h : key? cs = some key) : IsKey key := by
  obtain ⟨⟨-, -, hnul⟩, hup, hne, rfl⟩ := key?_eq_some_iff.1 h
  have hpieces : pieces '/' (joined (segments (trim cs))) = segments (trim cs) :=
    pieces_intercalate hne (fun s hs => not_mem_of_mem_pieces (mem_segments.1 hs).1)
  constructor
  · intro hm
    rcases mem_joined hm with hc | ⟨seg, hs, hc⟩
    · exact absurd hc (by decide)
    · exact hnul (mem_of_mem_pieces (mem_segments.1 hs).1 hc)
  · intro seg hs
    rw [hpieces] at hs
    obtain ⟨-, hempty, hdot⟩ := mem_segments.1 hs
    exact ⟨hempty, hdot, fun he => hup (he ▸ hs)⟩

theorem key?_of_isKey {cs : List Char} (h : IsKey cs) (ht : trim cs = cs) : key? cs = some cs := by
  rw [key?_eq_some_iff, ht, h.segments_eq]
  refine ⟨⟨h.ne_nil, h.getLast?_ne, h.nul⟩, ?_, pieces_ne_nil '/' cs, ?_⟩
  · exact fun hup => (h.pieces _ hup).2.2 rfl
  · exact (intercalate_pieces '/' cs).symm

theorem length_key?_le {cs key : List Char} (h : key? cs = some key) :
    key.length ≤ (trim cs).length := by
  obtain ⟨-, -, -, rfl⟩ := key?_eq_some_iff.1 h
  calc (joined (segments (trim cs))).length
      ≤ (joined (pieces '/' (trim cs))).length := length_joined_le List.filter_sublist
    _ = (trim cs).length := congrArg List.length (intercalate_pieces '/' (trim cs))

end Path

end ProjectShell
