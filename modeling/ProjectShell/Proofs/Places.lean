import Mathlib.Data.List.Induction
import ProjectShell.FileStore.File

namespace ProjectShell

namespace Text

theorem pieces_append (sep : Char) (cs ds : List Char) :
    pieces sep (cs ++ sep :: ds) = pieces sep cs ++ pieces sep ds := by
  induction cs with
  | nil => simp [pieces]
  | cons c cs ih =>
    obtain ⟨p, ps, hp⟩ := List.exists_cons_of_ne_nil (pieces_ne_nil sep cs)
    rw [hp] at ih
    by_cases hc : c = sep
    · simp [pieces, hc, ih, hp]
    · simp [pieces, hc, ih, hp]

theorem pieces_of_not_mem {sep : Char} {cs : List Char} (h : sep ∉ cs) : pieces sep cs = [cs] := by
  induction cs with
  | nil => rfl
  | cons c cs ih =>
    rw [List.mem_cons, not_or] at h
    have hc : c ≠ sep := fun hc => h.1 hc.symm
    simp [pieces, hc, ih h.2]

theorem pieces_intercalate {sep : Char} {segs : List (List Char)} (hne : segs ≠ [])
    (h : ∀ s ∈ segs, sep ∉ s) : pieces sep ([sep].intercalate segs) = segs := by
  induction segs with
  | nil => exact absurd rfl hne
  | cons s segs ih =>
    obtain ⟨hs, hsegs⟩ := List.forall_mem_cons.1 h
    cases segs with
    | nil => simpa using pieces_of_not_mem hs
    | cons t segs =>
      have hrest := ih (by simp) hsegs
      rw [List.intercalate_cons_cons, List.append_assoc, List.singleton_append, pieces_append,
        pieces_of_not_mem hs, hrest, List.singleton_append]

theorem cutAt_eq_some {c : Char} {cs before rest : List Char}
    (h : cutAt c cs = some (before, rest)) : cs = before ++ c :: rest := by
  induction cs generalizing before with
  | nil => simp [cutAt] at h
  | cons d cs ih =>
    rw [cutAt] at h
    split at h
    · rename_i hd
      cases h
      simp [hd]
    · obtain ⟨⟨b, r⟩, hb, he⟩ := Option.map_eq_some_iff.1 h
      cases he
      simp [ih hb]

theorem cutAtLast_eq_some {c : Char} {cs before rest : List Char}
    (h : cutAtLast c cs = some (before, rest)) : cs = before ++ c :: rest := by
  obtain ⟨⟨back, front⟩, hb, he⟩ := Option.map_eq_some_iff.1 h
  cases he
  have hr := congrArg List.reverse (cutAt_eq_some hb)
  simpa using hr

theorem trimEnd_concat {cs : List Char} {c : Char} (h : isBlank c = false) :
    trimEnd (cs ++ [c]) = cs ++ [c] := by
  simp [trimEnd, h]

end Text

namespace Path

open Text

def Trimmed (cs : List Char) : Prop :=
  ∀ s ∈ pieces '/' cs, s.head?.all (!isBlank ·) ∧ s.getLast?.all (!isBlank ·)

instance (cs : List Char) : Decidable (Trimmed cs) :=
  inferInstanceAs (Decidable (∀ s ∈ pieces '/' cs, _))

theorem trimmed_append_iff {cs ds : List Char} :
    Trimmed (cs ++ '/' :: ds) ↔ Trimmed cs ∧ Trimmed ds := by
  simp only [Trimmed, pieces_append, List.forall_mem_append]

theorem isBlank_head_of_trimmed {c : Char} {cs : List Char} (h : Trimmed (c :: cs)) :
    isBlank c = false := by
  by_cases hc : c = '/'
  · rw [hc]
    rfl
  · obtain ⟨p, ps, hp⟩ := List.exists_cons_of_ne_nil (pieces_ne_nil '/' cs)
    have hm : c :: p ∈ pieces '/' (c :: cs) := by simp [pieces, hc, hp]
    simpa using (h _ hm).1

theorem mem_pieces_last (cs : List Char) {c : Char} (hc : c ≠ '/') :
    ∃ s, s ++ [c] ∈ pieces '/' (cs ++ [c]) := by
  induction cs with
  | nil => exact ⟨[], by simp [pieces, hc]⟩
  | cons d cs ih =>
    obtain ⟨s, hs⟩ := ih
    obtain ⟨p, ps, hp⟩ := List.exists_cons_of_ne_nil (pieces_ne_nil '/' (cs ++ [c]))
    rw [hp] at hs
    by_cases hd : d = '/'
    · exact ⟨s, by simp [pieces, hd, hp, List.mem_cons.1 hs]⟩
    · rcases List.mem_cons.1 hs with hs | hs
      · exact ⟨d :: s, by simp [pieces, hd, hp, hs]⟩
      · exact ⟨s, by simp [pieces, hd, hp, hs]⟩

theorem isBlank_last_of_trimmed {c : Char} {cs : List Char} (h : Trimmed (cs ++ [c])) :
    isBlank c = false := by
  by_cases hc : c = '/'
  · rw [hc]
    rfl
  · obtain ⟨s, hs⟩ := mem_pieces_last cs hc
    simpa using (h _ hs).2

theorem trimStart_of_trimmed {cs : List Char} (h : Trimmed cs) : trimStart cs = cs := by
  cases cs with
  | nil => rfl
  | cons c cs => exact trimStart_eq_self (isBlank_head_of_trimmed h)

theorem trim_of_trimmed {cs : List Char} (h : Trimmed cs) : trim cs = cs := by
  rw [trim, trimStart_of_trimmed h]
  induction cs using List.reverseRecOn with
  | nil => rfl
  | append_singleton cs c => exact trimEnd_concat (isBlank_last_of_trimmed h)

theorem mem_segments {cs seg : List Char} :
    seg ∈ segments cs ↔ seg ∈ pieces '/' cs ∧ seg ≠ [] ∧ seg ≠ ['.'] := by
  simp [segments]

theorem segments_append (cs ds : List Char) :
    segments (cs ++ '/' :: ds) = segments cs ++ segments ds := by
  rw [segments, pieces_append, List.filter_append]
  rfl

theorem trimSlashes_induction {motive : List Char → Prop} (cs : List Char) (h : motive cs)
    (hstep : ∀ ds, motive (ds ++ ['/']) → motive ds) : motive (trimSlashes cs) := by
  induction cs using List.reverseRecOn with
  | nil => exact h
  | append_singleton cs c ih =>
    by_cases hc : c = '/'
    · have ht : trimSlashes (cs ++ [c]) = trimSlashes cs := by simp [trimSlashes, hc]
      rw [ht]
      exact ih (hstep cs (hc ▸ h))
    · have ht : trimSlashes (cs ++ [c]) = cs ++ [c] := by simp [trimSlashes, hc]
      rwa [ht]

theorem segments_trimSlashes (cs : List Char) : segments (trimSlashes cs) = segments cs := by
  refine trimSlashes_induction (motive := fun ds => segments ds = segments cs) cs rfl ?_
  intro ds hd
  rw [← hd, segments_append]
  simp [segments, pieces]

theorem trimmed_trimSlashes {cs : List Char} (h : Trimmed cs) : Trimmed (trimSlashes cs) :=
  trimSlashes_induction cs h (fun _ hd => (trimmed_append_iff.1 hd).1)

theorem key?_eq_some {cs key : List Char} (ht : Trimmed cs) (h : key? cs = some key) :
    segments cs ≠ [] ∧ key = joined (segments cs) := by
  simp only [key?, trim_of_trimmed ht] at h
  split at h
  · cases h
  · split at h
    · cases h
    · rename_i hs
      exact ⟨fun he => hs (.inr he), (Option.some.inj h).symm⟩

theorem pieces_key {cs key : List Char} (ht : Trimmed cs) (h : key? cs = some key) :
    pieces '/' key = segments cs := by
  obtain ⟨hne, rfl⟩ := key?_eq_some ht h
  exact pieces_intercalate hne (fun s hs => not_mem_of_mem_pieces (mem_segments.1 hs).1)

theorem segments_key {cs key : List Char} (ht : Trimmed cs) (h : key? cs = some key) :
    segments key = segments cs := by
  rw [segments, pieces_key ht h]
  exact List.filter_eq_self.2 (fun s hs => (List.mem_filter.1 hs).2)

theorem trimmed_key {cs key : List Char} (ht : Trimmed cs) (h : key? cs = some key) :
    Trimmed key := by
  intro s hs
  rw [pieces_key ht h] at hs
  exact ht s (mem_segments.1 hs).1

theorem segments_normalizeDir {path dir : String} (ht : Trimmed path.toList)
    (h : normalizeDir path = .ok dir) (hne : dir ≠ "") :
    segments dir.toList = segments path.toList := by
  simp only [normalizeDir, trim_of_trimmed ht] at h
  split at h
  · cases h
    exact absurd rfl hne
  · rw [normalize_eq_ok_iff, String.toList_ofList] at h
    rw [segments_key (trimmed_trimSlashes ht) h, segments_trimSlashes]

theorem exists_of_under {dir key : String} (h : under dir key = true) (hne : dir ≠ "") :
    ∃ rest, key.toList = dir.toList ++ '/' :: rest := by
  have hd : dir.isEmpty = false := by simpa using hne
  rw [under, hd, Bool.false_or] at h
  split at h
  · rename_i rest hr
    exact ⟨rest, dropFront_eq_some_iff.1 hr⟩
  · cases h

theorem lastSegment_cases (path : String) :
    trimSlashes path.toList = (lastSegment path).toList ∨
      ∃ before, trimSlashes path.toList = before ++ '/' :: (lastSegment path).toList := by
  rw [lastSegment, baseName, String.toList_ofList]
  split
  · rename_i before name hc
    rw [String.toList_ofList]
    exact .inr ⟨before, cutAtLast_eq_some hc⟩
  · exact .inl (String.toList_ofList ..).symm

theorem trimmed_lastSegment {path : String} (h : Trimmed path.toList) :
    Trimmed (lastSegment path).toList := by
  have ht := trimmed_trimSlashes h
  rcases lastSegment_cases path with hp | ⟨before, hp⟩
  · rwa [← hp]
  · rw [hp] at ht
    exact (trimmed_append_iff.1 ht).2

def place (path : String) : String := String.ofList (joined (segments path.toList))

def Holds (place key : String) : Prop :=
  place = "" ∨ key = place ∨ ∃ rest, key = place ++ "/" ++ rest

theorem joined_append (segs more : List (List Char)) (hs : segs ≠ []) (hm : more ≠ []) :
    joined (segs ++ more) = joined segs ++ '/' :: joined more := by
  induction segs with
  | nil => exact absurd rfl hs
  | cons s segs ih =>
    cases segs with
    | nil =>
      rw [List.singleton_append, joined, List.intercalate_cons_of_ne_nil hm]
      simp [joined]
    | cons t segs =>
      have hrest := ih (by simp)
      simp only [joined, List.cons_append, List.intercalate_cons_cons] at hrest ⊢
      rw [hrest]
      simp

theorem holds_place {path key : String} (h : segments path.toList <+: segments key.toList) :
    Holds (place path) (place key) := by
  obtain ⟨more, hm⟩ := h
  rw [place, place, ← hm]
  by_cases hs : segments path.toList = []
  · exact .inl (by simp [hs, joined])
  · by_cases hmore : more = []
    · exact .inr (.inl (by rw [hmore, List.append_nil]))
    · refine .inr (.inr ⟨String.ofList (joined more), ?_⟩)
      rw [joined_append _ _ hs hmore, ← String.toList_inj]
      simp

theorem normalize_eq_place {path key : String} (ht : Trimmed path.toList)
    (h : normalize path = .ok key) : key = place path := by
  rw [normalize_eq_ok_iff] at h
  rw [place, ← (key?_eq_some ht h).2, String.ofList_toList]

end Path

end ProjectShell
