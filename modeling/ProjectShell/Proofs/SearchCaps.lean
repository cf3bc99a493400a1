import ProjectShell.Proofs.SearchAgreement

namespace ProjectShell

def File.located (f : File) : List SearchMatch :=
  (f.lines.zipIdx 1).map (fun l => ⟨f.path, l.2, l.1⟩)

namespace SearchOptions

def admits (o : SearchOptions) (path : String) : Bool :=
  (o.pathGlob.map PathPattern.new).all (fun glob => glob.isMatch path)

def hits (o : SearchOptions) (query : String) (m : SearchMatch) : Bool :=
  !query.isEmpty && o.admits m.path && (o.regex? query).any (fun r => r.isMatch m.line.toList)

def cap (o : SearchOptions) (s : FileStore) : Nat := o.maxResults.getD s.limits.maxSearchResults

end SearchOptions

namespace FileStore

def located (s : FileStore) : List SearchMatch := s.files.values.flatMap File.located

def collect (hit : SearchMatch → Bool) (cap : Nat) (found : List SearchMatch) :
    List SearchMatch → List SearchMatch
  | [] => found
  | m :: ms =>
      if hit m then
        if cap ≤ found.length + 1 then found ++ [m] else collect hit cap (found ++ [m]) ms
      else collect hit cap found ms

variable {hit : SearchMatch → Bool} {cap : Nat} {found : List SearchMatch}

/-- The cap is looked at behind a hit only, so the first hit is kept whatever the cap. -/
theorem collect_eq_take (ms : List SearchMatch) (h : found.length < max 1 cap) :
    collect hit cap found ms = found ++ (ms.filter hit).take (max 1 cap - found.length) := by
  induction ms generalizing found with
  | nil => simp [collect]
  | cons m ms ih =>
    rw [collect]
    by_cases hm : hit m = true
    · obtain ⟨room, hroom⟩ : ∃ room, max 1 cap - found.length = room + 1 :=
        ⟨max 1 cap - found.length - 1, by omega⟩
      rw [if_pos hm, List.filter_cons_of_pos hm, hroom, List.take_succ_cons]
      split
      · obtain rfl : room = 0 := by omega
        rw [List.take_zero]
      · have hlength : (found ++ [m]).length = found.length + 1 := by simp
        have hleft : max 1 cap - (found ++ [m]).length = room := by omega
        rw [ih (by omega), hleft, List.append_assoc, List.singleton_append]
    · rw [if_neg hm, List.filter_cons_of_neg hm, ih h]

theorem matchingLines_eq_filter (r : Regex) (path : String) (number : Nat) (ls : List String) :
    matchingLines r path number ls =
      ((ls.zipIdx number).map (fun l => ⟨path, l.2, l.1⟩)).filter
        (fun m : SearchMatch => r.isMatch m.line.toList) := by
  induction ls generalizing number with
  | nil => rfl
  | cons l ls ih =>
    rw [matchingLines, ih, List.zipIdx_cons, List.map_cons, List.filter_cons]

theorem allMatches_eq_filter (r : Regex) (admits : String → Bool) (files : List File) :
    allMatches r admits files = (files.flatMap File.located).filter
      (fun m => admits m.path && r.isMatch m.line.toList) := by
  induction files with
  | nil => rfl
  | cons f files ih =>
    -- The path of a line is that of its file, so a path left out takes all lines with it.
    have hpath : ∀ m ∈ f.located, m.path = f.path := by
      intro m hm
      obtain ⟨l, -, rfl⟩ := List.mem_map.1 hm
      rfl
    have hfile : f.located.filter (fun m => admits m.path && r.isMatch m.line.toList) =
        if admits f.path then matchingLines r f.path 1 f.lines else [] := by
      rw [List.filter_congr (fun m hm => by rw [hpath m hm])]
      split
      · rename_i hadmits
        simp only [hadmits, Bool.true_and]
        exact (matchingLines_eq_filter r f.path 1 f.lines).symm
      · rename_i hadmits
        simp [hadmits]
    rw [List.flatMap_cons, List.filter_append, hfile, ← ih, allMatches, allMatches,
      List.filter_cons]
    split
    · rw [List.flatMap_cons]
    · rw [List.nil_append]

variable (s : FileStore) (query : String) (o : SearchOptions)

theorem search_eq_take :
    s.search query o = (s.located.filter (o.hits query)).take (max 1 (o.cap s)) := by
  rw [search]
  cases hquery : query.isEmpty with
  | true =>
    have hnone : s.located.filter (o.hits query) = [] :=
      List.filter_eq_nil_iff.2 (fun m _ => by simp [SearchOptions.hits, hquery])
    rw [if_pos rfl, hnone, List.take_nil]
  | false =>
    rw [if_neg (by simp)]
    dsimp only
    split
    · rename_i hregex
      have hnone : s.located.filter (o.hits query) = [] := by
        refine List.filter_eq_nil_iff.2 (fun m _ => ?_)
        rw [SearchOptions.hits, SearchOptions.regex?, hregex]
        simp
      rw [hnone, List.take_nil]
    · rename_i r hregex
      have hhits : o.hits query = fun m => o.admits m.path && r.isMatch m.line.toList := by
        funext m
        rw [SearchOptions.hits, SearchOptions.regex?, hregex, hquery]
        simp
      rw [allMatches_eq_filter, hhits, located, SearchOptions.cap]
      unfold SearchOptions.admits
      cases o.pathGlob <;> rfl

theorem search_capped :
    s.search query o = collect (o.hits query) (o.cap s) [] s.located ∧
      (s.search query o).length ≤ max 1 (o.cap s) ∧
      ∀ room, s.search query o = (s.search query { o with
        maxResults := some ((s.located.filter (o.hits query)).length + room) }).take
          (max 1 (o.cap s)) := by
  have hsearch := search_eq_take s query o
  refine ⟨?_, ?_, fun room => ?_⟩
  · have hfirst : ([] : List SearchMatch).length < max 1 (o.cap s) := Nat.le_max_left 1 _
    rw [hsearch, collect_eq_take s.located hfirst, List.nil_append, List.length_nil, Nat.sub_zero]
  · rw [hsearch]
    exact List.length_take_le _ _
  · have hroom := search_eq_take s query { o with
      maxResults := some ((s.located.filter (o.hits query)).length + room) }
    rw [List.take_of_length_le] at hroom
    · rw [hsearch, hroom]
      rfl
    · change (s.located.filter (o.hits query)).length ≤ _
      simp only [SearchOptions.cap, Option.getD_some]
      omega

theorem search_exceeds_cap :
    let s := ((FileStore.new ⟨0⟩).seed [("a.ts", "foo\nbar\nfoo")]).2
    let o : SearchOptions := { maxResults := some 0 }
    o.cap s = 0 ∧ ¬ (s.search "foo" o).length ≤ o.cap s := by
  decide +kernel

end FileStore

end ProjectShell
