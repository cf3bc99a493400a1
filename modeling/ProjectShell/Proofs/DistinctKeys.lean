import Mathlib.Data.List.Nodup
import ProjectShell.FileStore.Manifest

namespace ProjectShell.Json

namespace Members

def keys (members : Members) : List String := members.map Prod.fst

theorem get?_eq_lookup (key : String) (members : Members) :
    get? key members = SortedMap.lookup key members := by
  induction members with
  | nil => rfl
  | cons e rest ih =>
    obtain ⟨k, v⟩ := e
    rw [get?, SortedMap.lookup, ih]

theorem mem_of_get? {key : String} {v : Json} {members : Members}
    (h : get? key members = some v) : (key, v) ∈ members := by
  rw [get?_eq_lookup] at h
  exact SortedMap.mem_of_lookup h

theorem get?_of_mem {key : String} {v : Json} {members : Members} (hk : members.keys.Nodup)
    (h : (key, v) ∈ members) : get? key members = some v := by
  induction members with
  | nil => exact absurd h List.not_mem_nil
  | cons e rest ih =>
    obtain ⟨k, w⟩ := e
    obtain ⟨hnot, hrest⟩ := List.nodup_cons.1 hk
    rw [get?]
    rcases List.mem_cons.1 h with heq | h
    · cases heq
      rw [if_pos rfl]
    · have hne : k ≠ key := fun he => hnot (List.mem_map.2 ⟨_, h, he.symm⟩)
      rw [if_neg hne, ih hrest h]

theorem get?_eq_some_iff {key : String} {v : Json} {members : Members}
    (hk : members.keys.Nodup) : get? key members = some v ↔ (key, v) ∈ members :=
  ⟨mem_of_get?, get?_of_mem hk⟩

theorem mem_insert {key : String} {v : Json} {members : Members} {e : String × Json}
    (h : e ∈ insert key v members) : e = (key, v) ∨ e ∈ members := by
  induction members with
  | nil => exact .inl (List.mem_singleton.1 h)
  | cons a rest ih =>
    obtain ⟨k, w⟩ := a
    rw [insert] at h
    split at h
    · exact (List.mem_cons.1 h).imp_right (List.mem_cons_of_mem _)
    · rcases List.mem_cons.1 h with rfl | h
      · exact .inr List.mem_cons_self
      · exact (ih h).imp_right (List.mem_cons_of_mem _)

theorem insert_of_not_mem_keys {key : String} {members : Members} (h : key ∉ members.keys)
    (v : Json) : insert key v members = members ++ [(key, v)] := by
  induction members with
  | nil => rfl
  | cons e rest ih =>
    obtain ⟨k, w⟩ := e
    obtain ⟨hne, hrest⟩ := not_or.1 (fun hm => h (List.mem_cons.2 hm))
    rw [insert, if_neg (Ne.symm hne), ih hrest]
    rfl

theorem nodup_keys_insert (key : String) (v : Json) {members : Members}
    (hk : members.keys.Nodup) : (insert key v members).keys.Nodup := by
  induction members with
  | nil => exact List.nodup_singleton key
  | cons a rest ih =>
    obtain ⟨k, w⟩ := a
    obtain ⟨hnot, hrest⟩ := List.nodup_cons.1 hk
    rw [insert]
    split
    · rename_i heq
      subst heq
      exact hk
    · rename_i hne
      refine List.nodup_cons.2 ⟨?_, ih hrest⟩
      intro hm
      obtain ⟨e, he, rfl⟩ := List.mem_map.1 hm
      rcases mem_insert he with rfl | he
      · exact hne rfl
      · exact hnot (List.mem_map.2 ⟨e, he, rfl⟩)

theorem nodup_keys_erase (key : String) {members : Members} (hk : members.keys.Nodup) :
    (erase key members).keys.Nodup :=
  hk.sublist (List.filter_sublist.map Prod.fst)

theorem erase_insert (key : String) (v : Json) (members : Members) :
    erase key (insert key v members) = erase key members := by
  induction members with
  | nil => simp [erase, insert]
  | cons a rest ih =>
    obtain ⟨k, w⟩ := a
    rw [erase, erase] at ih
    rw [insert, erase, erase]
    split
    · rename_i heq
      simp [heq]
    · rename_i hne
      simpa [hne] using ih

theorem insertSorted_perm (key : String) (v : Json) (members : Members) :
    (insertSorted key v members).Perm ((key, v) :: members) := by
  induction members with
  | nil => exact .refl _
  | cons a rest ih =>
    obtain ⟨k, w⟩ := a
    rw [insertSorted]
    split
    · exact .refl _
    · exact (ih.cons _).trans (.swap ..)

theorem sort_perm (members : Members) : members.sort.Perm members := by
  induction members with
  | nil => exact .refl _
  | cons a rest ih => exact (insertSorted_perm ..).trans (ih.cons a)

theorem pairwise_keys_insertSorted {key : String} (v : Json) {members : Members}
    (hnot : key ∉ members.keys) (hs : members.keys.Pairwise (· < ·)) :
    (insertSorted key v members).keys.Pairwise (· < ·) := by
  induction members with
  | nil => exact List.pairwise_singleton ..
  | cons a rest ih =>
    obtain ⟨k, w⟩ := a
    obtain ⟨hk, hrest⟩ := List.pairwise_cons.1 hs
    rw [keys, List.map_cons, List.mem_cons, not_or] at hnot
    rw [insertSorted]
    split
    · rename_i hlt
      refine List.pairwise_cons.2 ⟨?_, hs⟩
      intro k' hk'
      rcases List.mem_cons.1 hk' with rfl | hk'
      · exact hlt
      · exact String.lt_trans hlt (hk k' hk')
    · rename_i hnlt
      refine List.pairwise_cons.2 ⟨?_, ih hnot.2 hrest⟩
      intro k' hk'
      have hperm := (insertSorted_perm key v rest).map Prod.fst
      rcases List.mem_cons.1 (hperm.mem_iff.1 hk') with rfl | hk'
      · exact Std.lt_of_le_of_ne (String.not_lt.1 hnlt) (Ne.symm hnot.1)
      · exact hk k' hk'

theorem pairwise_keys_sort {members : Members} (hk : members.keys.Nodup) :
    members.sort.keys.Pairwise (· < ·) := by
  induction members with
  | nil => exact .nil
  | cons a rest ih =>
    obtain ⟨hnot, hrest⟩ := List.nodup_cons.1 hk
    refine pairwise_keys_insertSorted a.2 ?_ (ih hrest)
    exact fun hm => hnot (((sort_perm rest).map Prod.fst).mem_iff.1 hm)

theorem nodup_keys_sort {members : Members} (hk : members.keys.Nodup) :
    members.sort.keys.Nodup :=
  ((sort_perm members).map Prod.fst).nodup_iff.2 hk

theorem get?_sort {members : Members} (hk : members.keys.Nodup) (key : String) :
    get? key members.sort = get? key members := by
  refine Option.ext (fun v => ?_)
  rw [get?_eq_some_iff (nodup_keys_sort hk), get?_eq_some_iff hk, (sort_perm members).mem_iff]

end Members

end ProjectShell.Json
