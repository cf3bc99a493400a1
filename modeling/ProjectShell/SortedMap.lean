namespace ProjectShell

structure SortedMap (α : Type) where
  entries : List (String × α)
  sorted : entries.Pairwise (fun a b => a.1 < b.1)
deriving DecidableEq

namespace SortedMap

variable {α β : Type}

def empty : SortedMap α := ⟨[], .nil⟩

instance : EmptyCollection (SortedMap α) := ⟨empty⟩

instance : Inhabited (SortedMap α) := ⟨empty⟩

def lookup (key : String) : List (String × α) → Option α
  | [] => none
  | (k, v) :: rest => if k = key then some v else lookup key rest

def get? (m : SortedMap α) (key : String) : Option α := lookup key m.entries

def contains (m : SortedMap α) (key : String) : Bool := (m.get? key).isSome

def insertEntry (key : String) (value : α) : List (String × α) → List (String × α)
  | [] => [(key, value)]
  | (k, v) :: rest =>
      if key < k then (key, value) :: (k, v) :: rest
      else if k = key then (key, value) :: rest
      else (k, v) :: insertEntry key value rest

theorem mem_insertEntry {key : String} {value : α} {l : List (String × α)} {e : String × α}
    (h : e ∈ insertEntry key value l) : e = (key, value) ∨ e ∈ l := by
  induction l with
  | nil => simp_all [insertEntry]
  | cons a rest ih =>
      obtain ⟨k, v⟩ := a
      simp only [insertEntry] at h
      split at h
      · simpa using h
      · split at h
        · simp only [List.mem_cons] at h ⊢
          exact h.elim .inl (.inr ∘ .inr)
        · simp only [List.mem_cons] at h ⊢
          exact h.elim (.inr ∘ .inl) (fun h => (ih h).elim .inl (.inr ∘ .inr))

theorem pairwise_insertEntry {key : String} {value : α} {l : List (String × α)}
    (h : l.Pairwise (fun a b => a.1 < b.1)) :
    (insertEntry key value l).Pairwise (fun a b => a.1 < b.1) := by
  induction l with
  | nil => simp [insertEntry]
  | cons a rest ih =>
      obtain ⟨k, v⟩ := a
      have hr := List.pairwise_cons.1 h
      simp only [insertEntry]
      split
      · rename_i hlt
        refine List.pairwise_cons.2 ⟨?_, h⟩
        intro e he
        rcases List.mem_cons.1 he with rfl | he
        · exact hlt
        · exact String.lt_trans hlt (hr.1 e he)
      · rename_i hnlt
        split
        · rename_i heq
          subst heq
          exact List.pairwise_cons.2 ⟨hr.1, hr.2⟩
        · rename_i hne
          refine List.pairwise_cons.2 ⟨?_, ih hr.2⟩
          intro e he
          rcases mem_insertEntry he with rfl | he
          · exact Std.lt_of_le_of_ne (String.not_lt.1 hnlt) hne
          · exact hr.1 e he

def insert (m : SortedMap α) (key : String) (value : α) : SortedMap α :=
  ⟨insertEntry key value m.entries, pairwise_insertEntry m.sorted⟩

def erase (m : SortedMap α) (key : String) : SortedMap α :=
  ⟨m.entries.filter (fun e => e.1 ≠ key), m.sorted.filter _⟩

def ofList (l : List (String × α)) : SortedMap α :=
  l.foldl (fun m e => m.insert e.1 e.2) ∅

def keys (m : SortedMap α) : List String := m.entries.map Prod.fst

def values (m : SortedMap α) : List α := m.entries.map Prod.snd

def size (m : SortedMap α) : Nat := m.entries.length

def isEmpty (m : SortedMap α) : Bool := m.entries.isEmpty

def mapValues (f : α → β) (m : SortedMap α) : SortedMap β :=
  ⟨m.entries.map (fun e => (e.1, f e.2)), List.pairwise_map.2 m.sorted⟩

theorem lookup_insertEntry (key key' : String) (value : α) (l : List (String × α)) :
    lookup key' (insertEntry key value l) = if key = key' then some value else lookup key' l := by
  induction l with
  | nil => simp [insertEntry, lookup]
  | cons a rest ih =>
      obtain ⟨k, v⟩ := a
      simp only [insertEntry]
      split
      · simp [lookup]
      · split
        · rename_i heq
          subst heq
          simp only [lookup]
          split <;> rfl
        · rename_i hne
          simp only [lookup, ih]
          split <;> split <;> simp_all

@[simp]
theorem get?_empty (key : String) : (∅ : SortedMap α).get? key = none := rfl

@[simp]
theorem get?_insert (m : SortedMap α) (key key' : String) (value : α) :
    (m.insert key value).get? key' = if key = key' then some value else m.get? key' :=
  lookup_insertEntry key key' value m.entries

theorem lookup_filter_ne (key key' : String) (l : List (String × α)) :
    lookup key' (l.filter (fun e => e.1 ≠ key)) =
      if key = key' then none else lookup key' l := by
  induction l with
  | nil => simp [lookup]
  | cons a rest ih =>
      obtain ⟨k, v⟩ := a
      by_cases hk : k = key
      · subst hk
        simp only [ne_eq, List.filter_cons, decide_not, decide_true, Bool.not_true,
          Bool.false_eq_true, if_false, lookup] at ih ⊢
        rw [ih]
        split <;> rfl
      · simp only [ne_eq, hk, not_false_eq_true, decide_true, List.filter_cons, if_true, lookup]
        rw [ih]
        split <;> split <;> simp_all

@[simp]
theorem get?_erase (m : SortedMap α) (key key' : String) :
    (m.erase key).get? key' = if key = key' then none else m.get? key' :=
  lookup_filter_ne key key' m.entries

theorem mem_of_lookup {key : String} {value : α} {l : List (String × α)}
    (h : lookup key l = some value) : (key, value) ∈ l := by
  induction l with
  | nil => simp [lookup] at h
  | cons a rest ih =>
      obtain ⟨k, v⟩ := a
      simp only [lookup] at h
      split at h
      · simp_all
      · exact List.mem_cons_of_mem _ (ih h)

theorem lookup_of_mem {key : String} {value : α} {l : List (String × α)}
    (hs : l.Pairwise (fun a b => a.1 < b.1)) (h : (key, value) ∈ l) :
    lookup key l = some value := by
  induction l with
  | nil => simp at h
  | cons a rest ih =>
      obtain ⟨k, v⟩ := a
      have hr := List.pairwise_cons.1 hs
      rcases List.mem_cons.1 h with heq | h
      · simp_all [lookup]
      · have hlt : k < key := hr.1 _ h
        have hne : k ≠ key := fun e => String.lt_irrefl k (e ▸ hlt)
        simp [lookup, hne, ih hr.2 h]

theorem get?_eq_some_iff {m : SortedMap α} {key : String} {value : α} :
    m.get? key = some value ↔ (key, value) ∈ m.entries :=
  ⟨mem_of_lookup, lookup_of_mem m.sorted⟩

theorem mem_keys_iff {m : SortedMap α} {key : String} :
    key ∈ m.keys ↔ (m.get? key).isSome = true := by
  simp only [keys, List.mem_map, Option.isSome_iff_exists, get?_eq_some_iff]
  constructor
  · rintro ⟨⟨k, v⟩, hm, rfl⟩
    exact ⟨v, hm⟩
  · rintro ⟨v, hm⟩
    exact ⟨_, hm, rfl⟩

theorem mem_keys_erase {m : SortedMap α} {key key' : String} :
    key' ∈ (m.erase key).keys ↔ key' ≠ key ∧ key' ∈ m.keys := by
  rw [mem_keys_iff, mem_keys_iff, get?_erase]
  by_cases h : key = key'
  · simp [h]
  · simp [h, Ne.symm h]

theorem nodup_keys (m : SortedMap α) : m.keys.Nodup :=
  List.Pairwise.map Prod.fst (fun _ _ h he => String.lt_irrefl _ (he ▸ h)) m.sorted

theorem keys_mapValues (f : α → β) (m : SortedMap α) : (m.mapValues f).keys = m.keys := by
  simp [keys, mapValues, Function.comp_def]

theorem lookup_map (f : String → α → β) (key : String) (l : List (String × α)) :
    lookup key (l.map (fun e => (e.1, f e.1 e.2))) = (lookup key l).map (f key) := by
  induction l with
  | nil => rfl
  | cons a rest ih =>
      obtain ⟨k, v⟩ := a
      simp only [List.map_cons, lookup, ih]
      split
      · rename_i heq
        subst heq
        rfl
      · rfl

@[simp]
theorem get?_mapValues (f : α → β) (m : SortedMap α) (key : String) :
    (m.mapValues f).get? key = (m.get? key).map f :=
  lookup_map (fun _ => f) key m.entries

theorem lookup_eq_none_of_not_mem {key : String} {l : List (String × α)}
    (h : key ∉ l.map Prod.fst) : lookup key l = none := by
  cases hl : lookup key l with
  | none => rfl
  | some v => exact absurd (List.mem_map_of_mem (mem_of_lookup hl)) h

theorem get?_foldl_insert {l : List (String × α)} (h : (l.map Prod.fst).Nodup) (m : SortedMap α)
    (key : String) :
    (l.foldl (fun m e => m.insert e.1 e.2) m).get? key = (lookup key l).or (m.get? key) := by
  induction l generalizing m with
  | nil => rfl
  | cons a rest ih =>
      obtain ⟨k, v⟩ := a
      obtain ⟨hk, hrest⟩ := List.nodup_cons.1 h
      rw [List.foldl_cons, ih hrest, get?_insert, lookup]
      split
      · rename_i heq
        subst heq
        rw [lookup_eq_none_of_not_mem hk]
        rfl
      · rfl

theorem get?_ofList {l : List (String × α)} (h : (l.map Prod.fst).Nodup) (key : String) :
    (ofList l).get? key = lookup key l :=
  (get?_foldl_insert h ∅ key).trans (Option.or_none ..)

theorem entries_ext {l l' : List (String × α)} (hl : l.Pairwise (fun a b => a.1 < b.1))
    (hl' : l'.Pairwise (fun a b => a.1 < b.1))
    (h : ∀ key, lookup key l = lookup key l') : l = l' := by
  induction l generalizing l' with
  | nil =>
      cases l' with
      | nil => rfl
      | cons a rest => have := h a.1; simp [lookup] at this
  | cons a rest ih =>
      cases l' with
      | nil => have := h a.1; simp [lookup] at this
      | cons b rest' =>
          obtain ⟨k, v⟩ := a
          obtain ⟨k', v'⟩ := b
          have hr := List.pairwise_cons.1 hl
          have hr' := List.pairwise_cons.1 hl'
          have hmem : (k, v) ∈ (k', v') :: rest' := mem_of_lookup (by rw [← h k]; simp [lookup])
          have hmem' : (k', v') ∈ (k, v) :: rest := mem_of_lookup (by rw [h k']; simp [lookup])
          have hkv : (k, v) = (k', v') := by
            rcases List.mem_cons.1 hmem with he | hm
            · exact he
            · rcases List.mem_cons.1 hmem' with he | hm'
              · exact he.symm
              · exact absurd (String.lt_trans (hr.1 _ hm') (hr'.1 _ hm)) (String.lt_irrefl _)
          cases hkv
          rw [ih hr.2 hr'.2]
          intro key
          by_cases hk : k = key
          · subst hk
            have none_of : ∀ m : List (String × α), (∀ e ∈ m, k < e.1) → lookup k m = none := by
              intro m hm
              cases hl : lookup k m with
              | none => rfl
              | some w => exact absurd (hm _ (mem_of_lookup hl)) (String.lt_irrefl _)
            rw [none_of _ hr.1, none_of _ hr'.1]
          · simpa [lookup, hk] using h key

theorem ext {m m' : SortedMap α} (h : ∀ key, m.get? key = m'.get? key) : m = m' := by
  obtain ⟨l, hl⟩ := m
  obtain ⟨l', hl'⟩ := m'
  cases entries_ext hl hl' h
  rfl

theorem insert_of_get? {key : String} {v : α} (m : SortedMap α) (h : m.get? key = some v) :
    m.insert key v = m := by
  refine ext (fun key' => ?_)
  rw [get?_insert]
  split
  · rename_i heq
    exact heq ▸ h.symm
  · rfl

end SortedMap

end ProjectShell
