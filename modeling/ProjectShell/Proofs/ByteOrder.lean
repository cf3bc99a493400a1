namespace ProjectShell.Text

def bytes (s : String) : List UInt8 := s.toByteArray.data.toList

theorem bytes_eq (s : String) : bytes s = s.toList.flatMap String.utf8EncodeChar := by
  rw [bytes, ← String.utf8Encode_toList, List.utf8Encode, List.toList_data_toByteArray]

theorem ofNat_cons_lt_iff {m n : Nat} (hm : m < 256) (hn : n < 256) {bs cs : List UInt8} :
    UInt8.ofNat m :: bs < UInt8.ofNat n :: cs ↔ m < n ∨ m = n ∧ bs < cs := by
  rw [List.cons_lt_cons_iff, UInt8.lt_iff_toNat_lt, ← UInt8.toNat_inj,
    UInt8.toNat_ofNat_of_lt' hm, UInt8.toNat_ofNat_of_lt' hn]

theorem append_lt_append_iff {bs cs ds : List UInt8} : bs ++ cs < bs ++ ds ↔ cs < ds := by
  induction bs with
  | nil => rfl
  | cons b bs ih => simp [ih]

theorem utf8EncodeChar_append_lt {c d : Char} (h : c < d) (bs cs : List UInt8) :
    String.utf8EncodeChar c ++ bs < String.utf8EncodeChar d ++ cs := by
  have hlt : c.val.toNat < d.val.toNat := h
  have hd : d.val.toNat < 0x110000 := by
    rcases d.valid with hd | hd <;> omega
  have hdiv (n : Nat) : n / 4096 = n / 64 / 64 := by omega
  have hdiv' (n : Nat) : n / 262144 = n / 64 / 64 / 64 := by omega
  simp only [String.utf8EncodeChar]
  -- More bytes begin with a higher one; of equally many the first that differs is the higher.
  repeat' split
  all_goals
    simp (disch := omega) only [List.cons_append, List.nil_append, ofNat_cons_lt_iff, hdiv, hdiv']
    omega

theorem flatMap_utf8EncodeChar_lt_iff {cs ds : List Char} :
    cs.flatMap String.utf8EncodeChar < ds.flatMap String.utf8EncodeChar ↔ cs < ds := by
  induction cs generalizing ds with
  | nil =>
    cases ds with
    | nil => simp
    | cons d ds =>
      obtain ⟨b, bs, hb⟩ := List.exists_cons_of_ne_nil (String.utf8EncodeChar_ne_nil (c := d))
      simp [hb]
  | cons c cs ih =>
    cases ds with
    | nil => simp
    | cons d ds =>
      simp only [List.flatMap_cons, List.cons_lt_cons_iff]
      rcases Std.lt_trichotomy c d with hlt | rfl | hlt
      · exact iff_of_true (utf8EncodeChar_append_lt hlt _ _) (.inl hlt)
      · rw [append_lt_append_iff, ih]
        simp
      · refine iff_of_false (fun h => ?_) ?_
        · exact List.lt_irrefl _ (List.lt_trans h (utf8EncodeChar_append_lt hlt _ _))
        · rintro (h | ⟨rfl, -⟩)
          · exact Char.lt_asymm hlt h
          · exact Char.lt_irrefl _ hlt

theorem bytes_lt_iff {a b : String} : bytes a < bytes b ↔ a < b := by
  rw [bytes_eq, bytes_eq, flatMap_utf8EncodeChar_lt_iff]
  rfl

theorem bytes_le_iff {a b : String} : bytes a ≤ bytes b ↔ a ≤ b := by
  rw [← List.not_lt, bytes_lt_iff]
  rfl

theorem bytes_inj {a b : String} : bytes a = bytes b ↔ a = b := by
  rw [bytes, bytes, Array.toList_inj, ← ByteArray.ext_iff, String.toByteArray_inj]

end ProjectShell.Text
