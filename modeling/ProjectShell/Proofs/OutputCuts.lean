import ProjectShell.Limits.Basic

namespace ProjectShell

namespace Text

variable {limit cut : Nat} {text front : String}

theorem boundaryBefore?_eq_some {p : text.Pos} (h : boundaryBefore? text cut = some p) :
    p.offset.byteIdx ≤ cut ∧ ∀ q : text.Pos, q.offset.byteIdx ≤ cut → q ≤ p := by
  induction cut with
  | zero =>
    rw [boundaryBefore?] at h
    split at h
    · cases h
      exact ⟨Nat.le_refl 0, fun q hq => hq⟩
    · cases h
  | succ cut ih =>
    rw [boundaryBefore?] at h
    split at h
    · cases h
      exact ⟨Nat.le_refl _, fun q hq => hq⟩
    · rename_i hinside
      obtain ⟨hp, hlast⟩ := ih h
      refine ⟨Nat.le_succ_of_le hp, fun q hq => hlast q ?_⟩
      -- The offset that was stepped over lies inside a character, and `q` does not.
      have hne : q.offset.byteIdx ≠ cut + 1 := by
        intro heq
        have hq' : q.offset = ⟨cut + 1⟩ := String.Pos.Raw.ext heq
        exact hinside (hq' ▸ q.isValid)
      omega

theorem boundaryBefore?_eq (text : String) (cut : Nat) :
    boundaryBefore? text cut = some (boundaryBefore text cut) := (Option.some_get _).symm

structure LongestFront (limit : Nat) (text front : String) : Prop where
  exists_rest : ∃ rest, text = front ++ rest
  fits : front.utf8ByteSize ≤ limit
  longest {p rest : String} (hp : text = p ++ rest) (hfits : p.utf8ByteSize ≤ limit) :
    p.utf8ByteSize ≤ front.utf8ByteSize

theorem longestFront_upTo (limit : Nat) (text : String) :
    LongestFront limit text (upTo limit text) := by
  obtain ⟨hfits, hlast⟩ := boundaryBefore?_eq_some (boundaryBefore?_eq text limit)
  have hsplits := (boundaryBefore text limit).splits
  have hsize : (boundaryBefore text limit).offset.byteIdx = (upTo limit text).utf8ByteSize := by
    rw [hsplits.offset_eq_rawEndPos]
    rfl
  refine ⟨⟨_, hsplits.eq_append⟩, hsize ▸ hfits, fun {p rest} hp hpfits => ?_⟩
  have hvalid : p.rawEndPos.IsValid text :=
    String.Pos.Raw.isValid_iff_exists_append.2 ⟨p, rest, hp, rfl⟩
  have hle : (⟨p.rawEndPos, hvalid⟩ : text.Pos) ≤ boundaryBefore text limit := hlast _ hpfits
  rw [← hsize]
  exact hle

theorem append_eq_append {a b c d : String} (h : a ++ b = c ++ d) :
    (∃ e, c = a ++ e ∧ b = e ++ d) ∨ ∃ e, a = c ++ e ∧ d = e ++ b := by
  have hlists : a.toList ++ b.toList = c.toList ++ d.toList := by
    rw [← String.toList_append, h, String.toList_append]
  rcases List.append_eq_append_iff.1 hlists with ⟨e, hc, hb⟩ | ⟨e, ha, hd⟩
  · exact .inl ⟨String.ofList e, String.toList_inj.1 (by simpa using hc),
      String.toList_inj.1 (by simpa using hb)⟩
  · exact .inr ⟨String.ofList e, String.toList_inj.1 (by simpa using ha),
      String.toList_inj.1 (by simpa using hd)⟩

namespace LongestFront

theorem unique {a b : String} (ha : LongestFront limit text a) (hb : LongestFront limit text b) :
    a = b := by
  obtain ⟨ra, hra⟩ := ha.exists_rest
  obtain ⟨rb, hrb⟩ := hb.exists_rest
  have hsize := Nat.le_antisymm (hb.longest hra ha.fits) (ha.longest hrb hb.fits)
  rcases append_eq_append (hra.symm.trans hrb) with ⟨e, rfl, -⟩ | ⟨e, rfl, -⟩
  · have he : e = "" := by simpa using hsize
    simp [he]
  · have he : e = "" := by simpa using hsize
    simp [he]

theorem append_left (before : String) (h : LongestFront limit text front) :
    LongestFront (before.utf8ByteSize + limit) (before ++ text) (before ++ front) where
  exists_rest := by
    obtain ⟨rest, rfl⟩ := h.exists_rest
    exact ⟨rest, String.append_assoc.symm⟩
  fits := by
    rw [String.utf8ByteSize_append]
    exact Nat.add_le_add_left h.fits _
  longest {p rest} hp hfits := by
    rw [String.utf8ByteSize_append]
    rcases append_eq_append hp with ⟨e, rfl, htext⟩ | ⟨e, rfl, -⟩
    · rw [String.utf8ByteSize_append] at hfits ⊢
      have := h.longest htext (by omega)
      omega
    · rw [String.utf8ByteSize_append]
      omega

theorem append_right (after : String) (h : LongestFront limit text front)
    (hlong : limit < text.utf8ByteSize) : LongestFront limit (text ++ after) front where
  exists_rest := by
    obtain ⟨rest, rfl⟩ := h.exists_rest
    exact ⟨rest ++ after, String.append_assoc⟩
  fits := h.fits
  longest {p rest} hp hfits := by
    rcases append_eq_append hp with ⟨e, rfl, -⟩ | ⟨e, htext, -⟩
    · rw [String.utf8ByteSize_append] at hfits
      omega
    · exact h.longest htext hfits

end LongestFront

end Text

namespace OutputBuffer

open Text

variable {limit : Nat} {written : String} {b : OutputBuffer}

inductive Holds (limit : Nat) (written : String) : OutputBuffer → Prop
  | whole (hshort : written.utf8ByteSize ≤ limit) : Holds limit written ⟨written, limit, false⟩
  | cut {front : String} (hlong : limit < written.utf8ByteSize)
      (hfront : LongestFront limit written front) :
      Holds limit written ⟨front ++ truncationMarker, limit, true⟩

theorem holds_new (limit : Nat) : Holds limit "" (new limit) := .whole (Nat.zero_le limit)

theorem Holds.unique {b' : OutputBuffer} (h : Holds limit written b)
    (h' : Holds limit written b') : b = b' := by
  cases h with
  | whole hshort =>
    cases h' with
    | whole => rfl
    | cut hlong => exact absurd hshort (Nat.not_le_of_lt hlong)
  | cut hlong hfront =>
    cases h' with
    | whole hshort => exact absurd hshort (Nat.not_le_of_lt hlong)
    | cut _ hfront' => rw [hfront.unique hfront']

theorem Holds.write (h : Holds limit written b) (data : String) :
    Holds limit (written ++ data) (b.write data) := by
  cases h with
  | whole hshort =>
    have hsize := String.utf8ByteSize_append (s := written) (t := data)
    simp only [OutputBuffer.write, Bool.false_eq_true, if_false]
    split
    · exact .whole (by omega)
    · -- What is left of the limit cuts the chunk where the limit cuts the whole.
      have hfront := (longestFront_upTo (limit - written.utf8ByteSize) data).append_left written
      rw [Nat.add_sub_cancel' hshort] at hfront
      exact .cut (by omega) hfront
  | cut hlong hfront =>
    have hlonger : limit < (written ++ data).utf8ByteSize := by
      rw [String.utf8ByteSize_append]
      omega
    exact .cut hlonger (hfront.append_right data hlong)

theorem Holds.writeAll (h : Holds limit written b) (chunks : List String) :
    Holds limit (written ++ String.join chunks) (b.writeAll chunks) := by
  induction chunks generalizing written b with
  | nil =>
    rw [String.join_nil, String.append_empty]
    exact h
  | cons data chunks ih =>
    have hrest := ih (h.write data)
    rwa [String.append_assoc, ← String.join_cons] at hrest

end OutputBuffer

open Text OutputBuffer

theorem exists_holds_truncateOutput (text : String) (limit : Nat) :
    ∃ b, Holds limit text b ∧ b.text = truncateOutput text limit := by
  rw [truncateOutput]
  split
  · exact ⟨_, .whole ‹_›, rfl⟩
  · exact ⟨_, by simpa using (holds_new limit).write text, rfl⟩

theorem utf8ByteSize_truncateOutput_le (text : String) (limit : Nat) :
    (truncateOutput text limit).utf8ByteSize ≤ limit + truncationMarker.utf8ByteSize := by
  obtain ⟨b, hholds, hb⟩ := exists_holds_truncateOutput text limit
  rw [← hb]
  cases hholds with
  | whole hshort => exact Nat.le_add_right_of_le hshort
  | cut hlong hfront =>
    rw [String.utf8ByteSize_append]
    exact Nat.add_le_add_right hfront.fits _

theorem writeAll_cuts_longest (limit : Nat) :
    (∀ chunks, ((OutputBuffer.new limit).writeAll chunks).text =
      truncateOutput (String.join chunks) limit) ∧
    (∀ text : String, limit < text.utf8ByteSize →
      ∃ front, LongestFront limit text front ∧
        truncateOutput text limit = front ++ truncationMarker) ∧
    ∀ data cut, ∃ p : data.Pos, boundaryBefore? data cut = some p := by
  refine ⟨fun chunks => ?_, fun text hlong => ?_, fun data cut => ?_⟩
  · have hchunks := (holds_new limit).writeAll chunks
    rw [String.empty_append] at hchunks
    obtain ⟨b, hholds, hb⟩ := exists_holds_truncateOutput (String.join chunks) limit
    rw [← hb, hchunks.unique hholds]
  · obtain ⟨b, hholds, hb⟩ := exists_holds_truncateOutput text limit
    cases hholds with
    | whole hshort => exact absurd hshort (Nat.not_le_of_lt hlong)
    | cut _ hfront => exact ⟨_, hfront, hb.symm⟩
  · exact ⟨_, boundaryBefore?_eq data cut⟩

theorem writeAll_cuts_longest_accented :
    2 < "aéb".utf8ByteSize ∧
      ((OutputBuffer.new 2).writeAll ["a", "", "éb"]).text = truncateOutput "aéb" 2 ∧
      truncateOutput "aéb" 2 = "a" ++ truncationMarker ∧
      (∃ front, LongestFront 2 "aéb" front ∧ truncateOutput "aéb" 2 = front ++ truncationMarker) ∧
      ∃ p : ("aéb" : String).Pos, boundaryBefore? "aéb" 2 = some p := by
  have hlong : 2 < "aéb".utf8ByteSize := by decide
  obtain ⟨hchunks, hcut, hsearch⟩ := writeAll_cuts_longest 2
  exact ⟨hlong, hchunks ["a", "", "éb"], by decide +kernel, hcut "aéb" hlong, hsearch "aéb" 2⟩

end ProjectShell
