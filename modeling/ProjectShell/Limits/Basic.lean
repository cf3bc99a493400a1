namespace ProjectShell

structure Limits where
  historyDepth : Nat := 10
  maxOutputBytes : Nat := 1024 * 1024
  maxXargsInvocations : Nat := 1000
  maxSearchResults : Nat := 500
  workingDir : String := "/project"
deriving DecidableEq, Repr

instance : Inhabited Limits := ⟨{}⟩

def truncationMarker : String := "\n... [output truncated] ..."

namespace Text

def boundaryBefore? (text : String) (cut : Nat) : Option text.Pos :=
  if h : (⟨cut⟩ : String.Pos.Raw).IsValid text then some ⟨⟨cut⟩, h⟩
  else
    match cut with
    | 0 => none
    | cut + 1 => boundaryBefore? text cut

theorem isSome_boundaryBefore? (text : String) (cut : Nat) :
    (boundaryBefore? text cut).isSome := by
  induction cut with
  | zero =>
      have hstart : (⟨0⟩ : String.Pos.Raw).IsValid text := String.Pos.Raw.isValid_zero
      rw [boundaryBefore?, dif_pos hstart]
      rfl
  | succ cut ih =>
      rw [boundaryBefore?]
      split
      · rfl
      · exact ih

def boundaryBefore (text : String) (cut : Nat) : text.Pos :=
  (boundaryBefore? text cut).get (isSome_boundaryBefore? text cut)

def upTo (cut : Nat) (text : String) : String := (text.sliceTo (boundaryBefore text cut)).copy

end Text

structure OutputBuffer where
  text : String
  limit : Nat
  cut : Bool
deriving DecidableEq, Repr

namespace OutputBuffer

def new (limit : Nat) : OutputBuffer := ⟨"", limit, false⟩

def write (b : OutputBuffer) (data : String) : OutputBuffer :=
  if b.cut then b
  else
    let remaining := b.limit - b.text.utf8ByteSize
    if data.utf8ByteSize ≤ remaining then ⟨b.text ++ data, b.limit, false⟩
    else
      ⟨b.text ++ Text.upTo remaining data ++ truncationMarker, b.limit, true⟩

def writeAll (b : OutputBuffer) (chunks : List String) : OutputBuffer := chunks.foldl write b

end OutputBuffer

def truncateOutput (text : String) (limit : Nat) : String :=
  if text.utf8ByteSize ≤ limit then text else ((OutputBuffer.new limit).write text).text

end ProjectShell
