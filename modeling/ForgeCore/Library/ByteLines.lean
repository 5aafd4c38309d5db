import Mathlib

/-!
# Files of lines

Byte files whose lines each end with a line feed, and what cutting them
gives back.
-/

namespace ForgeCore.ByteLines

open List

def lineFeed : UInt8 := 10

/-- The file that holds the lines, each followed by a line feed. -/
def image (lines : List (List UInt8)) : List UInt8 :=
  lines.flatMap (fun line => line ++ [lineFeed])

def endsWithLineFeed (bytes : List UInt8) : Bool :=
  bytes.getLast? = some lineFeed

/-- `bytes.strip_suffix(b"\n").unwrap_or(&bytes)`. -/
def stripLineFeed (bytes : List UInt8) : List UInt8 :=
  if endsWithLineFeed bytes then bytes.dropLast else bytes

/-- `bytes.split(|byte| *byte == b'\n')`. -/
def cut (bytes : List UInt8) : List (List UInt8) :=
  bytes.splitOn lineFeed

@[simp] theorem image_nil : image [] = [] := rfl

theorem image_append (first second : List (List UInt8)) :
    image (first ++ second) = image first ++ image second := by
  simp [image]

theorem image_singleton (line : List UInt8) : image [line] = line ++ [lineFeed] := by
  simp [image]

theorem image_cons_eq_intercalate (line : List UInt8) (rest : List (List UInt8)) :
    image (line :: rest) = [lineFeed].intercalate (line :: rest) ++ [lineFeed] := by
  induction rest generalizing line with
  | nil => simp [image]
  | cons next rest ih =>
    have tail := ih next
    simp only [image, flatMap_cons] at tail ⊢
    rw [tail, intercalate_cons_cons]
    simp

variable {lines : List (List UInt8)}

theorem endsWithLineFeed_image (filled : lines ≠ []) : endsWithLineFeed (image lines) = true := by
  obtain ⟨line, rest, rfl⟩ := exists_cons_of_ne_nil filled
  simp [endsWithLineFeed, image_cons_eq_intercalate]

theorem image_ne_nil (filled : lines ≠ []) : image lines ≠ [] := by
  obtain ⟨line, rest, rfl⟩ := exists_cons_of_ne_nil filled
  simp [image]

theorem cut_stripLineFeed_image (filled : lines ≠ []) (clean : ∀ line ∈ lines, lineFeed ∉ line) :
    cut (stripLineFeed (image lines)) = lines := by
  have ended := endsWithLineFeed_image filled
  rw [stripLineFeed, if_pos ended]
  obtain ⟨line, rest, rfl⟩ := exists_cons_of_ne_nil filled
  rw [image_cons_eq_intercalate, dropLast_concat, cut]
  exact splitOn_intercalate lineFeed clean filled

end ForgeCore.ByteLines
