/-!
# Byte positions

Positions in a text count the bytes of its UTF-8 form.  The part between two positions exists if
neither of them falls inside a character.
-/

namespace CellAbi.Text

/-- Number of bytes of a text. -/
def byteLength : List Char → Nat
  | [] => 0
  | c :: rest => c.utf8Size + byteLength rest

/-- Splits a text behind its first `n` bytes. -/
def splitBytes? : Nat → List Char → Option (List Char × List Char)
  | 0, text => some ([], text)
  | _ + 1, [] => none
  | n + 1, c :: rest =>
    if c.utf8Size ≤ n + 1 then
      (splitBytes? (n + 1 - c.utf8Size) rest).map fun (front, back) => (c :: front, back)
    else none

/-- The part of a text from byte `first` up to byte `last`. -/
def slice? (first last : Nat) (text : List Char) : Option (List Char) := do
  let (front, _) ← splitBytes? last text
  let (_, part) ← splitBytes? first front
  return part

end CellAbi.Text
