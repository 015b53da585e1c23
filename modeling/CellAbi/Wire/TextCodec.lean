import CellAbi.Wire.Codec
import CellAbi.Json.Document

/-!
# A codec that keeps JSON text

A codec service that stores the compact text of a JSON value in a chain of cells: up to 127 bytes of
its UTF-8 form per cell, each cell referring to the next.
-/

namespace CellAbi.TextCodec

/-- Bytes of text in one cell. -/
def chunkSize : Nat := 127

/-- The chain of cells that holds some bytes. -/
def chain (bytes : List UInt8) : Cell :=
  if _h : bytes.length ≤ chunkSize then .node bytes (8 * bytes.length) []
  else .node (bytes.take chunkSize) (8 * chunkSize) [chain (bytes.drop chunkSize)]
termination_by bytes.length
decreasing_by simp only [List.length_drop, chunkSize] at *; omega

/-- The data bytes along the first references. -/
def unchain : Cell → List UInt8
  | .node data _ [] => data
  | .node data _ (c :: _) => data ++ unchain c

def encode (json : Json) : Cell := chain (json.compact.toList.flatMap String.utf8EncodeChar)

/-- Reads the text of a chain. -/
def decodeChain? (c : Cell) : Option Json := do
  let text ← String.fromUTF8? ⟨(unchain c).toArray⟩
  Json.parse? text

/-- The cell of the elements, behind the number of elements. -/
def elements? (c : Cell) : Option Cell :=
  match (do let _ ← Load.nat 32; Load.ref : Load Cell).run c.toSlice with
  | .ok c _ => some c
  | .error _ _ => none

/-- Reads the value of a parameter; arrays arrive with their number of elements. -/
def decode? (p : Param) (c : Cell) : Option Json :=
  if ("[]".toList.isSuffixOf? p.type.toList).isSome then elements? c >>= decodeChain?
  else decodeChain? c

end CellAbi.TextCodec
