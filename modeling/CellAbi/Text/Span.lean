/-!
# Spans of code points

A character class is written as a list of spans `(first, last, stride)`: every `stride`-th code
point from `first` to `last`.  Strides of two occur where upper and lower case alternate.
-/

namespace CellAbi.Text

/-- Whether `n` lies on one of the spans. -/
def onSpan (spans : List (Nat × Nat × Nat)) (n : Nat) : Bool :=
  spans.any fun (first, last, stride) => first ≤ n && n ≤ last && (n - first) % stride == 0

end CellAbi.Text
