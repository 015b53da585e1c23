/-!
# Source text

Source as a tree of lines: a line stands at the depth of the blocks around it, four blanks per
level, and an empty line has no blanks.
-/

namespace CellAbi

inductive Source where
  | line (text : String)
  /-- Lines one level deeper. -/
  | indented (body : List Source)

namespace Source

def blank : Source := line ""

/-- An opening line, a body one level deeper, and a closing line. -/
def block (first last : String) (body : List Source) : List Source :=
  [line first, indented body, line last]

mutual

/-- The lines at some depth. -/
def lines (depth : Nat) : Source → List String
  | line text =>
    [if text.isEmpty then "" else String.ofList (List.replicate (4 * depth) ' ') ++ text]
  | indented body => linesOf (depth + 1) body

def linesOf (depth : Nat) : List Source → List String
  | [] => []
  | s :: rest => lines depth s ++ linesOf depth rest

end

/-- The text, every line ended by a line feed. -/
def toText (body : List Source) : String :=
  String.join ((linesOf 0 body).map (· ++ "\n"))

end Source

end CellAbi
