/-!
# Patterns

The shape of a regular expression, as far as it decides whether a pattern is supported: single
characters, classes, places between characters, repetitions, sequences, choices and groups.  Flags
hold for the rest of the group they are set in, or for a group of their own.

What is repeated how often, and where a place is, plays no part here.
-/

namespace CellAbi

/-! ## Flags -/

namespace Pattern

inductive Flag where
  | ignoreCase
  | multiLine
  | dotBreaks
  | swapGreed
  | unicode
  | carriageReturns
  /-- Blanks and comments do not count. -/
  | ignoreBlanks
deriving DecidableEq, Repr

/-- The flags that are turned on and those that are turned off. -/
structure FlagChange where
  on : List Flag := []
  off : List Flag := []
deriving DecidableEq, Repr

/-- The state of a flag behind a change. -/
def FlagChange.apply (change : FlagChange) (flag : Flag) (state : Bool) : Bool :=
  change.on.contains flag || (state && !change.off.contains flag)

/-! ## Characters and classes -/

structure Literal where
  char : Char
  /-- Whether the literal is a byte, written with two digits. -/
  isByte : Bool := false
deriving DecidableEq, Repr

/-- What stands between the brackets of a class, and the classes themselves. -/
inductive CharSet where
  | literal (literal : Literal)
  | range (first last : Literal)
  /-- A class with a name, such as `[:digit:]`. -/
  | named (negated : Bool)
  /-- Digits, blanks or word characters, such as `\d`. -/
  | shorthand (negated : Bool)
  | bracketed (negated : Bool) (body : CharSet)
  | union (items : List CharSet)
  /-- Two sets with an operator between them: `&&`, `--` or `~~`. -/
  | combined (left right : CharSet)

end Pattern

open Pattern

inductive Pattern where
  | literal (literal : Literal)
  | dot
  /-- The start or the end of a line or of the text. -/
  | anchor
  | wordBoundary
  | shorthand (negated : Bool)
  | set (body : CharSet)
  | flags (change : FlagChange)
  | group (change : FlagChange) (body : Pattern)
  | repeated (body : Pattern)
  | sequence (items : List Pattern)
  | choice (branches : List Pattern)

namespace Pattern

/-! ## Nesting -/

mutual

/-- How deep classes, unions and operators are nested.  An empty union counts as a leaf. -/
def CharSet.depth : CharSet → Nat
  | literal _ | range _ _ | named _ | shorthand _ | union [] => 0
  | bracketed _ body => body.depth + 1
  | union items => CharSet.depths items + 1
  | combined left right => max left.depth right.depth + 1

/-- The greatest depth in a list. -/
def CharSet.depths : List CharSet → Nat
  | [] => 0
  | item :: rest => max item.depth (CharSet.depths rest)

end

mutual

/-- How deep groups, repetitions, sequences, choices and classes are nested.  An empty sequence
counts as a leaf. -/
def depth : Pattern → Nat
  | literal _ | dot | anchor | wordBoundary | shorthand _ | flags _ | sequence [] => 0
  | set body => body.depth
  | group _ body | repeated body => body.depth + 1
  | sequence items | choice items => depths items + 1

/-- The greatest depth in a list. -/
def depths : List Pattern → Nat
  | [] => 0
  | item :: rest => max item.depth (depths rest)

end

/-! ## Lists of parts -/

/-- A list of parts as one part: itself if it is the only one, else what `wrap` makes of them. -/
def joined {α : Type} (wrap : List α → α) : List α → α
  | [part] => part
  | parts => wrap parts

end Pattern

end CellAbi
