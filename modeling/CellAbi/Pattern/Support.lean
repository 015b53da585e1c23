import CellAbi.Pattern.Basic

/-!
# Supported patterns

Patterns match texts in UTF-8, and no tables of character properties are at hand.  In Unicode mode,
which is on at first, everything that needs a table is unsupported: shorthands, word boundaries,
and any character whose case is ignored.  Without Unicode mode a pattern matches bytes, and
everything that matches a byte beyond ASCII, which alone is no character, is unsupported: the dot,
bytes and characters beyond ASCII in a class, and every class that is negated.
-/

namespace CellAbi.Pattern

structure Modes where
  ignoreCase : Bool := false
  unicode : Bool := true
deriving DecidableEq, Repr

def Modes.apply (modes : Modes) (change : FlagChange) : Modes where
  ignoreCase := change.apply .ignoreCase modes.ignoreCase
  unicode := change.apply .unicode modes.unicode

variable (modes : Modes)

/-! ## Characters and classes -/

def Literal.isAscii (l : Literal) : Bool := l.char.toNat < 0x80

/-- A character beyond ASCII is matched as its bytes; a single byte beyond ASCII is not. -/
def Literal.isSupported (l : Literal) : Bool :=
  if modes.unicode then !modes.ignoreCase else !l.isByte || l.isAscii

/-- Whether a literal may stand in a class. -/
def Literal.isSupportedInSet (l : Literal) : Bool :=
  if modes.unicode then !modes.ignoreCase else l.isAscii

mutual

def CharSet.isSupported : CharSet → Bool
  | literal l => l.isSupportedInSet modes
  | range first last => first.isSupportedInSet modes && last.isSupportedInSet modes
  | named negated => if modes.unicode then !modes.ignoreCase else !negated
  | shorthand negated => !modes.unicode && !negated
  | bracketed negated body => (modes.unicode || !negated) && body.isSupported
  | union items => CharSet.areSupported items
  | combined left right => left.isSupported && right.isSupported

def CharSet.areSupported : List CharSet → Bool
  | [] => true
  | item :: rest => item.isSupported && CharSet.areSupported rest

end

/-! ## Patterns -/

mutual

/-- The modes that hold behind a pattern; none if a part of it is unsupported.  Flags set inside a
group end with it; flags set in one branch hold in the branches behind it. -/
def modesBehind? (modes : Modes) : Pattern → Option Modes
  | literal l => if l.isSupported modes then some modes else none
  | dot => if modes.unicode then some modes else none
  | anchor => some modes
  | wordBoundary => if modes.unicode then none else some modes
  | shorthand negated => if modes.unicode || negated then none else some modes
  | set body => if body.isSupported modes then some modes else none
  | flags change => some (modes.apply change)
  | group change body => (modesBehind? (modes.apply change) body).map fun _ => modes
  | repeated body => modesBehind? modes body
  | sequence items | choice items => modesBehindAll? modes items

/-- The modes that hold behind parts in their order. -/
def modesBehindAll? (modes : Modes) : List Pattern → Option Modes
  | [] => some modes
  | item :: rest =>
    match modesBehind? modes item with
    | some modes => modesBehindAll? modes rest
    | none => none

end

/-- The greatest depth of a supported pattern. -/
def maxDepth : Nat := 250

def isSupported (pattern : Pattern) : Bool :=
  pattern.depth ≤ maxDepth && (modesBehind? {} pattern).isSome

end CellAbi.Pattern
