import CellAbi.Cell.Hash

/-!
# Messages and accounts

Flags and fields of outgoing messages, the expiry of external ones, and the states of an account.
-/

namespace CellAbi

/-- Flags that say how an outgoing message pays for itself. -/
structure SendMode where
  bits : UInt8
deriving DecidableEq, Repr

namespace SendMode

def none : SendMode := ⟨0⟩

def payGasSeparately : SendMode := ⟨1⟩

def ignoreErrors : SendMode := ⟨2⟩

def destroyAccountIfZero : SendMode := ⟨32⟩

def carryAllRemainingIncomingValue : SendMode := ⟨64⟩

def carryAllRemainingBalance : SendMode := ⟨128⟩

/-- The mode of a message that names none. -/
def standard : SendMode := payGasSeparately

/-- The flags of either mode. -/
def union (a b : SendMode) : SendMode := ⟨a.bits ||| b.bits⟩

/-- Whether `a` has all flags of `b`. -/
def contains (a b : SendMode) : Bool := a.bits &&& b.bits == b.bits

end SendMode

/-- An internal message to a contract. -/
structure InternalMessage where
  /-- Attached value in the smallest unit. -/
  value : Nat
  bounce : Option Bool := none
  mode : SendMode := .standard
  body : Option Cell := none
  init : Option StateInit := none

namespace InternalMessage

def withBody (m : InternalMessage) (body : Cell) : InternalMessage := { m with body := some body }

def withInit (m : InternalMessage) (init : StateInit) : InternalMessage :=
  { m with init := some init }

def withBounce (m : InternalMessage) (bounce : Option Bool) : InternalMessage :=
  { m with bounce }

/-- Sets the mode; without one the standard mode is set. -/
def withMode (m : InternalMessage) (mode : Option SendMode) : InternalMessage :=
  { m with mode := mode.getD .standard }

end InternalMessage

/-- Header of a signed external message: time in milliseconds, lifetime in seconds. -/
structure ExternalHeader where
  time : UInt64 := 0
  lifetime : Option UInt32 := none
deriving DecidableEq, Repr

/-- The second at which the message expires, if it has a lifetime and the sum fits 32 bits. -/
def ExternalHeader.expireAt (h : ExternalHeader) : Option UInt32 := do
  let lifetime ← h.lifetime
  let moment := h.time.toNat / 1000 + lifetime.toNat
  if moment < 2 ^ 32 then return UInt32.ofNat moment else none

/-- What the provider reports about an account. -/
inductive Account where
  | uninit
  | active (code data : Cell)
  | frozen

/-- The hash of the cell form under the hash function `h`. -/
def StateInit.hashWith (h : List UInt8 → Digest) (init : StateInit) : Except CellError Digest := do
  return (← init.toCell).hashWith h

/-- The hash of the cell form. -/
def StateInit.hash (init : StateInit) : Except CellError Digest := init.hashWith Sha256.digest

end CellAbi
