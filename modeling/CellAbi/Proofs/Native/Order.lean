import CellAbi.Native.Type

/-!
# Order of native keys

Keys are equal when their order says so, therefore sorting never drops an entry but one of an equal
key.
-/

namespace CellAbi

instance : Std.LawfulEqOrd StandardAddress where
  compare_self {a} := show StandardAddress.order a a = .eq from Std.ReflCmp.compare_self
  eq_of_compare {a b} h := by
    obtain ⟨hworkchain, hhash⟩ := Ordering.then_eq_eq.1 h
    cases a
    cases b
    rw [StandardAddress.mk.injEq]
    exact ⟨Std.compare_eq_iff_eq.1 hworkchain, Digest.ext (Std.compare_eq_iff_eq.1 hhash)⟩

instance : Std.LawfulEqOrd ExternalAddress where
  compare_self {a} := show ExternalAddress.order a a = .eq from Std.ReflCmp.compare_self
  eq_of_compare {a b} h := by
    obtain ⟨hvalue, hbits⟩ := Ordering.then_eq_eq.1 h
    cases a
    cases b
    rw [ExternalAddress.mk.injEq]
    exact ⟨Std.compare_eq_iff_eq.1 hvalue, Std.compare_eq_iff_eq.1 hbits⟩

instance : Std.LawfulEqOrd Address where
  eq_of_compare {a b} h := by
    cases a with
    | standard a =>
      cases b with
      | standard b => exact congrArg Address.standard (Std.LawfulEqOrd.eq_of_compare h)
      | external b => cases h
    | external a =>
      cases b with
      | standard b => cases h
      | external b => exact congrArg Address.external (Std.LawfulEqOrd.eq_of_compare h)

theorem KeyType.lawfulEqOrd : (k : KeyType) → Std.LawfulEqOrd k.Carrier
  | integer => inferInstanceAs (Std.LawfulEqOrd Int)
  | byte => inferInstanceAs (Std.LawfulEqOrd UInt8)
  | bool => inferInstanceAs (Std.LawfulEqOrd Bool)
  | text => inferInstanceAs (Std.LawfulEqOrd String)
  | address => inferInstanceAs (Std.LawfulEqOrd Address)
  | standardAddress => inferInstanceAs (Std.LawfulEqOrd StandardAddress)
  | option type =>
    have := lawfulEqOrd type
    inferInstanceAs (Std.LawfulEqOrd (Option type.Carrier))
  | list element =>
    have := lawfulEqOrd element
    inferInstanceAs (Std.LawfulEqOrd (List element.Carrier))

instance (k : KeyType) : Std.LawfulEqOrd k.Carrier := k.lawfulEqOrd

end CellAbi
