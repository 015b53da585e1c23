/-!
# Parameters

A parameter of a contract schema: a name, a type descriptor as text, and the components of the
innermost tuple that the descriptor mentions.
-/

namespace CellAbi

/-- One declared parameter.  `init` marks state fields that the initial data supplies. -/
structure Param where
  name : String
  type : String
  components : Option (List Param) := none
  init : Option Bool := none

namespace Param

instance : Inhabited Param := ⟨{ name := "", type := "" }⟩

def isInit (p : Param) : Bool := p.init == some true

/-! ## Equality -/

mutual

def same : Param → Param → Bool
  | ⟨name, type, components, init⟩, ⟨name', type', components', init'⟩ =>
    name == name' && type == type' && init == init' && sameComponents components components'

def sameComponents : Option (List Param) → Option (List Param) → Bool
  | none, none => true
  | some ps, some qs => sameAll ps qs
  | _, _ => false

def sameAll : List Param → List Param → Bool
  | [], [] => true
  | p :: ps, q :: qs => same p q && sameAll ps qs
  | _, _ => false

end

mutual

theorem same_iff : ∀ p q : Param, same p q = true ↔ p = q
  | ⟨name, type, components, init⟩, ⟨name', type', components', init'⟩ => by
    simp only [same, Bool.and_eq_true, beq_iff_eq, sameComponents_iff components components',
      mk.injEq]
    constructor
    · rintro ⟨⟨⟨rfl, rfl⟩, rfl⟩, rfl⟩
      exact ⟨rfl, rfl, rfl, rfl⟩
    · rintro ⟨rfl, rfl, rfl, rfl⟩
      exact ⟨⟨⟨rfl, rfl⟩, rfl⟩, rfl⟩

theorem sameComponents_iff : ∀ ps qs : Option (List Param), sameComponents ps qs = true ↔ ps = qs
  | none, none => by simp [sameComponents]
  | none, some _ => by simp [sameComponents]
  | some _, none => by simp [sameComponents]
  | some ps, some qs => by simp [sameComponents, sameAll_iff ps qs]

theorem sameAll_iff : ∀ ps qs : List Param, sameAll ps qs = true ↔ ps = qs
  | [], [] => by simp [sameAll]
  | [], _ :: _ => by simp [sameAll]
  | _ :: _, [] => by simp [sameAll]
  | p :: ps, q :: qs => by simp [sameAll, same_iff p q, sameAll_iff ps qs]

end

instance : DecidableEq Param := fun p q => decidable_of_iff _ (same_iff p q)

end Param

end CellAbi
