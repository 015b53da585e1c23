import CellAbi.Proofs.AbiType.Levels
import CellAbi.Proofs.Bindings.Collision

/-!
# The check of types

A schema is checked before its bindings are built, and nothing that is built of it reads a type that
the check has not read.  So the check alone decides whether a type is to blame, and for which error;
types of events are not looked at.

    ofContract crate contract c = .error (.abi e) ↔ c.validate = .error e  (`ofContract_eq_abi_iff`)
    c.validate = .ok () → Builds contract { c with events }               (`abi_error_iff_validate`)
-/

namespace CellAbi.BindingModule

variable {runtimeCrate contract : String} {c : Contract}

/-- Behind the check no type fails: every other error is one of names. -/
theorem ofContract_eq_abi_iff {e : AbiError} :
    ofContract runtimeCrate contract c = .error (.abi e) ↔ c.validate = .error e := by
  obtain ⟨e', hvalid, hrun⟩ | ⟨hvalid, hcases⟩ := ofContract_cases runtimeCrate contract c
  · rw [hvalid, hrun, Except.error.injEq, Except.error.injEq, BindingError.abi.injEq]
  rw [hvalid]
  refine iff_of_false (fun h => ?_) nofun
  obtain ⟨-, hrun⟩ | ⟨-, m, -, ⟨-, name, hrun⟩ | ⟨-, hrun⟩⟩ := hcases
  all_goals
    rw [hrun] at h
    cases h

/-- Bindings fail for a type exactly when the check of the schema does, and with its error; after a
check that succeeds all types in structs, inputs and outputs can be read, whatever the events. -/
theorem abi_error_iff_validate (runtimeCrate contract : String) (c : Contract) :
    (∀ e, ofContract runtimeCrate contract c = .error (.abi e) ↔ c.validate = .error e) ∧
      (c.validate = .ok () → ∀ events, Contract.Builds contract { c with events } ∧
        ∃ m, ofValid runtimeCrate contract { c with events } = .ok m) ∧
      ∀ events, ofContract runtimeCrate contract { c with events } =
        ofContract runtimeCrate contract c := by
  refine ⟨fun e => ofContract_eq_abi_iff, fun hvalid events => ?_, fun events => rfl⟩
  have hevents : ({ c with events } : Contract).validate = .ok () := hvalid
  exact ⟨Contract.builds_of_validate contract hevents, exists_ofValid hevents⟩

/-- A schema whose only unreadable type is one of an event. -/
def eventSchema : Contract where
  functions := [{ name := "ping", inputs := [{ name := "n", type := "uint8" }] }]
  events := [{ name := "Moved", inputs := [{ name := "by", type := "float64" }] }]

/-- The same type in an event and in a field. -/
theorem abi_error_iff_validate_eventSchema :
    Param.abiType { name := "by", type := "float64" } = .error (.unsupportedType "float64") ∧
      eventSchema.validate = .ok () ∧ eventSchema.Builds "Ping" ∧
      ofContract "tvm_abi" "Ping" { fields := [{ name := "by", type := "float64" }] } =
        .error (.abi (.unsupportedType "float64")) := by
  have hrefused : Param.abiType { name := "by", type := "float64" } =
      .error (.unsupportedType "float64") := by
    have hform : Form.of (Text.trim "float64".toList) = .refused (.unsupportedType "float64") := rfl
    rw [Param.abiType, AbiType.parse, AbiType.ofDescriptor_eq, hform]
    rfl
  have hinput : Param.IsTyped { name := "n", type := "uint8" } :=
    ⟨.integer false (.fixed 8), AbiType.ofDescriptor_plain rfl⟩
  have hvalid : eventSchema.validate = .ok () :=
    Contract.validate_eq_ok.2 (List.forall_mem_singleton.2 hinput)
  have hfield : Contract.validate { fields := [{ name := "by", type := "float64" }] } =
      .error (.unsupportedType "float64") := by
    show (Param.abiType { name := "by", type := "float64" } >>= fun _ => pure ()) >>= _ = _
    rw [hrefused]
    rfl
  refine ⟨hrefused, hvalid, ?_, ?_⟩
  · exact ((abi_error_iff_validate "tvm_abi" "Ping" eventSchema).2.1 hvalid _).1
  · exact ((abi_error_iff_validate "tvm_abi" "Ping" _).1 _).2 hfield

end CellAbi.BindingModule
