/-! # `esp_err_t` and fallible calls

The error codes the modelled services return and compare, and the one fact
that takes a chain of fallible calls apart. -/
namespace Jukeboy.Base

/-- The values of `esp_err_t` that occur in the modelled code; `other` stands
for every code a driver returns and no caller tells apart. -/
inductive EspErr where
  | ok
  | fail
  | noMem
  | invalidArg
  | invalidState
  | invalidSize
  | notFound
  | notSupported
  | timeout
  | invalidResponse
  | invalidCrc
  | notFinished
  | nvsNotFound
  | other (code : Nat)
deriving DecidableEq, Repr, Inhabited

/-- A chain of fallible calls that succeeded succeeded in its first call. -/
theorem bind_ok {ε α β : Type} {x : Except ε α} {f : α → Except ε β} {b : β}
    (h : x >>= f = .ok b) : ∃ a, x = .ok a ∧ f a = .ok b := by
  cases x with
  | error e => cases h
  | ok a => exact ⟨a, rfl, h⟩

/-- `if (bad) return err;` -/
def failIf (bad : Bool) (err : EspErr) : Except EspErr Unit :=
  if bad then .error err else .ok ()

/-- A passed check, then the rest. -/
theorem failIf_bind_ok_iff {α : Type} {bad : Bool} {err : EspErr} {f : Unit → Except EspErr α}
    {a : α} : failIf bad err >>= f = .ok a ↔ bad = false ∧ f () = .ok a := by
  cases bad
  · exact ⟨fun h => ⟨rfl, h⟩, fun h => h.2⟩
  · constructor
    · intro h
      cases h
    · intro h
      cases h.1

/-- A chain whose checks all fail with an error never fails with `ESP_OK`. -/
theorem failIf_bind_ne_error_ok {α : Type} {bad : Bool} {err : EspErr}
    {f : Unit → Except EspErr α} (herr : bad = true → err ≠ .ok) (hf : f () ≠ .error .ok) :
    failIf bad err >>= f ≠ .error .ok := by
  cases bad
  · exact hf
  · exact fun h => herr rfl (Except.error.inj h)

/-- The same for any two calls. -/
theorem bind_ne_error_ok {α β : Type} {x : Except EspErr α} {f : α → Except EspErr β}
    (hx : x ≠ .error .ok) (hf : ∀ a, f a ≠ .error .ok) : x >>= f ≠ .error .ok := by
  cases x with
  | error err => exact fun h => hx (congrArg Except.error (Except.error.inj h))
  | ok a => exact hf a

end Jukeboy.Base
