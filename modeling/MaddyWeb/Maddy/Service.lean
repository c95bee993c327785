import MaddyWeb.Helper.Errors
import MaddyWeb.Library.Exec

/-!
# Exceptions and argument checks of `MaddyService`
-/

namespace MaddyWeb.Maddy.Service

open MaddyWeb.Library MaddyWeb.Helper.Errors

/-- The exceptions of the operations; only `InvalidMaddyArgument` is no `MaddyError`. -/
inductive ServiceError
  | invalidArgument (field : String)
  | command (e : HelperException)
  | verification (message : String)
  | partialOperation (message : String) (completed : List String)
      (rollbackSucceeded : Option Bool)
  deriving DecidableEq, Repr

def ServiceError.isMaddyError : ServiceError → Bool
  | .invalidArgument _ => false
  | _ => true

/-- A failure of a command or of its verification. -/
def ServiceError.isFailure : ServiceError → Bool
  | .command _ | .verification _ => true
  | _ => false

/-- `except MaddyError` -/
def exceptMaddyError {σ α : Type} (m : Exec σ ServiceError α)
    (handler : ServiceError → Exec σ ServiceError α) : Exec σ ServiceError α :=
  Exec.handle m fun e => if e.isMaddyError then handler e else Exec.raise e

/-- `_safe_positional` -/
def safePositional {σ : Type} (value field : String) (maxLength : Nat) : Exec σ ServiceError Unit :=
  Exec.ensure
    (!(value.isEmpty || maxLength < value.length || value.toList.head? == some '-' ||
      value.toList.any fun c => c.toNat < 0x20 || c.toNat == 0x7F))
    (.invalidArgument field)

theorem exceptMaddyError_triple {σ α : Type} {m : Exec σ ServiceError α}
    {handler : ServiceError → Exec σ ServiceError α} {P : σ → Prop} {Q : α → σ → Prop}
    {E E' : ServiceError → σ → Prop}
    (hm : Exec.Triple P m Q fun e s => e.isFailure = true ∧ E e s)
    (hhandler : ∀ e, e.isFailure = true → Exec.Triple (E e) (handler e) Q E') :
    Exec.Triple P (exceptMaddyError m handler) Q E' := by
  apply Exec.Triple.handle hm
  intro e
  apply Exec.Triple.assume
  intro hfailure
  have hmaddy : e.isMaddyError = true := by
    revert hfailure
    cases e <;> simp [ServiceError.isFailure, ServiceError.isMaddyError]
  rw [if_pos hmaddy]
  exact hhandler e hfailure

end MaddyWeb.Maddy.Service
