/-
# Access.Gate — who may ask and who may look

The gate knows keys only by their digests and lets in a token whose digest is
known. Clients may ask if no client keys are set, and else with one of them or
with the operator's key; the operator's figures are for the operator's key alone.
-/
import DialectGateway.Access.Token
import DialectGateway.Settings.Basic

set_option autoImplicit false

namespace DialectGateway.Access

structure Gate (D : Type) where
  clients : List D
  operator : Option D
  deriving Repr

namespace Gate

variable {D : Type} [DecidableEq D]

/-- The gate for these keys. -/
def ofSettings (digest : String → D) (s : Settings.Access) : Gate D :=
  ⟨s.keys.map digest, s.adminKey.map digest⟩

/-- A request that presents a token with this digest, or none, may be answered. -/
def admitsClient (g : Gate D) (token : Option D) : Bool :=
  g.clients.isEmpty || token.any fun d => decide (d ∈ g.clients) || g.operator == some d

/-- A request that presents a token with this digest, or none, may see the figures. -/
def admitsOperator (g : Gate D) (token : Option D) : Bool :=
  token.any fun d => g.operator == some d

theorem admitsClient_of_admitsOperator {g : Gate D} {token : Option D}
    (h : g.admitsOperator token = true) : g.admitsClient token = true := by
  cases token with
  | none => simp [admitsOperator] at h
  | some d =>
    simp only [admitsOperator, Option.any_some] at h
    simp [admitsClient, h]

end Gate
end DialectGateway.Access
