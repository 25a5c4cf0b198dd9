import Army3.Protocol.Errors

namespace Army3

/-- The fields a connection reads, with what `__post_init__` checks of them. -/
structure ServerConfig where
  maxPayloadBytes : Nat
  experimentalSplashRevision : Option Int
  experimentalAreaPush : Bool
  maxPayloadBytes_le : maxPayloadBytes ≤ 0xFFFF
  revision_range : ∀ revision ∈ experimentalSplashRevision, -128 ≤ revision ∧ revision ≤ 127
  deriving DecidableEq

namespace ServerConfig

/-- `_validate_int`; the range comes back as a proof. -/
def validateInt (name : String) (value minimum maximum : Int) :
    Except PyError (PLift (minimum ≤ value ∧ value ≤ maximum)) :=
  if h : minimum ≤ value ∧ value ≤ maximum then .ok ⟨h⟩
  else .error (.valueError s!"{name} must be between {minimum} and {maximum}")

/-- The constructor call on these fields. -/
def create (maxPayloadBytes : Int := 0xFFFF) (experimentalSplashRevision : Option Int := none)
    (experimentalAreaPush : Bool := false) : Except PyError ServerConfig := do
  let ⟨size⟩ ← validateInt "max_payload_bytes" maxPayloadBytes 0 0xFFFF
  match experimentalSplashRevision with
  | none => return ⟨maxPayloadBytes.toNat, none, experimentalAreaPush, by omega, by simp⟩
  | some revision =>
    let ⟨range⟩ ← validateInt "experimental_splash_revision" revision (-128) 127
    return ⟨maxPayloadBytes.toNat, some revision, experimentalAreaPush, by omega, by simpa using range⟩

theorem validateInt_eq_ok {name : String} {value minimum maximum : Int}
    (h : minimum ≤ value ∧ value ≤ maximum) : validateInt name value minimum maximum = .ok ⟨h⟩ := by
  rw [validateInt, dif_pos h]

/-- The constructor accepts the fields of every configuration. -/
theorem create_fields (config : ServerConfig) :
    create config.maxPayloadBytes config.experimentalSplashRevision
      config.experimentalAreaPush = .ok config := by
  obtain ⟨maxPayloadBytes, revision, areaPush, hmax, hrevision⟩ := config
  have hsize : 0 ≤ (maxPayloadBytes : Int) ∧ (maxPayloadBytes : Int) ≤ 0xFFFF := by omega
  rw [create, validateInt_eq_ok hsize]
  cases revision with
  | none => rfl
  | some revision =>
    have hrange := hrevision revision rfl
    change Except.bind (validateInt "experimental_splash_revision" revision (-128) 127) _ = _
    rw [validateInt_eq_ok hrange]
    rfl

end ServerConfig
end Army3
