import Mathlib.Init

namespace Army3

abbrev Bytes := List UInt8

/-- The exceptions the server raises, with their texts. `UnicodeEncodeError` comes from the
strict UTF-8 codec; it is a `ValueError` but no `EncodeError`. -/
inductive PyError where
  | frameError (text : String)
  | encodeError (text : String)
  | decodeError (text : String)
  | sessionProtocolError (text : String)
  | unicodeEncodeError
  | valueError (text : String)
  | runtimeError (text : String)
  deriving DecidableEq, Repr

/-- The subclasses of `ProtocolError`: failures that should close a bad session. -/
def PyError.isProtocolError : PyError → Bool
  | .frameError _ | .encodeError _ | .decodeError _ | .sessionProtocolError _ => true
  | .unicodeEncodeError | .valueError _ | .runtimeError _ => false

/-- `if condition: raise error`. -/
@[reducible] def raiseIf {m : Type → Type} [Monad m] [MonadExcept PyError m]
    (condition : Prop) [Decidable condition] (error : PyError) : m Unit :=
  if condition then throw error else pure ()

/-- The format `02X` of a byte. -/
def hex02 (value : UInt8) : String :=
  String.ofList [(Nat.digitChar (value.toNat / 16)).toUpper, (Nat.digitChar (value.toNat % 16)).toUpper]

end Army3
