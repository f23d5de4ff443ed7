/-!
# Quality of service

Every message is published at a quality of service and every subscription
is granted one.  On the wire it is a byte, of which only `0`, `1` and `2`
mean anything; inside the router it is the type `QoS`.

## Main results

* `QoS.ofByte?_eq_some_iff` — a byte is read as a quality exactly when it is
  the byte that quality is written as.
* `QoS.ofByte?_eq_none_iff` — the bytes that are refused.
-/

namespace TopicRouter

/-- How hard the broker tries to deliver a message. -/
inductive QoS where
  | atMostOnce
  | atLeastOnce
  | exactlyOnce
deriving DecidableEq

namespace QoS

/-- The byte a quality of service is written as. -/
def toByte : QoS → UInt8
  | atMostOnce => 0
  | atLeastOnce => 1
  | exactlyOnce => 2

/-- Reads a byte; every byte above two is refused. -/
def ofByte? (byte : UInt8) : Option QoS :=
  if byte = 0 then some atMostOnce
  else if byte = 1 then some atLeastOnce
  else if byte = 2 then some exactlyOnce
  else none

/-- Does the byte stand for a quality of service? -/
def isValid (byte : UInt8) : Bool := (ofByte? byte).isSome

@[simp] theorem ofByte?_toByte (qos : QoS) : ofByte? qos.toByte = some qos := by
  cases qos <;> rfl

theorem ofByte?_eq_some_iff {byte : UInt8} {qos : QoS} :
    ofByte? byte = some qos ↔ byte = qos.toByte := by
  constructor
  · intro h
    unfold ofByte? at h
    split at h
    · cases h; assumption
    split at h
    · cases h; assumption
    split at h
    · cases h; assumption
    · cases h
  · rintro rfl
    exact ofByte?_toByte qos

/-- The bytes above two stand for no quality of service. -/
theorem ofByte?_eq_none_iff {byte : UInt8} : ofByte? byte = none ↔ 2 < byte := by
  rw [UInt8.lt_iff_toNat_lt]
  constructor
  · intro hnone
    have hother : ∀ qos : QoS, byte.toNat ≠ qos.toByte.toNat := by
      intro qos hsame
      rw [ofByte?_eq_some_iff.2 (UInt8.toNat_inj.1 hsame)] at hnone
      cases hnone
    have hzero : byte.toNat ≠ 0 := hother .atMostOnce
    have hone : byte.toNat ≠ 1 := hother .atLeastOnce
    have htwo : byte.toNat ≠ 2 := hother .exactlyOnce
    show 2 < byte.toNat
    omega
  · intro hbyte
    cases hqos : ofByte? byte with
    | none => rfl
    | some qos =>
        rw [ofByte?_eq_some_iff.1 hqos] at hbyte
        cases qos <;> exact absurd hbyte (by decide)

end QoS

end TopicRouter
