import TopicRouter.Qos

/-!
# Messages

A published message with the fields that travel with it.  A message kept for
later subscribers is marked as retained.
-/

namespace TopicRouter

/-- A published message. -/
@[ext]
structure Message where
  topic : String
  qos : QoS
  payload : ByteArray
  /-- Is the message kept for later subscribers? -/
  retain : Bool := false
  /-- Has the message been sent before? -/
  duplicate : Bool := false
  /-- The number of the packet, zero for a packet that has none. -/
  packetId : UInt16 := 0

namespace Message

/-- Messages are compared field by field, and payloads by their bytes. -/
instance : DecidableEq Message := fun a b =>
  decidable_of_decidable_of_iff
    (p := a.topic = b.topic ∧ a.qos = b.qos ∧ a.payload.data = b.payload.data ∧
      a.retain = b.retain ∧ a.duplicate = b.duplicate ∧ a.packetId = b.packetId)
    ⟨fun ⟨htopic, hqos, hpayload, hretain, hduplicate, hpacketId⟩ =>
      Message.ext htopic hqos (ByteArray.ext hpayload) hretain hduplicate hpacketId,
      fun h => h ▸ ⟨rfl, rfl, rfl, rfl, rfl, rfl⟩⟩

/-- A message to be retained. -/
def retained (topic : String) (qos : QoS) (payload : ByteArray) : Message :=
  { topic, qos, payload, retain := true }

end Message

end TopicRouter
