import EspNowOnLinux.Messages.Packets

/-!
# The firmware's surroundings

What the tasks of the firmware take from the machine they run on, and the messages they log to the
serial line.
-/

open Bytes Messages

/-- What the firmware takes from the machine it runs on. -/
structure FirmwareEnv where
  /-- The byte order. -/
  order : ByteOrder
  /-- Whether the `n`-th call of `esp_now_send` returns `ESP_OK`. -/
  espNowSend : ℕ → Bool

/-- What `log_to_uart` is called with. -/
inductive FirmwareLog
  /-- `"No space to store received packet"`. -/
  | noSpaceToStoreReceivedPacket
  /-- `"Failed to send packet"`. -/
  | failedToSendPacket
  /-- `"Unknown message id: %d"`. -/
  | unknownMessageId (id : MessageId)
  /-- `"Failed to handle packet"`. -/
  | failedToHandlePacket
  deriving DecidableEq
