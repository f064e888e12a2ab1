import EspNowOnLinux.Daemon.MessageLength
import EspNowOnLinux.Utility.ConsumeSteps

/-!
# Progress of the daemon's read handler

What `handle_serial_packet` returns for arbitrary data, and that the loop of
`serial_port_socket::read_handle` therefore ends with the indices of the buffer in order.

## Main results

* `progresses_handleSerialPacket`: the handler answers `-1` or a number of bytes that are there;
* `readHandle_terminates`: the loop ends on any data and in any state of the device.
-/

open Messages ReceivingBuffer StateMachine

namespace EspnowUartDevice

variable (env : HostEnv)

/-- Whatever the data and whatever the state of the device, the handler answers `-1` or a positive
number of bytes that are there. -/
theorem progresses_handleSerialPacket :
    Progresses (handleSerialPacket env) (1024 * 4) := by
  intro d data hne hlen
  cases hmessage : messageLength? data with
  | some n =>
      obtain ⟨left, hleft, hr⟩ := takes_handleSerialPacket env d data n hmessage hlen
      have hpos : 0 < n := selfDelimiting_messageLength?.pos hmessage
      have hle : n ≤ data.length := selfDelimiting_messageLength?.le hmessage
      refine ⟨_, hr, Or.inr ⟨?_, ?_⟩, ?_⟩
      · show (1 : ℤ) ≤ (n : ℤ)
        omega
      · show (n : ℤ) ≤ (data.length : ℤ)
        omega
      · rw [List.length_append, hleft, List.length_drop]
        omega
  | none =>
      obtain ⟨id, tail, rfl⟩ := List.exists_cons_of_ne_nil hne
      by_cases hid : id ∈ knownIds
      · exact ⟨_, handleSerialPacket_unfinished env d hid hmessage, Or.inl rfl, rfl⟩
      · have hr : handleSerialPacket env d (id :: tail) = _ := handleSerialPacket_unknown env d hid
        rw [Bytes.toInt32_of_lt (by omega)] at hr
        refine ⟨_, hr, Or.inr ⟨?_, le_rfl⟩, rfl⟩
        show (1 : ℤ) ≤ ((tail.length + 1 : ℕ) : ℤ)
        omega

/-- The loop of `read_handle`. -/
abbrev readStep : ConsumeState EspnowUartDevice (1024 * 4) → Unit →
    Option (ConsumeState EspnowUartDevice (1024 * 4)) :=
  consumeStep (serialPortReadHandle env false) fun d b => (d, b)

/-- For any data and any state of the device the handler answers `-1` or a number from `1` to the
number of bytes. So the loop of `read_handle` keeps the indices of any buffer in order in every
iteration, none of which is undefined, and it ends after at most one iteration for each byte and one
more. Then `read_handle` itself has ended, whatever was read into the buffer before, and has left
the indices in order. -/
theorem readHandle_terminates :
    (∀ (d : EspnowUartDevice) (data : List UInt8), data ≠ [] → data.length ≤ 4096 →
      ∃ r, handleSerialPacket env d data = some r ∧
        (r.ret = -1 ∨ (1 ≤ r.ret ∧ r.ret ≤ data.length))) ∧
    (∀ (d : EspnowUartDevice) (b : ReceivingBuffer (1024 * 4)), b.WellFormed →
      (∀ iterations, Always (readStep env)
        (fun l => l.buffer.WellFormed ∧ (l.running = true → (readStep env l ()).isSome))
        ⟨d, b, true⟩ iterations) ∧
      ∃ n ≤ b.getData.length + 1, ∃ t,
        run (readStep env) ⟨d, b, true⟩ (List.replicate n ()) = some t ∧ t.running = false) ∧
    ∀ (d : EspnowUartDevice) (bytes : List UInt8), d.serialPort.buffer.WellFormed →
      bytes.length ≤ d.serialPort.buffer.getWritable.length →
      ∃ d' spans, readHandle env d false bytes = some (d', spans) ∧
        d'.serialPort.buffer.WellFormed := by
  have H : Progresses (serialPortReadHandle env false) (1024 * 4) :=
    progresses_handleSerialPacket env
  refine ⟨?_, ?_, ?_⟩
  · intro d data hne hlen
    obtain ⟨r, hr, hret, -⟩ := progresses_handleSerialPacket env d data hne hlen
    exact ⟨r, hr, hret⟩
  · intro d b hb
    obtain ⟨n, hn, t, -, hrun, hstopped, -⟩ :=
      exists_run_consumeStep (fun d b => (d, b)) H (by norm_num) d hb
    exact ⟨always_wellFormed _ H (by norm_num) d hb, n, hn, t, hrun, hstopped⟩
  · intro d bytes hb hfits
    obtain ⟨n, -, t, spans, -, -, hwf, hloop⟩ := exists_run_consumeStep (fun d b => (d, b)) H
      (by norm_num) d.readCompleted (hb.fill_commit hfits)
    refine ⟨t.state.rearm t.buffer.moveDataToFront, spans, ?_, hwf.moveDataToFront⟩
    rw [readHandle, if_neg Bool.false_ne_true]
    simp only [readInto, hloop _ (Nat.lt_succ_self _), Option.map_some]

/-- A complete ping followed by an unknown id. -/
theorem readHandle_terminates_ping :
    let d : EspnowUartDevice := .new (.new (.replicate _ 0)) "espnow0"
      ⟨[], .replicate 6 0, 0, ⟨0, 0, 0⟩⟩ (.replicate _ 0)
    ∃ d' spans, readHandle ⟨.little, fun _ => []⟩ d false (ping ++ [2, 0, 0]) = some (d', spans) ∧
      d'.serialPort.buffer.WellFormed :=
  (readHandle_terminates ⟨.little, fun _ => []⟩).2.2 _ _ (wellFormed_new _)
    (by rw [length_getWritable]; decide)

end EspnowUartDevice
