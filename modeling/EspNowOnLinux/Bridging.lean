import EspNowOnLinux.Daemon.DeviceMessage
import EspNowOnLinux.Firmware.JtagReceive
import EspNowOnLinux.Firmware.PacketDelivery

/-!
# Between the TAP device and the radio

What one side puts on the serial line is what the other side takes off it, in both directions: a TAP
frame becomes a call of `esp_now_send`, and a packet from the radio becomes a TAP frame. The two
machines may differ in byte order.

## Main results

* `tunReadHandle_exact`: a frame with the ethertype is written as one packet, from which the
  firmware takes the destination and the payload of the frame; any other frame is dropped;
* `mainLoop_exact`: the transmit loop pushes the packet that the shared codec encodes, and the
  daemon makes one TAP frame of it.
-/

open Bytes Messages StateMachine

namespace Bridging

/-! ## From the TAP device to the radio -/

/-- The firmware takes just `packet` off the front of the line and sends `data` to `destination`. As
long as `packet` is not complete, it waits. -/
structure Carries (env : FirmwareEnv) (packet destination data : List UInt8) : Prop where
  sends : ∀ (s : Transmitted) (rest : List UInt8), ∃ (t : Transmitted) (mac : MacAddress),
    handlePacketFromJtag env s (packet ++ rest) = some ⟨packet.length, t, packet ++ rest⟩ ∧
      t.sent = s.sent ++ [(mac, data)] ∧ mac.toList = destination
  waits : ∀ (s : Transmitted) (p : List UInt8), p ≠ [] → p <+: packet → p.length < packet.length →
    handlePacketFromJtag env s p = some ⟨-1, s, p⟩

/-- The encoding of a packet that fits carries its destination and its payload. -/
theorem carries_serialize (env : FirmwareEnv) (o : ByteOrder) {packet : PacketToSend}
    (hp : JtagTask.Sendable packet) :
    Carries env (packet.serialize o) packet.destinationMac.toList packet.data where
  sends s rest := by
    refine ⟨_, packet.destinationMac, ?_, Transmitted.sent_send env s packet, rfl⟩
    rw [JtagTask.handlePacketFromJtag_serialize env o s hp rest, PacketToSend.length_serialize]
    rfl
  waits s _ hne hpre hlt := JtagTask.handlePacketFromJtag_waits env o s hp hne hpre hlt

/-- The two bytes behind the addresses of a frame. -/
def frameType (frame : List UInt8) : List UInt8 := (frame.drop 12).take 2

/-- The comparison of the ethertype, on a machine of either byte order. -/
theorem ethertype_iff (o : ByteOrder) {frame : List UInt8} (rest : List UInt8)
    (h : 14 ≤ frame.length) :
    networkToHost16 o (loadUInt16 o ((frame ++ rest).drop 12)) = EspnowUartDevice.ethertype ↔
      frameType frame = [0x88, 0xb5] := by
  have hlen : (frameType frame).length = 2 := by
    rw [frameType, List.length_take, List.length_drop]; omega
  have htake : ((frame ++ rest).drop 12).take 2 = frameType frame := by
    rw [List.drop_append_of_le_length (by omega),
      List.take_append_of_le_length (by rw [List.length_drop]; omega), frameType]
  have htwo : 2 ≤ ((frame ++ rest).drop 12).length := by
    rw [List.length_drop, List.length_append]; omega
  have hvalue := networkToHost16_loadUInt16 o htwo
  rw [htake] at hvalue
  rw [← UInt16.toNat_inj, hvalue]
  constructor
  · intro heq
    have hbytes := toBE_ofBE (frameType frame)
    rw [hlen, heq] at hbytes
    rw [← hbytes]
    decide
  · intro heq
    rw [heq]
    decide

/-- The array starts with the frame that was read into it. -/
theorem overwrite_frame (d : EspnowUartDevice) (frame : PacketBuffer 512) :
    overwrite d.tunFdBuffer.toList 0 frame.buffer =
      frame.buffer ++ d.tunFdBuffer.toList.drop frame.buffer.length := by
  have hsize := frame.size_le
  rw [overwrite_of_fits (by rw [List.Vector.toList_length]; omega), List.take_zero,
    List.nil_append, Nat.zero_add]

/-- The packet that a frame with the ethertype is forwarded as. -/
def forwarded (frame : List UInt8) (h : 14 ≤ frame.length) : PacketToSend where
  destinationMac := ⟨frame.take 6, by rw [List.length_take]; omega⟩
  data := frame.drop 14

theorem length_forwarded {frame : PacketBuffer 512} (h : 14 ≤ frame.buffer.length)
    (o : ByteOrder) : ((forwarded frame.buffer h).serialize o).length ≤ 512 := by
  have hsize := frame.size_le
  rw [PacketToSend.length_serialize, forwarded, List.length_drop]
  omega

/-- A frame of at least 14 bytes with the ethertype is written to the serial port. -/
theorem tunReadHandle_forwarded (env : HostEnv) (d : EspnowUartDevice) {frame : PacketBuffer 512}
    (h : 14 ≤ frame.buffer.length) (htype : frameType frame.buffer = [0x88, 0xb5]) :
    EspnowUartDevice.tunReadHandle env d false frame = some { d with
      serialPort := { d.serialPort with
        writeQueue := d.serialPort.writeQueue.write
          ⟨(forwarded frame.buffer h).serialize env.order, length_forwarded h env.order⟩ }
      tunFdBuffer := ⟨overwrite d.tunFdBuffer.toList 0 frame.buffer, by simp⟩
      statistics := { d.statistics with broadcastSent := d.statistics.broadcastSent + 1 } } := by
  have harray := overwrite_frame d frame
  have heth := ethertype_iff env.order (d.tunFdBuffer.toList.drop frame.buffer.length) h
  rw [← harray] at heth
  have htake : (overwrite d.tunFdBuffer.toList 0 frame.buffer).take 6 = frame.buffer.take 6 := by
    rw [harray, List.take_append_of_le_length (by omega)]
  have hdrop : ((overwrite d.tunFdBuffer.toList 0 frame.buffer).take frame.buffer.length).drop 14 =
      frame.buffer.drop 14 := by
    rw [harray, List.take_left]
  rw [EspnowUartDevice.tunReadHandle, if_neg Bool.false_ne_true]
  refine (if_pos (heth.mpr htype)).trans ((if_pos h).trans ?_)
  simp only [List.Vector.toList_mk, htake, hdrop]
  exact (congrArg _ (SerialPortSocket.write_eq d.serialPort (length_forwarded h env.order))).trans
    rfl

/-- Any other frame of at least 14 bytes is dropped. -/
theorem tunReadHandle_dropped (env : HostEnv) (d : EspnowUartDevice) {frame : PacketBuffer 512}
    (h : 14 ≤ frame.buffer.length) (htype : frameType frame.buffer ≠ [0x88, 0xb5]) :
    EspnowUartDevice.tunReadHandle env d false frame = some { d with
      tunFdBuffer := ⟨overwrite d.tunFdBuffer.toList 0 frame.buffer, by simp⟩ } := by
  have heth := ethertype_iff env.order (d.tunFdBuffer.toList.drop frame.buffer.length) h
  rw [← overwrite_frame d frame] at heth
  rw [EspnowUartDevice.tunReadHandle, if_neg Bool.false_ne_true]
  exact if_neg fun htrue => htype (heth.mp htrue)

/-- A frame of at least 14 bytes with the ethertype is written as one packet, from which the
firmware takes the destination and the payload of the frame: the packet, and nothing else, is put
behind those in the queue. Any other frame of at least 14 bytes leaves the serial port and the
statistics alone. -/
theorem tunReadHandle_exact (env : HostEnv) (firmware : FirmwareEnv) (d : EspnowUartDevice)
    (frame : PacketBuffer 512) (h : 14 ≤ frame.buffer.length) :
    (frameType frame.buffer = [0x88, 0xb5] → ∃ (t : EspnowUartDevice) (packet : PacketBuffer 512),
      EspnowUartDevice.tunReadHandle env d false frame = some t ∧
      d.serialPort.writeQueue.Takes packet t.serialPort.writeQueue ∧
      Carries firmware packet.buffer (frame.buffer.take 6) (frame.buffer.drop 14)) ∧
    (frameType frame.buffer ≠ [0x88, 0xb5] → ∃ t : EspnowUartDevice,
      EspnowUartDevice.tunReadHandle env d false frame = some t ∧
      t.serialPort = d.serialPort ∧ t.statistics = d.statistics) := by
  constructor
  · intro htype
    have hfits := length_forwarded h env.order
    have hp : JtagTask.Sendable (forwarded frame.buffer h) :=
      ⟨rfl, by rwa [PacketToSend.length_serialize] at hfits⟩
    exact ⟨_, _, tunReadHandle_forwarded env d h htype, d.serialPort.writeQueue.takes_write _,
      carries_serialize firmware env.order hp⟩
  · intro htype
    exact ⟨_, tunReadHandle_dropped env d h htype, rfl, rfl⟩

/-- A frame of 15 bytes, forwarded by a machine of one byte order to a machine of the other. -/
theorem tunReadHandle_exact_frame :
    let d : EspnowUartDevice := .new (.new (.replicate _ 0)) "espnow0"
      ⟨[], .replicate 6 0, 0, ⟨0, 0, 0⟩⟩ (.replicate _ 0)
    let frame : PacketBuffer 512 := ⟨List.replicate 12 1 ++ [0x88, 0xb5, 7], by decide⟩
    ∃ (t : EspnowUartDevice) (packet : PacketBuffer 512),
      EspnowUartDevice.tunReadHandle ⟨.big, fun _ => []⟩ d false frame = some t ∧
      packet.buffer = [83, 1, 1, 1, 1, 1, 1, 0, 0, 0, 1, 7] ∧
      t.serialPort.writeQueue.queue = [packet] ∧ t.serialPort.writeQueue.accepted = [packet] ∧
      Carries ⟨.little, fun _ => true⟩ packet.buffer (List.replicate 6 1) [7] := by
  intro d frame
  obtain ⟨t, packet, ht, htakes, hcarries⟩ := (tunReadHandle_exact ⟨.big, fun _ => []⟩
    ⟨.little, fun _ => true⟩ d frame (by decide)).1 rfl
  have hqueue : (EspnowUartDevice.tunReadHandle ⟨.big, fun _ => []⟩ d false frame).map
      (fun t => t.serialPort.writeQueue.queue.map PacketBuffer.buffer) =
        some [[83, 1, 1, 1, 1, 1, 1, 0, 0, 0, 1, 7]] := by decide +kernel
  rw [ht, Option.map_some, htakes.queue_eq, Option.some.injEq] at hqueue
  exact ⟨t, packet, ht, List.singleton_inj.mp hqueue, htakes.queue_eq, htakes.accepted_eq, hcarries⟩

/-! ## From the radio to the TAP device -/

/-- The transmit loop with the slot that it has just taken from the queue: it pushes the packet that
the slot holds and does nothing else to what was pushed before. -/
theorem run_mainStep (o : ByteOrder) {s : PacketPool} {i : Fin 15} {call : EspNowCall}
    (hslot : s.transmission = some ⟨i, .dequeued⟩)
    (hcall : PacketPool.Holds (s.packets i).data call) :
    ∃ t, run (PacketPool.step o) s [.main, .main, .main, .main] = some t ∧
      t.pushed = s.pushed ++ [PacketPool.receivedBytes o call] := by
  have hsize : 1 + 6 + 4 + (s.packets i).data.payloadSize = PacketPool.totalSize call := by
    rw [hcall.payloadSize_eq]
    rfl
  -- `total_size` is computed, the id is written and the length is swapped
  let sized : PacketPool :=
    { s with transmission := some ⟨i, .sized (PacketPool.totalSize call)⟩ }
  have hsized : PacketPool.step o s .main = some sized := by
    show s.mainStep o = _
    rw [PacketPool.mainStep, hslot]
    show some _ = _
    rw [hsize]
  let idWritten : PacketPool :=
    { sized.modify i (fun p => { p with data.id := MessageId.receivedPacket }) with
      transmission := some ⟨i, .idWritten (PacketPool.totalSize call)⟩ }
  have hidWritten : PacketPool.step o sized .main = some idWritten := rfl
  let swapped : PacketPool :=
    { idWritten.modify i (fun p =>
        { p with data.payloadSize := hostToNetwork o p.data.payloadSize }) with
      transmission := some ⟨i, .swapped (PacketPool.totalSize call)⟩ }
  have hswapped : PacketPool.step o idWritten .main = some swapped := rfl
  -- what is pushed is the front of the slot
  have hdata : (swapped.packets i).data =
      { (s.packets i).data with
        id := MessageId.receivedPacket
        payloadSize := hostToNetwork o (s.packets i).data.payloadSize } := by
    simp only [swapped, idWritten, sized, PacketPool.modify_self]
  have hholds : PacketPool.Holds { (s.packets i).data with id := MessageId.receivedPacket } call :=
    ⟨hcall.srcMac_eq, hcall.payloadSize_eq, hcall.length_le, hcall.payload_eq⟩
  have hbytes := PacketPool.bytes_swapped hholds rfl (o := o)
  have hfits : (PacketPool.totalSize call).toNat ≤ ((swapped.packets i).data.bytes o).length := by
    rw [PacketPool.toNat_totalSize hcall.length_le, PoolPacket.length_bytes]
    have hle := hcall.length_le
    omega
  have hpushed : PacketPool.step o swapped .main = some { swapped with
      transmission := some ⟨i, .pushed⟩
      pushed := s.pushed ++ [((swapped.packets i).data.bytes o).take
        (PacketPool.totalSize call).toNat] } := if_pos hfits
  have hrun : run (PacketPool.step o) s [.main, .main, .main, .main] = some _ :=
    run_cons_eq_some.mpr ⟨sized, hsized, run_cons_eq_some.mpr ⟨idWritten, hidWritten,
      run_cons_eq_some.mpr ⟨swapped, hswapped, run_cons_eq_some.mpr ⟨_, hpushed, rfl⟩⟩⟩⟩
  refine ⟨_, hrun, ?_⟩
  show s.pushed ++ [_] = _
  rw [hdata]
  exact congrArg (fun bytes => s.pushed ++ [bytes]) hbytes

/-- The daemon takes just `bytes` off the front of the line and puts one TAP frame, and nothing
else, behind those in the queue. As long as `bytes` are not complete, it waits. What follows them
may be much longer than the 4096 bytes of the receiving buffer, which the daemon hands its handler
at most. -/
structure Frames (env : HostEnv) (bytes : List UInt8) (mac : MacAddress) (data : List UInt8) :
    Prop where
  accepts : ∀ (d : EspnowUartDevice) (rest : List UInt8), data.length + rest.length < 2 ^ 32 →
    ∃ t : EspnowUartDevice,
      EspnowUartDevice.handleSerialPacket env d (bytes ++ rest) =
        some ⟨11 + data.length, t, bytes ++ rest⟩ ∧
      d.tunFdWriteBuffers.Takes (List.replicate 6 0xff ++ mac.toList ++ [0x88, 0xb5] ++ data)
        t.tunFdWriteBuffers
  waits : ∀ (d : EspnowUartDevice) (p : List UInt8), p ≠ [] → p <+: bytes →
    p.length < bytes.length → EspnowUartDevice.handleSerialPacket env d p = some ⟨-1, d, p⟩

/-- The encoding of a packet from the radio becomes its TAP frame. -/
theorem frames_serialize (env : HostEnv) (o : ByteOrder) (mac : MacAddress) {data : List UInt8}
    (h : data.length ≤ 250) :
    Frames env (ReceivedPacket.serialize o { mac, data }) mac data where
  accepts d rest hrest := by
    refine ⟨EspnowUartDevice.receivePacket d mac data, ?_, d.tunFdWriteBuffers.takes_write _⟩
    rw [EspnowUartDevice.handleSerialPacket_serialize env d o rest rfl hrest,
      toInt32_of_lt (show 11 + data.length < 2 ^ 31 by omega)]
    rfl
  waits d p hne hpre hlt := by
    have hencode : DeviceMessage.encode (.receivedPacket mac data) =
        ReceivedPacket.serialize o { mac, data } := by
      rw [ReceivedPacket.serialize_eq, packetBytes, DeviceMessage.encode]
      simp
    have hm : DeviceMessage.WellFormed (.receivedPacket mac data) := by
      refine ⟨show data.length ≤ 498 by omega, ?_⟩
      rw [hencode, ReceivedPacket.length_serialize]
      show 11 + data.length ≤ 1024 * 4
      omega
    rw [← hencode] at hpre hlt
    exact EspnowUartDevice.serialPortReadHandle_waits env d hm hne hpre hlt

/-- A slot that holds a packet of the radio is pushed as the bytes that the shared codec encodes the
packet to, and the daemon makes the packet's TAP frame of them. The firmware, the codec and the
daemon may run on machines of different byte orders. -/
theorem mainLoop_exact (o o' : ByteOrder) (env : HostEnv) {s : PacketPool} {i : Fin 15}
    {call : EspNowCall} (hslot : s.transmission = some ⟨i, .dequeued⟩)
    (hcall : PacketPool.Holds (s.packets i).data call) :
    (∃ t, run (PacketPool.step o) s [.main, .main, .main, .main] = some t ∧
      t.pushed = s.pushed ++
        [ReceivedPacket.serialize o' { mac := call.srcAddr, data := call.data }]) ∧
    Frames env (ReceivedPacket.serialize o' { mac := call.srcAddr, data := call.data })
      call.srcAddr call.data := by
  refine ⟨?_, frames_serialize env o' call.srcAddr hcall.length_le⟩
  obtain ⟨t, hrun, hpushed⟩ := run_mainStep o hslot hcall
  refine ⟨t, hrun, ?_⟩
  rw [hpushed, PacketPool.receivedBytes, ReceivedPacket.serialize_eq,
    ← ReceivedPacket.serialize_eq o']

/-- A packet of three bytes, from the callback to the daemon. -/
theorem mainLoop_exact_packet :
    let call : EspNowCall := ⟨.replicate 6 7, [1, 2, 3]⟩
    let bytes := ReceivedPacket.serialize .big { mac := call.srcAddr, data := call.data }
    ∃ s t : PacketPool,
      run (PacketPool.step .little) .start
        [.received call, .callback, .callback, .callback, .callback, .callback, .main] = some s ∧
      run (PacketPool.step .little) s [.main, .main, .main, .main] = some t ∧
      t.pushed = [bytes] ∧ Frames ⟨.little, fun _ => []⟩ bytes call.srcAddr call.data ∧
      ∃ d : EspnowUartDevice,
        EspnowUartDevice.handleSerialPacket ⟨.little, fun _ => []⟩
          (.new (.new (.replicate _ 0)) "espnow0" ⟨[], .replicate 6 0, 0, ⟨0, 0, 0⟩⟩
            (.replicate _ 0)) (bytes ++ [80]) = some ⟨14, d, bytes ++ [80]⟩ ∧
        d.tunFdWriteBuffers.queue =
          [List.replicate 6 0xff ++ List.replicate 6 7 ++ [0x88, 0xb5, 1, 2, 3]] := by
  intro call bytes
  -- the slot when it has been taken from the queue
  let payload : List.Vector UInt8 250 :=
    ⟨overwrite (List.replicate 250 0) 0 call.data, by rw [length_overwrite, List.length_replicate]⟩
  have hpayload : payload.toList.take call.data.length = call.data := by decide +kernel
  have hslot : (run (PacketPool.step .little) .start
      [.received call, .callback, .callback, .callback, .callback, .callback, .main]).map
        (fun s => (s.transmission, (s.packets 0).data)) =
      some (some ⟨0, .dequeued⟩, ⟨0, call.srcAddr, 3, payload⟩) := rfl
  obtain ⟨s, hrun, hs⟩ := Option.map_eq_some_iff.mp hslot
  obtain ⟨htransmission, hdata⟩ := Prod.mk.inj hs
  obtain ⟨⟨t, ht, hpushed⟩, hframes⟩ := mainLoop_exact .little .big ⟨.little, fun _ => []⟩
    htransmission
    (hdata.symm ▸ ⟨rfl, rfl, by decide, hpayload⟩ : PacketPool.Holds (s.packets 0).data call)
  have hstart : (run (PacketPool.step .little) .start
      [.received call, .callback, .callback, .callback, .callback, .callback, .main]).map
        PacketPool.pushed = some [] := rfl
  rw [hrun, Option.map_some, Option.some.injEq] at hstart
  obtain ⟨d, hd, htakes⟩ := hframes.accepts (.new (.new (.replicate _ 0)) "espnow0"
    ⟨[], .replicate 6 0, 0, ⟨0, 0, 0⟩⟩ (.replicate _ 0)) [80] (by decide)
  refine ⟨s, t, hrun, ht, ?_, hframes, d, hd, htakes.queue_eq⟩
  rw [hpushed, hstart]
  rfl

end Bridging
