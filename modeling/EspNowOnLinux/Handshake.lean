import EspNowOnLinux.Daemon.SerialLine
import EspNowOnLinux.Firmware.UsbMain

/-!
# The handshake

The daemon's device object and `usb_main`, with a stream of bytes in each direction that loses and
reorders nothing. The device announces itself until a read begins with the id of `START_HOST`. The
daemon answers the first announcement, and forwards TAP frames before it and after it. What the
other tasks of the firmware send once the handshake is complete is left out.

## Main results

* `notStuck_iff`: an answer that the loop has not seen is still on the line, throughout a run, iff
  no read that takes the answer begins with something else;
* `agreed_iff`: the loop ends at the answer only, throughout a run, iff no read that begins inside a
  message begins with a byte that is the id of `START_HOST`.
-/

open Bytes Framing Messages SerialLine StateMachine

/-- What the two programs take from their machines, and what their memory holds at first. -/
structure Setup where
  host : HostEnv
  portContents : List.Vector UInt8 (1024 * 4)
  espnowId : String
  details : DeviceDetails
  tunFdBuffer : List.Vector UInt8 512
  firmware : FirmwareEnv
  jtagContents : List.Vector UInt8 512
  enVersion : UInt32
  mac : MacAddress

/-- Two little-endian machines with zeroed memory. -/
def Setup.zeroed : Setup where
  host := ⟨.little, fun _ => []⟩
  portContents := .replicate _ 0
  espnowId := "espnow0"
  details := ⟨[], .replicate 6 0, 0, ⟨0, 0, 0⟩⟩
  tunFdBuffer := .replicate _ 0
  firmware := ⟨.little, fun _ => true⟩
  jtagContents := .replicate _ 0
  enVersion := 2
  mac := .replicate 6 2

/-- The daemon and a device. -/
structure Link where
  host : HostRun
  /-- The bytes that the device has pushed. -/
  toHost : List UInt8
  device : UsbMain

namespace Link

/-- What happens to one of the two. -/
inductive Event
  /-- To the daemon. -/
  | host (e : HostEvent)
  /-- `push_to_uart_with_synchro` in the handshake loop. -/
  | push
  /-- `usb_serial_jtag_read_bytes` returns this many bytes. -/
  | read (count : ℕ)

/-- The line to the device. -/
def line (s : Link) : SerialLine := s.host.device.line

/-- Both after an event. -/
def step (setup : Setup) (s : Link) : Event → Option Link
  | .host e => (HostRun.step setup.host s.toHost s.host e).map fun host => { s with host }
  | .push => do
      let device ← s.device.push
      let pushed ← announcement (startMessage setup.enVersion setup.mac)
      some { s with device, toHost := s.toHost ++ pushed }
  | .read count =>
      (s.device.read setup.firmware setup.jtagContents s.line.bytes count).map fun device =>
        { s with device }

/-- The device object has just been constructed and nothing has been pushed. -/
def start (setup : Setup) : Link where
  host := .start (.new (.new setup.portContents) setup.espnowId setup.details setup.tunFdBuffer)
  toHost := []
  device := .start

/-- How much of the line the handshake loop has read, while it runs. -/
def taken? (s : Link) : Option ℕ :=
  match s.device with
  | .pushing taken => some taken
  | .reading taken => some taken
  | .task _ _ _ => none

/-- If the daemon has answered and the device is in its handshake loop, the answer is still on the
line. -/
def NotStuck (s : Link) : Prop :=
  s.host.device.requestedStart = true → ∀ taken, s.taken? = some taken →
    ∃ n, taken ≤ n ∧ s.line.AnswerAt n

/-- If the device has left its handshake loop, the read that ended it began with the answer. -/
def Agreed (s : Link) : Prop :=
  ∀ first origin run, s.device = .task first origin run → s.line.AnswerAt first

/-- A read of the loop that takes the answer begins with the id of `START_HOST`. -/
def SeesAnswer (s : Link) : Event → Prop
  | .read count => ∀ taken n, s.device = .reading taken → s.line.AnswerAt n →
      taken ≤ n → n < taken + count →
        (s.line.bytes.drop taken).head? = some MessageId.startHost
  | _ => True

/-- A read of the loop that begins inside a message does not begin with the id of `START_HOST`. -/
def NotMistaken (s : Link) : Event → Prop
  | .read count => ∀ taken, s.device = .reading taken → 0 < count → s.line.MidMessage taken →
      (s.line.bytes.drop taken).head? ≠ some MessageId.startHost
  | _ => True

/-! ## The invariant -/

/-- The messages of a device that has announced itself `n` times. -/
def announced (setup : Setup) (n : ℕ) : List DeviceMessage :=
  List.replicate n (.startDevice (startMessage setup.enVersion setup.mac))

/-- The device has sent announcements, the daemon has handled what it has read of them, only
messages are on the line, and the loop has read no more than there is. -/
structure Inv (setup : Setup) (s : Link) : Prop where
  host : ∃ n, s.toHost = stream DeviceMessage.encode (announced setup n) ∧
    s.host.Inv setup.host { setup.details with deviceName := [] } (announced setup n)
  isMessage : ∀ p ∈ s.line, IsMessage setup.host.order p
  taken_le : ∀ taken, s.taken? = some taken → taken ≤ s.line.bytes.length

variable {setup : Setup} {s t : Link}

/-- Only the daemon writes to the line. -/
theorem line_congr (h : t.host = s.host) : t.line = s.line := by
  rw [line, line, h]

/-- The daemon can receive an announcement. -/
theorem wellFormed_announced (n : ℕ) : ∀ m ∈ announced setup n, m.WellFormed := by
  intro m hm
  obtain rfl := List.eq_of_mem_replicate hm
  refine ⟨rfl, ?_⟩
  rw [DeviceMessage.encode, StartDevice.length_toBytes]
  decide

/-- One more announcement. -/
theorem stream_announced_succ (n : ℕ) :
    stream DeviceMessage.encode (announced setup (n + 1)) =
      stream DeviceMessage.encode (announced setup n) ++
        (startMessage setup.enVersion setup.mac).toBytes := by
  rw [announced, List.replicate_succ', stream_append, stream_cons, stream_nil, List.append_nil]
  rfl

/-- There is an answer iff the daemon has set `requested_start_`, and then there is one. -/
theorem Inv.answers (h : Inv setup s) :
    ((s.line.map PacketBuffer.buffer).filter (· = startHost)).length =
      s.host.device.requestedStart.toNat := by
  obtain ⟨n, -, hhost⟩ := h.host
  exact hhost.delivered.answers

/-- An answer is one that the daemon has given. -/
theorem Inv.requestedStart (h : Inv setup s) {n : ℕ} (hn : s.line.AnswerAt n) :
    s.host.device.requestedStart = true := by
  obtain ⟨pre, p, post, hline, hp, -⟩ := hn
  have hmem : startHost ∈ (s.line.map PacketBuffer.buffer).filter (· = startHost) := by
    refine List.mem_filter.mpr ⟨List.mem_map.mpr ⟨p, ?_, hp⟩, decide_eq_true rfl⟩
    rw [hline]
    exact List.mem_append_right pre List.mem_cons_self
  have hpos := List.length_pos_of_mem hmem
  rw [h.answers] at hpos
  cases hrequested : s.host.device.requestedStart with
  | true => rfl
  | false => rw [hrequested] at hpos; exact absurd hpos (by decide)

/-- The daemon writes messages and the device does not notice. -/
theorem Inv.host_step {e : HostEvent} (h : Inv setup s) (ht : step setup s (.host e) = some t) :
    t.device = s.device ∧ Inv setup t ∧
      ∃ new, t.line = s.line ++ new ∧ ∀ p ∈ new, IsMessage setup.host.order p := by
  obtain ⟨n, htoHost, hhost⟩ := h.host
  obtain ⟨host, hstep, rfl⟩ := Option.map_eq_some_iff.mp ht
  rw [htoHost] at hstep
  have hms : ∀ m ∈ announced setup n, m.WellFormed := wellFormed_announced n
  obtain ⟨new, hnew, hmessage⟩ := HostRun.writes_step hms hhost hstep
  refine ⟨rfl, ⟨⟨n, htoHost, HostRun.inv_step hms _ _ _ hhost hstep⟩, ?_, ?_⟩, new, hnew, hmessage⟩
  · intro p hp
    rw [line, hnew] at hp
    rcases List.mem_append.mp hp with hp | hp
    · exact h.isMessage p hp
    · exact hmessage p hp
  · intro taken htaken
    rw [line, hnew, bytes_append, List.length_append]
    exact Nat.le_add_right_of_le (h.taken_le taken htaken)

/-- A push announces the device once more. -/
theorem Inv.push_step (h : Inv setup s) (ht : step setup s .push = some t) :
    t.host = s.host ∧ t.taken? = s.taken? ∧ Inv setup t ∧
      ∃ taken, t.device = .reading taken := by
  obtain ⟨n, htoHost, hhost⟩ := h.host
  obtain ⟨host, toHost, device⟩ := s
  cases device with
  | reading taken => cases ht
  | task first origin run => cases ht
  | pushing taken =>
      simp only [step, UsbMain.push, announcement_eq, Option.bind_eq_bind, Option.bind_some] at ht
      obtain rfl := Option.some.inj ht
      refine ⟨rfl, rfl, ⟨⟨n + 1, ?_, ?_⟩, h.isMessage, h.taken_le⟩, taken, rfl⟩
      · rw [stream_announced_succ, ← htoHost]
      · have hsucc : announced setup (n + 1) = announced setup n ++ announced setup 1 :=
          List.replicate_add n 1 _
        rw [hsucc]
        exact hhost.append _

/-- A read of the device ends its loop, lets it go on, or belongs to the task. -/
theorem read_cases {count : ℕ} (ht : step setup s (.read count) = some t) :
    t.host = s.host ∧ t.toHost = s.toHost ∧
      ((∃ taken, s.device = .reading taken ∧ taken + count ≤ s.line.bytes.length ∧
          ((0 < count ∧ (s.line.bytes.drop taken).head? = some MessageId.startHost ∧
              t.device = .task taken (taken + count) (.start setup.jtagContents)) ∨
            (¬ (0 < count ∧ (s.line.bytes.drop taken).head? = some MessageId.startHost) ∧
              t.device = .pushing (taken + count)))) ∨
        ∃ first origin run run', s.device = .task first origin run ∧
          t.device = .task first origin run') := by
  obtain ⟨device, hread, rfl⟩ := Option.map_eq_some_iff.mp ht
  refine ⟨rfl, rfl, ?_⟩
  cases hs : s.device with
  | pushing taken =>
      rw [hs] at hread
      cases hread
  | reading taken =>
      rw [hs] at hread
      obtain ⟨hle, hcases⟩ := UsbMain.read_reading hread
      exact Or.inl ⟨taken, rfl, hle, hcases⟩
  | task first origin run =>
      rw [hs] at hread
      obtain ⟨run', -, rfl⟩ := Option.map_eq_some_iff.mp hread
      exact Or.inr ⟨first, origin, run, run', rfl, rfl⟩

/-- Every event keeps the invariant. -/
theorem inv_step (s : Link) (e : Event) (t : Link) (h : Inv setup s)
    (ht : step setup s e = some t) : Inv setup t := by
  cases e with
  | host e => exact (h.host_step ht).2.1
  | push => exact (h.push_step ht).2.2.1
  | read count =>
      obtain ⟨hhost, htoHost, hdevice⟩ := read_cases ht
      have hline := line_congr hhost
      refine ⟨?_, ?_, fun taken htaken => ?_⟩
      · rw [hhost, htoHost]
        exact h.host
      · rw [hline]
        exact h.isMessage
      · rw [hline]
        rcases hdevice with ⟨first, -, hle, ⟨-, -, ht⟩ | ⟨-, ht⟩⟩ | ⟨_, _, _, _, -, ht⟩
        · simp only [taken?, ht, reduceCtorEq] at htaken
        · simp only [taken?, ht, Option.some.injEq] at htaken
          exact htaken ▸ hle
        · simp only [taken?, ht, reduceCtorEq] at htaken

/-- At first nothing has been sent. -/
theorem inv_start (setup : Setup) : Inv setup (start setup) where
  host := ⟨0, rfl, HostRun.inv_start _ _ _ _ _ _⟩
  isMessage _ hp := absurd hp List.not_mem_nil
  taken_le _ htaken := (Option.some.inj htaken).ge

/-! ## The answer is not lost -/

/-- If the daemon answers now, it answers behind everything it has written so far. -/
theorem Inv.exists_answer {new : SerialLine} (h : Inv setup s) (ht : Inv setup t)
    (hline : t.line = s.line ++ new) (hnot : s.host.device.requestedStart = false)
    (hrequested : t.host.device.requestedStart = true) :
    ∃ n, s.line.bytes.length ≤ n ∧ t.line.AnswerAt n := by
  have hone := ht.answers
  rw [hline, List.map_append, List.filter_append, List.length_append, h.answers, hnot,
    hrequested] at hone
  have hpos : 0 < ((new.map PacketBuffer.buffer).filter (· = startHost)).length := by
    rw [Bool.toNat_false, Nat.zero_add] at hone
    exact hone ▸ Nat.one_pos
  obtain ⟨bytes, hbytes⟩ := List.exists_mem_of_length_pos hpos
  -- the one answer is among the packets written now
  obtain ⟨hmem, hanswer⟩ := List.mem_filter.mp hbytes
  obtain ⟨p, hp, rfl⟩ := List.mem_map.mp hmem
  rw [hline]
  exact exists_answerAt hp (of_decide_eq_true hanswer) s.line

/-- A step that meets `SeesAnswer` loses no answer. -/
theorem notStuck_step {e : Event} (h : Inv setup s) (hs : NotStuck s) (hsees : SeesAnswer s e)
    (ht : step setup s e = some t) : NotStuck t := by
  intro hrequested taken htaken
  cases e with
  | host e =>
      obtain ⟨hdevice, hinv, new, hline, -⟩ := h.host_step ht
      have hsame : s.taken? = some taken := by
        rw [← htaken, taken?, taken?, hdevice]
      by_cases hbefore : s.host.device.requestedStart = true
      · obtain ⟨n, hle, hn⟩ := hs hbefore taken hsame
        exact ⟨n, hle, hline ▸ hn.append new⟩
      -- the answer is behind all that the loop can have read
      · obtain ⟨n, hle, hn⟩ :=
          h.exists_answer hinv hline (Bool.eq_false_iff.mpr hbefore) hrequested
        exact ⟨n, (h.taken_le taken hsame).trans hle, hn⟩
  | push =>
      obtain ⟨hhost, hsame, -, -⟩ := h.push_step ht
      have hline := line_congr hhost
      rw [hline]
      exact hs (hhost ▸ hrequested) taken (hsame ▸ htaken)
  | read count =>
      obtain ⟨hhost, -, hdevice⟩ := read_cases ht
      have hline := line_congr hhost
      rw [hhost] at hrequested
      rw [hline]
      rcases hdevice with ⟨first, hs', hle, ⟨-, -, ht'⟩ | ⟨hnot, ht'⟩⟩ | ⟨_, _, _, _, -, ht'⟩
      · simp only [taken?, ht', reduceCtorEq] at htaken
      · simp only [taken?, ht', Option.some.injEq] at htaken
        have hfirst : s.taken? = some first := by
          rw [taken?, hs']
        obtain ⟨n, hn, hanswer⟩ := hs hrequested first hfirst
        refine ⟨n, ?_, hanswer⟩
        -- a read that takes the answer ends the loop
        by_contra hlt
        exact hnot ⟨by omega, hsees first n hs' hanswer hn (by omega)⟩
      · simp only [taken?, ht', reduceCtorEq] at htaken

/-- A step after which the answer is not lost meets `SeesAnswer`. -/
theorem seesAnswer_of_notStuck {e : Event} (h : Inv setup s) (ht : step setup s e = some t)
    (hnotStuck : NotStuck t) : SeesAnswer s e := by
  cases e with
  | host e => trivial
  | push => trivial
  | read count =>
      intro taken n hs hanswer hn hlt
      obtain ⟨hhost, -, hdevice⟩ := read_cases ht
      have hline := line_congr hhost
      rcases hdevice with ⟨first, hs', -, ⟨-, hhead, -⟩ | ⟨-, ht'⟩⟩ | ⟨_, _, _, _, hs', -⟩
      · obtain rfl := UsbMain.reading.inj (hs.symm.trans hs')
        exact hhead
      · obtain rfl := UsbMain.reading.inj (hs.symm.trans hs')
        -- the loop goes on behind the answer, and there is no other
        have hrequested : t.host.device.requestedStart = true := by
          rw [hhost]
          exact h.requestedStart hanswer
        have htaken : t.taken? = some (taken + count) := by
          rw [taken?, ht']
        obtain ⟨m, hle, hm⟩ := hnotStuck hrequested (taken + count) htaken
        rw [hline] at hm
        have hone := h.answers ▸ Bool.toNat_le s.host.device.requestedStart
        have heq : n = m := hanswer.unique hm hone
        omega
      · rw [hs] at hs'
        cases hs'

/-- In every interleaving of the daemon and the device, the answer is on the line as long as the
device waits for it iff every read of the handshake loop that takes the answer begins with the id of
`START_HOST`. -/
theorem notStuck_iff (setup : Setup) (es : List Event) :
    Always (step setup) NotStuck (start setup) es ↔
      EachStep (step setup) SeesAnswer (start setup) es := by
  refine always_iff_eachStep (fun s => Inv setup s ∧ NotStuck s) ?_ (fun s h => h.2) ?_
    ⟨inv_start setup, fun h => absurd h Bool.false_ne_true⟩ es
  · rintro s e t ⟨hinv, hs⟩ hsees ht
    exact ⟨inv_step s e t hinv ht, notStuck_step hinv hs hsees ht⟩
  · rintro s e t ⟨hinv, -⟩ ht hnotStuck
    exact seesAnswer_of_notStuck hinv ht hnotStuck

/-- A frame is forwarded before the answer, and one read takes both: the loop goes on, and there
will be no other answer. -/
theorem notStuck_fails :
    let frame : PacketBuffer 512 := ⟨.replicate 12 2 ++ [0x88, 0xb5, 7], by decide⟩
    ¬ Always (step .zeroed) NotStuck (start .zeroed)
      [.host (.tunRead frame), .host .serialWritten, .push, .host (.serialRead 34),
        .host .serialWritten, .read 13] := by
  intro frame h
  have hrun : (run (step .zeroed) (start .zeroed)
      [.host (.tunRead frame), .host .serialWritten, .push, .host (.serialRead 34),
        .host .serialWritten, .read 13]).map
          (fun s => (s.host.device.requestedStart, s.taken?, s.line.bytes.length)) =
            some (true, some 13, 13) := by
    decide +kernel
  obtain ⟨t, hstate, hnotStuck⟩ := h.exists_last hrun
  simp only [Prod.mk.injEq] at hstate
  obtain ⟨hrequested, htaken, hlength⟩ := hstate
  obtain ⟨n, hle, hn⟩ := hnotStuck hrequested 13 htaken
  have hlt := hn.lt_length
  omega

/-! ## The loop ends at the answer -/

/-- A step that meets `NotMistaken` takes nothing else for the answer. -/
theorem agreed_step {e : Event} (h : Inv setup s) (hs : Agreed s) (hnot : NotMistaken s e)
    (ht : step setup s e = some t) : Agreed t := by
  intro first origin run hrun
  cases e with
  | host e =>
      obtain ⟨hdevice, -, new, hline, -⟩ := h.host_step ht
      rw [hline]
      exact (hs first origin run (hdevice ▸ hrun)).append new
  | push =>
      obtain ⟨-, -, -, taken, hdevice⟩ := h.push_step ht
      rw [hdevice] at hrun
      cases hrun
  | read count =>
      obtain ⟨hhost, -, hdevice⟩ := read_cases ht
      have hline := line_congr hhost
      rw [hline]
      rcases hdevice with ⟨taken, hs', hle, ⟨hpos, hhead, ht'⟩ | ⟨-, ht'⟩⟩ | ⟨_, _, _, _, hs', ht'⟩
      -- the loop ends here: the read began at a message, and that message is the answer
      · obtain ⟨rfl, -, -⟩ := UsbMain.task.inj (ht'.symm.trans hrun)
        refine answerAt_of_head? h.isMessage (by omega) (fun hmid => ?_) hhead
        exact hnot taken hs' hpos hmid hhead
      · rw [ht'] at hrun
        cases hrun
      · obtain ⟨rfl, -, -⟩ := UsbMain.task.inj (ht'.symm.trans hrun)
        exact hs _ _ _ hs'

/-- A step after which the loop has ended at nothing but the answer meets `NotMistaken`. -/
theorem notMistaken_of_agreed {e : Event} (ht : step setup s e = some t) (hagreed : Agreed t) :
    NotMistaken s e := by
  cases e with
  | host e => trivial
  | push => trivial
  | read count =>
      intro taken hs hpos hmid hhead
      obtain ⟨hhost, -, hdevice⟩ := read_cases ht
      have hline := line_congr hhost
      rcases hdevice with ⟨first, hs', -, ⟨-, -, ht'⟩ | ⟨hnot, -⟩⟩ | ⟨_, _, _, _, hs', -⟩
      · obtain rfl := UsbMain.reading.inj (hs.symm.trans hs')
        exact (hline ▸ hagreed _ _ _ ht').not_midMessage hmid
      · obtain rfl := UsbMain.reading.inj (hs.symm.trans hs')
        exact hnot ⟨hpos, hhead⟩
      · rw [hs] at hs'
        cases hs'

/-- In every interleaving of the daemon and the device, the handshake loop ends at the answer only
iff no read of the loop that begins inside a message begins with the id of `START_HOST`. -/
theorem agreed_iff (setup : Setup) (es : List Event) :
    Always (step setup) Agreed (start setup) es ↔
      EachStep (step setup) NotMistaken (start setup) es := by
  refine always_iff_eachStep (fun s => Inv setup s ∧ Agreed s) ?_ (fun s h => h.2) ?_
    ⟨inv_start setup, fun _ _ _ h => ?_⟩ es
  · rintro s e t ⟨hinv, hs⟩ hnot ht
    exact ⟨inv_step s e t hinv ht, agreed_step hinv hs hnot ht⟩
  · rintro s e t - ht hagreed
    exact notMistaken_of_agreed ht hagreed
  · cases h

/-- A frame to `01:00:5e:00:00:01` is forwarded before the handshake. The first read returns one
byte of it, and the second one begins with the destination. -/
theorem agreed_fails :
    let frame : PacketBuffer 512 :=
      ⟨[1, 0, 0x5e, 0, 0, 1] ++ .replicate 6 2 ++ [0x88, 0xb5, 7], by decide⟩
    ¬ Always (step .zeroed) Agreed (start .zeroed)
      [.host (.tunRead frame), .host .serialWritten, .push, .read 1, .push, .read 1] := by
  intro frame h
  have hrun : (run (step .zeroed) (start .zeroed)
      [.host (.tunRead frame), .host .serialWritten, .push, .read 1, .push, .read 1]).map
        (fun s => (s.host.device.requestedStart, s.taken?)) = some (false, none) := by
    decide +kernel
  obtain ⟨t, ht, hstate⟩ := Option.map_eq_some_iff.mp hrun
  simp only [Prod.mk.injEq] at hstate
  obtain ⟨hrequested, htaken⟩ := hstate
  have hinv : Inv .zeroed t := run_invariant inv_step (inv_start .zeroed) ht
  cases hdevice : t.device with
  | pushing taken => simp only [taken?, hdevice, reduceCtorEq] at htaken
  | reading taken => simp only [taken?, hdevice, reduceCtorEq] at htaken
  | task first origin run =>
      -- the loop has ended, and the daemon has not answered
      have hanswer := hinv.requestedStart (Always.last h ht first origin run hdevice)
      rw [hrequested] at hanswer
      cases hanswer

end Link
