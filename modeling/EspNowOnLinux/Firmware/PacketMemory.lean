import EspNowOnLinux.Firmware.PacketDelivery
import EspNowOnLinux.Lib.Memory

/-!
# The packet pool in memory

`packets` as it lies in memory: 15 slots of 262 bytes, packed, one behind the other. The receive
callback compares the length of a payload with 0 only, and ESP-NOW V2, which the firmware announces
where it has it, delivers up to 1470 bytes; what does not fit in the slot is copied to the slots
behind it, or to what lies behind the array.

## Main results

* `exampleEspnowRecvCb_simulates`: with a payload of at most 250 bytes, the callback in memory does
  what the pool of slots does in the steps of a callback;
* `slotOnly_iff`: the callback keeps to its slot, and records as many bytes as the slot holds, iff
  no slot is free or the payload has at most 250 bytes.
-/

open Bytes Memory Messages StateMachine

/-- The object representation of a slot. -/
def OccupiedPacket.bytes (o : ByteOrder) (p : OccupiedPacket) : List UInt8 :=
  [if p.isFree then 1 else 0] ++ p.data.bytes o

namespace PoolMemory

/-- `sizeof(occupied_packet)`. -/
def slotSize : ℕ := 262

/-- The address of a slot of the array at `base`. -/
def slotAddress (base : ℕ) (i : Fin 15) : ℕ := base + slotSize * i

/-- What the callback writes to the slot at `it`, member by member. -/
def fill (o : ByteOrder) (mem : ℕ → UInt8) (it : ℕ) (call : EspNowCall) : ℕ → UInt8 :=
  let mem := memcpy mem it [0]
  let mem := memcpy mem (it + 2) call.srcAddr.toList
  let mem := memcpy mem (it + 8) (storeUInt32 o (UInt32.ofNat call.data.length))
  memcpy mem (it + 12) call.data

/-- `example_espnow_recv_cb` with the array at `base`: memory after it, and the slot whose number it
sends to the queue. A flag is set iff its byte is not 0. -/
def exampleEspnowRecvCb (o : ByteOrder) (base : ℕ) (mem : ℕ → UInt8) (call : EspNowCall) :
    (ℕ → UInt8) × Option (Fin 15) :=
  -- `len <= 0`
  if call.data = [] then (mem, none)
  else
    match (List.finRange 15).find? fun i => mem (slotAddress base i) ≠ 0 with
    | some i => (fill o mem (slotAddress base i) call, some i)
    | none => (mem, none)

/-! ## Addresses -/

/-- Slots do not overlap. -/
theorem slotAddress_disjoint (base : ℕ) {i j : Fin 15} (h : j ≠ i) :
    slotAddress base j + slotSize ≤ slotAddress base i ∨
      slotAddress base i + slotSize ≤ slotAddress base j := by
  have hne : (j : ℕ) ≠ i := fun heq => h (Fin.ext heq)
  simp only [slotAddress, slotSize]
  omega

section Fill

variable (o : ByteOrder) (mem : ℕ → UInt8) {it a n : ℕ} {call : EspNowCall}

/-- With a payload that the slot has room for, only the slot is written to. -/
theorem fill_of_outside (hlen : call.data.length ≤ 250) (h : a < it ∨ it + slotSize ≤ a) :
    fill o mem it call a = mem a := by
  have hmac : call.srcAddr.toList.length = 6 := call.srcAddr.toList_length
  have hsize : (storeUInt32 o (UInt32.ofNat call.data.length)).length = 4 :=
    length_storeUInt32 o _
  simp only [slotSize] at h
  -- the payload was copied last, so it is peeled off first
  rw [fill, memcpy_of_outside (by omega), memcpy_of_outside (by omega),
    memcpy_of_outside (by omega), memcpy_of_outside (by rw [List.length_singleton]; omega)]

/-- So the other slots keep their bytes. -/
theorem fill_otherSlot (base : ℕ) {i j : Fin 15} (hlen : call.data.length ≤ 250) (hj : j ≠ i)
    {k : ℕ} (hk : k < slotSize) :
    fill o mem (slotAddress base i) call (slotAddress base j + k) =
      mem (slotAddress base j + k) := by
  refine fill_of_outside o mem hlen ?_
  rcases slotAddress_disjoint base hj with hbefore | hbehind
  · exact Or.inl (by omega)
  · exact Or.inr (by omega)

/-- The length that is recorded, whatever its payload. -/
theorem read_fill_payloadSize :
    read (fill o mem it call) (it + 8) 4 = storeUInt32 o (UInt32.ofNat call.data.length) := by
  have hself := read_memcpy_self
    (memcpy (memcpy mem it [0]) (it + 2) call.srcAddr.toList) (it + 8)
    (storeUInt32 o (UInt32.ofNat call.data.length))
  rw [length_storeUInt32] at hself
  rw [fill, read_memcpy_of_disjoint (by omega), hself]

/-- The payload can be read back, from as many bytes as were copied. -/
theorem read_fill_payload :
    read (fill o mem it call) (it + 12) call.data.length = call.data :=
  read_memcpy_self _ _ _

end Fill

/-! ## The pool of slots -/

/-- The object at `it` is this slot. -/
def Represents (o : ByteOrder) (mem : ℕ → UInt8) (it : ℕ) (p : OccupiedPacket) : Prop :=
  read mem it slotSize = p.bytes o

/-- A slot after the assignments of a callback. -/
def filled (p : OccupiedPacket) (call : EspNowCall) : OccupiedPacket where
  isFree := false
  data := { p.data with
    srcMac := call.srcAddr
    payloadSize := UInt32.ofNat call.data.length
    payload := ⟨overwrite p.data.payload.toList 0 call.data, by simp⟩ }

section Members

variable (o : ByteOrder) (p : OccupiedPacket)

/-- The members of a slot, one behind the other. -/
theorem bytes_eq : p.bytes o = [if p.isFree then 1 else 0] ++ ([p.data.id] ++
    (p.data.srcMac.toList ++ (storeUInt32 o p.data.payloadSize ++ p.data.payload.toList))) := by
  simp only [OccupiedPacket.bytes, PoolPacket.bytes, packetBytes, List.append_assoc]

theorem overwrite_isFree :
    overwrite (p.bytes o) 0 [0] = ({ p with isFree := false } : OccupiedPacket).bytes o := by
  rw [bytes_eq, bytes_eq, overwrite_append_left _ le_rfl]
  rfl

theorem overwrite_srcMac (mac : MacAddress) :
    overwrite (p.bytes o) 2 mac.toList =
      ({ p with data.srcMac := mac } : OccupiedPacket).bytes o := by
  rw [bytes_eq, bytes_eq]
  refine overwrite_member ([_] ++ [p.data.id]) _ rfl ?_
  rw [mac.toList_length, p.data.srcMac.toList_length]

theorem overwrite_payloadSize (n : UInt32) :
    overwrite (p.bytes o) 8 (storeUInt32 o n) =
      ({ p with data.payloadSize := n } : OccupiedPacket).bytes o := by
  have hfront :
      ([if p.isFree then 1 else 0] ++ [p.data.id] ++ p.data.srcMac.toList).length = 8 := by
    rw [List.length_append, p.data.srcMac.toList_length]; rfl
  rw [bytes_eq, bytes_eq]
  have h := overwrite_member _ p.data.payload.toList hfront
    (show (storeUInt32 o n).length = (storeUInt32 o p.data.payloadSize).length by
      rw [length_storeUInt32, length_storeUInt32])
  simpa only [List.append_assoc] using h

/-- The payload is the last member, and a copy to it may leave some of it. -/
theorem overwrite_payload (bs : List UInt8) :
    overwrite (p.bytes o) 12 bs =
      ({ p with
        data.payload := ⟨overwrite p.data.payload.toList 0 bs, by simp⟩ } :
        OccupiedPacket).bytes o := by
  have hfront : ([if p.isFree then 1 else 0] ++ [p.data.id] ++ p.data.srcMac.toList ++
      storeUInt32 o p.data.payloadSize).length = 12 := by
    rw [List.length_append, List.length_append, p.data.srcMac.toList_length, length_storeUInt32]
    rfl
  have h := overwrite_append_right ([if p.isFree then 1 else 0] ++ [p.data.id] ++
    p.data.srcMac.toList ++ storeUInt32 o p.data.payloadSize) p.data.payload.toList 0 bs
  rw [hfront, Nat.add_zero] at h
  rw [bytes_eq, bytes_eq]
  simpa only [List.append_assoc, List.Vector.toList_mk] using h

end Members

section Represents

variable {o : ByteOrder} {mem : ℕ → UInt8} {it : ℕ} {p q : OccupiedPacket}

/-- The flag of a slot is its first byte. -/
theorem Represents.isFree_iff (h : Represents o mem it p) : mem it ≠ 0 ↔ p.isFree = true := by
  have hflag : mem it = if p.isFree then 1 else 0 := by
    have hread := h
    rw [Represents, show slotSize = 1 + 261 from rfl, read_add] at hread
    exact List.head_eq_of_cons_eq hread
  rw [hflag]
  cases p.isFree <;> decide

/-- A copy within the slot. -/
theorem Represents.memcpy (h : Represents o mem it p) {off : ℕ} {bs : List UInt8}
    (hfits : off + bs.length ≤ slotSize) (hq : overwrite (p.bytes o) off bs = q.bytes o) :
    Represents o (memcpy mem (it + off) bs) it q := by
  rw [Represents, read_memcpy mem it off bs hfits, show read mem it slotSize = _ from h, hq]

/-- A slot whose bytes are left as they are. -/
theorem Represents.congr (h : Represents o mem it p) {mem' : ℕ → UInt8}
    (hsame : ∀ i < slotSize, mem' (it + i) = mem (it + i)) : Represents o mem' it p :=
  (read_congr hsame).trans h

/-- The assignments of a callback whose payload the slot has room for. -/
theorem Represents.fill (h : Represents o mem it p) {call : EspNowCall}
    (hlen : call.data.length ≤ 250) :
    Represents o (PoolMemory.fill o mem it call) it (filled p call) := by
  have hmac : 2 + call.srcAddr.toList.length ≤ slotSize := by
    rw [call.srcAddr.toList_length]; decide
  have hsize : 8 + (storeUInt32 o (UInt32.ofNat call.data.length)).length ≤ slotSize := by
    rw [length_storeUInt32]; decide
  have hpayload : 12 + call.data.length ≤ slotSize := by
    rw [slotSize]; omega
  -- one copy after the other, each of them an assignment to a member
  have hflag := h.memcpy (show 0 + [(0 : UInt8)].length ≤ slotSize by decide)
    (overwrite_isFree o p)
  exact ((hflag.memcpy hmac (overwrite_srcMac o _ call.srcAddr)).memcpy hsize
    (overwrite_payloadSize o _ _)).memcpy hpayload (overwrite_payload o _ _)

end Represents

/-- What the callback did, if it found a slot. -/
theorem exampleEspnowRecvCb_some {o : ByteOrder} {base : ℕ} {mem : ℕ → UInt8} {call : EspNowCall}
    {i : Fin 15} (h : (exampleEspnowRecvCb o base mem call).2 = some i) :
    call.data ≠ [] ∧
      ((List.finRange 15).find? fun i => mem (slotAddress base i) ≠ 0) = some i ∧
      exampleEspnowRecvCb o base mem call = (fill o mem (slotAddress base i) call, some i) := by
  unfold exampleEspnowRecvCb at h ⊢
  split at h
  · cases h
  · next hdata =>
    rw [if_neg hdata]
    split at h
    · next j hfind =>
      obtain rfl := Option.some.inj h
      exact ⟨hdata, hfind, rfl⟩
    · cases h

/-- The assignments of a callback that runs alone, in the pool. -/
theorem run_callbackStep (o : ByteOrder) {s : PacketPool} {call : EspNowCall} {i : Fin 15}
    (hreceive : s.receive call = some { s with callback := some ⟨i, call, .chosen⟩ })
    (hlen : call.data.length ≤ 250) :
    run (PacketPool.step o) s [.received call, .callback, .callback, .callback, .callback] =
      some { s with
        packets := Function.update s.packets i (filled (s.packets i) call)
        callback := some ⟨i, call, .payloadFilled⟩ } := by
  let chosen : PacketPool := { s with callback := some ⟨i, call, .chosen⟩ }
  let marked := chosen.advance ⟨i, call, .chosen⟩ .marked fun p => { p with isFree := false }
  let macFilled := marked.advance ⟨i, call, .marked⟩ .macFilled fun p =>
    { p with data.srcMac := call.srcAddr }
  let sizeFilled := macFilled.advance ⟨i, call, .macFilled⟩ .sizeFilled fun p =>
    { p with data.payloadSize := UInt32.ofNat call.data.length }
  let payloadFilled := sizeFilled.advance ⟨i, call, .sizeFilled⟩ .payloadFilled fun p =>
    { p with data.payload := ⟨overwrite p.data.payload.toList 0 call.data, by simp⟩ }
  have hchosen : PacketPool.step o s (.received call) = some chosen := hreceive
  have hmarked : PacketPool.step o chosen .callback = some marked := rfl
  have hmac : PacketPool.step o marked .callback = some macFilled := rfl
  have hsize : PacketPool.step o macFilled .callback = some sizeFilled := rfl
  have hpayload : PacketPool.step o sizeFilled .callback = some payloadFilled := if_pos hlen
  -- the four assignments to the slot are one
  have hpackets : payloadFilled.packets =
      Function.update s.packets i (filled (s.packets i) call) := by
    simp only [payloadFilled, sizeFilled, macFilled, marked, chosen, PacketPool.advance,
      PacketPool.modify, Function.update_idem, Function.update_self]
    rfl
  have hrun : run (PacketPool.step o) s
      [.received call, .callback, .callback, .callback, .callback] = some payloadFilled :=
    run_cons_eq_some.mpr ⟨chosen, hchosen, run_cons_eq_some.mpr ⟨marked, hmarked,
      run_cons_eq_some.mpr ⟨macFilled, hmac, run_cons_eq_some.mpr ⟨sizeFilled, hsize,
        run_cons_eq_some.mpr ⟨payloadFilled, hpayload, rfl⟩⟩⟩⟩⟩
  rw [hrun, ← hpackets]
  rfl

/-- With a payload of at most 250 bytes, the callback in memory does to the array what the steps of
a callback that runs alone do to the pool of slots. -/
theorem exampleEspnowRecvCb_simulates {o : ByteOrder} {base : ℕ} {mem : ℕ → UInt8} {s : PacketPool}
    {call : EspNowCall} (hidle : s.callback = none)
    (hrepresents : ∀ i, Represents o mem (slotAddress base i) (s.packets i))
    (hlen : call.data.length ≤ 250) {i : Fin 15}
    (hi : (exampleEspnowRecvCb o base mem call).2 = some i) :
    ∃ t, run (PacketPool.step o) s
        [.received call, .callback, .callback, .callback, .callback] = some t ∧
      t.callback = some ⟨i, call, .payloadFilled⟩ ∧
      ∀ j, Represents o (exampleEspnowRecvCb o base mem call).1 (slotAddress base j)
        (t.packets j) := by
  obtain ⟨hdata, hfind, heq⟩ := exampleEspnowRecvCb_some hi
  -- the callback in memory and that of the pool find the same slot
  have hfree : (fun j => decide (mem (slotAddress base j) ≠ 0)) =
      fun j => (s.packets j).isFree := by
    funext j
    rw [Bool.eq_iff_iff, decide_eq_true_iff]
    exact (hrepresents j).isFree_iff
  rw [hfree] at hfind
  have hreceive : s.receive call = some { s with callback := some ⟨i, call, .chosen⟩ } := by
    simp only [PacketPool.receive, hidle, if_neg hdata, hfind]
  refine ⟨_, run_callbackStep o hreceive hlen, rfl, fun j => ?_⟩
  rw [heq]
  show Represents o _ _ (Function.update s.packets i (filled (s.packets i) call) j)
  by_cases hj : j = i
  · subst hj
    rw [Function.update_self]
    exact (hrepresents j).fill hlen
  · rw [Function.update_of_ne hj]
    exact (hrepresents j).congr fun k hk => fill_otherSlot o mem base hlen hj hk

/-! ## The callback and its slot -/

/-- `payload_size` of the slot at `it`. -/
def recordedSize (o : ByteOrder) (mem : ℕ → UInt8) (it : ℕ) : ℕ :=
  (loadUInt32 o (read mem (it + 8) 4)).toNat

/-- The array `payload` of the slot at `it`. -/
def payloadArray (mem : ℕ → UInt8) (it : ℕ) : List UInt8 := read mem (it + 12) 250

/-- The callback writes to the slot that it has chosen and to nothing else, and what it records as
the length of the payload is how many bytes of it the slot holds. -/
structure SlotOnly (o : ByteOrder) (base : ℕ) (mem : ℕ → UInt8) (call : EspNowCall) : Prop where
  noSlot : (exampleEspnowRecvCb o base mem call).2 = none →
    (exampleEspnowRecvCb o base mem call).1 = mem
  frame : ∀ i, (exampleEspnowRecvCb o base mem call).2 = some i →
    ∀ a, a < slotAddress base i ∨ slotAddress base i + slotSize ≤ a →
      (exampleEspnowRecvCb o base mem call).1 a = mem a
  otherSlots : ∀ i, (exampleEspnowRecvCb o base mem call).2 = some i → ∀ j, j ≠ i →
    read (exampleEspnowRecvCb o base mem call).1 (slotAddress base j) slotSize =
      read mem (slotAddress base j) slotSize
  recorded : ∀ i, (exampleEspnowRecvCb o base mem call).2 = some i →
    recordedSize o (exampleEspnowRecvCb o base mem call).1 (slotAddress base i) =
        call.data.length ∧
      (payloadArray (exampleEspnowRecvCb o base mem call).1 (slotAddress base i)).take
        call.data.length = call.data

section SlotOnly

variable {o : ByteOrder} {base : ℕ} {mem : ℕ → UInt8} {call : EspNowCall}

/-- Without a slot nothing is written. -/
theorem exampleEspnowRecvCb_none (h : (exampleEspnowRecvCb o base mem call).2 = none) :
    (exampleEspnowRecvCb o base mem call).1 = mem := by
  unfold exampleEspnowRecvCb at h ⊢
  split
  · rfl
  · next hdata =>
    rw [if_neg hdata] at h
    split
    · next i hfind =>
      rw [hfind] at h
      cases h
    · rfl

variable (o call) in
/-- No slot is chosen where no flag is set. -/
theorem exampleEspnowRecvCb_eq_none (h : ∀ i, mem (slotAddress base i) = 0) :
    (exampleEspnowRecvCb o base mem call).2 = none := by
  cases hi : (exampleEspnowRecvCb o base mem call).2 with
  | none => rfl
  | some i =>
      obtain ⟨-, hfind, -⟩ := exampleEspnowRecvCb_some hi
      have hset := List.find?_some hfind
      exact absurd (h i) (of_decide_eq_true hset)

variable (o) in
/-- Where one is set, a payload gets a slot. -/
theorem exists_exampleEspnowRecvCb (hdata : call.data ≠ []) {i : Fin 15}
    (h : mem (slotAddress base i) ≠ 0) : ∃ j, (exampleEspnowRecvCb o base mem call).2 = some j := by
  obtain ⟨j, hfind⟩ : ∃ j, ((List.finRange 15).find? fun i => mem (slotAddress base i) ≠ 0) =
      some j :=
    Option.isSome_iff_exists.mp
      (List.find?_isSome.mpr ⟨i, List.mem_finRange i, decide_eq_true h⟩)
  refine ⟨j, ?_⟩
  rw [exampleEspnowRecvCb, if_neg hdata, hfind]

/-- A payload that fits. -/
theorem slotOnly_of_le (hlen : call.data.length ≤ 250) : SlotOnly o base mem call where
  noSlot := exampleEspnowRecvCb_none
  frame i hi a ha := by
    rw [(exampleEspnowRecvCb_some hi).2.2]
    exact fill_of_outside o mem hlen ha
  otherSlots i hi j hj := by
    rw [(exampleEspnowRecvCb_some hi).2.2]
    exact read_congr fun k hk => fill_otherSlot o mem base hlen hj hk
  recorded i hi := by
    rw [(exampleEspnowRecvCb_some hi).2.2]
    constructor
    · rw [recordedSize, read_fill_payloadSize, loadUInt32_storeUInt32]
      exact UInt32.toNat_ofNat_of_lt' (show call.data.length < 2 ^ 32 by omega)
    · rw [payloadArray, take_read hlen, read_fill_payload]

/-- A slot holds no more than 250 bytes, so no more may be recorded. -/
theorem SlotOnly.length_le (h : SlotOnly o base mem call) {i : Fin 15}
    (hi : (exampleEspnowRecvCb o base mem call).2 = some i) : call.data.length ≤ 250 := by
  obtain ⟨-, hpayload⟩ := h.recorded i hi
  rw [← hpayload, List.length_take, payloadArray, length_read]
  exact Nat.min_le_right _ 250

end SlotOnly

/-- In every state of memory and for every payload: the callback keeps to its slot, and records as
many bytes as the slot holds, iff no slot is free or the payload has at most 250 bytes. -/
theorem slotOnly_iff (o : ByteOrder) (base : ℕ) (mem : ℕ → UInt8) (call : EspNowCall) :
    SlotOnly o base mem call ↔
      (∀ i, mem (slotAddress base i) = 0) ∨ call.data.length ≤ 250 := by
  constructor
  · intro h
    by_cases hdata : call.data = []
    · rw [hdata]
      exact Or.inr (Nat.zero_le 250)
    by_cases hfree : ∀ i, mem (slotAddress base i) = 0
    · exact Or.inl hfree
    -- a slot is chosen, and holds what is recorded
    · obtain ⟨i, hi⟩ := not_forall.mp hfree
      obtain ⟨j, hj⟩ := exists_exampleEspnowRecvCb o hdata hi
      exact Or.inr (h.length_le hj)
  · rintro (hused | hlen)
    · have hnone := exampleEspnowRecvCb_eq_none o call hused
      refine ⟨exampleEspnowRecvCb_none, fun i hi => ?_, fun i hi => ?_, fun i hi => ?_⟩
      all_goals exact absurd (hnone.symm.trans hi) (Option.some_ne_none i).symm
    · exact slotOnly_of_le hlen

/-- A payload of 251 bytes: its last byte is written over the flag of the next slot, which is used
and then counts as free. -/
theorem slotOnly_fails :
    let mem : ℕ → UInt8 := fun a => if a = slotAddress 0 0 then 1 else 0
    let call : EspNowCall := ⟨.replicate 6 7, List.replicate 251 1⟩
    (exampleEspnowRecvCb .little 0 mem call).2 = some 0 ∧
      mem (slotAddress 0 1) = 0 ∧
      (exampleEspnowRecvCb .little 0 mem call).1 (slotAddress 0 1) = 1 ∧
      ¬ SlotOnly .little 0 mem call := by
  intro mem call
  have hslot : (exampleEspnowRecvCb .little 0 mem call).2 = some 0 := by decide +kernel
  refine ⟨hslot, rfl, by decide +kernel, fun h => ?_⟩
  have hlen := h.length_le hslot
  rw [show call.data.length = 251 from List.length_replicate] at hlen
  exact absurd hlen (by decide)

end PoolMemory
