import MctpRouter.Basic

/-!
# Packet buffers and the port queue

The producer side of a port (`PortTop`) and the slots it fills in place.

* `PktBuf`, `PktBuf.set`: a slot and its copy of a whole packet; the slot keeps `len ≤ MAX_MTU`.
* `Channel`: the zero-copy SPSC ring of `embassy_sync`, as the list of committed slots and the
  list of free slots in the order the ring hands them out.
* `PortTop.forwardPacket` and `PortBuilder.build`; **`forwardPacket_eq`** says what a forward
  does for every packet and queue.

`Reassembler::header` lives outside `router.rs`; every definition here takes it as the
parameter `header`.
-/

namespace MctpRouter

/-- The fields of an MCTP header the router reads. -/
structure Header where
  source : Eid
  dest : Eid
deriving DecidableEq, Repr

/-- Modelled from the spec: `Reassembler::header`, on the 4-byte MCTP transport header (header
version 1 in the low nibble of byte 0, then the destination and source EIDs and the flags). -/
def mctpHeader (pkt : List UInt8) : Except Error Header :=
  match pkt with
  | v :: dest :: src :: _ :: _ =>
    if v &&& 0x0f = 1 then .ok ⟨⟨src⟩, ⟨dest⟩⟩ else .error .invalidInput
  | _ => .error .invalidInput

variable {maxMtu : Nat}

/-- `PktBuf`: one slot of a port queue. `data` is the readable part `data[..len]`; the bytes
past `len` are stale and never read, so the model does not keep them. -/
structure PktBuf (maxMtu : Nat) where
  data : List UInt8
  dest : Eid
  len_le : data.length ≤ maxMtu
deriving DecidableEq

/-- `PktBuf::len`. -/
def PktBuf.len (b : PktBuf maxMtu) : Nat := b.data.length

/-- `PktBuf::new`. -/
def PktBuf.new : PktBuf maxMtu := ⟨[], ⟨0⟩, Nat.zero_le _⟩

/-- `PktBuf::set`: parse the header, copy the packet in if it fits, record its destination. -/
def PktBuf.set (header : List UInt8 → Except Error Header) (b : PktBuf maxMtu)
    (pkt : List UInt8) : Except Error (PktBuf maxMtu) :=
  match header pkt with
  | .error e => .error e
  | .ok hdr =>
    if h : pkt.length ≤ maxMtu then .ok { b with data := pkt, dest := hdr.dest, len_le := h }
    else .error .noSpace

theorem PktBuf.set_ok {header : List UInt8 → Except Error Header} {hdr : Header}
    (hh : header pkt = .ok hdr) (b : PktBuf maxMtu) (h : pkt.length ≤ maxMtu) :
    b.set header pkt = .ok ⟨pkt, hdr.dest, h⟩ := by
  simp [PktBuf.set, hh, h]

/-- The zero-copy channel of one port: `queued` the committed slots, oldest first; `free` the
others, in the order the ring hands them out. -/
structure Channel (maxMtu : Nat) where
  queued : List (PktBuf maxMtu)
  free : List (PktBuf maxMtu)
deriving DecidableEq

namespace Channel

/-- A channel over `PortStorage::new()`: `q` empty slots. -/
def new (q : Nat) : Channel maxMtu := ⟨[], List.replicate q .new⟩

/-- `Sender::try_send`: the next free slot, if the ring is not full. -/
def trySend (c : Channel maxMtu) : Option (PktBuf maxMtu) := c.free.head?

/-- `Sender::send_done`: commit the slot that `try_send` or `send` gave out, now holding `b`. -/
def sendDone (c : Channel maxMtu) (b : PktBuf maxMtu) : Channel maxMtu :=
  ⟨c.queued ++ [b], c.free.tail⟩

/-- `Receiver::try_receive`, behind `PortBottom::outbound`: peek at the oldest slot. -/
def tryReceive (c : Channel maxMtu) : Option (PktBuf maxMtu) := c.queued.head?

/-- `Receiver::receive_done`, behind `PortBottom::outbound_done`: free the oldest slot. -/
def receiveDone (c : Channel maxMtu) : Channel maxMtu :=
  ⟨c.queued.tail, c.free ++ c.queued.take 1⟩

/-- The number of slots. -/
def capacity (c : Channel maxMtu) : Nat := c.queued.length + c.free.length

@[simp] theorem sendDone_queued (c : Channel maxMtu) (b : PktBuf maxMtu) :
    (c.sendDone b).queued = c.queued ++ [b] := rfl

@[simp] theorem sendDone_free (c : Channel maxMtu) (b : PktBuf maxMtu) :
    (c.sendDone b).free = c.free.tail := rfl

@[simp] theorem receiveDone_queued (c : Channel maxMtu) : c.receiveDone.queued = c.queued.tail :=
  rfl

theorem trySend_eq_none {c : Channel maxMtu} : c.trySend = none ↔ c.free = [] :=
  List.head?_eq_none_iff

theorem capacity_sendDone {c : Channel maxMtu} (h : c.free ≠ []) (b : PktBuf maxMtu) :
    (c.sendDone b).capacity = c.capacity := by
  obtain ⟨x, xs, hx⟩ := List.exists_cons_of_ne_nil h
  simp [capacity, sendDone, hx]
  omega

theorem capacity_receiveDone (c : Channel maxMtu) : c.receiveDone.capacity = c.capacity := by
  cases c with
  | mk q f => cases q <;> simp [capacity, receiveDone]; omega

end Channel

/-- `PortTop`: the producer side of a port. Only `PortBuilder::build` makes one, and it
refuses an `mtu` above `MAX_MTU`, so the port carries `mtu ≤ maxMtu`. -/
structure PortTop (maxMtu : Nat) where
  packets : Channel maxMtu
  mtu : Nat
  mtu_le : mtu ≤ maxMtu

/-- `PortBuilder::build` on a `PortStorage` of `q` slots. -/
def PortBuilder.build (q mtu : Nat) : Except Error (PortTop maxMtu) :=
  if h : maxMtu < mtu then .error .badArgument else .ok ⟨.new q, mtu, Nat.le_of_not_lt h⟩

theorem PortBuilder.build_ok_iff {q mtu : Nat} {top : PortTop maxMtu} :
    PortBuilder.build q mtu = .ok top ↔ mtu ≤ maxMtu ∧ top.packets = .new q ∧ top.mtu = mtu := by
  unfold PortBuilder.build
  split
  · simp only [reduceCtorEq, false_iff, not_and]; omega
  · constructor
    · rintro ⟨⟩; exact ⟨by omega, rfl, rfl⟩
    · rintro ⟨-, h1, h2⟩; cases top; simp_all

/-- `PortTop::forward_packet`, with the producer mutex free. `none` where `slot.set(pkt).unwrap()`
panics. -/
def PortTop.forwardPacket (header : List UInt8 → Except Error Header) (top : PortTop maxMtu)
    (pkt : List UInt8) : Option (Except Error Unit × PortTop maxMtu) :=
  if top.mtu < pkt.length then some (.error .noSpace, top)
  else match top.packets.trySend with
    | none => some (.error .txFailure, top)
    | some slot =>
      match slot.set header pkt with
      | .error _ => none
      | .ok b => some (.ok (), { top with packets := top.packets.sendDone b })

/-- **What a forward does**: refuse a packet over the MTU, drop it on a full ring, or commit one
slot holding it. -/
theorem forwardPacket_eq (header : List UInt8 → Except Error Header) (top : PortTop maxMtu)
    (pkt : List UInt8) {hdr : Header} (hh : header pkt = .ok hdr) :
    top.forwardPacket header pkt =
      if h : top.mtu < pkt.length then some (.error .noSpace, top)
      else if top.packets.free = [] then some (.error .txFailure, top)
      else some (.ok (),
        { top with packets := top.packets.sendDone ⟨pkt, hdr.dest, (Nat.le_of_not_lt h).trans top.mtu_le⟩ }) := by
  unfold PortTop.forwardPacket
  split_ifs with h1 h2
  · rfl
  · simp [Channel.trySend, h2]
  · obtain ⟨x, xs, hx⟩ := List.exists_cons_of_ne_nil h2
    simp only [Channel.trySend, hx, List.head?_cons]
    rw [PktBuf.set_ok hh x ((Nat.le_of_not_lt h1).trans top.mtu_le)]

theorem forwardPacket_packets {header : List UInt8 → Except Error Header} {top top' : PortTop maxMtu}
    {pkt : List UInt8} {r : Except Error Unit} (h : top.forwardPacket header pkt = some (r, top')) :
    top'.mtu = top.mtu ∧ ∃ cs : List (PktBuf maxMtu), cs.length ≤ 1 ∧
      top'.packets = ⟨top.packets.queued ++ cs, top.packets.free.drop cs.length⟩ := by
  unfold PortTop.forwardPacket at h
  have hsame : ∃ cs : List (PktBuf maxMtu), cs.length ≤ 1 ∧
      top.packets = ⟨top.packets.queued ++ cs, top.packets.free.drop cs.length⟩ :=
    ⟨[], Nat.zero_le _, by simp⟩
  split at h
  · cases h; exact ⟨rfl, hsame⟩
  · split at h
    · cases h; exact ⟨rfl, hsame⟩
    · rename_i slot hs
      split at h
      · cases h
      · rename_i b _
        cases h
        refine ⟨rfl, [b], by simp, ?_⟩
        simp [Channel.sendDone]

end MctpRouter
