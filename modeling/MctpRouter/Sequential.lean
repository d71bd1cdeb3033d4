import MctpRouter.Safety

/-!
# The interleaved router refines the sequential one

`MctpRouter.Router` models `Router::inbound` run to its end, with every port's producer mutex
free: `inbound_spec` is proved there. The system of `MctpRouter.System` runs the same call as
two steps of the port the packet goes to: the `forward_packet` call starts, and one poll runs it.

* `Sys.view`: the state a system holds of the sequential router, that is, all of it but the
  application objects and the calls on the ports.
* `inboundStep_view`: when no call holds the producer mutex of the port a packet is routed to,
  the system's `inbound` step returns what the sequential `inbound` returns, and
  **`inboundStep_eq_inbound`** when no call holds any.
* **`inbound_paths`**: the three paths of `inbound` on the system, carried over from
  `inbound_spec` — and `inbound_forward_lost`: with the routed port's producer mutex held by a
  send, a forwarded packet can be lost although a slot was free when `inbound` was called.
-/

namespace MctpRouter

variable {maxMtu : Nat} {L : Type}

namespace Sys

/-- The sequential router the system holds: its inner state, the ports' producer sides and the
table. -/
def view (s : Sys maxMtu L) : Router maxMtu L := ⟨s.inner, s.ports.map (·.top), s.table⟩

/-- No call holds the producer mutex of the port the lookup routes `pkt` to. -/
def RoutedFree (lk : PortLookup L) (s : Sys maxMtu L) (pkt : List UInt8) (port : PortId) : Prop :=
  ∀ hdr p ps, mctpHeader pkt = .ok hdr → s.inner.stack.isLocalDest pkt = false →
    (lk.byEid s.inner.lookup hdr.dest (some port)).1 = some p → s.ports[p.id.toNat]? = some ps →
    ps.producer = none

theorem Op.wake_nil (op : Op) : op.wake [] = op := by
  cases op <;> simp [Op.wake]

@[simp] theorem wake_nil (s : Sys maxMtu L) : s.wake [] = s := by
  simp [wake, Op.wake_nil]

variable {lk : PortLookup L} {maxPayload : Nat}

theorem spawn_poll_forward (maxPayload : Nat) {ps : PortSys maxMtu Fragmenter} {n : Nat}
    (hn : n ∉ ps.ids) (hfree : ps.producer = none) (pkt : List UInt8) :
    ((ps.step mctpHeader maxPayload Fragmenter.frag (.spawnForward n pkt)).bind
        (·.step mctpHeader maxPayload Fragmenter.frag (.pollForward n))).map (·.top) =
      (ps.top.forwardPacket mctpHeader pkt).map (·.2) := by
  have hfind : (ps.forwards ++ [(⟨n, .lock pkt⟩ : FwdTask)]).find? (·.id = n) =
      some ⟨n, .lock pkt⟩ := by
    rw [List.find?_append, List.find?_eq_none.mpr fun u hu he =>
      hn (by simpa using (of_decide_eq_true he) ▸ PortSys.mem_ids_of_forwards hu)]
    simp
  simp only [PortSys.step, if_neg hn, Option.some_bind, PortSys.pollForward, hfind,
    Option.map_some', hfree, Option.isSome_none, Bool.false_eq_true, if_false]
  cases hfp : ps.top.forwardPacket mctpHeader pkt with
  | none => rfl
  | some rt =>
    obtain ⟨r, top'⟩ := rt
    obtain ⟨hmtu, -, -, -, -⟩ := PortSys.forwardPacket_commits hfp
    simp only [Option.map_some', PortSys.setFwd_top, Option.some.injEq]
    cases top'
    cases hmtu
    rfl

theorem inboundStep_view {s : Sys maxMtu L} (h : Reachable lk maxPayload s) {pkt : List UInt8}
    {port : PortId} (hfree : RoutedFree lk s pkt port) (reasm : Reassembly) :
    (s.inboundStep lk maxPayload pkt port reasm).map (fun r => (r.2, r.1.view, r.1.apps)) =
      (inbound mctpHeader lk s.view pkt port reasm).map fun r =>
        (.inbound r.1, r.2.1, (s.wake r.2.2).apps) := by
  unfold inboundStep inbound
  cases hh : mctpHeader pkt with
  | error e => simp
  | ok hdr =>
    simp only [view]
    split_ifs with hloc
    · cases receiveLocal s.inner s.table pkt reasm with
      | none => rfl
      | some r => rfl
    · cases hl : lk.byEid s.inner.lookup hdr.dest (some port) with
      | mk p l =>
        cases p with
        | none => simp
        | some p =>
          dsimp only
          rw [List.getElem?_map]
          cases hps : s.ports[p.id.toNat]? with
          | none => simp
          | some ps =>
            rw [Option.map_some']
            dsimp only
            have hmem := List.getElem?_mem hps
            have hn : s.nextId ∉ ps.ids := fun hi =>
              Nat.lt_irrefl _ (h.reqInv.portIds ps hmem _ hi)
            have hfw := spawn_poll_forward maxPayload hn
              (hfree hdr p ps hh (Bool.eq_false_iff.mpr hloc) (by rw [hl]) hps) pkt
            cases hb : (ps.step mctpHeader maxPayload Fragmenter.frag
                (.spawnForward s.nextId pkt)).bind
                (·.step mctpHeader maxPayload Fragmenter.frag (.pollForward s.nextId)) with
            | none =>
              rw [hb, Option.map_none', eq_comm, Option.map_eq_none'] at hfw
              simp [hfw]
            | some ps' =>
              rw [hb] at hfw
              obtain ⟨⟨r, top'⟩, hfp, htop⟩ := Option.map_eq_some'.mp hfw.symm
              simp only at htop
              simp [hfp, List.map_set, htop]

/-- **The system's `inbound` is the sequential one**, from every reachable state whose ports
hold no producer mutex. -/
theorem inboundStep_eq_inbound {s : Sys maxMtu L} (h : Reachable lk maxPayload s)
    (hfree : ∀ ps ∈ s.ports, ps.producer = none) (pkt : List UInt8) (port : PortId)
    (reasm : Reassembly) :
    (s.inboundStep lk maxPayload pkt port reasm).map (fun r => (r.2, r.1.view, r.1.apps)) =
      (inbound mctpHeader lk s.view pkt port reasm).map fun r =>
        (.inbound r.1, r.2.1, (s.wake r.2.2).apps) :=
  inboundStep_view h (fun _ _ ps _ _ _ hps => hfree ps (List.getElem?_mem hps)) reasm

/-- A packet from EID 10 for EID 9 is forwarded alike by both models. -/
theorem inboundStep_eq_inbound_forward :
    (∀ ps ∈ singlePortRouter.ports, ps.producer = none) ∧
      (singlePortRouter.inboundStep singlePortLookup 1024 [1, 9, 10, 0xc0, 1, 4] ⟨0⟩
          .incomplete).map (fun r => (r.2, r.1.view, r.1.apps)) =
        (inbound mctpHeader singlePortLookup singlePortRouter.view [1, 9, 10, 0xc0, 1, 4] ⟨0⟩
          .incomplete).map fun r => (.inbound r.1, r.2.1, (singlePortRouter.wake r.2.2).apps) := by
  have hfree : ∀ ps ∈ singlePortRouter.ports, ps.producer = none := by
    simp [singlePortRouter, Sys.init, PortSys.init]
  exact ⟨hfree, inboundStep_eq_inbound singlePortRouter_reachable hfree _ _ _⟩

/-! ## The three paths of `inbound` -/

/-- **The three paths of `inbound`**, when no call holds the routed port's producer mutex. -/
theorem inbound_paths {s : Sys maxMtu L} (h : Reachable lk maxPayload s) (pkt : List UInt8)
    (port : PortId) (reasm : Reassembly) (hfree : RoutedFree lk s pkt port) :
    ∃ s' obs, s.inboundStep lk maxPayload pkt port reasm = some (s', obs) ∧
      (obs = .inbound none ↔ ∃ e, mctpHeader pkt = .error e) ∧
      (∀ e, mctpHeader pkt = .error e → s' = s) ∧
      ∀ hdr, mctpHeader pkt = .ok hdr → obs = .inbound (some hdr.source) ∧
        (s.inner.stack.isLocalDest pkt = true →
          s'.ports.map (·.top) = s.ports.map (·.top) ∧ s'.inner.lookup = s.inner.lookup ∧
          ∃ r stack, s.inner.stack.receive pkt reasm = (r, stack) ∧
            (∀ m, r = .ok (some m) → ∃ ws, incomingLocal m.tag m.typ m.handle
              { s.inner with stack := stack } s.table = some (s'.inner, s'.table, ws) ∧
              s'.apps = (s.wake ws).apps) ∧
            ((∀ m, r ≠ .ok (some m)) → s'.inner = { s.inner with stack := stack } ∧
              s'.table = s.table ∧ s'.apps = s.apps)) ∧
        (s.inner.stack.isLocalDest pkt = false →
          s'.inner = { s.inner with lookup := (lk.byEid s.inner.lookup hdr.dest (some port)).2 } ∧
          s'.table = s.table ∧ s'.apps = s.apps ∧
          (∀ p ps, (lk.byEid s.inner.lookup hdr.dest (some port)).1 = some p →
            s.ports[p.id.toNat]? = some ps → ∀ hlen : pkt.length ≤ ps.top.mtu,
            ps.top.packets.free ≠ [] → s'.ports.map (·.top) = (s.ports.map (·.top)).set p.id.toNat
              { ps.top with
                packets := ps.top.packets.sendDone ⟨pkt, hdr.dest, hlen.trans ps.top.mtu_le⟩ }) ∧
          ((∀ p ps, (lk.byEid s.inner.lookup hdr.dest (some port)).1 = some p →
            s.ports[p.id.toNat]? = some ps → ps.top.mtu < pkt.length ∨ ps.top.packets.free = []) →
            s'.ports.map (·.top) = s.ports.map (·.top))) := by
  obtain ⟨res, hres, hnone, -, hok⟩ := inbound_spec mctpHeader lk s.view pkt port reasm
  have hsim := inboundStep_view h hfree reasm
  rw [hres, Option.map_some'] at hsim
  obtain ⟨⟨s', obs⟩, hs, he⟩ := Option.map_eq_some'.mp hsim
  simp only [Prod.mk.injEq] at he
  obtain ⟨rfl, hview, happs⟩ := he
  -- the step leaves the sequential router's state as `inbound` does
  have hinner : s'.inner = res.2.1.inner := congrArg Router.inner hview
  have hports : s'.ports.map (·.top) = res.2.1.ports := congrArg Router.ports hview
  have htable : s'.table = res.2.1.appListeners := congrArg Router.appListeners hview
  refine ⟨s', _, hs, by simpa only [Obs.inbound.injEq] using hnone, fun e he => ?_,
    fun hdr hh => ?_⟩
  · simp only [inboundStep, he, Option.some.injEq, Prod.mk.injEq] at hs
    exact hs.1.symm
  obtain ⟨hsrc, hloc, hfwd⟩ := hok hdr hh
  refine ⟨by rw [hsrc], fun hl => ?_, fun hl => ?_⟩
  · obtain ⟨hp, hlook, r, stack, hrecv, hcomp, hinc⟩ := hloc hl
    refine ⟨hports.trans hp, hinner ▸ hlook, r, stack, hrecv,
      fun m hm => ⟨res.2.2, by rw [hinner, htable]; exact hcomp m hm, happs⟩, fun hm => ?_⟩
    obtain ⟨h1, h2, h3⟩ := hinc hm
    exact ⟨hinner.trans h1, htable.trans h2, by rw [happs, h3, wake_nil]⟩
  · obtain ⟨h1, h2, h3, hb, hc⟩ := hfwd hl
    refine ⟨hinner.trans h1, htable.trans h2, by rw [happs, h3, wake_nil],
      fun p ps hp hps hlen hfr => ?_, fun hno => hports.trans (hc fun p top hp htop => ?_)⟩
    · rw [hports]
      exact hb p ps.top hp (by rw [view, List.getElem?_map, hps]; rfl) hlen hfr
    · rw [view, List.getElem?_map] at htop
      obtain ⟨ps, hps, rfl⟩ := Option.map_eq_some'.mp htop
      exact hno p ps hp hps

/-- On the fresh router, the packet from EID 10 for EID 9 takes one slot of the port. -/
theorem inbound_paths_forward :
    RoutedFree singlePortLookup singlePortRouter [1, 9, 10, 0xc0, 1, 4] ⟨0⟩ ∧
      ∃ s' obs, singlePortRouter.inboundStep singlePortLookup 1024 [1, 9, 10, 0xc0, 1, 4] ⟨0⟩
          .incomplete = some (s', obs) ∧ obs = .inbound (some ⟨10⟩) ∧
        s'.ports.map (fun ps => ps.top.packets.queued.map (·.data)) = [[[1, 9, 10, 0xc0, 1, 4]]] := by
  have hall : ∀ ps ∈ singlePortRouter.ports, ps.producer = none := by
    simp [singlePortRouter, Sys.init, PortSys.init]
  have hfree : RoutedFree singlePortLookup singlePortRouter [1, 9, 10, 0xc0, 1, 4] ⟨0⟩ :=
    fun _ _ ps _ _ _ hps => hall ps (List.getElem?_mem hps)
  obtain ⟨s', obs, hs, -, -, hok⟩ := inbound_paths singlePortRouter_reachable _ _ .incomplete hfree
  obtain ⟨hobs, -, hfwd⟩ := hok ⟨⟨10⟩, ⟨9⟩⟩ rfl
  obtain ⟨-, -, -, hb, -⟩ := hfwd rfl
  have hq := congrArg (List.map fun top : PortTop 255 => top.packets.queued.map (·.data))
    (hb ⟨0⟩ _ rfl rfl (by decide) (by decide))
  rw [List.map_map] at hq
  exact ⟨hfree, s', obs, hs, hobs, hq⟩

/-- A router of EID 8 whose one port has a ring of one slot and MTU 8. -/
def oneSlotRouter : Sys 255 Unit := init ⟨8⟩ 0 () [PortSys.init 1 8 (by decide)]

theorem oneSlotRouter_reachable : Reachable singlePortLookup 1024 oneSlotRouter :=
  .init _ _ _ _ fun _ hp => ⟨1, 8, _, List.mem_singleton.mp hp⟩

/-- A two-packet send on the one-slot port, which waits holding the producer mutex. -/
def sendHoldsPort : List Act := [.req ⟨9⟩, .reqSend 0 ⟨1⟩ false [[1, 2, 3, 4]], .outboundDone 0]

/-- **`inbound` can lose a packet although a slot was free**, behind a send holding the port. -/
theorem inbound_forward_lost :
    mctpHeader [1, 9, 10, 0xc0, 1, 4] = .ok ⟨⟨10⟩, ⟨9⟩⟩ ∧
    (singlePortLookup.byEid () ⟨9⟩ (some ⟨0⟩)).1 = some ⟨0⟩ ∧
    ∃ s os, oneSlotRouter.run singlePortLookup 1024 sendHoldsPort = some (s, os) ∧
      Reachable singlePortLookup 1024 s ∧
      s.inner.stack.isLocalDest [1, 9, 10, 0xc0, 1, 4] = false ∧
      s.ports.map (fun ps => (ps.producer, ps.top.packets.free.length, ps.top.mtu)) =
        [(some 1, 1, 8)] ∧
      (s.run singlePortLookup 1024
          [.inbound [1, 9, 10, 0xc0, 1, 4] ⟨0⟩ .incomplete, .poll 0 0, .pollForward 0 2]).map
        (fun r => r.1.ports.map fun ps => (ps.forwards, ps.top.packets.queued.map (·.data))) =
        some [([⟨2, .forwarded (.error .txFailure)⟩], [[1, 9, 8, 0x58, 4]])] :=
  ⟨rfl, rfl,
    @Reachable.of_run _ _ _ _ _ oneSlotRouter_reachable _ _ (fun _ _ => inferInstance) (by decide)⟩

end Sys

end MctpRouter
