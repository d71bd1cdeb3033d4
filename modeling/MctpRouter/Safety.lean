import MctpRouter.ReqChannel
import MctpRouter.PortQueue

/-!
# No reachable state of the router panics

The model returns `none` where `router.rs` panics: where an `unwrap` fails or an
`unreachable!()` is reached. None of them is reached from a reachable state.

* `PortsOk`: the calls on every port keep `PortSys.CallsOk`. `PortsOk.step` and
  `Reachable.portsOk` keep it over every run: the router starts a send only with the fragmenter
  `start_send` made for the port's MTU, and forwards only a packet whose header parsed.
* **`queued_fit_mtu`**: every packet a port's ring holds for the driver fits the port's MTU, and
  every packet waiting in `forward_packet` has a header that parses (its `debug_assert!`).
* **`queued_framed`**: every slot a port holds for the driver is empty or an MCTP packet whose
  header names the destination `outbound()` returns with it.
* **`mutexes_held`**: in every port, the producer mutex and the flatten buffer are each held by
  exactly the send call that the code holds them for across an await, and by no other.
* `appRecvPoll_isSome`, `PortsOk.sendStart`, `PortsOk.inboundStep`, `PortsOk.portStep`,
  `asyncDropApp_isSome`: the router functions that can panic do not, under the invariants.
* **`never_panics`**: from every reachable state, every step is defined.
-/

namespace MctpRouter

variable {maxMtu : Nat} {L : Type}

theorem appRecvPoll_isSome (inner : RouterInner L) (t : Listeners) {cookie : Option AppCookie}
    {tagEid : Option (Tag × Eid)}
    (hshape : (∃ c, cookie = some c ∧ tagEid = none) ∨ (cookie = none ∧ ∃ te, tagEid = some te))
    (bufLen : Nat) (w : Waker) : (appRecvPoll inner t cookie tagEid bufLen w).isSome := by
  rcases hshape with ⟨c, rfl, rfl⟩ | ⟨rfl, ⟨tag, eid⟩, rfl⟩
  · cases hd : inner.stack.getDeferredBycookie [c] with
    | none => simp [appRecvPoll, hd]
    | some hnd =>
      obtain ⟨m, hm, rfl, -⟩ := Stack.getDeferredBycookie_eq_some hd
      obtain ⟨m', hm'⟩ := Option.isSome_iff_exists.mp (Stack.fetchMessage_isSome hm)
      simp [appRecvPoll, hd, hm']
  · cases hd : inner.stack.getDeferred eid tag with
    | none => simp [appRecvPoll, hd]
    | some hnd =>
      obtain ⟨m, hm, rfl, -⟩ := Stack.getDeferred_eq_some hd
      obtain ⟨m', hm'⟩ := Option.isSome_iff_exists.mp (Stack.fetchMessage_isSome hm)
      simp [appRecvPoll, hd, hm']

namespace Sys

/-- The calls on every port of the router keep `CallsOk`. -/
def PortsOk (s : Sys maxMtu L) : Prop := ∀ ps ∈ s.ports, ps.CallsOk

theorem pollRecv_isSome (s : Sys maxMtu L) (a : App) {c : Option AppCookie}
    {te : Option (Tag × Eid)}
    (hshape : (∃ c', c = some c' ∧ te = none) ∨ (c = none ∧ ∃ x, te = some x)) (bl : Nat)
    (w : Waker) : (s.pollRecv a c te bl w).isSome := by
  obtain ⟨⟨inner, t, ws, res⟩, hx⟩ :=
    Option.isSome_iff_exists.mp (appRecvPoll_isSome s.inner s.table hshape bl w)
  unfold Sys.pollRecv
  rw [hx]
  cases res <;> rfl

theorem recvStart_isSome (s : Sys maxMtu L) (a : App) (w : Waker) (bl : Nat) :
    (s.recvStart a w bl).isSome := by
  unfold Sys.recvStart
  split
  · exact s.pollRecv_isSome a (.inl ⟨_, rfl, rfl⟩) bl w
  · exact s.pollRecv_isSome a (.inr ⟨rfl, _, rfl⟩) bl w
  · rfl
  · rfl

theorem asyncDropApp_isSome (s : Sys maxMtu L) {a : App}
    (htag : ∀ eid tag te, a.kind = .req eid (some tag) te → ∃ tv, tag = .owned tv) :
    (s.asyncDropApp a).isSome := by
  unfold Sys.asyncDropApp
  split
  · rename_i eid tag hk
    obtain ⟨tv, rfl⟩ := htag eid tag false hk
    rfl
  · rfl
  · rfl

theorem PortsOk.set {s s' : Sys maxMtu L} (h : PortsOk s) {i : Nat}
    {ps ps' : PortSys maxMtu Fragmenter} (hps : s.ports[i]? = some ps)
    (hstep : ps.CallsOk → ps'.CallsOk) (he : s'.ports = s.ports.set i ps') :
    PortsOk s' := by
  intro p hp
  rw [he] at hp
  rcases List.mem_or_eq_of_mem_set hp with hp | rfl
  · exact h p hp
  · exact hstep (h ps (List.getElem?_mem hps))

section Steps

variable {lk : PortLookup L} {maxPayload : Nat}

theorem appSendStart_starts {inner inner' : RouterInner L}
    {ports : List (PortSys maxMtu Fragmenter)} {eid : Eid} {typ : MsgType} {tag : Option Tag}
    {te ic : Bool} {p : Nat} {ps : PortSys maxMtu Fragmenter} {frag : Fragmenter}
    (h : appSendStart lk inner ports (·.top.mtu) eid typ tag te ic none = (.ok (p, ps, frag), inner')) :
    ports[p]? = some ps ∧ ∀ id bufs, (PortAct.spawnSend id frag bufs).Starts mctpHeader ps.top.mtu := by
  obtain ⟨-, ⟨_, hr, -⟩ | ⟨p', ps', frag', hr, hps, hst⟩⟩ := appSendStart_cases h
  · cases hr
  · cases hr
    exact ⟨hps, fun _ _ => Stack.startSend_frag hst⟩

variable (lk maxPayload) in
theorem PortsOk.sendStart {s : Sys maxMtu L} (h : PortsOk s) (id : Nat) (eid : Eid) (typ : MsgType)
    (tag : Option Tag) (te ic : Bool) (bufs : List (List UInt8)) :
    ∃ r, s.sendStart lk maxPayload id eid typ tag te ic bufs = some r ∧ PortsOk r.1 := by
  unfold Sys.sendStart
  split
  · exact ⟨_, rfl, h⟩
  · rename_i p ps frag inner heq
    obtain ⟨hps, hst⟩ := appSendStart_starts heq
    obtain ⟨ps1, h1, hok1⟩ := (h ps (List.getElem?_mem hps)).step maxPayload (hst s.nextId bufs)
    obtain ⟨ps2, h2, hok2⟩ := hok1.step maxPayload (a := .pollSend s.nextId) trivial
    rw [h1, Option.some_bind, h2, Option.map_some']
    exact ⟨_, rfl, h.set hps (fun _ => hok2) (sendContinue_ports _ _ _ _ _)⟩

variable (lk maxPayload) in
theorem PortsOk.inboundStep {s : Sys maxMtu L} (h : PortsOk s) (pkt : List UInt8) (port : PortId)
    (reasm : Reassembly) :
    ∃ r, s.inboundStep lk maxPayload pkt port reasm = some r ∧ PortsOk r.1 := by
  unfold Sys.inboundStep
  split
  · exact ⟨_, rfl, h⟩
  rename_i hdr hh
  split
  · obtain ⟨r, hr⟩ := Option.isSome_iff_exists.mp (receiveLocal_isSome s.inner s.table pkt reasm)
    exact ⟨_, by rw [hr]; rfl, h⟩
  split
  · exact ⟨_, rfl, h⟩
  split
  · exact ⟨_, rfl, h⟩
  rename_i ps hps
  obtain ⟨ps1, h1, hok1⟩ :=
    (h ps (List.getElem?_mem hps)).step maxPayload (a := .spawnForward s.nextId pkt) ⟨hdr, hh⟩
  obtain ⟨ps2, h2, hok2⟩ := hok1.step maxPayload (a := .pollForward s.nextId) trivial
  exact ⟨_, by rw [h1, Option.some_bind, h2]; rfl, h.set hps (fun _ => hok2) rfl⟩

variable (maxPayload) in
theorem PortsOk.portStep {s : Sys maxMtu L} (h : PortsOk s) (p : Nat) (pa : PortAct Fragmenter)
    (hpa : pa.newId = none) : ∃ r, s.portStep maxPayload p pa = some r ∧ PortsOk r.1 := by
  unfold Sys.portStep
  split
  · exact ⟨_, rfl, h⟩
  · rename_i ps hps
    obtain ⟨ps', h1, hok⟩ :=
      (h ps (List.getElem?_mem hps)).step maxPayload (PortAct.starts_of_newId hpa _)
    exact ⟨_, by rw [h1]; rfl, h.set hps (fun _ => hok) rfl⟩

theorem PortsOk.sendStart_isSome {s : Sys maxMtu L} (h : PortsOk s) {id : Nat} {eid : Eid}
    {typ : MsgType} {tag : Option Tag} {te ic : Bool} {bufs : List (List UInt8)} :
    (s.sendStart lk maxPayload id eid typ tag te ic bufs).isSome := by
  obtain ⟨r, hr, -⟩ := h.sendStart lk maxPayload id eid typ tag te ic bufs
  rw [hr]; rfl

theorem PortsOk.portStep_isSome {s : Sys maxMtu L} (h : PortsOk s) (p : Nat)
    {pa : PortAct Fragmenter} (hpa : pa.newId = none) : (s.portStep maxPayload p pa).isSome := by
  obtain ⟨r, hr, -⟩ := h.portStep maxPayload p pa hpa
  rw [hr]; rfl

/-- **Every step keeps `PortsOk`.** -/
theorem PortsOk.step {s s' : Sys maxMtu L} {obs : Obs} (h : PortsOk s) {act : Act}
    (hs : s.step lk maxPayload act = some (s', obs)) : PortsOk s' := by
  have keep : s'.ports = s.ports → PortsOk s' := fun he p hp => h p (he ▸ hp)
  cases step_cases hs with
  | noop _ => exact h
  | bind _ | bindError _ | req _ | noexpire _ _ _ | cancel _ | time _ | setEid _ => exact keep rfl
  | send _ _ _ hs' =>
    obtain ⟨r, hr, hok⟩ := h.sendStart lk maxPayload _ _ _ _ _ _ _
    rw [hs'] at hr
    cases hr
    exact hok
  | recv _ _ hr => exact keep (recvStart_ports hr)
  | pollRecv _ _ hp => exact keep (pollRecv_ports hp)
  | pollSend _ _ hps hstep =>
    exact h.set hps (fun hok => hok.of_step (a := .pollSend _) trivial hstep)
      (sendContinue_ports _ _ _ _ _)
  | @cancelSend id a p task ps _ _ hps =>
    refine h.set hps (fun hok => ?_) rfl
    obtain ⟨_, he, hok'⟩ := hok.step 0 (a := .dropSend task) trivial
    cases he
    exact hok'
  | drop _ _ => exact keep (dropApp_ports _ _)
  | asyncDrop _ _ hd => exact keep (asyncDropApp_ports hd)
  | inbound hi =>
    obtain ⟨r, hr, hok⟩ := h.inboundStep lk maxPayload _ _ _
    rw [hi] at hr
    cases hr
    exact hok
  | port hpa hp =>
    obtain ⟨r, hr, hok⟩ := h.portStep maxPayload _ _ hpa
    rw [hp] at hr
    cases hr
    exact hok

theorem Reachable.portsOk {s : Sys maxMtu L} (h : Reachable lk maxPayload s) : PortsOk s := by
  induction h with
  | init ownEid now lookup ports hports =>
    intro ps hps
    obtain ⟨q, mtu, hm, rfl⟩ := hports ps hps
    exact PortSys.CallsOk.init q mtu hm
  | step act _ hs ih => exact ih.step hs

/-- **Every packet queued on a port fits the port's MTU**, and every forwarded one parses. -/
theorem queued_fit_mtu {s : Sys maxMtu L} (h : Reachable lk maxPayload s) :
    ∀ ps ∈ s.ports, (∀ b ∈ ps.top.packets.queued, b.len ≤ ps.top.mtu) ∧
      ∀ u ∈ ps.forwards, ∀ pkt, u.pc = .lock pkt → ∃ hdr, mctpHeader pkt = .ok hdr := by
  intro ps hps
  have hok := h.portsOk ps hps
  refine ⟨hok.fits, fun u hu pkt hpc => ?_⟩
  have := hok.forwards u hu
  rw [hpc] at this
  exact this

/-- After a request channel's first send, the port queues an 8-byte packet within its MTU of 69. -/
theorem queued_fit_mtu_send :
    ∃ s os, singlePortRouter.run singlePortLookup 1024 [.req ⟨9⟩, .reqSend 0 ⟨1⟩ false [[1, 2, 3]]] =
      some (s, os) ∧ ∃ ps ∈ s.ports, ps.top.packets.queued.length = 1 ∧
        ∀ b ∈ ps.top.packets.queued, b.len ≤ ps.top.mtu := by
  obtain ⟨s, os, hr, hs, hq⟩ : ∃ s os, singlePortRouter.run singlePortLookup 1024
      [.req ⟨9⟩, .reqSend 0 ⟨1⟩ false [[1, 2, 3]]] = some (s, os) ∧
      Reachable singlePortLookup 1024 s ∧
      s.ports.head?.map (fun ps => ps.top.packets.queued.length) = some 1 :=
    singlePortRouter_reachable.of_run (by decide)
  obtain ⟨ps, hps, hl⟩ : ∃ ps ∈ s.ports, ps.top.packets.queued.length = 1 := by
    cases hp : s.ports with
    | nil => simp [hp] at hq
    | cons ps _ =>
      simp only [hp, List.head?_cons, Option.map_some', Option.some.injEq] at hq
      exact ⟨ps, List.mem_cons_self _ _, hq⟩
  exact ⟨s, os, hr, ps, hps, hl, (queued_fit_mtu hs ps hps).1⟩

/-- **Every slot a port hands to the driver is empty or a framed MCTP packet** for its EID. -/
theorem queued_framed {s : Sys maxMtu L} (h : Reachable lk maxPayload s) :
    ∀ ps ∈ s.ports, ∀ b ∈ ps.top.packets.queued,
      b.data = [] ∨ ∃ hdr, mctpHeader b.data = .ok hdr ∧ hdr.dest = b.dest :=
  fun ps hps => (h.portsOk ps hps).framed

/-- After a request channel's first send, the router's one port queues a packet for EID 9. -/
theorem queued_framed_send :
    ∃ s os, singlePortRouter.run singlePortLookup 1024 [.req ⟨9⟩, .reqSend 0 ⟨1⟩ false [[1, 2, 3]]] =
      some (s, os) ∧ ∃ ps ∈ s.ports, ps.top.packets.queued.map (·.dest) = [⟨9⟩] ∧
        ∀ b ∈ ps.top.packets.queued,
          b.data = [] ∨ ∃ hdr, mctpHeader b.data = .ok hdr ∧ hdr.dest = b.dest := by
  obtain ⟨s, os, hr, hs, hq⟩ : ∃ s os, singlePortRouter.run singlePortLookup 1024
      [.req ⟨9⟩, .reqSend 0 ⟨1⟩ false [[1, 2, 3]]] = some (s, os) ∧
      Reachable singlePortLookup 1024 s ∧
      s.ports.head?.map (fun ps => ps.top.packets.queued.map (·.dest)) = some [⟨9⟩] :=
    singlePortRouter_reachable.of_run (by decide)
  obtain ⟨ps, hps, hd⟩ : ∃ ps ∈ s.ports, ps.top.packets.queued.map (·.dest) = [⟨9⟩] := by
    cases hpo : s.ports with
    | nil => simp [hpo] at hq
    | cons ps _ =>
      simp only [hpo, List.head?_cons, Option.map_some', Option.some.injEq] at hq
      exact ⟨ps, List.mem_cons_self _ _, hq⟩
  exact ⟨s, os, hr, ps, hps, hd, queued_framed hs ps hps⟩

/-- **Each mutex of a port is held by the call the code holds it for.** -/
theorem mutexes_held {s : Sys maxMtu L} (h : Reachable lk maxPayload s) :
    ∀ ps ∈ s.ports, (∀ i, ps.producer = some i ↔ ∃ t ∈ ps.sends, t.id = i ∧ t.pc.isSlot) ∧
      (∀ i, ps.message = some i ↔ ∃ t ∈ ps.sends, t.id = i ∧ t.pc.flat) ∧
      ∀ t ∈ ps.sends, ∀ t' ∈ ps.sends, t.pc.flat → t'.pc.flat → t = t' :=
  fun ps hps => (h.portsReachable ps hps).mutexes

/-- Four request channels fill the port's four slots; a fifth sends two slices. -/
def fullRing : List Act :=
  [.req ⟨9⟩, .reqSend 0 ⟨1⟩ false [[1]], .req ⟨9⟩, .reqSend 2 ⟨1⟩ false [[2]],
    .req ⟨9⟩, .reqSend 4 ⟨1⟩ false [[3]], .req ⟨9⟩, .reqSend 6 ⟨1⟩ false [[4]],
    .req ⟨9⟩, .reqSend 8 ⟨1⟩ false [[5], [6]]]

/-- The fifth send flattens its slices and waits for a slot: it holds both mutexes. -/
theorem mutexes_held_full_ring :
    ∃ s os, singlePortRouter.run singlePortLookup 1024 fullRing = some (s, os) ∧
      ∃ ps ∈ s.ports, ps.producer = some 9 ∧ ps.message = some 9 ∧
        (∃ t ∈ ps.sends, t.id = 9 ∧ t.pc.isSlot) ∧ ∃ t ∈ ps.sends, t.id = 9 ∧ t.pc.flat := by
  obtain ⟨s, os, hr, hs, hq⟩ : ∃ s os, singlePortRouter.run singlePortLookup 1024 fullRing =
      some (s, os) ∧ Reachable singlePortLookup 1024 s ∧
      s.ports.head?.map (fun ps => (ps.producer, ps.message)) = some (some 9, some 9) :=
    singlePortRouter_reachable.of_run (by decide)
  obtain ⟨ps, hps, hp, hm⟩ : ∃ ps ∈ s.ports, ps.producer = some 9 ∧ ps.message = some 9 := by
    cases hpo : s.ports with
    | nil => simp [hpo] at hq
    | cons ps _ =>
      simp only [hpo, List.head?_cons, Option.map_some', Option.some.injEq, Prod.mk.injEq] at hq
      exact ⟨ps, List.mem_cons_self _ _, hq⟩
  have hmx := mutexes_held hs ps hps
  exact ⟨s, os, hr, ps, hps, hp, hm, (hmx.1 9).mp hp, (hmx.2.1 9).mp hm⟩

/-- **No reachable state of the router panics.** -/
theorem never_panics {s : Sys maxMtu L} (h : Reachable lk maxPayload s) (act : Act) :
    (s.step lk maxPayload act).isSome := by
  have hi := h.inv
  have hp := h.portsOk
  cases act with
  | listener _ | req _ | tagNoexpire _ | cancel _ | drop _ | updateTime _ | setEid _ =>
    -- every arm of these steps returns `some`
    simp only [Sys.step]
    repeat' split
    all_goals rfl
  | reqSend _ _ _ _ | respSend _ _ _ =>
    simp only [Sys.step]
    split
    exacts [hp.sendStart_isSome, rfl]
  | recv id w bufLen =>
    simp only [Sys.step]
    split
    · split
      exacts [recvStart_isSome _ _ _ _, rfl]
    · rfl
  | poll id w =>
    simp only [Sys.step]
    split
    · rename_i a hf
      split
      · rename_i c te bl w0 b hop
        rcases hi.apps.ops a (find_some hi.apps hf).1 c te bl w0 b hop with
          ⟨c', -, -, rfl, rfl⟩ | ⟨-, -, -, -, rfl, rfl⟩
        · exact s.pollRecv_isSome a (.inl ⟨c', rfl, rfl⟩) bl w
        · exact s.pollRecv_isSome a (.inr ⟨rfl, _, rfl⟩) bl w
      · split
        · rename_i ps hps
          obtain ⟨ps', h1, -⟩ :=
            (hp ps (List.getElem?_mem hps)).step maxPayload (a := .pollSend _) trivial
          rw [h1]; rfl
        · rfl
      · rfl
    · rfl
  | asyncDrop id =>
    simp only [Sys.step]
    split
    · rename_i a hf
      split
      exacts [s.asyncDropApp_isSome ((h.reqInv.apps a (find_some hi.apps hf).1).1), rfl]
    · rfl
  | inbound pkt port reasm =>
    obtain ⟨r, hr, -⟩ := hp.inboundStep lk maxPayload pkt port reasm
    simp only [Sys.step, hr]; rfl
  | pollForward p _ | dropForward p _ | outboundDone p => exact hp.portStep_isSome p rfl

/-- After a request channel's first send, the driver's `outbound_done` is defined. -/
theorem never_panics_send :
    ∃ s os, singlePortRouter.run singlePortLookup 1024 [.req ⟨9⟩, .reqSend 0 ⟨1⟩ false [[1, 2, 3]]] =
      some (s, os) ∧ (s.step singlePortLookup 1024 (.outboundDone 0)).isSome := by
  obtain ⟨s, os, hr, hs, -⟩ : ∃ s os, singlePortRouter.run singlePortLookup 1024
      [.req ⟨9⟩, .reqSend 0 ⟨1⟩ false [[1, 2, 3]]] = some (s, os) ∧
      Reachable singlePortLookup 1024 s ∧ True :=
    singlePortRouter_reachable.of_run (by decide)
  exact ⟨s, os, hr, never_panics hs _⟩

end Steps

end Sys

end MctpRouter
