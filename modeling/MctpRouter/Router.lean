import MctpRouter.Listeners

/-!
# The router core

`RouterInner` (the stack, `app_receive_wakers` and the lookup, behind the router's async
mutex) and the operations of `Router` that run under that mutex. Under single-core cooperative
scheduling nothing holds the mutex across an await, so every `lock().await` finds it free.

* `incomingListener`, `incomingResponse`, `incomingLocal`: the dispatch of a completed message;
  **`incomingListener_spec`** says what the scan does to the table, the stack and the wakers.
* `appRecvPoll`: one poll of `app_recv_message`. `appSendStart`: `app_send_message` up to
  `drop(inner)`. `appReleaseTag`, `updateTime`.
* `Router`, `inbound`: the router with every port's producer mutex free, where `inbound` runs to
  its end in one poll; **`inbound_spec`** gives its three paths.

`Reassembler::header` stays a parameter `header` of `inbound`; the stack's side of a packet is
modelled in `MctpRouter.Stack`.
-/

namespace MctpRouter

/-- `PortLookup::by_eid(&mut self, eid, source_port)`; the lookup keeps its own state `L`. -/
structure PortLookup (L : Type) where
  byEid : L → Eid → Option PortId → Option PortId × L

/-- `RouterInner`. `app_receive_wakers` is a `MultiWakerRegistration<MAX_RECEIVERS>`. -/
structure RouterInner (L : Type) where
  stack : Stack
  appReceiveWakers : List Waker
  lookup : L

/-- Modelled from the spec: `MultiWakerRegistration::register`, at most `MAX_RECEIVERS` wakers; when
full it wakes all of them. Returns the set and the wakers woken. -/
def registerMulti (ws : List Waker) (w : Waker) : List Waker × List Waker :=
  if w ∈ ws then (ws, [])
  else if ws.length < maxReceivers then (ws ++ [w], [])
  else ([w], ws)

variable {L : Type}

/-! ## Dispatch of a completed message -/

theorem listenerLoop_length {typ : MsgType} {handle : Option Nat} {stack : Stack} {i : Nat} :
    ∀ {slots slots' : List Slot} {r : Option Nat × Stack × List Waker},
      listenerLoop typ handle stack i slots = some (slots', r) → slots'.length = slots.length
  | [], _, _, h => by simp only [listenerLoop, Option.some.injEq, Prod.mk.injEq] at h; rw [← h.1]
  | none :: rest, _, _, h => by
    simp only [listenerLoop, Option.map_eq_some'] at h
    obtain ⟨⟨rest', r'⟩, h', hr⟩ := h
    simp only [Prod.mk.injEq] at hr
    rw [← hr.1, List.length_cons, List.length_cons, listenerLoop_length h']
  | some (t, w) :: rest, _, _, h => by
    simp only [listenerLoop] at h
    split at h
    · split at h
      · cases h
      · simp only [Option.some.injEq, Prod.mk.injEq] at h; rw [← h.1]; rfl
    · simp only [Option.map_eq_some'] at h
      obtain ⟨⟨rest', r'⟩, h', hr⟩ := h
      simp only [Prod.mk.injEq] at hr
      rw [← hr.1, List.length_cons, List.length_cons, listenerLoop_length h']

/-- `Router::incoming_listener`: the scan, then `finished_receive` if no listener took the handle;
`none` where the scan panics. -/
def incomingListener (typ : MsgType) (h : Nat) (inner : RouterInner L) (t : Listeners) :
    Option (RouterInner L × Listeners × List Waker) :=
  match hl : listenerLoop typ (some h) inner.stack 0 t.slots with
  | none => none
  | some (slots, handle, stack, woken) =>
    some ({ inner with stack := match handle with
                                | some h => stack.finishedReceive h
                                | none => stack },
      ⟨slots, (listenerLoop_length hl).trans t.length_eq⟩, woken)

/-- `Router::incoming_response`: return the handle to the deferred set and wake all of
`app_receive_wakers`. -/
def incomingResponse (h : Nat) (inner : RouterInner L) : RouterInner L × List Waker :=
  ({ inner with stack := inner.stack.returnHandle h, appReceiveWakers := [] },
    inner.appReceiveWakers)

/-- `Router::incoming_local`: a request (TO bit set) goes to the listeners, a response to the
waiting request channels. -/
def incomingLocal (tag : Tag) (typ : MsgType) (h : Nat) (inner : RouterInner L) (t : Listeners) :
    Option (RouterInner L × Listeners × List Waker) :=
  if tag.isOwner then incomingListener typ h inner t
  else some ((incomingResponse h inner).1, t, (incomingResponse h inner).2)

/-- **What the scan of `incoming_listener` does**, on a table where no two slots hold one type. -/
theorem incomingListener_spec (t : Listeners)
    (huniq : ∀ i j typ, t.typeAt i = some typ → t.typeAt j = some typ → i = j)
    (typ : MsgType) (h : Nat) (inner : RouterInner L) :
    ∃ r, incomingListener typ h inner t = some r ∧ (∀ j, r.2.1.typeAt j = t.typeAt j) ∧
      (∀ i, t.typeAt i = some typ →
        r = ({ inner with stack := (inner.stack.setCookie h (some ⟨i⟩)).returnHandle h },
          t.takeWaker i, (t.wakerAt i).toList)) ∧
      ((∀ i, t.typeAt i ≠ some typ) →
        r = ({ inner with stack := inner.stack.finishedReceive h }, t, [])) := by
  unfold incomingListener
  split
  · rename_i hl
    rw [listenerLoop_eq] at hl
    split at hl <;> cases hl
  · rename_i slots handle stack woken hl
    rw [listenerLoop_eq] at hl
    split at hl
    · rename_i j hj
      obtain ⟨hjlt, hjt⟩ := Listeners.findIdx?_boundTo_some hj
      simp only [Option.some.injEq, Prod.mk.injEq] at hl
      obtain ⟨rfl, rfl, rfl, rfl⟩ := hl
      have ht : (⟨t.slots.set j (clearWaker (t.slots[j]?.getD none)), _⟩ : Listeners) =
          t.takeWaker j := rfl
      refine ⟨_, rfl, fun k => by rw [ht, Listeners.typeAt_takeWaker], fun i hi => ?_,
        fun hno => absurd hjt (hno j)⟩
      obtain rfl := huniq i j typ hi hjt
      simp only [Nat.zero_add, ht]
      rfl
    · rename_i hj
      simp only [Option.some.injEq, Prod.mk.injEq] at hl
      obtain ⟨rfl, rfl, rfl, rfl⟩ := hl
      exact ⟨_, rfl, fun _ => rfl, fun i hi => absurd hi (Listeners.findIdx?_boundTo_none hj i),
        fun _ => rfl⟩

/-- Scenario S1: one listener of type `0x7E` in slot 0 takes the request. -/
theorem incomingListener_slot_zero :
    (∀ i j typ, (Listeners.empty.set 0 (some (⟨0x7e⟩, some 1))).typeAt i = some typ →
        (Listeners.empty.set 0 (some (⟨0x7e⟩, some 1))).typeAt j = some typ → i = j) ∧
      ∃ r, incomingListener ⟨0x7e⟩ 0 (⟨Stack.new ⟨8⟩ 0, [], ()⟩ : RouterInner Unit)
          (Listeners.empty.set 0 (some (⟨0x7e⟩, some 1))) = some r ∧
        (∀ j, r.2.1.typeAt j = (Listeners.empty.set 0 (some (⟨0x7e⟩, some 1))).typeAt j) ∧
        (∀ i, (Listeners.empty.set 0 (some (⟨0x7e⟩, some 1))).typeAt i = some ⟨0x7e⟩ →
          r = ({ (⟨Stack.new ⟨8⟩ 0, [], ()⟩ : RouterInner Unit) with
                  stack := ((Stack.new ⟨8⟩ 0).setCookie 0 (some ⟨i⟩)).returnHandle 0 },
            (Listeners.empty.set 0 (some (⟨0x7e⟩, some 1))).takeWaker i,
            ((Listeners.empty.set 0 (some (⟨0x7e⟩, some 1))).wakerAt i).toList)) ∧
        ((∀ i, (Listeners.empty.set 0 (some (⟨0x7e⟩, some 1))).typeAt i ≠ some ⟨0x7e⟩) →
          r = ({ (⟨Stack.new ⟨8⟩ 0, [], ()⟩ : RouterInner Unit) with
                  stack := (Stack.new ⟨8⟩ 0).finishedReceive 0 },
            Listeners.empty.set 0 (some (⟨0x7e⟩, some 1)), [])) := by
  have huniq : ∀ i j typ, (Listeners.empty.set 0 (some (⟨0x7e⟩, some 1))).typeAt i = some typ →
      (Listeners.empty.set 0 (some (⟨0x7e⟩, some 1))).typeAt j = some typ → i = j := by
    intro i j typ hi hj
    simp only [Listeners.typeAt, Listeners.get_set _ (by decide : 0 < maxListeners),
      Listeners.get_empty] at hi hj
    split_ifs at hi hj <;> simp_all
  exact ⟨huniq, incomingListener_spec _ huniq ⟨0x7e⟩ 0 _⟩

/-! ## Receiving, sending, time -/

/-- Which messages a call of `app_recv_message(cookie, tag_eid)` takes. -/
def Selects (cookie : Option AppCookie) (tagEid : Option (Tag × Eid)) (m : Msg) : Prop :=
  match cookie, tagEid with
  | some c, none => m.cookie = some c
  | none, some (tag, eid) => m.source = eid ∧ m.tag = tag
  | _, _ => False

/-- One poll of `app_recv_message(cookie, tag_eid, buf)` with waker `w`; `none` at `unreachable!()`.
Returns the state, the wakers woken, and the result once `Ready`. -/
def appRecvPoll (inner : RouterInner L) (t : Listeners) (cookie : Option AppCookie)
    (tagEid : Option (Tag × Eid)) (bufLen : Nat) (w : Waker) :
    Option (RouterInner L × Listeners × List Waker × Option (Except Error Msg)) :=
  let handle := match cookie, tagEid with
    | some c, none => some (inner.stack.getDeferredBycookie [c])
    | none, some (tag, eid) => some (inner.stack.getDeferred eid tag)
    | _, _ => none
  match handle with
  | none => none
  | some none =>
    match cookie with
    | some c => some (inner, t.register c w, [], none)
    | none =>
      some ({ inner with appReceiveWakers := (registerMulti inner.appReceiveWakers w).1 }, t,
        (registerMulti inner.appReceiveWakers w).2, none)
  | some (some h) =>
    (inner.stack.fetchMessage h).map fun m =>
      ({ inner with stack := inner.stack.finishedReceive h }, t, [],
        some (if bufLen < m.payload.length then .error .noSpace else .ok m))

/-- `app_send_message` up to `drop(inner)`: route by `by_eid(eid, None)`, take the port and its MTU,
and let the stack start the send. -/
def appSendStart {P : Type} (lk : PortLookup L) (inner : RouterInner L) (ports : List P)
    (mtuOf : P → Nat) (eid : Eid) (typ : MsgType) (tag : Option Tag) (tagExpires ic : Bool)
    (cookie : Option AppCookie) : Except Error (Nat × P × Fragmenter) × RouterInner L :=
  match lk.byEid inner.lookup eid none with
  | (none, l) => (.error .txFailure, { inner with lookup := l })
  | (some p, l) =>
    match ports[p.id.toNat]? with
    | none => (.error .txFailure, { inner with lookup := l })
    | some top =>
      match inner.stack.startSend eid typ tag tagExpires ic (some (mtuOf top)) cookie with
      | .error e => (.error e, { inner with lookup := l })
      | .ok (frag, stack) => (.ok (p.id.toNat, top, frag), { inner with lookup := l, stack := stack })

/-- `Router::app_release_tag`: cancel the flow, swallowing the stack's error. `none` at
`unreachable!()` on an unowned tag. -/
def appReleaseTag (inner : RouterInner L) (eid : Eid) (tag : Tag) : Option (RouterInner L) :=
  match tag with
  | .owned tv =>
    some (match inner.stack.cancelFlow eid tv with
      | .ok stack => { inner with stack := stack }
      | .error _ => inner)
  | .unowned _ => none

/-- `Router::update_time`: advance the stack's clock and, if a flow expired, wake all of
`app_receive_wakers`. -/
def updateTime (inner : RouterInner L) (now : Nat) : Except Error Nat × RouterInner L × List Waker :=
  match inner.stack.update now with
  | .error e => (.error e, inner, [])
  | .ok (next, expired, stack) =>
    if expired then (.ok next, { inner with stack := stack, appReceiveWakers := [] },
      inner.appReceiveWakers)
    else (.ok next, { inner with stack := stack }, [])

theorem mem_registerMulti_self (ws : List Waker) (w : Waker) : w ∈ (registerMulti ws w).1 := by
  unfold registerMulti
  split_ifs <;> simp [*]

theorem registerMulti_keep {ws : List Waker} {w x : Waker} (hx : x ∈ ws) :
    x ∈ (registerMulti ws w).1 ∨ x ∈ (registerMulti ws w).2 := by
  unfold registerMulti
  split_ifs <;> simp [hx]

/-- **A `Pending` poll of `app_recv_message`** found no message and registered its waker. -/
theorem appRecvPoll_pending {inner inner' : RouterInner L} {t t' : Listeners}
    {cookie : Option AppCookie} {tagEid : Option (Tag × Eid)} {bufLen : Nat} {w : Waker}
    {ws : List Waker} (h : appRecvPoll inner t cookie tagEid bufLen w = some (inner', t', ws, none)) :
    (∃ c, cookie = some c ∧ tagEid = none ∧ inner.stack.getDeferredBycookie [c] = none ∧
        inner' = inner ∧ t' = t.register c w ∧ ws = []) ∨
    (∃ tag eid, cookie = none ∧ tagEid = some (tag, eid) ∧ inner.stack.getDeferred eid tag = none ∧
        inner' = { inner with appReceiveWakers := (registerMulti inner.appReceiveWakers w).1 } ∧
        t' = t ∧ ws = (registerMulti inner.appReceiveWakers w).2) := by
  rcases cookie with _ | c <;> rcases tagEid with _ | ⟨tag, eid⟩ <;> simp only [appRecvPoll] at h
  · cases h
  · cases hg : inner.stack.getDeferred eid tag <;> simp only [hg, Option.map_eq_some'] at h
    · simp only [Option.some.injEq, Prod.mk.injEq] at h
      obtain ⟨rfl, rfl, rfl, -⟩ := h
      exact .inr ⟨tag, eid, rfl, rfl, hg, rfl, rfl, rfl⟩
    · obtain ⟨_, _, h⟩ := h
      simp at h
  · cases hg : inner.stack.getDeferredBycookie [c] <;> simp only [hg, Option.map_eq_some'] at h
    · simp only [Option.some.injEq, Prod.mk.injEq] at h
      obtain ⟨rfl, rfl, rfl, -⟩ := h
      exact .inl ⟨c, rfl, rfl, hg, rfl, rfl, rfl⟩
    · obtain ⟨_, _, h⟩ := h
      simp at h
  · cases h

/-- **A `Ready` poll of `app_recv_message`** took a message the call selects. -/
theorem appRecvPoll_ready {inner inner' : RouterInner L} {t t' : Listeners}
    {cookie : Option AppCookie} {tagEid : Option (Tag × Eid)} {bufLen : Nat} {w : Waker}
    {ws : List Waker} {res : Except Error Msg} (hnd : (inner.stack.msgs.map Msg.handle).Nodup)
    (h : appRecvPoll inner t cookie tagEid bufLen w = some (inner', t', ws, some res)) :
    ∃ m ∈ inner.stack.msgs, Selects cookie tagEid m ∧
      inner' = { inner with stack := inner.stack.finishedReceive m.handle } ∧ t' = t ∧ ws = [] ∧
      res = if bufLen < m.payload.length then .error .noSpace else .ok m := by
  have hfetch : ∀ {hd m'}, m' ∈ inner.stack.msgs → m'.handle = hd →
      (inner.stack.fetchMessage hd).map (fun m => ({ inner with stack := inner.stack.finishedReceive hd },
        t, ([] : List Waker), some (if bufLen < m.payload.length then .error .noSpace else .ok m))) =
        some (inner', t', ws, some res) →
      inner' = { inner with stack := inner.stack.finishedReceive m'.handle } ∧ t' = t ∧ ws = [] ∧
        res = if bufLen < m'.payload.length then .error .noSpace else .ok m' := by
    intro hd m' hm' hh hmap
    subst hh
    rw [Stack.fetchMessage_eq hnd hm', Option.map_some', Option.some.injEq] at hmap
    simp only [Prod.mk.injEq, Option.some.injEq] at hmap
    obtain ⟨rfl, rfl, rfl, rfl⟩ := hmap
    exact ⟨rfl, rfl, rfl, rfl⟩
  rcases cookie with _ | c <;> rcases tagEid with _ | ⟨tag, eid⟩ <;> simp only [appRecvPoll] at h
  · cases h
  · cases hg : inner.stack.getDeferred eid tag <;> simp only [hg] at h
    · simp at h
    · obtain ⟨m, hm, hh, hsrc, htag⟩ := Stack.getDeferred_eq_some hg
      exact ⟨m, hm, ⟨hsrc, htag⟩, hfetch hm hh h⟩
  · cases hg : inner.stack.getDeferredBycookie [c] <;> simp only [hg] at h
    · simp at h
    · obtain ⟨m, hm, hh, hc⟩ := Stack.getDeferredBycookie_eq_some hg
      exact ⟨m, hm, hc, hfetch hm hh h⟩
  · cases h

/-- **`app_send_message` up to the send** fails, or routes to a port and starts the send. -/
theorem appSendStart_cases {P : Type} {lk : PortLookup L} {inner inner' : RouterInner L}
    {ports : List P} {mtuOf : P → Nat} {eid : Eid} {typ : MsgType} {tag : Option Tag}
    {tagExpires ic : Bool} {cookie : Option AppCookie} {r : Except Error (Nat × P × Fragmenter)}
    (h : appSendStart lk inner ports mtuOf eid typ tag tagExpires ic cookie = (r, inner')) :
    inner'.appReceiveWakers = inner.appReceiveWakers ∧
    ((∃ e, r = .error e ∧ inner'.stack = inner.stack) ∨
      ∃ p top frag, r = .ok (p, top, frag) ∧ ports[p]? = some top ∧
        inner.stack.startSend eid typ tag tagExpires ic (some (mtuOf top)) cookie =
          .ok (frag, inner'.stack)) := by
  unfold appSendStart at h
  split at h
  · obtain ⟨rfl, rfl⟩ := Prod.mk.inj h
    exact ⟨rfl, .inl ⟨_, rfl, rfl⟩⟩
  · split at h
    · obtain ⟨rfl, rfl⟩ := Prod.mk.inj h
      exact ⟨rfl, .inl ⟨_, rfl, rfl⟩⟩
    · rename_i top htop
      split at h
      · obtain ⟨rfl, rfl⟩ := Prod.mk.inj h
        exact ⟨rfl, .inl ⟨_, rfl, rfl⟩⟩
      · rename_i frag stack hst
        obtain ⟨rfl, rfl⟩ := Prod.mk.inj h
        exact ⟨rfl, .inr ⟨_, top, frag, rfl, htop, hst⟩⟩

theorem appReleaseTag_eq {inner inner' : RouterInner L} {eid : Eid} {tag : Tag}
    (h : appReleaseTag inner eid tag = some inner') :
    ∃ fl, inner' = { inner with stack := { inner.stack with flows := fl } } ∧
      (∀ f ∈ fl, f ∈ inner.stack.flows) ∧
      ∀ tv, tag = .owned tv → ∀ f ∈ fl, ¬(f.eid = eid ∧ f.tv = tv) := by
  unfold appReleaseTag at h
  split at h
  · rename_i tv
    obtain rfl := Option.some.inj h
    unfold Stack.cancelFlow
    split_ifs with hc
    · exact ⟨_, rfl, fun f hf => (Stack.mem_dropFlow.mp hf).1, fun _ htv f hf => by
        cases htv; exact (Stack.mem_dropFlow.mp hf).2⟩
    · exact ⟨_, rfl, fun _ h => h, fun _ htv f hf => by
        cases htv
        exact Stack.findFlow_eq_none.mp (Option.not_isSome_iff_eq_none.mp hc) f hf⟩
  · cases h

/-- **`update_time`** keeps the messages and only ends flows. -/
theorem updateTime_cases {inner inner' : RouterInner L} {now : Nat} {r : Except Error Nat}
    {ws : List Waker} (h : updateTime inner now = (r, inner', ws)) :
    inner'.stack.msgs = inner.stack.msgs ∧ inner'.stack.nextHandle = inner.stack.nextHandle ∧
    (∀ f ∈ inner'.stack.flows, f ∈ inner.stack.flows) ∧
    ((inner'.appReceiveWakers = inner.appReceiveWakers ∧ ws = []) ∨
      (inner'.appReceiveWakers = [] ∧ ws = inner.appReceiveWakers)) := by
  unfold updateTime at h
  split at h
  · obtain ⟨-, rfl, rfl⟩ := h
    exact ⟨rfl, rfl, fun _ h => h, .inl ⟨rfl, rfl⟩⟩
  · rename_i next expired stack hu
    have hst := Stack.update_eq hu
    subst hst
    split at h <;> obtain ⟨-, rfl, rfl⟩ := h
    · exact ⟨rfl, rfl, fun _ h => (List.mem_filter.mp h).1, .inr ⟨rfl, rfl⟩⟩
    · exact ⟨rfl, rfl, fun _ h => (List.mem_filter.mp h).1, .inl ⟨rfl, rfl⟩⟩

/-! ## `inbound`, run to completion -/

/-- The local branch of `inbound`: `stack.receive(pkt)` and, for a completed message,
`incoming_local`; nothing runs in between. -/
def receiveLocal (inner : RouterInner L) (t : Listeners) (pkt : List UInt8) (reasm : Reassembly) :
    Option (RouterInner L × Listeners × List Waker) :=
  match inner.stack.receive pkt reasm with
  | (.ok (some m), stack) => incomingLocal m.tag m.typ m.handle { inner with stack := stack } t
  | (_, stack) => some ({ inner with stack := stack }, t, [])

variable {maxMtu : Nat}

/-- The router, with ports built by `PortBuilder::build` and their producer mutexes free. -/
structure Router (maxMtu : Nat) (L : Type) where
  inner : RouterInner L
  ports : List (PortTop maxMtu)
  appListeners : Listeners

/-- `Router::inbound(pkt, port)` run to its end: the source EID, the router and the wakers woken;
`none` where it panics. -/
def inbound (header : List UInt8 → Except Error Header) (lk : PortLookup L) (r : Router maxMtu L)
    (pkt : List UInt8) (port : PortId) (reasm : Reassembly) :
    Option (Option Eid × Router maxMtu L × List Waker) :=
  match header pkt with
  | .error _ => some (none, r, [])
  | .ok hdr =>
    if r.inner.stack.isLocalDest pkt then
      (receiveLocal r.inner r.appListeners pkt reasm).map fun (inner, t, ws) =>
        (some hdr.source, { r with inner := inner, appListeners := t }, ws)
    else
      match lk.byEid r.inner.lookup hdr.dest (some port) with
      | (none, l) => some (some hdr.source, { r with inner := { r.inner with lookup := l } }, [])
      | (some p, l) =>
        match r.ports[p.id.toNat]? with
        | none => some (some hdr.source, { r with inner := { r.inner with lookup := l } }, [])
        | some top =>
          (top.forwardPacket header pkt).map fun (_, top') =>
            (some hdr.source,
              { r with inner := { r.inner with lookup := l }, ports := r.ports.set p.id.toNat top' },
              [])

theorem incomingListener_isSome (typ : MsgType) (h : Nat) (inner : RouterInner L) (t : Listeners) :
    (incomingListener typ h inner t).isSome := by
  unfold incomingListener
  split
  · rename_i hl
    rw [listenerLoop_eq] at hl
    split at hl <;> cases hl
  · rfl

theorem receiveLocal_isSome (inner : RouterInner L) (t : Listeners) (pkt : List UInt8)
    (reasm : Reassembly) : (receiveLocal inner t pkt reasm).isSome := by
  unfold receiveLocal
  split
  · unfold incomingLocal
    split
    · exact incomingListener_isSome _ _ _ _
    · rfl
  · rfl

theorem receiveLocal_lookup {inner inner' : RouterInner L} {t t' : Listeners} {pkt : List UInt8}
    {reasm : Reassembly} {ws : List Waker} (h : receiveLocal inner t pkt reasm = some (inner', t', ws)) :
    inner'.lookup = inner.lookup := by
  unfold receiveLocal at h
  split at h
  · unfold incomingLocal at h
    split at h
    · unfold incomingListener at h
      split at h
      · cases h
      · simp only [Option.some.injEq, Prod.mk.injEq] at h; rw [← h.1]
    · simp only [Option.some.injEq, Prod.mk.injEq] at h; rw [← h.1]; rfl
  · simp only [Option.some.injEq, Prod.mk.injEq] at h; rw [← h.1]

theorem receiveLocal_spec (inner : RouterInner L) (t : Listeners) (pkt : List UInt8)
    (reasm : Reassembly) :
    ∃ res, receiveLocal inner t pkt reasm = some res ∧ res.1.lookup = inner.lookup ∧
      ∃ r stack, inner.stack.receive pkt reasm = (r, stack) ∧
        (∀ m, r = .ok (some m) →
          incomingLocal m.tag m.typ m.handle { inner with stack := stack } t = some res) ∧
        ((∀ m, r ≠ .ok (some m)) → res = ({ inner with stack := stack }, t, [])) := by
  obtain ⟨res, hres⟩ := Option.isSome_iff_exists.mp (receiveLocal_isSome inner t pkt reasm)
  refine ⟨res, hres, receiveLocal_lookup hres, ?_⟩
  unfold receiveLocal at hres
  rcases hr : inner.stack.receive pkt reasm with ⟨r, stack⟩
  rw [hr] at hres
  refine ⟨r, stack, rfl, fun m hm => by subst hm; exact hres, fun hm => ?_⟩
  rcases r with _ | _ | m
  iterate 2 exact (Option.some.inj hres).symm
  exact absurd rfl (hm m)

theorem inbound_forward {header : List UInt8 → Except Error Header} {lk : PortLookup L}
    {r : Router maxMtu L} {pkt : List UInt8} {port : PortId} (reasm : Reassembly) {hdr : Header}
    (hh : header pkt = .ok hdr) (hloc : r.inner.stack.isLocalDest pkt = false) :
    (inbound header lk r pkt port reasm = some (some hdr.source,
        { r with inner := { r.inner with lookup := (lk.byEid r.inner.lookup hdr.dest (some port)).2 } },
        []) ∧
      ∀ p top, (lk.byEid r.inner.lookup hdr.dest (some port)).1 = some p →
        r.ports[p.id.toNat]? = some top → top.mtu < pkt.length ∨ top.packets.free = []) ∨
    ∃ p top, ∃ hlen : pkt.length ≤ top.mtu, (lk.byEid r.inner.lookup hdr.dest (some port)).1 = some p ∧
      r.ports[p.id.toNat]? = some top ∧ top.packets.free ≠ [] ∧
      inbound header lk r pkt port reasm = some (some hdr.source,
        { r with inner := { r.inner with lookup := (lk.byEid r.inner.lookup hdr.dest (some port)).2 },
                 ports := r.ports.set p.id.toNat
                   { top with packets := top.packets.sendDone ⟨pkt, hdr.dest, hlen.trans top.mtu_le⟩ } },
        []) := by
  simp only [inbound, hh, hloc, Bool.false_eq_true, if_false]
  rcases lk.byEid r.inner.lookup hdr.dest (some port) with ⟨_ | p, l⟩
  · exact .inl ⟨rfl, fun _ _ hp => nomatch hp⟩
  dsimp only
  rcases hp : r.ports[p.id.toNat]? with _ | top
  · exact .inl ⟨rfl, fun _ _ h1 h2 => by cases h1; simp [hp] at h2⟩
  have htop : ∀ p' top', some p = some p' → r.ports[p'.id.toNat]? = some top' → top' = top :=
    fun _ _ h1 h2 => by cases h1; simpa [hp] using h2.symm
  have hsame := set_self_of_getElem? hp
  simp only [forwardPacket_eq header top pkt hh]
  by_cases hmtu : top.mtu < pkt.length
  · rw [dif_pos hmtu, Option.map_some', hsame]
    exact .inl ⟨rfl, fun p' top' h1 h2 => .inl (htop p' top' h1 h2 ▸ hmtu)⟩
  by_cases hfree : top.packets.free = []
  · rw [dif_neg hmtu, if_pos hfree, Option.map_some', hsame]
    exact .inl ⟨rfl, fun p' top' h1 h2 => .inr (htop p' top' h1 h2 ▸ hfree)⟩
  · rw [dif_neg hmtu, if_neg hfree, Option.map_some']
    exact .inr ⟨p, top, Nat.le_of_not_lt hmtu, rfl, hp, hfree, rfl⟩

/-- **The three paths of `inbound`**, on the sequential router. -/
theorem inbound_spec (header : List UInt8 → Except Error Header) (lk : PortLookup L)
    (r : Router maxMtu L) (pkt : List UInt8) (port : PortId) (reasm : Reassembly) :
    ∃ res, inbound header lk r pkt port reasm = some res ∧
      (res.1 = none ↔ ∃ e, header pkt = .error e) ∧
      (∀ e, header pkt = .error e → res.2 = (r, [])) ∧
      ∀ hdr, header pkt = .ok hdr → res.1 = some hdr.source ∧
        (r.inner.stack.isLocalDest pkt = true →
          res.2.1.ports = r.ports ∧ res.2.1.inner.lookup = r.inner.lookup ∧
          ∃ rr stack, r.inner.stack.receive pkt reasm = (rr, stack) ∧
            (∀ m, rr = .ok (some m) → incomingLocal m.tag m.typ m.handle
              { r.inner with stack := stack } r.appListeners =
                some (res.2.1.inner, res.2.1.appListeners, res.2.2)) ∧
            ((∀ m, rr ≠ .ok (some m)) → res.2.1.inner = { r.inner with stack := stack } ∧
              res.2.1.appListeners = r.appListeners ∧ res.2.2 = [])) ∧
        (r.inner.stack.isLocalDest pkt = false →
          res.2.1.inner = { r.inner with lookup := (lk.byEid r.inner.lookup hdr.dest (some port)).2 } ∧
          res.2.1.appListeners = r.appListeners ∧ res.2.2 = [] ∧
          (∀ p top, (lk.byEid r.inner.lookup hdr.dest (some port)).1 = some p →
            r.ports[p.id.toNat]? = some top → ∀ hlen : pkt.length ≤ top.mtu, top.packets.free ≠ [] →
            res.2.1.ports = r.ports.set p.id.toNat
              { top with packets := top.packets.sendDone ⟨pkt, hdr.dest, hlen.trans top.mtu_le⟩ }) ∧
          ((∀ p top, (lk.byEid r.inner.lookup hdr.dest (some port)).1 = some p →
            r.ports[p.id.toNat]? = some top → top.mtu < pkt.length ∨ top.packets.free = []) →
            res.2.1.ports = r.ports)) := by
  rcases hh : header pkt with e | hdr
  · exact ⟨(none, r, []), by simp only [inbound, hh], by simp, fun _ _ => rfl, fun _ h => nomatch h⟩
  cases hloc : r.inner.stack.isLocalDest pkt
  · rcases inbound_forward reasm hh hloc with ⟨hres, hno⟩ | ⟨p, top, hlen, hp, htop, hfree, hres⟩
    · refine ⟨_, hres, by simp, (fun _ h => nomatch h), fun hdr' h' => ?_⟩
      cases h'
      refine ⟨rfl, (fun h => nomatch h), fun _ => ⟨rfl, rfl, rfl, fun p' top' h1 h2 hlen' hfree' => ?_,
        fun _ => rfl⟩⟩
      rcases hno p' top' h1 h2 with h | h
      · omega
      · exact absurd h hfree'
    · refine ⟨_, hres, by simp, (fun _ h => nomatch h), fun hdr' h' => ?_⟩
      cases h'
      refine ⟨rfl, (fun h => nomatch h), fun _ => ⟨rfl, rfl, rfl, fun p' top' h1 h2 _ _ => ?_,
        fun hno => (hno p top hp htop).elim (absurd · (by omega)) (absurd · hfree)⟩⟩
      cases hp.symm.trans h1
      cases htop.symm.trans h2
      rfl
  · obtain ⟨⟨inner, t, ws⟩, hr, hlook, rr, stack, hrecv, hcomp, hinc⟩ :=
      receiveLocal_spec r.inner r.appListeners pkt reasm
    refine ⟨(some hdr.source, { r with inner := inner, appListeners := t }, ws),
      by simp only [inbound, hh, hloc, if_true, hr, Option.map_some'], by simp,
      (fun _ h => nomatch h), fun hdr' h' => ?_⟩
    cases h'
    refine ⟨rfl, fun _ => ⟨rfl, hlook, rr, stack, hrecv, hcomp, fun hm => ?_⟩, fun h => nomatch h⟩
    cases hinc hm
    exact ⟨rfl, rfl, rfl⟩

end MctpRouter
