import MctpRouter.Router
import MctpRouter.PortTasks

/-!
# The router and its applications, step by step

The whole of `router.rs` as a transition system under single-core cooperative scheduling. A
step is one atomic segment: an application call up to its first `Pending`, a later poll of a
call, the drop of a pending future or of an object, a driver calling `inbound`,
`update_time` or `outbound_done`, or `set_eid`.

## The model

* `App`: an application object (`RouterAsyncListener`, `RouterAsyncReqChannel`,
  `RouterAsyncRespChannel`) with the call it has in progress (`Op`). A listener keeps, as ghost
  state, the type it was created with. A receiving call keeps the waker its latest poll
  registered and, as ghost state, whether that waker has been woken since.
* `Sys`: the router core, the listener table, the ports (as in `MctpRouter.PortTasks`), the
  objects, and a ghost log of which object's send allocated each flow.
* `Act`, `Sys.step`, `Reachable`, and `Sys.run` to replay a list of steps.
* `StepCase` lists the shapes a step can take, with the guards it read; `step_cases` says that
  every step has one, so the proofs about runs case on it instead of unfolding `step`.

The stack and the fragmenter are the spec's (`MctpRouter.Stack`); the header parser is
`mctpHeader`; the routing callback `lk` is any `PortLookup`.
-/

namespace MctpRouter

/-- What an application object is. -/
inductive Kind where
  /-- `RouterAsyncListener { cookie }`; `typ` is ghost: the type it was created with -/
  | listener (cookie : AppCookie) (typ : MsgType)
  /-- `RouterAsyncReqChannel { eid, sent_tag, tag_expires }` -/
  | req (eid : Eid) (sentTag : Option Tag) (tagExpires : Bool)
  /-- `RouterAsyncRespChannel { eid, tv, typ }` -/
  | resp (eid : Eid) (tv : TagValue) (typ : MsgType)
deriving DecidableEq, Repr

/-- The call an object has in progress (it is borrowed `&mut` by it). -/
inductive Op where
  | idle
  /-- `send_vectored`, awaiting `send_message` call `task` on port `port` -/
  | sending (port task : Nat)
  /-- `recv`, awaiting `app_recv_message(cookie, tag_eid, buf)` with a `bufLen`-byte buffer;
  `waker` was registered by its latest poll, `woken` (ghost) says it was woken since -/
  | receiving (cookie : Option AppCookie) (tagEid : Option (Tag × Eid)) (bufLen : Nat)
      (waker : Waker) (woken : Bool)
deriving DecidableEq, Repr

/-- An application object. -/
structure App where
  id : Nat
  kind : Kind
  op : Op
deriving DecidableEq, Repr

/-- Ghost: flow `serial` was allocated towards `(eid, tv)` by a send of object `owner`. -/
structure FlowRec where
  serial : Nat
  owner : Nat
  eid : Eid
  tv : TagValue
deriving DecidableEq, Repr

/-- The router, its ports and the application objects using it. -/
structure Sys (maxMtu : Nat) (L : Type) where
  inner : RouterInner L
  table : Listeners
  ports : List (PortSys maxMtu Fragmenter)
  apps : List App
  /-- the next fresh id, for objects and for calls on ports -/
  nextId : Nat
  flowLog : List FlowRec

/-- The steps. -/
inductive Act where
  /-- `Router::listener(typ)` -/
  | listener (typ : MsgType)
  /-- `Router::req(eid)`, or `RouterAsyncRespChannel::req_channel` -/
  | req (eid : Eid)
  | tagNoexpire (id : Nat)
  /-- `send_vectored` of a request channel, to its first `Pending` -/
  | reqSend (id : Nat) (typ : MsgType) (ic : Bool) (bufs : List (List UInt8))
  /-- `send_vectored` of a response channel -/
  | respSend (id : Nat) (ic : Bool) (bufs : List (List UInt8))
  /-- `recv` of a listener or a request channel, to its first `Pending` -/
  | recv (id : Nat) (w : Waker) (bufLen : Nat)
  /-- a later poll of object `id`'s call, with waker `w` -/
  | poll (id : Nat) (w : Waker)
  /-- drop the future of object `id`'s call -/
  | cancel (id : Nat)
  /-- drop object `id` -/
  | drop (id : Nat)
  | asyncDrop (id : Nat)
  /-- a driver hands `pkt` to `inbound`; `reasm` is what the stack's reassembler makes of it -/
  | inbound (pkt : List UInt8) (port : PortId) (reasm : Reassembly)
  | pollForward (port task : Nat)
  | dropForward (port task : Nat)
  | outboundDone (port : Nat)
  | updateTime (now : Nat)
  /-- `Router::set_eid(eid)` -/
  | setEid (eid : Eid)
deriving DecidableEq, Repr

/-- What a step returns to its caller. -/
inductive Obs where
  | none
  /-- `Router::listener`: the new listener's id -/
  | listener (r : Except Error Nat)
  /-- the `app_unbind` of a listener's `drop` -/
  | unbind (r : Except Error Unit)
  | noexpire (r : Except Error Unit)
  /-- `send_vectored` of object `id`, with the tag `app_send_message` returned -/
  | sent (id : Nat) (r : Except Error Tag)
  /-- `RouterAsyncListener::recv` (on success a response channel is created) -/
  | listenerMsg (id : Nat) (r : Except Error Msg)
  /-- `RouterAsyncReqChannel::recv` -/
  | reqMsg (id : Nat) (r : Except Error Msg)
  | inbound (src : Option Eid)
  | time (r : Except Error Nat)
  | setEid (r : Except Error Unit)
deriving DecidableEq, Repr

/-- A waker `w` is woken: so is every receiving call whose latest poll registered it. -/
def Op.wake (ws : List Waker) : Op → Op
  | .receiving c te bl w b => .receiving c te bl w (b || decide (w ∈ ws))
  | op => op

/-- A request channel's `sent_tag` after a send that returned `tag`. -/
def Kind.setSentTag (tag : Tag) : Kind → Kind
  | .req eid _ te => .req eid (some tag) te
  | k => k

variable {maxMtu : Nat} {L : Type}

namespace Sys

/-- A router built by `Router::new` on a fresh stack, before any call. -/
def init (ownEid : Eid) (now : Nat) (lookup : L) (ports : List (PortSys maxMtu Fragmenter)) :
    Sys maxMtu L :=
  ⟨⟨Stack.new ownEid now, [], lookup⟩, Listeners.empty, ports, [], 0, []⟩

/-- Object `id`. -/
def find (s : Sys maxMtu L) (id : Nat) : Option App := s.apps.find? (·.id = id)

/-- Change object `id`. -/
def update (s : Sys maxMtu L) (id : Nat) (f : App → App) : Sys maxMtu L :=
  { s with apps := s.apps.map fun a => if a.id = id then f a else a }

/-- Drop object `id`. -/
def remove (s : Sys maxMtu L) (id : Nat) : Sys maxMtu L :=
  { s with apps := s.apps.filter (·.id ≠ id) }

/-- A new object, idle, with the next id. -/
def add (s : Sys maxMtu L) (k : Kind) : Sys maxMtu L :=
  { s with apps := s.apps ++ [⟨s.nextId, k, .idle⟩], nextId := s.nextId + 1 }

/-- The wakers `ws` are woken. -/
def wake (s : Sys maxMtu L) (ws : List Waker) : Sys maxMtu L :=
  { s with apps := s.apps.map fun a => { a with op := a.op.wake ws } }

/-- The rest of `send_vectored` once `send_message` returned `r`; a request channel keeps the
tag. -/
def finishSend (s : Sys maxMtu L) (id : Nat) (r : Except Error Tag) : Sys maxMtu L × Obs :=
  match r with
  | .ok tag =>
    (s.update id fun a => { a with kind := a.kind.setSentTag tag, op := .idle }, .sent id (.ok tag))
  | .error e => (s.update id fun a => { a with op := .idle }, .sent id (.error e))

/-- After a poll of send call `task` on port `p`: finish `send_vectored`, or keep waiting. -/
def sendContinue (s : Sys maxMtu L) (id p task : Nat) (ps : PortSys maxMtu Fragmenter) :
    Sys maxMtu L × Obs :=
  match (ps.sends.find? (·.id = task)).map SendTask.pc with
  | some (.sent r) => finishSend { s with ports := s.ports.set p ps } id r
  | _ => ({ s with ports := s.ports.set p ps }.update id fun a => { a with op := .sending p task },
      .none)

/-- The ghost flow log after `start_send` allocated a flow for a send with no tag. -/
def logFlow (s : Sys maxMtu L) (id : Nat) (eid : Eid) (tag : Option Tag) (frag : Fragmenter) :
    List FlowRec :=
  match tag, frag.tag with
  | none, .owned tv => s.flowLog ++ [⟨s.inner.stack.nextSerial, id, eid, tv⟩]
  | _, _ => s.flowLog

section Steps

variable (lk : PortLookup L) (maxPayload : Nat)

/-- `app_send_message(eid, typ, tag, tag_expires, ic, bufs, None)` and its first poll on the
port. -/
def sendStart (s : Sys maxMtu L) (id : Nat) (eid : Eid) (typ : MsgType) (tag : Option Tag)
    (tagExpires ic : Bool) (bufs : List (List UInt8)) : Option (Sys maxMtu L × Obs) :=
  match appSendStart lk s.inner s.ports (·.top.mtu) eid typ tag tagExpires ic none with
  | (.error e, inner) => some ({ s with inner := inner }, .sent id (.error e))
  | (.ok (p, ps, frag), inner) =>
    ((ps.step mctpHeader maxPayload Fragmenter.frag (.spawnSend s.nextId frag bufs)).bind
        (·.step mctpHeader maxPayload Fragmenter.frag (.pollSend s.nextId))).map fun ps' =>
      sendContinue { s with inner := inner, nextId := s.nextId + 1,
                            flowLog := s.logFlow id eid tag frag } id p s.nextId ps'

/-- The end of `recv` for object `a` once `app_recv_message` returned `res`. -/
def finishRecv (s : Sys maxMtu L) (a : App) (res : Except Error Msg) : Sys maxMtu L × Obs :=
  let s := s.update a.id fun a => { a with op := .idle }
  match a.kind with
  | .listener _ _ =>
    match res with
    | .error e => (s, .listenerMsg a.id (.error e))
    | .ok m =>
      match m.tag with
      | .owned tv => (s.add (.resp m.source tv m.typ), .listenerMsg a.id (.ok m))
      | .unowned _ => (s, .listenerMsg a.id (.error .internalError))
  | _ => (s, .reqMsg a.id res)

/-- A poll of object `a`'s `app_recv_message(cookie, tag_eid)` with waker `w`. -/
def pollRecv (s : Sys maxMtu L) (a : App) (cookie : Option AppCookie)
    (tagEid : Option (Tag × Eid)) (bufLen : Nat) (w : Waker) : Option (Sys maxMtu L × Obs) :=
  match appRecvPoll s.inner s.table cookie tagEid bufLen w with
  | none => none
  | some (inner, t, ws, none) =>
    some (({ s with inner := inner, table := t }.update a.id fun a =>
      { a with op := .receiving cookie tagEid bufLen w false }).wake ws, .none)
  | some (inner, t, _, some res) => some (finishRecv { s with inner := inner, table := t } a res)

/-- `recv` on object `a`, with the cookie or `(Unowned(tv), eid)` its kind selects by. -/
def recvStart (s : Sys maxMtu L) (a : App) (w : Waker) (bufLen : Nat) :
    Option (Sys maxMtu L × Obs) :=
  match a.kind with
  | .listener c _ => pollRecv s a (some c) none bufLen w
  | .req eid (some (.owned tv)) _ => pollRecv s a none (some (.unowned tv, eid)) bufLen w
  | .req _ _ _ => some (s, .reqMsg a.id (.error .badArgument))
  | .resp _ _ _ => some (s, .none)

/-- The drops of a listener, a request channel (which only warns) and a response channel. -/
def dropApp (s : Sys maxMtu L) (a : App) : Sys maxMtu L × Obs :=
  match a.kind with
  | .listener c _ => ({ s with table := (s.table.appUnbind c).2 }.remove a.id,
      .unbind (s.table.appUnbind c).1)
  | _ => (s.remove a.id, .none)

/-- `RouterAsyncReqChannel::async_drop`: release a non-expiring tag once a send got one. -/
def asyncDropApp (s : Sys maxMtu L) (a : App) : Option (Sys maxMtu L × Obs) :=
  match a.kind with
  | .req eid (some tag) false =>
    (appReleaseTag s.inner eid tag).map fun inner => ({ s with inner := inner }.remove a.id, .none)
  | .req _ _ _ => some (s.remove a.id, .none)
  | _ => some (s, .none)

/-- `Router::inbound(pkt, port)`; a forwarded packet becomes a `forward_packet` call polled once. -/
def inboundStep (s : Sys maxMtu L) (pkt : List UInt8) (port : PortId) (reasm : Reassembly) :
    Option (Sys maxMtu L × Obs) :=
  match mctpHeader pkt with
  | .error _ => some (s, .inbound none)
  | .ok hdr =>
    if s.inner.stack.isLocalDest pkt then
      (receiveLocal s.inner s.table pkt reasm).map fun (inner, t, ws) =>
        ({ s with inner := inner, table := t }.wake ws, .inbound (some hdr.source))
    else
      match lk.byEid s.inner.lookup hdr.dest (some port) with
      | (none, l) => some ({ s with inner := { s.inner with lookup := l } }, .inbound (some hdr.source))
      | (some p, l) =>
        match s.ports[p.id.toNat]? with
        | none => some ({ s with inner := { s.inner with lookup := l } }, .inbound (some hdr.source))
        | some ps =>
          ((ps.step mctpHeader maxPayload Fragmenter.frag (.spawnForward s.nextId pkt)).bind
              (·.step mctpHeader maxPayload Fragmenter.frag (.pollForward s.nextId))).map fun ps' =>
            ({ s with inner := { s.inner with lookup := l }, ports := s.ports.set p.id.toNat ps',
                      nextId := s.nextId + 1 }, .inbound (some hdr.source))

/-- A step of port `p`'s own. -/
def portStep (s : Sys maxMtu L) (p : Nat) (a : PortAct Fragmenter) : Option (Sys maxMtu L × Obs) :=
  match s.ports[p]? with
  | none => some (s, .none)
  | some ps =>
    (ps.step mctpHeader maxPayload Fragmenter.frag a).map fun ps' =>
      ({ s with ports := s.ports.set p ps' }, .none)

/-- One step; a call on a missing or busy object does nothing, and `none` where the code panics. -/
def step (s : Sys maxMtu L) : Act → Option (Sys maxMtu L × Obs)
  | .listener typ =>
    match s.table.appBind typ with
    | (.ok c, t) => some ({ s with table := t }.add (.listener c typ), .listener (.ok s.nextId))
    | (.error e, t) => some ({ s with table := t }, .listener (.error e))
  | .req eid => some (s.add (.req eid none true), .none)
  | .tagNoexpire id =>
    match s.find id with
    | some ⟨_, .req eid sentTag _, .idle⟩ =>
      if sentTag.isSome then some (s, .noexpire (.error .badArgument))
      else some (s.update id fun a => { a with kind := .req eid sentTag false }, .noexpire (.ok ()))
    | _ => some (s, .none)
  | .reqSend id typ ic bufs =>
    match s.find id with
    | some ⟨_, .req eid sentTag tagExpires, .idle⟩ =>
      sendStart lk maxPayload s id eid typ sentTag tagExpires ic bufs
    | _ => some (s, .none)
  | .respSend id ic bufs =>
    match s.find id with
    | some ⟨_, .resp eid tv typ, .idle⟩ =>
      sendStart lk maxPayload s id eid typ (some (.unowned tv)) false ic bufs
    | _ => some (s, .none)
  | .recv id w bufLen =>
    match s.find id with
    | some a => if a.op = .idle then recvStart s a w bufLen else some (s, .none)
    | none => some (s, .none)
  | .poll id w =>
    match s.find id with
    | some a =>
      match a.op with
      | .receiving cookie tagEid bufLen _ _ => pollRecv s a cookie tagEid bufLen w
      | .sending p task =>
        match s.ports[p]? with
        | some ps =>
          (ps.step mctpHeader maxPayload Fragmenter.frag (.pollSend task)).map fun ps' =>
            sendContinue s id p task ps'
        | none => some (s, .none)
      | .idle => some (s, .none)
    | none => some (s, .none)
  | .cancel id =>
    match s.find id with
    | some a =>
      match a.op with
      | .receiving .. => some (s.update id fun a => { a with op := .idle }, .none)
      | .sending p task =>
        match s.ports[p]? with
        | some ps =>
          some ({ s with ports := s.ports.set p (ps.dropSend task) }.update id
            fun a => { a with op := .idle }, .none)
        | none => some (s.update id fun a => { a with op := .idle }, .none)
      | .idle => some (s, .none)
    | none => some (s, .none)
  | .drop id =>
    match s.find id with
    | some a => if a.op = .idle then some (dropApp s a) else some (s, .none)
    | none => some (s, .none)
  | .asyncDrop id =>
    match s.find id with
    | some a => if a.op = .idle then asyncDropApp s a else some (s, .none)
    | none => some (s, .none)
  | .inbound pkt port reasm => inboundStep lk maxPayload s pkt port reasm
  | .pollForward p task => portStep maxPayload s p (.pollForward task)
  | .dropForward p task => portStep maxPayload s p (.dropForward task)
  | .outboundDone p => portStep maxPayload s p .outboundDone
  | .updateTime now =>
    some ({ s with inner := (updateTime s.inner now).2.1 }.wake (updateTime s.inner now).2.2,
      .time (updateTime s.inner now).1)
  | .setEid eid =>
    some ({ s with inner := { s.inner with stack := (s.inner.stack.setEid eid).2 } },
      .setEid (s.inner.stack.setEid eid).1)

/-- What one step can do, each shape with the guards `step` read to take it. -/
inductive StepCase (s : Sys maxMtu L) : Sys maxMtu L → Obs → Prop
  /-- a call on a missing or busy object, or `set_tag_expires` refused -/
  | noop {obs : Obs} : obs = .none ∨ obs = .noexpire (.error .badArgument) → StepCase s s obs
  | bind {typ : MsgType} {c : AppCookie} {t : Listeners} : s.table.appBind typ = (.ok c, t) →
      StepCase s ({ s with table := t }.add (.listener c typ)) (.listener (.ok s.nextId))
  | bindError {typ : MsgType} {e : Error} {t : Listeners} : s.table.appBind typ = (.error e, t) →
      StepCase s { s with table := t } (.listener (.error e))
  | req (eid : Eid) : StepCase s (s.add (.req eid none true)) .none
  | noexpire {id : Nat} {a : App} {eid : Eid} {te : Bool} : s.find id = some a →
      a.kind = .req eid none te → a.op = .idle →
      StepCase s (s.update id fun a => { a with kind := .req eid none false }) (.noexpire (.ok ()))
  /-- `send_vectored` of an idle channel, with its own destination, tag and `tag_expires` -/
  | send {id : Nat} {a : App} {eid : Eid} {typ : MsgType} {tag : Option Tag} {te ic : Bool}
      {bufs : List (List UInt8)} {s' : Sys maxMtu L} {obs : Obs} : s.find id = some a →
      a.op = .idle → (a.kind = .req eid tag te ∨
        ∃ tv, a.kind = .resp eid tv typ ∧ tag = some (.unowned tv) ∧ te = false) →
      s.sendStart lk maxPayload id eid typ tag te ic bufs = some (s', obs) → StepCase s s' obs
  | recv {id : Nat} {a : App} {w : Waker} {bufLen : Nat} {s' : Sys maxMtu L} {obs : Obs} :
      s.find id = some a → a.op = .idle → s.recvStart a w bufLen = some (s', obs) →
      StepCase s s' obs
  | pollRecv {id : Nat} {a : App} {c : Option AppCookie} {te : Option (Tag × Eid)} {bl : Nat}
      {w0 : Waker} {b : Bool} {w : Waker} {s' : Sys maxMtu L} {obs : Obs} :
      s.find id = some a → a.op = .receiving c te bl w0 b → s.pollRecv a c te bl w = some (s', obs) →
      StepCase s s' obs
  | pollSend {id : Nat} {a : App} {p task : Nat} {ps ps' : PortSys maxMtu Fragmenter} :
      s.find id = some a → a.op = .sending p task → s.ports[p]? = some ps →
      ps.step mctpHeader maxPayload Fragmenter.frag (.pollSend task) = some ps' →
      StepCase s (s.sendContinue id p task ps').1 (s.sendContinue id p task ps').2
  /-- `cancel` of a receive, or of a send whose port is missing -/
  | cancel {id : Nat} {a : App} : s.find id = some a →
      StepCase s (s.update id fun a => { a with op := .idle }) .none
  | cancelSend {id : Nat} {a : App} {p task : Nat} {ps : PortSys maxMtu Fragmenter} :
      s.find id = some a → a.op = .sending p task → s.ports[p]? = some ps →
      StepCase s ({ s with ports := s.ports.set p (ps.dropSend task) }.update id
        fun a => { a with op := .idle }) .none
  | drop {id : Nat} {a : App} : s.find id = some a → a.op = .idle →
      StepCase s (s.dropApp a).1 (s.dropApp a).2
  | asyncDrop {id : Nat} {a : App} {s' : Sys maxMtu L} {obs : Obs} : s.find id = some a →
      a.op = .idle → s.asyncDropApp a = some (s', obs) → StepCase s s' obs
  | inbound {pkt : List UInt8} {port : PortId} {reasm : Reassembly} {s' : Sys maxMtu L} {obs : Obs} :
      s.inboundStep lk maxPayload pkt port reasm = some (s', obs) → StepCase s s' obs
  /-- a driver's step on a port, which starts no call -/
  | port {p : Nat} {pa : PortAct Fragmenter} {s' : Sys maxMtu L} {obs : Obs} : pa.newId = none →
      s.portStep maxPayload p pa = some (s', obs) → StepCase s s' obs
  | time (now : Nat) :
      StepCase s ({ s with inner := (updateTime s.inner now).2.1 }.wake (updateTime s.inner now).2.2)
        (.time (updateTime s.inner now).1)
  | setEid (eid : Eid) :
      StepCase s { s with inner := { s.inner with stack := (s.inner.stack.setEid eid).2 } }
        (.setEid (s.inner.stack.setEid eid).1)

variable {lk maxPayload} in
theorem StepCase.of_eq {s t s' : Sys maxMtu L} {o obs : Obs} (he : some (t, o) = some (s', obs))
    (h : StepCase lk maxPayload s t o) : StepCase lk maxPayload s s' obs := by
  cases he
  exact h

variable {lk maxPayload} in
/-- Every step has one of the shapes of `StepCase`. -/
theorem step_cases {s s' : Sys maxMtu L} {obs : Obs} {act : Act}
    (hs : s.step lk maxPayload act = some (s', obs)) : StepCase lk maxPayload s s' obs := by
  have hnoop : ∀ {o}, some (s, o) = some (s', obs) →
      (o = .none ∨ o = .noexpire (.error .badArgument)) → StepCase lk maxPayload s s' obs :=
    fun he ho => .of_eq he (.noop ho)
  cases act <;> simp only [Sys.step] at hs
  case listener =>
    split at hs
    · exact .of_eq hs (.bind ‹_›)
    · exact .of_eq hs (.bindError ‹_›)
  case req eid => exact .of_eq hs (.req eid)
  case tagNoexpire =>
    split at hs
    · rename_i hf
      split at hs
      · exact hnoop hs (.inr rfl)
      · rename_i hne
        obtain rfl := Option.not_isSome_iff_eq_none.mp hne
        exact .of_eq hs (.noexpire hf rfl rfl)
    · exact hnoop hs (.inl rfl)
  case reqSend =>
    split at hs
    · exact .send ‹_› rfl (.inl rfl) hs
    · exact hnoop hs (.inl rfl)
  case respSend =>
    split at hs
    · exact .send ‹_› rfl (.inr ⟨_, rfl, rfl, rfl⟩) hs
    · exact hnoop hs (.inl rfl)
  case recv =>
    split at hs
    · split at hs
      · exact .recv ‹_› ‹_› hs
      · exact hnoop hs (.inl rfl)
    · exact hnoop hs (.inl rfl)
  case poll =>
    split at hs
    · rename_i hf
      split at hs
      · exact .pollRecv hf ‹_› hs
      · split at hs
        · obtain ⟨ps', h1, he⟩ := Option.map_eq_some'.mp hs
          exact .of_eq (congrArg some he) (.pollSend hf ‹_› ‹_› h1)
        · exact hnoop hs (.inl rfl)
      · exact hnoop hs (.inl rfl)
    · exact hnoop hs (.inl rfl)
  case cancel =>
    split at hs
    · rename_i hf
      split at hs
      · exact .of_eq hs (.cancel hf)
      · split at hs
        · exact .of_eq hs (.cancelSend hf ‹_› ‹_›)
        · exact .of_eq hs (.cancel hf)
      · exact hnoop hs (.inl rfl)
    · exact hnoop hs (.inl rfl)
  case drop =>
    split at hs
    · split at hs
      · exact .of_eq hs (.drop ‹_› ‹_›)
      · exact hnoop hs (.inl rfl)
    · exact hnoop hs (.inl rfl)
  case asyncDrop =>
    split at hs
    · split at hs
      · exact .asyncDrop ‹_› ‹_› hs
      · exact hnoop hs (.inl rfl)
    · exact hnoop hs (.inl rfl)
  case inbound => exact .inbound hs
  case pollForward => exact .port (by rfl) hs
  case dropForward => exact .port (by rfl) hs
  case outboundDone => exact .port (by rfl) hs
  case updateTime now => exact .of_eq hs (.time now)
  case setEid eid => exact .of_eq hs (.setEid eid)

/-- The states of the router from `Router::new` on ports built by `PortBuilder::build`. -/
inductive Reachable : Sys maxMtu L → Prop
  | init (ownEid : Eid) (now : Nat) (lookup : L) (ports : List (PortSys maxMtu Fragmenter))
      (hports : ∀ p ∈ ports, ∃ q mtu h, p = PortSys.init q mtu h) :
      Reachable (init ownEid now lookup ports)
  | step {s s' : Sys maxMtu L} {obs : Obs} (a : Act) :
      Reachable s → s.step lk maxPayload a = some (s', obs) → Reachable s'

/-- Run the steps of a list in order, with what each returned. -/
def run (s : Sys maxMtu L) : List Act → Option (Sys maxMtu L × List Obs)
  | [] => some (s, [])
  | a :: acts =>
    (s.step lk maxPayload a).bind fun (s', o) =>
      (run s' acts).map fun (s'', os) => (s'', o :: os)

variable {lk maxPayload}

theorem Reachable.run {s s' : Sys maxMtu L} {os : List Obs} :
    ∀ {acts : List Act}, Reachable lk maxPayload s → s.run lk maxPayload acts = some (s', os) →
      Reachable lk maxPayload s'
  | [], h, hr => by simp only [Sys.run, Option.some.injEq, Prod.mk.injEq] at hr; rw [← hr.1]; exact h
  | a :: acts, h, hr => by
    simp only [Sys.run, Option.bind_eq_some, Option.map_eq_some'] at hr
    obtain ⟨⟨s1, o⟩, h1, ⟨s2, os'⟩, h2, he⟩ := hr
    simp only [Prod.mk.injEq] at he
    rw [← he.1]
    exact Reachable.run (Reachable.step a h h1) h2

/-- A reachable state checked by evaluating a run to it. -/
theorem Reachable.of_run {s0 : Sys maxMtu L} (h0 : Reachable lk maxPayload s0) {acts : List Act}
    {P : Sys maxMtu L → List Obs → Prop} [∀ s os, Decidable (P s os)]
    (h : (s0.run lk maxPayload acts).any (fun r => decide (P r.1 r.2)) = true) :
    ∃ s os, s0.run lk maxPayload acts = some (s, os) ∧ Reachable lk maxPayload s ∧ P s os := by
  cases hr : s0.run lk maxPayload acts with
  | none => rw [hr] at h; cases h
  | some r =>
    rw [hr] at h
    exact ⟨r.1, r.2, rfl, h0.run hr, of_decide_eq_true h⟩

end Steps

/-! ## A router to run scenarios on -/

/-- The routing of the spec's scenarios: every EID is reached through port 0. -/
def singlePortLookup : PortLookup Unit := ⟨fun _ _ _ => (some ⟨0⟩, ())⟩

/-- A router of EID 8 whose one port has a ring of 4 slots and MTU 69, with `MAX_MTU` 255. -/
def singlePortRouter : Sys 255 Unit := init ⟨8⟩ 0 () [PortSys.init 4 69 (by decide)]

theorem singlePortRouter_reachable : Reachable singlePortLookup 1024 singlePortRouter :=
  .init _ _ _ _ fun _ hp => ⟨4, 69, _, List.mem_singleton.mp hp⟩

end Sys

end MctpRouter
