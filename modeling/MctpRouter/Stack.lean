import Mathlib.Data.List.Nodup
import MctpRouter.Send

/-!
# The MCTP stack, as the router uses it

`Stack` is the protocol state machine of `mctp-estack`. It lives outside `router.rs`, so every
definition here is modelled from the spec (§3, §4.4, §6.1, §8) and keeps only what the router
can observe.

* `Flow`: a tag value the local side allocated towards a peer, with its expiry (`none`: it never
  expires) and the cookie `start_send` was given.
* `Msg`: a completed message, held from `receive` until `finished_receive`; `deferred` once
  `return_handle` has put it in the deferred set.
* `Reassembly`: what the earlier packets of a message did to the reassembler. The router never
  sees it, so `receive` takes it as an argument.
* The operations of §6.1, with a frame lemma each. **`receive_cases`** and
  **`startSend_cases`** say everything the two operations that add state can do.

The serial number of a flow is ghost state: it names the flow that accepted a response.
-/

namespace MctpRouter

/-- Modelled from the spec: the tag of an MCTP packet, from the TO bit and the tag value bits
of its flags byte. -/
def flagsTag (flags : UInt8) : Tag :=
  if flags &&& 8 = 0 then .unowned ⟨flags &&& 7⟩ else .owned ⟨flags &&& 7⟩

/-- Modelled from the spec: how long an expiring flow lives, in milliseconds. -/
def flowTimeout : Nat := 5000

/-- Modelled from the spec: a tag value allocated by the local side towards `eid`. -/
structure Flow where
  eid : Eid
  tv : TagValue
  expiry : Option Nat
  cookie : Option AppCookie
  /-- ghost: the number of flows allocated before this one -/
  serial : Nat
deriving DecidableEq, Repr

/-- Modelled from the spec: a completed message in the stack, named by its `handle`. -/
structure Msg where
  handle : Nat
  source : Eid
  typ : MsgType
  tag : Tag
  ic : Bool
  payload : List UInt8
  cookie : Option AppCookie
  deferred : Bool
  /-- ghost: the serial of the flow that accepted this response -/
  flow : Option Nat
deriving DecidableEq, Repr

/-- Modelled from the spec: the outcome of reassembling one packet, as decided by the packets
before it. -/
inductive Reassembly where
  /-- the fragment was consumed and the message is incomplete -/
  | incomplete
  | error (e : Error)
  /-- this packet completed a message of type `typ` with payload `payload` -/
  | complete (typ : MsgType) (ic : Bool) (payload : List UInt8)
deriving DecidableEq, Repr

/-- Modelled from the spec: the state of the MCTP stack. -/
structure Stack where
  ownEid : Eid
  now : Nat
  flows : List Flow
  msgs : List Msg
  nextHandle : Nat
  nextSerial : Nat
deriving DecidableEq, Repr

namespace Stack

/-- Modelled from the spec: `Stack::new`, with no flow and no message. -/
def new (ownEid : Eid) (now : Nat) : Stack := ⟨ownEid, now, [], [], 0, 0⟩

/-- Modelled from the spec: `is_local_dest`, the packet's destination is the stack's EID. -/
def isLocalDest (s : Stack) (pkt : List UInt8) : Bool :=
  match mctpHeader pkt with
  | .ok hdr => hdr.dest = s.ownEid
  | .error _ => false

/-- The live flow for `(eid, tv)`. -/
def findFlow (s : Stack) (eid : Eid) (tv : TagValue) : Option Flow :=
  s.flows.find? fun f => f.eid = eid ∧ f.tv = tv

/-- The flows other than the one for `(eid, tv)`. -/
def dropFlow (s : Stack) (eid : Eid) (tv : TagValue) : List Flow :=
  s.flows.filter fun f => ¬(f.eid = eid ∧ f.tv = tv)

/-- Modelled from the spec: `receive(pkt)`. A completed response is accepted only on a live flow for
its source and tag value, and ends it if it expires. -/
def receive (s : Stack) (pkt : List UInt8) (r : Reassembly) : Except Error (Option Msg) × Stack :=
  match mctpHeader pkt, r with
  | .error e, _ => (.error e, s)
  | .ok _, .incomplete => (.ok none, s)
  | .ok _, .error e => (.error e, s)
  | .ok hdr, .complete typ ic payload =>
    match flagsTag (pkt.getD 3 0) with
    | .owned tv =>
      let m : Msg := ⟨s.nextHandle, hdr.source, typ, .owned tv, ic, payload, none, false, none⟩
      (.ok (some m), { s with msgs := s.msgs ++ [m], nextHandle := s.nextHandle + 1 })
    | .unowned tv =>
      match s.findFlow hdr.source tv with
      | none => (.error .invalidInput, s)
      | some f =>
        let m : Msg :=
          ⟨s.nextHandle, hdr.source, typ, .unowned tv, ic, payload, f.cookie, false, some f.serial⟩
        (.ok (some m), { s with msgs := s.msgs ++ [m], nextHandle := s.nextHandle + 1,
                                flows := if f.expiry.isSome then s.dropFlow hdr.source tv
                                         else s.flows })

/-- Apply `g` to the message with handle `h`. -/
def updMsg (s : Stack) (h : Nat) (g : Msg → Msg) : Stack :=
  { s with msgs := s.msgs.map fun m => if m.handle = h then g m else m }

/-- Modelled from the spec: `set_cookie(&handle, cookie)`. -/
def setCookie (s : Stack) (h : Nat) (c : Option AppCookie) : Stack :=
  s.updMsg h fun m => { m with cookie := c }

/-- Modelled from the spec: `return_handle(handle)`, into the deferred set. -/
def returnHandle (s : Stack) (h : Nat) : Stack :=
  s.updMsg h fun m => { m with deferred := true }

/-- Modelled from the spec: `finished_receive(handle)`, the message is gone. -/
def finishedReceive (s : Stack) (h : Nat) : Stack :=
  { s with msgs := s.msgs.filter (·.handle ≠ h) }

/-- Modelled from the spec: `get_deferred_bycookie(cookies)`, the oldest deferred message
carrying one of `cookies`. -/
def getDeferredBycookie (s : Stack) (cookies : List AppCookie) : Option Nat :=
  (s.msgs.find? fun m => m.deferred ∧ m.cookie.any (· ∈ cookies)).map Msg.handle

/-- Modelled from the spec: `get_deferred(eid, tag)`, the oldest deferred message from `eid`
with tag `tag`. -/
def getDeferred (s : Stack) (eid : Eid) (tag : Tag) : Option Nat :=
  (s.msgs.find? fun m => m.deferred ∧ m.source = eid ∧ m.tag = tag).map Msg.handle

/-- Modelled from the spec: `fetch_message(&handle)`. -/
def fetchMessage (s : Stack) (h : Nat) : Option Msg := s.msgs.find? (·.handle = h)

/-- The lowest tag value below 8 with no live flow to `eid`. -/
def freeTag (s : Stack) (eid : Eid) : Option TagValue :=
  ((List.range 8).find? fun v => (s.findFlow eid ⟨v.toUInt8⟩).isNone).map fun v => ⟨v.toUInt8⟩

/-- The fragmenter `start_send` returns for a message with tag `tag`. -/
def fragmenter (s : Stack) (eid : Eid) (typ : MsgType) (tag : Tag) (ic : Bool)
    (mtu : Option Nat) : Fragmenter :=
  ⟨s.ownEid, eid, typ, ic, tag, mtu.getD 68, 0, 0, false⟩

/-- The flow `start_send` allocates: it expires `flowTimeout` from now, or never. -/
def newFlow (s : Stack) (eid : Eid) (tv : TagValue) (tagExpires : Bool)
    (cookie : Option AppCookie) : Flow :=
  ⟨eid, tv, if tagExpires then some (s.now + flowTimeout) else none, cookie, s.nextSerial⟩

/-- Modelled from the spec: `start_send`. With no tag it allocates a flow on the lowest free tag
value; `Owned(tv)` needs a live flow that never expires. -/
def startSend (s : Stack) (eid : Eid) (typ : MsgType) (tag : Option Tag) (tagExpires : Bool)
    (ic : Bool) (mtu : Option Nat) (cookie : Option AppCookie) : Except Error (Fragmenter × Stack) :=
  match tag with
  | none =>
    match s.freeTag eid with
    | none => .error .tagUnavailable
    | some tv =>
      .ok (s.fragmenter eid typ (.owned tv) ic mtu,
        { s with flows := s.flows ++ [s.newFlow eid tv tagExpires cookie],
                 nextSerial := s.nextSerial + 1 })
  | some (.owned tv) =>
    if (s.findFlow eid tv).any (·.expiry.isNone) then .ok (s.fragmenter eid typ (.owned tv) ic mtu, s)
    else .error .badArgument
  | some (.unowned tv) => .ok (s.fragmenter eid typ (.unowned tv) ic mtu, s)

/-- Modelled from the spec: `cancel_flow(eid, tv)`. -/
def cancelFlow (s : Stack) (eid : Eid) (tv : TagValue) : Except Error Stack :=
  if (s.findFlow eid tv).isSome then .ok { s with flows := s.dropFlow eid tv }
  else .error .badArgument

/-- Modelled from the spec: `update(now)`, which ends the flows whose time is up and says
whether any did, with the next interval (at most 100 ms). The clock never goes back. -/
def update (s : Stack) (now : Nat) : Except Error (Nat × Bool × Stack) :=
  if now < s.now then .error .invalidInput
  else
    let live := s.flows.filter fun f => f.expiry.all (now < ·)
    .ok (100, decide (live.length < s.flows.length), { s with now := now, flows := live })

/-- Modelled from the spec: `set_eid(eid)`, which makes `eid` the stack's own EID. -/
def setEid (s : Stack) (eid : Eid) : Except Error Unit × Stack := (.ok (), { s with ownEid := eid })

/-! ## Frame lemmas -/

@[simp] theorem updMsg_flows (s : Stack) (h : Nat) (g : Msg → Msg) :
    (s.updMsg h g).flows = s.flows := rfl
@[simp] theorem updMsg_nextHandle (s : Stack) (h : Nat) (g : Msg → Msg) :
    (s.updMsg h g).nextHandle = s.nextHandle := rfl
@[simp] theorem updMsg_nextSerial (s : Stack) (h : Nat) (g : Msg → Msg) :
    (s.updMsg h g).nextSerial = s.nextSerial := rfl
@[simp] theorem finishedReceive_flows (s : Stack) (h : Nat) :
    (s.finishedReceive h).flows = s.flows := rfl
@[simp] theorem finishedReceive_nextHandle (s : Stack) (h : Nat) :
    (s.finishedReceive h).nextHandle = s.nextHandle := rfl
@[simp] theorem finishedReceive_nextSerial (s : Stack) (h : Nat) :
    (s.finishedReceive h).nextSerial = s.nextSerial := rfl
@[simp] theorem finishedReceive_msgs (s : Stack) (h : Nat) :
    (s.finishedReceive h).msgs = s.msgs.filter (·.handle ≠ h) := rfl

theorem updMsg_msgs_fresh {s : Stack} {pre : List Msg} {m : Msg} (hs : s.msgs = pre ++ [m])
    (hm : ∀ m' ∈ pre, m'.handle ≠ m.handle) (g : Msg → Msg) :
    (s.updMsg m.handle g).msgs = pre ++ [g m] := by
  have hpre : ∀ m' ∈ pre, (if m'.handle = m.handle then g m' else m') = m' :=
    fun m' hm' => if_neg (hm m' hm')
  simp [updMsg, hs, List.map_congr_left hpre]

theorem finishedReceive_msgs_fresh {s : Stack} {pre : List Msg} {m : Msg} (hs : s.msgs = pre ++ [m])
    (hm : ∀ m' ∈ pre, m'.handle ≠ m.handle) : (s.finishedReceive m.handle).msgs = pre := by
  have hpre : pre.filter (·.handle ≠ m.handle) = pre :=
    List.filter_eq_self.mpr fun m' hm' => by simpa using hm m' hm'
  simp only [finishedReceive_msgs, hs, List.filter_append, hpre]
  simp

theorem mem_updMsg {s : Stack} {h : Nat} {g : Msg → Msg} {m : Msg} :
    m ∈ (s.updMsg h g).msgs ↔ ∃ m' ∈ s.msgs, (if m'.handle = h then g m' else m') = m :=
  List.mem_map

theorem getDeferredBycookie_eq_none {s : Stack} {c : AppCookie} :
    s.getDeferredBycookie [c] = none ↔ ∀ m ∈ s.msgs, m.deferred = true → m.cookie ≠ some c := by
  simp only [getDeferredBycookie, Option.map_eq_none', List.find?_eq_none, Bool.and_eq_true,
    decide_eq_true_eq, not_and]
  refine forall₂_congr fun m _ => imp_congr_right fun _ => ?_
  cases m.cookie <;> simp

theorem getDeferred_eq_none {s : Stack} {eid : Eid} {tag : Tag} :
    s.getDeferred eid tag = none ↔ ∀ m ∈ s.msgs, m.deferred = true → ¬(m.source = eid ∧ m.tag = tag) := by
  simp [getDeferred]

theorem getDeferredBycookie_eq_some {s : Stack} {c : AppCookie} {hd : Nat}
    (h : s.getDeferredBycookie [c] = some hd) : ∃ m ∈ s.msgs, m.handle = hd ∧ m.cookie = some c := by
  simp only [getDeferredBycookie, Option.map_eq_some'] at h
  obtain ⟨m, hm, rfl⟩ := h
  have := List.find?_some hm
  simp only [Bool.and_eq_true, decide_eq_true_eq] at this
  refine ⟨m, List.mem_of_find?_eq_some hm, rfl, ?_⟩
  obtain ⟨-, hc⟩ := this
  cases hmc : m.cookie <;> simp_all

theorem getDeferred_eq_some {s : Stack} {eid : Eid} {tag : Tag} {hd : Nat}
    (h : s.getDeferred eid tag = some hd) :
    ∃ m ∈ s.msgs, m.handle = hd ∧ m.source = eid ∧ m.tag = tag := by
  simp only [getDeferred, Option.map_eq_some'] at h
  obtain ⟨m, hm, rfl⟩ := h
  have := List.find?_some hm
  simp only [Bool.and_eq_true, decide_eq_true_eq] at this
  exact ⟨m, List.mem_of_find?_eq_some hm, rfl, this.2⟩

theorem fetchMessage_eq {s : Stack} (hnd : (s.msgs.map Msg.handle).Nodup) {m : Msg}
    (hm : m ∈ s.msgs) : s.fetchMessage m.handle = some m := by
  obtain ⟨m', hm', hh⟩ : ∃ m', s.msgs.find? (·.handle = m.handle) = some m' ∧ m'.handle = m.handle := by
    cases hf : s.msgs.find? (·.handle = m.handle) with
    | none => simp [List.find?_eq_none] at hf; exact absurd rfl (hf m hm)
    | some m' => exact ⟨m', rfl, by simpa using List.find?_some hf⟩
  rw [fetchMessage, hm', List.inj_on_of_nodup_map hnd (List.mem_of_find?_eq_some hm') hm hh]

theorem mem_dropFlow {s : Stack} {eid : Eid} {tv : TagValue} {f : Flow} :
    f ∈ s.dropFlow eid tv ↔ f ∈ s.flows ∧ ¬(f.eid = eid ∧ f.tv = tv) := by
  simp only [dropFlow, List.mem_filter, decide_eq_true_eq]

theorem findFlow_eq_some {s : Stack} {eid : Eid} {tv : TagValue} {f : Flow}
    (h : s.findFlow eid tv = some f) : f ∈ s.flows ∧ f.eid = eid ∧ f.tv = tv := by
  have := List.find?_some h
  simp only [decide_eq_true_eq] at this
  exact ⟨List.mem_of_find?_eq_some h, this⟩

theorem findFlow_eq_none {s : Stack} {eid : Eid} {tv : TagValue} :
    s.findFlow eid tv = none ↔ ∀ f ∈ s.flows, ¬(f.eid = eid ∧ f.tv = tv) := by
  simp [findFlow]

/-! ## What the operations that add state can do -/

/-- **`receive` changes nothing or stores one new message.** -/
theorem receive_cases {s s' : Stack} {pkt : List UInt8} {r : Reassembly}
    {res : Except Error (Option Msg)} (h : s.receive pkt r = (res, s')) :
    (s' = s ∧ ∀ m, res ≠ .ok (some m)) ∨
    ∃ m, res = .ok (some m) ∧
      s' = { s with msgs := s.msgs ++ [m], nextHandle := s.nextHandle + 1, flows := s'.flows } ∧
      m.handle = s.nextHandle ∧ m.deferred = false ∧
      (∀ hdr, mctpHeader pkt = .ok hdr → m.source = hdr.source) ∧
      ((m.tag.isOwner ∧ m.cookie = none ∧ m.flow = none ∧ s'.flows = s.flows) ∨
        ∃ tv f, m.tag = .unowned tv ∧ f ∈ s.flows ∧ f.eid = m.source ∧ f.tv = tv ∧
          m.cookie = f.cookie ∧ m.flow = some f.serial ∧ ∀ g ∈ s'.flows, g ∈ s.flows) := by
  unfold receive at h
  split at h
  · exact .inl ⟨(Prod.mk.inj h).2.symm, fun m => by simp [← (Prod.mk.inj h).1]⟩
  · exact .inl ⟨(Prod.mk.inj h).2.symm, fun m => by simp [← (Prod.mk.inj h).1]⟩
  · exact .inl ⟨(Prod.mk.inj h).2.symm, fun m => by simp [← (Prod.mk.inj h).1]⟩
  · rename_i hdr typ ic payload hh
    split at h
    · obtain ⟨rfl, rfl⟩ := Prod.mk.inj h
      refine .inr ⟨_, rfl, rfl, rfl, rfl, fun hdr' h' => by simp_all, .inl ⟨rfl, rfl, rfl, rfl⟩⟩
    · rename_i tv _
      split at h
      · exact .inl ⟨(Prod.mk.inj h).2.symm, fun m => by simp [← (Prod.mk.inj h).1]⟩
      · rename_i f hf
        obtain ⟨rfl, rfl⟩ := Prod.mk.inj h
        obtain ⟨hmem, heid, htv⟩ := findFlow_eq_some hf
        refine .inr ⟨_, rfl, rfl, rfl, rfl, fun hdr' h' => by simp_all,
          .inr ⟨tv, f, rfl, hmem, heid, htv, rfl, rfl, fun g hg => ?_⟩⟩
        split at hg
        · exact (mem_dropFlow.mp hg).1
        · exact hg

/-- **`start_send` allocates at most one flow.** -/
theorem startSend_cases {s s' : Stack} {eid : Eid} {typ : MsgType} {tag : Option Tag}
    {tagExpires ic : Bool} {mtu : Option Nat} {cookie : Option AppCookie} {frag : Fragmenter}
    (h : s.startSend eid typ tag tagExpires ic mtu cookie = .ok (frag, s')) :
    s'.msgs = s.msgs ∧ s'.nextHandle = s.nextHandle ∧ frag.dest = eid ∧
    ((tag = none ∧ ∃ tv, frag.tag = .owned tv ∧ s.findFlow eid tv = none ∧
        s' = { s with flows := s.flows ++ [s.newFlow eid tv tagExpires cookie],
                      nextSerial := s.nextSerial + 1 }) ∨
      (∃ t, tag = some t ∧ frag.tag = t ∧ s' = s)) := by
  unfold startSend at h
  split at h
  · split at h
    · cases h
    · rename_i tv htv
      obtain ⟨rfl, rfl⟩ := Prod.mk.inj (Except.ok.inj h)
      simp only [freeTag, Option.map_eq_some'] at htv
      obtain ⟨v, hv, rfl⟩ := htv
      have := List.find?_some hv
      simp only [Option.isNone_iff_eq_none] at this
      exact ⟨rfl, rfl, rfl, .inl ⟨rfl, _, rfl, this, rfl⟩⟩
  · split at h
    · obtain ⟨rfl, rfl⟩ := Prod.mk.inj (Except.ok.inj h)
      exact ⟨rfl, rfl, rfl, .inr ⟨_, rfl, rfl, rfl⟩⟩
    · cases h
  · obtain ⟨rfl, rfl⟩ := Prod.mk.inj (Except.ok.inj h)
    exact ⟨rfl, rfl, rfl, .inr ⟨_, rfl, rfl, rfl⟩⟩

theorem startSend_frag {s s' : Stack} {eid : Eid} {typ : MsgType} {tag : Option Tag}
    {tagExpires ic : Bool} {mtu : Option Nat} {cookie : Option AppCookie} {frag : Fragmenter}
    (h : s.startSend eid typ tag tagExpires ic mtu cookie = .ok (frag, s')) :
    frag.done = false ∧ frag.mtu = mtu.getD 68 := by
  unfold startSend at h
  split at h
  · split at h
    · cases h
    · cases h; exact ⟨rfl, rfl⟩
  · split at h
    · cases h; exact ⟨rfl, rfl⟩
    · cases h
  · cases h; exact ⟨rfl, rfl⟩

theorem fetchMessage_isSome {s : Stack} {m : Msg} (hm : m ∈ s.msgs) :
    (s.fetchMessage m.handle).isSome :=
  List.find?_isSome.mpr ⟨m, hm, by simp⟩

theorem cancelFlow_eq {s s' : Stack} {eid : Eid} {tv : TagValue} (h : s.cancelFlow eid tv = .ok s') :
    s' = { s with flows := s.dropFlow eid tv } := by
  unfold cancelFlow at h
  split at h
  · exact (Except.ok.inj h).symm
  · cases h

theorem update_eq {s s' : Stack} {now next : Nat} {expired : Bool}
    (h : s.update now = .ok (next, expired, s')) :
    s' = { s with now := now, flows := s.flows.filter fun f => f.expiry.all (now < ·) } := by
  unfold update at h
  split at h
  · cases h
  · exact (Prod.mk.inj (Prod.mk.inj (Except.ok.inj h)).2).2.symm

end Stack

end MctpRouter
