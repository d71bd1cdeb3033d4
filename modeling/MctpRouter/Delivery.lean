import MctpRouter.Guarantees

/-!
# Each message reaches the applications at most once

`app_recv_message` fetches the message of the handle it found, copies it out, and calls
`finished_receive` on that handle whether the copy fits or not; the stack gives every completed
message a handle it never gave before. So along any run no message is returned twice.

* `Stack.HandlesFrom s t`: `t` holds no message whose handle `s` did not hold, other than fresh
  ones, and its next handle is no lower. Every stack operation the router calls keeps it.
* `Obs.msg?`, `delivered`: the messages a run returns to `recv` calls.
* `handles_step`: every step keeps `HandlesFrom` on the stack, and a message it returns was in
  the stack before the step and is not after it. `run_handles` chains the steps of a run.
* **`delivered_once`**: along any run from a reachable state, the messages returned to the
  applications have pairwise distinct handles, and none of them is in the stack at the end.
-/

namespace MctpRouter

namespace Stack

/-- The handles of the messages the stack holds. -/
def handles (s : Stack) : List Nat := s.msgs.map Msg.handle

/-- `t` holds no message whose handle `s` did not hold, other than fresh ones. -/
structure HandlesFrom (s t : Stack) : Prop where
  next : s.nextHandle ≤ t.nextHandle
  msgs : ∀ h ∈ t.handles, h ∈ s.handles ∨ s.nextHandle ≤ h

theorem HandlesFrom.refl (s : Stack) : HandlesFrom s s := ⟨Nat.le_refl _, fun _ h => .inl h⟩

theorem HandlesFrom.trans {s t u : Stack} (h1 : HandlesFrom s t) (h2 : HandlesFrom t u) :
    HandlesFrom s u := by
  refine ⟨h1.next.trans h2.next, fun h hh => ?_⟩
  rcases h2.msgs h hh with hh | hh
  · exact h1.msgs h hh
  · exact .inr (h1.next.trans hh)

theorem HandlesFrom.of_msgs {s t : Stack} (hm : t.msgs = s.msgs) (hn : t.nextHandle = s.nextHandle) :
    HandlesFrom s t :=
  ⟨hn.ge, fun h hh => .inl (by rwa [handles, hm] at hh)⟩

theorem handlesFrom_updMsg (s : Stack) (h : Nat) {g : Msg → Msg} (hg : ∀ m, (g m).handle = m.handle) :
    HandlesFrom s (s.updMsg h g) := by
  refine ⟨Nat.le_refl _, fun x hx => .inl ?_⟩
  obtain ⟨m, hm, rfl⟩ := List.mem_map.mp hx
  obtain ⟨m', hm', rfl⟩ := mem_updMsg.mp hm
  refine List.mem_map.mpr ⟨m', hm', ?_⟩
  split
  · exact (hg m').symm
  · rfl

theorem handlesFrom_setCookie (s : Stack) (h : Nat) (c : Option AppCookie) :
    HandlesFrom s (s.setCookie h c) :=
  handlesFrom_updMsg s h (g := fun m => { m with cookie := c }) fun _ => rfl

theorem handlesFrom_returnHandle (s : Stack) (h : Nat) : HandlesFrom s (s.returnHandle h) :=
  handlesFrom_updMsg s h (g := fun m => { m with deferred := true }) fun _ => rfl

theorem handlesFrom_finishedReceive (s : Stack) (h : Nat) : HandlesFrom s (s.finishedReceive h) :=
  ⟨Nat.le_refl _, fun x hx => by
    obtain ⟨m, hm, rfl⟩ := List.mem_map.mp hx
    exact .inl (List.mem_map_of_mem _ (List.mem_of_mem_filter hm))⟩

theorem not_mem_handles_finishedReceive (s : Stack) (h : Nat) :
    h ∉ (s.finishedReceive h).handles := by
  simp [handles, finishedReceive]

theorem handlesFrom_receive {s s' : Stack} {pkt : List UInt8} {r : Reassembly}
    {res : Except Error (Option Msg)} (h : s.receive pkt r = (res, s')) : HandlesFrom s s' := by
  rcases receive_cases h with ⟨rfl, -⟩ | ⟨m, -, he, hh, -⟩
  · exact .refl _
  · rw [he]
    refine ⟨Nat.le_succ _, fun x hx => ?_⟩
    simp only [handles, List.map_append, List.map_cons, List.map_nil, List.mem_append,
      List.mem_singleton] at hx
    rcases hx with hx | rfl
    · exact .inl hx
    · exact .inr hh.ge

end Stack

variable {maxMtu : Nat} {L : Type}

/-- The message a step returns to a `recv` call, if it returns one. -/
def Obs.msg? : Obs → Option Msg
  | .listenerMsg _ (.ok m) | .reqMsg _ (.ok m) => some m
  | _ => .none

/-- The messages a run returns to `recv` calls, in order. -/
def delivered (os : List Obs) : List Msg := os.filterMap Obs.msg?

theorem handlesFrom_incomingLocal {t : Listeners}
    (huniq : ∀ i j typ, t.typeAt i = some typ → t.typeAt j = some typ → i = j) {tag : Tag}
    {typ : MsgType} {h : Nat} {inner inner' : RouterInner L} {t' : Listeners} {ws : List Waker}
    (hl : incomingLocal tag typ h inner t = some (inner', t', ws)) :
    Stack.HandlesFrom inner.stack inner'.stack := by
  unfold incomingLocal at hl
  split at hl
  · obtain ⟨r, hr, -, hsome, hnone⟩ := incomingListener_spec t huniq typ h inner
    rw [hr] at hl
    cases hl
    by_cases hex : ∃ i, t.typeAt i = some typ
    · obtain ⟨i, hi⟩ := hex
      cases hsome i hi
      exact (Stack.handlesFrom_setCookie _ _ _).trans (Stack.handlesFrom_returnHandle _ _)
    · cases hnone fun i hi => hex ⟨i, hi⟩
      exact Stack.handlesFrom_finishedReceive _ _
  · cases hl
    exact Stack.handlesFrom_returnHandle _ _

theorem handlesFrom_receiveLocal {t : Listeners}
    (huniq : ∀ i j typ, t.typeAt i = some typ → t.typeAt j = some typ → i = j)
    {inner inner' : RouterInner L} {pkt : List UInt8} {reasm : Reassembly} {t' : Listeners}
    {ws : List Waker} (hr : receiveLocal inner t pkt reasm = some (inner', t', ws)) :
    Stack.HandlesFrom inner.stack inner'.stack := by
  unfold receiveLocal at hr
  split at hr
  · rename_i m stack hrecv
    exact (Stack.handlesFrom_receive hrecv).trans (handlesFrom_incomingLocal huniq hr)
  · rename_i stack _ hrecv
    cases hr
    exact Stack.handlesFrom_receive hrecv

theorem appRecvPoll_handles {inner inner' : RouterInner L} {t t' : Listeners}
    {cookie : Option AppCookie} {tagEid : Option (Tag × Eid)} {bufLen : Nat} {w : Waker}
    {ws : List Waker} {res : Option (Except Error Msg)}
    (h : appRecvPoll inner t cookie tagEid bufLen w = some (inner', t', ws, res)) :
    Stack.HandlesFrom inner.stack inner'.stack ∧ ∀ m, res = some (.ok m) →
      m.handle ∈ inner.stack.handles ∧ m.handle ∉ inner'.stack.handles := by
  unfold appRecvPoll at h
  dsimp only at h
  split at h
  · cases h
  · split at h <;> cases h <;> exact ⟨.of_msgs rfl rfl, fun _ h => nomatch h⟩
  · rename_i hnd _
    obtain ⟨m, hm, he⟩ := Option.map_eq_some'.mp h
    cases he
    have hh : m.handle = hnd := by simpa using List.find?_some hm
    refine ⟨Stack.handlesFrom_finishedReceive _ _, fun m' hm' => ?_⟩
    split at hm' <;> cases hm'
    exact ⟨List.mem_map_of_mem _ (List.mem_of_find?_eq_some hm),
      hh ▸ Stack.not_mem_handles_finishedReceive _ _⟩

namespace Sys

theorem finishRecv_inner (s : Sys maxMtu L) (a : App) (res : Except Error Msg) :
    (s.finishRecv a res).1.inner = s.inner := by
  unfold Sys.finishRecv
  split
  · split
    · rfl
    · split <;> rfl
  · rfl

theorem finishRecv_msg {s : Sys maxMtu L} {a : App} {res : Except Error Msg} {m : Msg}
    (h : (s.finishRecv a res).2.msg? = some m) : res = .ok m := by
  unfold Sys.finishRecv at h
  split at h
  · split at h
    · cases h
    · split at h
      · cases h; rfl
      · cases h
  · cases res
    · cases h
    · cases h; rfl

theorem pollRecv_handles {s s' : Sys maxMtu L} {obs : Obs} {a : App} {c : Option AppCookie}
    {te : Option (Tag × Eid)} {bl : Nat} {w : Waker} (hp : s.pollRecv a c te bl w = some (s', obs)) :
    Stack.HandlesFrom s.inner.stack s'.inner.stack ∧ ∀ m, obs.msg? = some m →
      m.handle ∈ s.inner.stack.handles ∧ m.handle ∉ s'.inner.stack.handles := by
  unfold Sys.pollRecv at hp
  split at hp
  · cases hp
  · rename_i inner t ws hr
    cases hp
    exact ⟨(appRecvPoll_handles hr).1, fun _ h => nomatch h⟩
  · rename_i inner t ws res hr
    obtain ⟨hH, hmsg⟩ := appRecvPoll_handles hr
    have he := Option.some.inj hp
    obtain rfl : s' = _ := (congrArg Prod.fst he).symm
    obtain rfl : obs = _ := (congrArg Prod.snd he).symm
    rw [finishRecv_inner]
    exact ⟨hH, fun m hm => hmsg m (congrArg some (finishRecv_msg hm))⟩

theorem sendContinue_inner (s : Sys maxMtu L) (id p task : Nat) (ps : PortSys maxMtu Fragmenter) :
    (s.sendContinue id p task ps).1.inner = s.inner ∧ (s.sendContinue id p task ps).2.msg? = none := by
  unfold Sys.sendContinue Sys.finishSend
  split
  · split <;> exact ⟨rfl, rfl⟩
  · exact ⟨rfl, rfl⟩

theorem dropApp_handles (s : Sys maxMtu L) (a : App) :
    Stack.HandlesFrom s.inner.stack (s.dropApp a).1.inner.stack ∧ (s.dropApp a).2.msg? = none := by
  unfold Sys.dropApp
  split <;> exact ⟨.refl _, rfl⟩

theorem asyncDropApp_handles {s s' : Sys maxMtu L} {obs : Obs} {a : App}
    (hd : s.asyncDropApp a = some (s', obs)) :
    Stack.HandlesFrom s.inner.stack s'.inner.stack ∧ obs.msg? = none := by
  unfold Sys.asyncDropApp at hd
  split at hd
  · obtain ⟨inner, hr, he⟩ := Option.map_eq_some'.mp hd
    cases he
    obtain ⟨fl, rfl, -⟩ := appReleaseTag_eq hr
    exact ⟨.of_msgs rfl rfl, rfl⟩
  all_goals
    cases hd
    exact ⟨.refl _, rfl⟩

section Steps

variable {lk : PortLookup L} {maxPayload : Nat}

theorem sendStart_handles {s s' : Sys maxMtu L} {obs : Obs} {id : Nat} {eid : Eid} {typ : MsgType}
    {tag : Option Tag} {te ic : Bool} {bufs : List (List UInt8)}
    (hs : s.sendStart lk maxPayload id eid typ tag te ic bufs = some (s', obs)) :
    Stack.HandlesFrom s.inner.stack s'.inner.stack ∧ obs.msg? = none := by
  unfold Sys.sendStart at hs
  split at hs
  · rename_i e inner heq
    cases hs
    obtain ⟨-, ⟨_, -, hst⟩ | ⟨_, _, _, hr, -⟩⟩ := appSendStart_cases heq
    · exact ⟨.of_msgs (by rw [hst]) (by rw [hst]), rfl⟩
    · cases hr
  · rename_i p ps frag inner heq
    obtain ⟨-, ⟨_, hr, -⟩ | ⟨_, _, _, hr, -, hst⟩⟩ := appSendStart_cases heq
    · cases hr
    · cases hr
      obtain ⟨hm, hn, -⟩ := Stack.startSend_cases hst
      obtain ⟨ps', -, he⟩ := Option.map_eq_some'.mp hs
      obtain ⟨rfl, rfl⟩ := Prod.ext_iff.mp he
      obtain ⟨hinner, hmsg⟩ := sendContinue_inner
        { s with inner := inner, nextId := s.nextId + 1, flowLog := s.logFlow id eid tag frag }
        id p s.nextId ps'
      rw [hinner]
      exact ⟨.of_msgs hm hn, hmsg⟩

theorem inboundStep_handles {s s' : Sys maxMtu L} {obs : Obs} (hi : Inv s) {pkt : List UInt8}
    {port : PortId} {reasm : Reassembly}
    (hs : s.inboundStep lk maxPayload pkt port reasm = some (s', obs)) :
    Stack.HandlesFrom s.inner.stack s'.inner.stack ∧ obs.msg? = none := by
  unfold Sys.inboundStep at hs
  split at hs
  · cases hs; exact ⟨.refl _, rfl⟩
  split at hs
  · obtain ⟨⟨inner, t, ws⟩, hr, he⟩ := Option.map_eq_some'.mp hs
    cases he
    exact ⟨handlesFrom_receiveLocal hi.apps.typeUnique hr, rfl⟩
  split at hs
  · cases hs; exact ⟨.refl _, rfl⟩
  split at hs
  · cases hs; exact ⟨.refl _, rfl⟩
  · obtain ⟨_, -, he⟩ := Option.map_eq_some'.mp hs
    cases he
    exact ⟨.refl _, rfl⟩

theorem portStep_handles {s s' : Sys maxMtu L} {obs : Obs} {p : Nat} {pa : PortAct Fragmenter}
    (hs : s.portStep maxPayload p pa = some (s', obs)) :
    Stack.HandlesFrom s.inner.stack s'.inner.stack ∧ obs.msg? = none := by
  unfold Sys.portStep at hs
  split at hs
  · cases hs; exact ⟨.refl _, rfl⟩
  · obtain ⟨_, -, he⟩ := Option.map_eq_some'.mp hs
    cases he
    exact ⟨.refl _, rfl⟩

/-- **What a step does to the stack's messages.** -/
theorem handles_step {s s' : Sys maxMtu L} {obs : Obs} (hi : Inv s) {act : Act}
    (hs : s.step lk maxPayload act = some (s', obs)) :
    Stack.HandlesFrom s.inner.stack s'.inner.stack ∧ ∀ m, obs.msg? = some m →
      m.handle ∈ s.inner.stack.handles ∧ m.handle ∉ s'.inner.stack.handles := by
  have quiet : Stack.HandlesFrom s.inner.stack s'.inner.stack ∧ obs.msg? = none →
      Stack.HandlesFrom s.inner.stack s'.inner.stack ∧ ∀ m, obs.msg? = some m →
        m.handle ∈ s.inner.stack.handles ∧ m.handle ∉ s'.inner.stack.handles :=
    fun ⟨h, ho⟩ => ⟨h, fun m hm => by rw [ho] at hm; cases hm⟩
  cases step_cases hs with
  | noop ho => exact quiet ⟨.refl _, by rcases ho with rfl | rfl <;> rfl⟩
  | bind _ | bindError _ | req _ | noexpire _ _ _ | cancel _ | cancelSend _ _ _ =>
    exact quiet ⟨.refl _, rfl⟩
  | send _ _ _ hs' => exact quiet (sendStart_handles hs')
  | recv _ _ hr =>
    unfold Sys.recvStart at hr
    split at hr
    · exact pollRecv_handles hr
    · exact pollRecv_handles hr
    all_goals
      cases hr
      exact quiet ⟨.refl _, rfl⟩
  | pollRecv _ _ hp => exact pollRecv_handles hp
  | pollSend _ _ _ _ =>
    obtain ⟨hinner, hmsg⟩ := sendContinue_inner s _ _ _ _
    exact quiet ⟨by rw [hinner]; exact .refl _, hmsg⟩
  | drop _ _ => exact quiet (dropApp_handles _ _)
  | asyncDrop _ _ hd => exact quiet (asyncDropApp_handles hd)
  | inbound hin => exact quiet (inboundStep_handles hi hin)
  | port _ hp => exact quiet (portStep_handles hp)
  | time now =>
    rcases hu : updateTime s.inner now with ⟨r, inner', ws⟩
    obtain ⟨hm, hn, -⟩ := updateTime_cases hu
    exact ⟨.of_msgs hm hn, fun _ h => nomatch h⟩
  | setEid _ => exact quiet ⟨.of_msgs rfl rfl, rfl⟩

/-- What a run from a reachable state does to the stack's messages. -/
theorem run_handles {s : Sys maxMtu L} (h : Reachable lk maxPayload s) :
    ∀ {acts : List Act} {s' : Sys maxMtu L} {os : List Obs},
      s.run lk maxPayload acts = some (s', os) →
      Stack.HandlesFrom s.inner.stack s'.inner.stack ∧ ((delivered os).map Msg.handle).Nodup ∧
      ∀ m ∈ delivered os, m.handle ∉ s'.inner.stack.handles ∧
        m.handle < s'.inner.stack.nextHandle ∧
        (m.handle ∈ s.inner.stack.handles ∨ s.inner.stack.nextHandle ≤ m.handle)
  | [], _, _, hr => by
    cases hr
    exact ⟨.refl _, List.nodup_nil, fun _ h => nomatch h⟩
  | a :: acts, _, _, hr => by
    simp only [Sys.run, Option.bind_eq_some, Option.map_eq_some'] at hr
    obtain ⟨⟨s1, o⟩, h1, ⟨s2, os'⟩, h2, he⟩ := hr
    cases he
    obtain ⟨hH1, hmsg⟩ := handles_step h.inv h1
    obtain ⟨hH, hnd, hP⟩ := run_handles (Reachable.step a h h1) h2
    have hlift : ∀ x, x ∈ s1.inner.stack.handles ∨ s1.inner.stack.nextHandle ≤ x →
        x ∈ s.inner.stack.handles ∨ s.inner.stack.nextHandle ≤ x :=
      fun x hx => hx.elim (hH1.msgs x) fun hx => .inr (hH1.next.trans hx)
    cases ho : o.msg? with
    | none =>
      have hd : delivered (o :: os') = delivered os' := by simp [delivered, ho]
      rw [hd]
      exact ⟨hH1.trans hH, hnd, fun m hm => ⟨(hP m hm).1, (hP m hm).2.1, hlift _ (hP m hm).2.2⟩⟩
    | some m0 =>
      have hd : delivered (o :: os') = m0 :: delivered os' := by simp [delivered, ho]
      rw [hd]
      obtain ⟨hin, hout⟩ := hmsg m0 ho
      have hlt : m0.handle < s.inner.stack.nextHandle := by
        obtain ⟨x, hx, hxh⟩ := List.mem_map.mp hin
        exact hxh ▸ h.inv.stack.handleLt x hx
      have hgone : ∀ x, x ∈ s1.inner.stack.handles ∨ s1.inner.stack.nextHandle ≤ x →
          x ≠ m0.handle := by
        rintro x (hx | hx) rfl
        · exact hout hx
        · exact absurd (hlt.trans_le hH1.next) (Nat.not_lt.mpr hx)
      refine ⟨hH1.trans hH, ?_, ?_⟩
      · refine List.nodup_cons.mpr ⟨fun hm => ?_, hnd⟩
        obtain ⟨m, hm, hmh⟩ := List.mem_map.mp hm
        exact hgone _ (hP m hm).2.2 hmh
      · rintro m (_ | ⟨_, hm⟩)
        · exact ⟨fun hm => hgone _ (hH.msgs _ hm) rfl, hlt.trans_le (hH1.next.trans hH.next),
            .inl hin⟩
        · exact ⟨(hP m hm).1, (hP m hm).2.1, hlift _ (hP m hm).2.2⟩

/-- **Each message reaches the applications at most once**, under any interleaving. -/
theorem delivered_once {s s' : Sys maxMtu L} (h : Reachable lk maxPayload s) {acts : List Act}
    {os : List Obs} (hr : s.run lk maxPayload acts = some (s', os)) :
    ((delivered os).map Msg.handle).Nodup ∧ ∀ m ∈ delivered os, m.handle ∉ s'.inner.stack.handles :=
  have ⟨_, hnd, hP⟩ := run_handles h hr
  ⟨hnd, fun m hm => (hP m hm).1⟩

/-- Scenario S1, then two `recv`s: the first returns the request, the second waits. -/
theorem delivered_once_request :
    ∃ s os, singlePortRouter.run singlePortLookup 1024
        (listenerRequest ++ [.recv 0 5 64, .recv 0 6 64]) = some (s, os) ∧
      (delivered os).length = 1 ∧ ((delivered os).map Msg.handle).Nodup ∧
      ∀ m ∈ delivered os, m.handle ∉ s.inner.stack.handles := by
  obtain ⟨s, os, hr, -, hl⟩ : ∃ s os, singlePortRouter.run singlePortLookup 1024
      (listenerRequest ++ [.recv 0 5 64, .recv 0 6 64]) = some (s, os) ∧
      Reachable singlePortLookup 1024 s ∧ (delivered os).length = 1 :=
    singlePortRouter_reachable.of_run (by decide)
  exact ⟨s, os, hr, hl, delivered_once singlePortRouter_reachable hr⟩

end Steps

end Sys

end MctpRouter
