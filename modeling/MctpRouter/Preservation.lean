import MctpRouter.Invariants

/-!
# Every step of the router keeps the invariant

One lemma per call of `router.rs`, each from the spec lemma of the router function it runs:

* `Inv.bind`, `Inv.dropListener`: `Router::listener` and a listener's `drop`.
* `Inv.sendStart`, `Inv.sendContinue`: `send_vectored` up to its first `Pending`, and its later
  polls.
* `Inv.pendingListener`, `Inv.pendingReq`, `Inv.pollRecv`: a poll of `app_recv_message` that
  registers its waker, or that takes a message.
* `Inv.toListener`, `Inv.toResponse`, `Inv.receiveLocal`: a message that `inbound` stores wakes
  every waiting call that would take it.
* `Inv.updateTime`, `Inv.asyncDropApp`, `Inv.inboundStep`, `Inv.portStep`.

**`Inv.step`** assembles them by cases on `step_cases`, and **`Reachable.inv`** follows by
induction on the run. **`Reachable.portsReachable`**: every port of the router is a state that
its own calls reach, so the port model of `MctpRouter.PortTasks` describes each port of the
router.
-/

namespace MctpRouter

variable {maxMtu : Nat} {L : Type}

namespace Sys

/-! ## Binding and unbinding listeners -/

theorem Inv.bind {s : Sys maxMtu L} (h : Inv s) {typ : MsgType} {c : AppCookie} {t : Listeners}
    (hb : s.table.appBind typ = (.ok c, t)) : Inv ({ s with table := t }.add (.listener c typ)) := by
  rcases Listeners.appBind_cases s.table typ with ⟨-, he⟩ | ⟨-, -, he⟩ | ⟨hno, i, hi, hget, -, he⟩
  · rw [he] at hb; cases hb
  · rw [he] at hb; cases hb
  rw [he] at hb
  simp only [Prod.mk.injEq, Except.ok.injEq] at hb
  obtain ⟨rfl, rfl⟩ := hb
  have hfree : ∀ a ∈ s.apps, ∀ c' t', a.kind = .listener c' t' → c'.idx ≠ i := by
    intro a ha c' t' hk heq
    have := h.apps.bound a ha c' t' hk
    rw [heq] at this
    simp [Listeners.typeAt, hget] at this
  let s1 : Sys maxMtu L := { s with table := s.table.set i (some (typ, none)) }
  have htype : ∀ j, s1.table.typeAt j = if j = i then some typ else s.table.typeAt j := by
    simpa using Listeners.typeAt_set s.table hi (some (typ, none))
  have hwaker : ∀ j, s1.table.wakerAt j = if j = i then none else s.table.wakerAt j := by
    simpa using Listeners.wakerAt_set s.table hi (some (typ, none))
  have hmem : ∀ b, b ∈ (s1.add (.listener ⟨i⟩ typ)).apps ↔
      b ∈ s.apps ∨ b = ⟨s.nextId, .listener ⟨i⟩ typ, .idle⟩ := fun b => mem_add s1
  refine ⟨⟨h.apps.nodup_add _, h.apps.lt_add _, ?_, ?_, ?_, ?_, ?_⟩, h.stack.frame rfl rfl, ?_⟩
  · exact fun a ha c te bl w b hop => h.apps.ops a (mem_of_mem_add s1 ha hop) c te bl w b hop
  · intro a ha c' t' hk
    simp only [add_table, htype]
    rcases (hmem a).mp ha with ha | rfl
    · rw [if_neg (hfree a ha c' t' hk)]
      exact h.apps.bound a ha c' t' hk
    · cases hk; simp
  · intro j t' hj
    simp only [add_table, htype] at hj
    split_ifs at hj with hji
    · cases hj
      exact ⟨_, (hmem _).mpr (.inr rfl), by rw [hji]⟩
    · obtain ⟨a, ha, hk⟩ := h.apps.owner j t' hj
      exact ⟨a, (hmem a).mpr (.inl ha), hk⟩
  · intro a ha b hb c' t1 t2 hka hkb
    rcases (hmem a).mp ha with ha | rfl <;> rcases (hmem b).mp hb with hb | rfl
    · exact h.apps.cookieUnique a ha b hb c' t1 t2 hka hkb
    · cases hkb; exact absurd rfl (hfree a ha _ _ hka)
    · cases hka; exact absurd rfl (hfree b hb _ _ hkb)
    · rfl
  · intro j k t' hj hk
    simp only [add_table, htype] at hj hk
    split_ifs at hj hk with hji hki hki
    · rw [hji, hki]
    · cases hj; exact absurd hk (hno k)
    · cases hk; exact absurd hj (hno j)
    · exact h.apps.typeUnique j k t' hj hk
  · refine ⟨fun a ha c' t' bl w hk hop hw => ?_,
      fun a ha te bl w hop => h.wait.reqWaker a (mem_of_mem_add s1 ha hop) te bl w hop,
      fun a ha c' te bl w hop => h.wait.noLost a (mem_of_mem_add s1 ha hop) c' te bl w hop⟩
    have ha := mem_of_mem_add s1 ha hop
    simp only [add_table, hwaker, if_neg (hfree a ha c' t' hk)]
    exact h.wait.listenerWaker a ha c' t' bl w hk hop hw

theorem Inv.dropListener {s : Sys maxMtu L} (h : Inv s) {a : App} (ha : a ∈ s.apps) {c : AppCookie}
    {typ : MsgType} (hk : a.kind = .listener c typ) :
    (s.table.appUnbind c).1 = .ok () ∧
      Inv ({ s with table := (s.table.appUnbind c).2 }.remove a.id) := by
  have hbound := h.apps.bound a ha c typ hk
  rcases Listeners.appUnbind_cases s.table c with ⟨hne, he⟩ | ⟨hget, -⟩
  swap
  · exact absurd hget (Listeners.get_ne_none_of_typeAt hbound)
  rw [he]
  have hi := Listeners.lt_of_get_ne_none hne
  have hother : ∀ b ∈ s.apps, b.id ≠ a.id → ∀ c' t', b.kind = .listener c' t' → c'.idx ≠ c.idx := by
    intro b hb hba c' t' hkb heq
    have : c' = c := by cases c'; cases c; simp_all
    subst this
    exact hba (congrArg App.id (h.apps.cookieUnique b hb a ha c' t' typ hkb hk))
  let s1 : Sys maxMtu L := { s with table := s.table.set c.idx none }
  have htype : ∀ j, s1.table.typeAt j = if j = c.idx then none else s.table.typeAt j := by
    simpa using Listeners.typeAt_set s.table hi none
  have hwaker : ∀ j, s1.table.wakerAt j = if j = c.idx then none else s.table.wakerAt j := by
    simpa using Listeners.wakerAt_set s.table hi none
  have hmem : ∀ b, b ∈ (s1.remove a.id).apps ↔ b ∈ s.apps ∧ b.id ≠ a.id := fun b => mem_remove s1
  refine ⟨rfl, ⟨h.apps.idsNodup.sublist (List.Sublist.map _ (List.filter_sublist _)),
    fun b hb => h.apps.idsLt b ((hmem b).mp hb).1, fun b hb => h.apps.ops b ((hmem b).mp hb).1,
    ?_, ?_, fun b hb b' hb' => h.apps.cookieUnique b ((hmem b).mp hb).1 b' ((hmem b').mp hb').1,
    ?_⟩, h.stack.frame rfl rfl, ?_⟩
  · intro b hb c' t' hkb
    obtain ⟨hb, hba⟩ := (hmem b).mp hb
    simp only [remove_table, htype, if_neg (hother b hb hba c' t' hkb)]
    exact h.apps.bound b hb c' t' hkb
  · intro j t' hj
    simp only [remove_table, htype] at hj
    split_ifs at hj with hjc
    obtain ⟨b, hb, hkb⟩ := h.apps.owner j t' hj
    refine ⟨b, (hmem b).mpr ⟨hb, fun hba => hjc ?_⟩, hkb⟩
    rw [h.apps.find_unique_id hb ha hba, hk] at hkb
    cases hkb
    rfl
  · intro j k t' hj hk'
    simp only [remove_table, htype] at hj hk'
    split_ifs at hj hk'
    exact h.apps.typeUnique j k t' hj hk'
  · refine ⟨fun b hb c' t' bl w hkb hop hw => ?_, fun b hb => h.wait.reqWaker b ((hmem b).mp hb).1,
      fun b hb => h.wait.noLost b ((hmem b).mp hb).1⟩
    obtain ⟨hb, hba⟩ := (hmem b).mp hb
    simp only [remove_table, hwaker, if_neg (hother b hb hba c' t' hkb)]
    exact h.wait.listenerWaker b hb c' t' bl w hkb hop hw

/-! ## Sending -/

theorem Kind.setSentTag_eq_listener (tag : Tag) (k : Kind) (c : AppCookie) (t : MsgType) :
    k.setSentTag tag = .listener c t ↔ k = .listener c t := by
  cases k <;> simp [Kind.setSentTag]

theorem Inv.finishSend {s : Sys maxMtu L} (h : Inv s) (id : Nat) (r : Except Error Tag) :
    Inv (s.finishSend id r).1 := by
  cases r with
  | ok tag =>
    exact h.settle id _ (fun _ => rfl) (fun a => Kind.setSentTag_eq_listener tag a.kind)
      fun _ _ _ _ _ _ => nofun
  | error e => exact h.settle id _ (fun _ => rfl) (fun _ _ _ => Iff.rfl) fun _ _ _ _ _ _ => nofun

theorem Inv.sendContinue {s : Sys maxMtu L} (h : Inv s) (id p task : Nat)
    (ps : PortSys maxMtu Fragmenter) : Inv (s.sendContinue id p task ps).1 := by
  unfold Sys.sendContinue
  split
  · exact (h.ports _).finishSend id _
  · exact (h.ports _).settle id _ (fun _ => rfl) (fun _ _ _ => Iff.rfl) fun _ _ _ _ _ _ => nofun

theorem StackInv.startSend {s s' : Sys maxMtu L} (h : StackInv s) {id : Nat} {eid : Eid}
    {typ : MsgType} {tag : Option Tag} {tagExpires ic : Bool} {mtu : Option Nat}
    {frag : Fragmenter}
    (hst : s.inner.stack.startSend eid typ tag tagExpires ic mtu none = .ok (frag, s'.inner.stack))
    (hlog : s'.flowLog = s.logFlow id eid tag frag) : StackInv s' := by
  obtain ⟨hm, hn, -, ⟨rfl, tv, hft, -, hst'⟩ | ⟨t, rfl, -, hst'⟩⟩ := Stack.startSend_cases hst
  · have hlog' : s'.flowLog = s.flowLog ++ [⟨s.inner.stack.nextSerial, id, eid, tv⟩] := by
      simp only [hlog, logFlow, hft]
    have hsub : ∀ r ∈ s.flowLog, r ∈ s'.flowLog := fun r hr => by
      rw [hlog']; exact List.mem_append_left _ hr
    refine ⟨?_, ?_, ?_, ?_, ?_, ?_, ?_⟩
    · rw [hm]; exact h.deferred
    · rw [hm]; exact h.handlesNodup
    · rw [hm, hn]; exact h.handleLt
    · rw [hm]; exact h.cookieOwned
    · rw [hst']
      intro f hf
      rcases List.mem_append.mp hf with hf | hf
      · exact h.flowCookie f hf
      · rw [List.mem_singleton.mp hf]; rfl
    · rw [hst']
      intro f hf
      rcases List.mem_append.mp hf with hf | hf
      · exact (h.flowLogged f hf).imp fun _ hr => hsub _ hr
      · rw [List.mem_singleton.mp hf]; exact ⟨id, by rw [hlog']; simp [Stack.newFlow]⟩
    · rw [hm]
      exact fun m hm tv htv =>
        (h.msgFlow m hm tv htv).imp fun _ => Exists.imp fun _ hr => ⟨hr.1, hsub _ hr.2⟩
  · exact h.frame hst' hlog

/-! ## Receiving -/

theorem mem_update {s : Sys maxMtu L} {id : Nat} {f : App → App} {b : App} :
    b ∈ (s.update id f).apps ↔ ∃ b0 ∈ s.apps, (if b0.id = id then f b0 else b0) = b :=
  List.mem_map

theorem AppsInv.pending {s s' : Sys maxMtu L} (h : AppsInv s) {a : App} (ha : a ∈ s.apps)
    {cookie : Option AppCookie} {tagEid : Option (Tag × Eid)} {bufLen : Nat} {w : Waker}
    (hfit : a.Fits cookie tagEid)
    (happs : s'.apps = s.apps.map fun b => if b.id = a.id then
      { b with op := .receiving cookie tagEid bufLen w false } else b)
    (htable : ∀ i, s'.table.typeAt i = s.table.typeAt i) (hnext : s'.nextId = s.nextId) :
    AppsInv s' :=
  h.map _ happs (fun b _ => by split_ifs <;> rfl) (fun b _ _ _ => by split_ifs <;> exact Iff.rfl)
    (fun b hb => by
      split_ifs with hid
      · obtain rfl := h.find_unique_id hb ha hid
        intro c te bl w' b' hop
        simp only [Op.receiving.injEq] at hop
        obtain ⟨rfl, rfl, -⟩ := hop
        exact hfit
      · exact h.ops b hb)
    htable (Nat.le_of_eq hnext.symm)

theorem Inv.pendingListener {s : Sys maxMtu L} (h : Inv s) {a : App} (ha : a ∈ s.apps)
    {c : AppCookie} {typ : MsgType} (hk : a.kind = .listener c typ) {bufLen : Nat} {w : Waker}
    (hnone : s.inner.stack.getDeferredBycookie [c] = none) :
    Inv (({ s with table := s.table.register c w }.update a.id
      fun a => { a with op := .receiving (some c) none bufLen w false }).wake []) := by
  have hget := Listeners.get_ne_none_of_typeAt (h.apps.bound a ha c typ hk)
  refine Inv.wake (h.apps.pending ha (.inl ⟨c, typ, hk, rfl, rfl⟩) rfl
    (Listeners.typeAt_register _ c w) rfl) (h.stack.frame rfl rfl) ⟨?_, ?_, ?_⟩
  · intro b hb c' typ' bl' w' hkb hop _
    obtain ⟨b0, hb0, rfl⟩ := mem_update.mp hb
    show (s.table.register c w).wakerAt c'.idx = some w'
    rw [Listeners.wakerAt_register]
    by_cases hid : b0.id = a.id
    · obtain rfl := h.apps.find_unique_id hb0 ha hid
      rw [if_pos rfl] at hop
      obtain ⟨hc, -, -, rfl, -⟩ := Op.receiving.inj hop
      cases hc
      exact if_pos ⟨rfl, hget⟩
    · rw [if_neg hid] at hkb hop
      rw [if_neg]
      · exact h.wait.listenerWaker b0 hb0 c' typ' bl' w' hkb hop (List.not_mem_nil _)
      · rintro ⟨hc, -⟩
        have : c' = c := by cases c; cases c'; simp_all
        subst this
        exact hid (congrArg App.id (h.apps.cookieUnique b0 hb0 a ha c' typ' typ hkb hk))
  · intro b hb te bl' w' hop hw
    obtain ⟨b0, hb0, rfl⟩ := mem_update.mp hb
    split_ifs at hop with hid
    · simp at hop
    · exact h.wait.reqWaker b0 hb0 te bl' w' hop hw
  · intro b hb c' te bl' w' hop hw m hm hsel
    obtain ⟨b0, hb0, rfl⟩ := mem_update.mp hb
    split_ifs at hop with hid
    · simp only [Op.receiving.injEq] at hop
      obtain ⟨rfl, rfl, -⟩ := hop
      exact Stack.getDeferredBycookie_eq_none.mp hnone m hm (h.stack.deferred m hm) hsel
    · exact h.wait.noLost b0 hb0 c' te bl' w' hop hw m hm hsel

theorem Inv.pendingReq {s : Sys maxMtu L} (h : Inv s) {a : App} (ha : a ∈ s.apps) {tag : Tag}
    {eid : Eid} (hfit : a.Fits none (some (tag, eid))) {bufLen : Nat} {w : Waker}
    (hnone : s.inner.stack.getDeferred eid tag = none) :
    Inv (({ s with inner := { s.inner with
                   appReceiveWakers := (registerMulti s.inner.appReceiveWakers w).1 } }.update a.id
      fun a => { a with op := .receiving none (some (tag, eid)) bufLen w false }).wake
        (registerMulti s.inner.appReceiveWakers w).2) := by
  refine Inv.wake (h.apps.pending ha hfit rfl (fun _ => rfl) rfl) (h.stack.frame rfl rfl)
    ⟨?_, ?_, ?_⟩
  · intro b hb c' typ' bl' w' hkb hop _
    obtain ⟨b0, hb0, rfl⟩ := mem_update.mp hb
    split_ifs at hkb hop with hid
    · simp at hop
    · exact h.wait.listenerWaker b0 hb0 c' typ' bl' w' hkb hop (List.not_mem_nil _)
  · intro b hb te bl' w' hop hw
    obtain ⟨b0, hb0, rfl⟩ := mem_update.mp hb
    split_ifs at hop with hid
    · simp only [Op.receiving.injEq] at hop
      obtain ⟨-, -, -, rfl, -⟩ := hop
      exact mem_registerMulti_self _ _
    · exact (registerMulti_keep (h.wait.reqWaker b0 hb0 te bl' w' hop
        (List.not_mem_nil _))).resolve_right hw
  · intro b hb c' te bl' w' hop hw m hm hsel
    obtain ⟨b0, hb0, rfl⟩ := mem_update.mp hb
    split_ifs at hop with hid
    · simp only [Op.receiving.injEq] at hop
      obtain ⟨rfl, rfl, -⟩ := hop
      exact Stack.getDeferred_eq_none.mp hnone m hm (h.stack.deferred m hm) hsel
    · exact h.wait.noLost b0 hb0 c' te bl' w' hop (List.not_mem_nil _) m hm hsel

theorem Inv.finishRecv {s : Sys maxMtu L} (h : Inv s) (a : App) (res : Except Error Msg) :
    Inv (s.finishRecv a res).1 := by
  have h1 := h.settle a.id (fun a => { a with op := .idle }) (fun _ => rfl) (fun _ _ _ => Iff.rfl)
    fun _ _ _ _ _ _ => nofun
  unfold Sys.finishRecv
  split
  · split
    · exact h1
    · split
      · exact h1.add _ fun _ _ => nofun
      · exact h1
  · exact h1

theorem Inv.pollRecv {s s' : Sys maxMtu L} {obs : Obs} (h : Inv s) {a : App} (ha : a ∈ s.apps)
    {cookie : Option AppCookie} {tagEid : Option (Tag × Eid)} {bufLen : Nat} {w : Waker}
    (hfit : a.Fits cookie tagEid) (hp : s.pollRecv a cookie tagEid bufLen w = some (s', obs)) :
    Inv s' := by
  unfold Sys.pollRecv at hp
  split at hp
  · cases hp
  · rename_i inner t ws hpoll
    cases hp
    rcases appRecvPoll_pending hpoll with
      ⟨c, rfl, rfl, hnone, rfl, rfl, rfl⟩ | ⟨tag, eid, rfl, rfl, hnone, rfl, rfl, rfl⟩
    · rcases hfit with ⟨c', typ, hk, hc, -⟩ | ⟨_, _, _, _, hc, -⟩
      · cases hc
        exact h.pendingListener ha hk hnone
      · cases hc
    · exact h.pendingReq ha hfit hnone
  · rename_i inner t ws res hpoll
    obtain ⟨m, -, -, rfl, rfl, -, -⟩ := appRecvPoll_ready h.stack.handlesNodup hpoll
    rw [show s' = _ from congrArg Prod.fst (Option.some.inj hp).symm]
    let s1 : Sys maxMtu L :=
      { s with inner := { s.inner with stack := s.inner.stack.finishedReceive m.handle } }
    have h1 : Inv s1 := h.congr rfl rfl (List.filter_sublist _) (Nat.le_refl _) (fun _ h => h) rfl
      (Nat.le_refl _) fun _ h => h
    exact h1.finishRecv a res

theorem Inv.recvStart {s s' : Sys maxMtu L} {obs : Obs} (h : Inv s) {a : App} (ha : a ∈ s.apps)
    {w : Waker} {bufLen : Nat} (hr : s.recvStart a w bufLen = some (s', obs)) : Inv s' := by
  unfold Sys.recvStart at hr
  split at hr
  · rename_i c typ hk
    exact h.pollRecv ha (.inl ⟨c, typ, hk, rfl, rfl⟩) hr
  · rename_i eid tv te hk
    exact h.pollRecv ha (.inr ⟨eid, tv, te, hk, rfl, rfl⟩) hr
  · cases hr; exact h
  · cases hr; exact h

/-! ## Messages coming in -/

theorem StackInv.push {s s' : Sys maxMtu L} (h : StackInv s) {m : Msg}
    (hmsgs : s'.inner.stack.msgs = s.inner.stack.msgs ++ [m])
    (hh : m.handle = s.inner.stack.nextHandle)
    (hnext : s'.inner.stack.nextHandle = s.inner.stack.nextHandle + 1) (hdef : m.deferred = true)
    (hcookie : m.cookie ≠ none → m.tag.isOwner = true)
    (hflow : ∀ tv, m.tag = .unowned tv → ∃ k o, m.flow = some k ∧ ⟨k, o, m.source, tv⟩ ∈ s.flowLog)
    (hflows : ∀ f ∈ s'.inner.stack.flows, f ∈ s.inner.stack.flows)
    (hlog : s'.flowLog = s.flowLog) : StackInv s' :=
  have hmem : ∀ m' ∈ s'.inner.stack.msgs, m' ∈ s.inner.stack.msgs ∨ m' = m := fun m' hm' => by
    simpa [hmsgs] using hm'
  { deferred := fun m' hm' => (hmem m' hm').elim (h.deferred m') (· ▸ hdef)
    handlesNodup := by
      rw [hmsgs, List.map_append, List.nodup_append]
      refine ⟨h.handlesNodup, List.nodup_singleton _, ?_⟩
      intro x hx hy
      obtain ⟨m', hm', rfl⟩ := List.mem_map.mp hx
      rw [List.map_singleton, List.mem_singleton] at hy
      have := h.handleLt m' hm'
      omega
    handleLt := fun m' hm' => hnext ▸ (hmem m' hm').elim
      (fun hm' => Nat.lt_succ_of_lt (h.handleLt m' hm')) (fun e => e ▸ hh ▸ Nat.lt_succ_self _)
    cookieOwned := fun m' hm' => (hmem m' hm').elim (h.cookieOwned m') (· ▸ hcookie)
    flowCookie := fun f hf => h.flowCookie f (hflows f hf)
    flowLogged := fun f hf => hlog ▸ h.flowLogged f (hflows f hf)
    msgFlow := fun m' hm' => hlog ▸ (hmem m' hm').elim (h.msgFlow m') (· ▸ hflow) }

/-- Which waiting calls a stored message can satisfy, and where their wakers are. -/
theorem Inv.waiting_selects {s : Sys maxMtu L} (h : Inv s) {a : App} (ha : a ∈ s.apps)
    {c : Option AppCookie} {te : Option (Tag × Eid)} {bl : Nat} {w : Waker}
    (hop : a.op = .receiving c te bl w false) {m : Msg} (hsel : Selects c te m) :
    (∃ c0, m.cookie = some c0 ∧ s.table.wakerAt c0.idx = some w) ∨
      (∃ tv, m.tag = .unowned tv ∧ w ∈ s.inner.appReceiveWakers) := by
  rcases h.apps.ops a ha c te bl w false hop with ⟨c0, typ, hk, rfl, rfl⟩ | ⟨eid, tv, te', hk, rfl, rfl⟩
  · exact .inl ⟨c0, hsel, h.wait.listenerWaker a ha c0 typ bl w hk hop (List.not_mem_nil _)⟩
  · exact .inr ⟨tv, hsel.2, h.wait.reqWaker a ha _ bl w hop (List.not_mem_nil _)⟩

theorem Inv.toListener {s : Sys maxMtu L} (h : Inv s) {stack : Stack} {m : Msg} {i : Nat}
    (hmsgs : stack.msgs = s.inner.stack.msgs ++ [m]) (hh : m.handle = s.inner.stack.nextHandle)
    (hnext : stack.nextHandle = s.inner.stack.nextHandle + 1) (howner : m.tag.isOwner = true)
    (hflows : ∀ f ∈ stack.flows, f ∈ s.inner.stack.flows) :
    Inv ({ s with inner := { s.inner with
                   stack := (stack.setCookie m.handle (some ⟨i⟩)).returnHandle m.handle },
                  table := s.table.takeWaker i }.wake (s.table.wakerAt i).toList) := by
  have hfresh : ∀ x ∈ s.inner.stack.msgs, x.handle ≠ m.handle := fun x hx =>
    hh ▸ Nat.ne_of_lt (h.stack.handleLt x hx)
  have hm2 : ((stack.setCookie m.handle (some ⟨i⟩)).returnHandle m.handle).msgs =
      s.inner.stack.msgs ++ [{ m with cookie := some ⟨i⟩, deferred := true }] :=
    Stack.updMsg_msgs_fresh (Stack.updMsg_msgs_fresh hmsgs hfresh _) hfresh _
  have hnot : ∀ tv, m.tag ≠ .unowned tv := fun tv htv => by simp [htv, Tag.isOwner] at howner
  refine Inv.wake (h.apps.congr rfl (Listeners.typeAt_takeWaker _ i) (Nat.le_refl _))
    (h.stack.push hm2 hh hnext rfl (fun _ => howner) (fun tv htv => (hnot tv htv).elim) hflows rfl)
    (h.wait.map id (List.map_id _).symm (fun _ _ _ _ h => h) (fun _ _ _ _ _ _ h _ => h) (fun _ h => nomatch h)
      (fun j w hj hw => ?_) (fun _ h _ => h) fun a ha c te bl w hop hw m' hm' hsel => ?_)
  · show (s.table.takeWaker i).wakerAt j = some w
    rw [Listeners.wakerAt_takeWaker]
    split_ifs with hji
    · subst hji; simp [hj] at hw
    · exact hj
  · dsimp only at hm'
    rw [hm2] at hm'
    rcases List.mem_append.mp hm' with hm' | hm'
    · exact hm'
    · obtain rfl := List.mem_singleton.mp hm'
      rcases h.waiting_selects ha hop hsel with ⟨c0, hc0, hw0⟩ | ⟨tv, htv, -⟩
      · cases hc0
        simp [hw0] at hw
      · exact absurd htv (hnot tv)

theorem Inv.toResponse {s : Sys maxMtu L} (h : Inv s) {stack : Stack} {m : Msg}
    (hmsgs : stack.msgs = s.inner.stack.msgs ++ [m]) (hh : m.handle = s.inner.stack.nextHandle)
    (hnext : stack.nextHandle = s.inner.stack.nextHandle + 1) {tv : TagValue} {f : Flow}
    (htag : m.tag = .unowned tv) (hf : f ∈ s.inner.stack.flows) (heid : f.eid = m.source)
    (htv : f.tv = tv) (hcookie : m.cookie = f.cookie) (hflow : m.flow = some f.serial)
    (hflows : ∀ f ∈ stack.flows, f ∈ s.inner.stack.flows) :
    Inv ({ s with inner := { s.inner with stack := stack.returnHandle m.handle,
                                          appReceiveWakers := [] } }.wake
      s.inner.appReceiveWakers) := by
  have hfresh : ∀ x ∈ s.inner.stack.msgs, x.handle ≠ m.handle := fun x hx =>
    hh ▸ Nat.ne_of_lt (h.stack.handleLt x hx)
  have hm1 : (stack.returnHandle m.handle).msgs = s.inner.stack.msgs ++ [{ m with deferred := true }] :=
    Stack.updMsg_msgs_fresh hmsgs hfresh _
  have hnone : m.cookie = none := hcookie.trans (h.stack.flowCookie f hf)
  refine Inv.wake (h.apps.congr rfl (fun _ => rfl) (Nat.le_refl _))
    (h.stack.push hm1 hh hnext rfl (fun hc => absurd hnone hc) (fun tv' htv' => ?_) hflows rfl)
    (h.wait.map id (List.map_id _).symm (fun _ _ _ _ h => h) (fun _ _ _ _ _ _ h _ => h) (fun _ h => nomatch h)
      (fun _ _ h _ => h) (fun w hw hw' => absurd hw hw') fun a ha c te bl w hop hw m' hm' hsel => ?_)
  · rw [htag] at htv'
    cases htv'
    obtain ⟨o, ho⟩ := h.stack.flowLogged f hf
    exact ⟨f.serial, o, hflow, by rwa [heid, htv] at ho⟩
  · dsimp only at hm'
    rw [hm1] at hm'
    rcases List.mem_append.mp hm' with hm' | hm'
    · exact hm'
    · obtain rfl := List.mem_singleton.mp hm'
      rcases h.waiting_selects ha hop hsel with ⟨c0, hc0, -⟩ | ⟨-, -, hw0⟩
      · simp [hnone] at hc0
      · exact absurd hw0 hw

/-- **`inbound`'s local branch keeps the invariant.** -/
theorem Inv.receiveLocal {s : Sys maxMtu L} (h : Inv s) {pkt : List UInt8} {reasm : Reassembly}
    {inner : RouterInner L} {t : Listeners} {ws : List Waker}
    (hr : receiveLocal s.inner s.table pkt reasm = some (inner, t, ws)) :
    Inv ({ s with inner := inner, table := t }.wake ws) := by
  unfold MctpRouter.receiveLocal at hr
  split at hr
  · rename_i m stack hrecv
    rcases Stack.receive_cases hrecv with ⟨-, hne⟩ | ⟨m', hm', hst, hh, -, -, hkind⟩
    · exact absurd rfl (hne m)
    cases hm'
    have hmsgs : stack.msgs = s.inner.stack.msgs ++ [m] := by rw [hst]
    have hnext : stack.nextHandle = s.inner.stack.nextHandle + 1 := by rw [hst]
    have hflows : ∀ f ∈ stack.flows, f ∈ s.inner.stack.flows := by
      rcases hkind with ⟨-, -, -, hfl⟩ | ⟨_, _, -, -, -, -, -, -, hfl⟩
      · rw [hfl]; exact fun _ h => h
      · exact hfl
    unfold incomingLocal at hr
    split at hr
    · rename_i howner
      obtain ⟨r, hr', -, hsome, hnone⟩ := incomingListener_spec s.table h.apps.typeUnique m.typ
        m.handle { s.inner with stack := stack }
      rw [hr'] at hr
      obtain rfl := Option.some.inj hr
      by_cases hex : ∃ i, s.table.typeAt i = some m.typ
      · obtain ⟨i, hi⟩ := hex
        cases hsome i hi
        exact h.toListener hmsgs hh hnext howner hflows
      · cases hnone fun i hi => hex ⟨i, hi⟩
        have hfresh : ∀ x ∈ s.inner.stack.msgs, x.handle ≠ m.handle := fun x hx =>
          hh ▸ Nat.ne_of_lt (h.stack.handleLt x hx)
        have hm1 := Stack.finishedReceive_msgs_fresh hmsgs hfresh
        have hn1 : s.inner.stack.nextHandle ≤ (stack.finishedReceive m.handle).nextHandle := by
          rw [Stack.finishedReceive_nextHandle, hnext]; exact Nat.le_succ _
        exact Inv.wake (h.apps.congr rfl (fun _ => rfl) (Nat.le_refl _))
          (h.stack.sub (by dsimp only; rw [hm1]) hn1 hflows fun _ h => h)
          (h.wait.map id (List.map_id _).symm (fun _ _ _ _ h => h) (fun _ _ _ _ _ _ h _ => h)
            (fun _ h => nomatch h) (fun _ _ h _ => h) (fun _ h _ => h)
            fun _ _ _ _ _ _ _ _ m' hm' _ => by dsimp only at hm'; rwa [hm1] at hm')
    · rename_i howner
      cases hr
      rcases hkind with ⟨hown, -⟩ | ⟨tv, f, htag, hf, heid, htv, hc, hfl, -⟩
      · exact absurd hown howner
      · exact h.toResponse hmsgs hh hnext htag hf heid htv hc hfl hflows
  · rename_i res stack hne hrecv
    obtain rfl : stack = s.inner.stack := by
      rcases Stack.receive_cases hrecv with ⟨hs, -⟩ | ⟨m, rfl, -⟩
      · exact hs
      · exact (hne m rfl).elim
    cases hr
    exact Inv.wake h.apps (h.stack.frame rfl rfl) h.wait

section Steps

variable {lk : PortLookup L} {maxPayload : Nat}

theorem Inv.sendStart {s s' : Sys maxMtu L} {obs : Obs} (h : Inv s) {id : Nat} {eid : Eid}
    {typ : MsgType} {tag : Option Tag} {tagExpires ic : Bool} {bufs : List (List UInt8)}
    (hs : sendStart lk maxPayload s id eid typ tag tagExpires ic bufs = some (s', obs)) :
    Inv s' := by
  unfold Sys.sendStart at hs
  split at hs
  · rename_i e inner heq
    obtain ⟨hw, ⟨_, -, hstack⟩ | ⟨_, _, _, hr, -⟩⟩ := appSendStart_cases heq
    · cases hs
      exact h.frame rfl rfl hstack hw (Nat.le_refl _) fun _ h => h
    · cases hr
  · rename_i p ps frag inner heq
    obtain ⟨hw, ⟨_, hr, -⟩ | ⟨_, _, _, hr, -, hst⟩⟩ := appSendStart_cases heq
    · cases hr
    · cases hr
      obtain ⟨ps', -, he⟩ := Option.map_eq_some'.mp hs
      rw [show s' = _ from congrArg Prod.fst he.symm]
      have hm := (Stack.startSend_cases hst).1
      let s1 : Sys maxMtu L :=
        { s with inner := inner, nextId := s.nextId + 1, flowLog := s.logFlow id eid tag frag }
      have h1 : Inv s1 :=
        h.ofStack rfl rfl (h.stack.startSend hst rfl) (fun m hm' => by rwa [← hm]) hw
          (Nat.le_succ _)
      exact h1.sendContinue _ _ _ _

end Steps

/-! ## Time, drops, and the whole step -/

theorem Inv.updateTime {s : Sys maxMtu L} (h : Inv s) (now : Nat) :
    Inv ({ s with inner := (updateTime s.inner now).2.1 }.wake (updateTime s.inner now).2.2) := by
  rcases hu : MctpRouter.updateTime s.inner now with ⟨r, inner, ws⟩
  obtain ⟨hm, hn, hfl, hw⟩ := updateTime_cases hu
  refine Inv.wake (h.apps.congr rfl (fun _ => rfl) (Nat.le_refl _))
    (h.stack.sub (by dsimp only; rw [hm]) (Nat.le_of_eq hn.symm) hfl fun _ h => h)
    (h.wait.map id (List.map_id _).symm (fun _ _ _ _ h => h) (fun _ _ _ _ _ _ h _ => h) (fun _ h => nomatch h)
      (fun _ _ h _ => h) (fun w hw' hws => ?_) fun _ _ _ _ _ _ _ _ m hm' _ => by
        dsimp only at hm'; rwa [hm] at hm')
  rcases hw with ⟨hr, rfl⟩ | ⟨-, rfl⟩
  · show w ∈ inner.appReceiveWakers
    rwa [hr]
  · exact absurd hw' hws

theorem Inv.removeApp {s : Sys maxMtu L} (h : Inv s) {a : App} (ha : a ∈ s.apps)
    (hk : ∀ c t, a.kind ≠ .listener c t) : Inv (s.remove a.id) :=
  h.remove a.id fun _ hb hid => (h.apps.find_unique_id hb ha hid) ▸ hk

theorem Inv.dropApp {s : Sys maxMtu L} (h : Inv s) {a : App} (ha : a ∈ s.apps) :
    Inv (s.dropApp a).1 := by
  unfold Sys.dropApp
  split
  · rename_i c typ hk
    exact (h.dropListener ha hk).2
  · rename_i hk
    exact h.removeApp ha fun c t => hk c t

theorem Inv.asyncDropApp {s s' : Sys maxMtu L} {obs : Obs} (h : Inv s) {a : App} (ha : a ∈ s.apps)
    (hd : s.asyncDropApp a = some (s', obs)) : Inv s' := by
  unfold Sys.asyncDropApp at hd
  split at hd
  · rename_i eid tag hk
    obtain ⟨inner, hrel, he⟩ := Option.map_eq_some'.mp hd
    rw [show s' = _ from congrArg Prod.fst he.symm]
    obtain ⟨fl, rfl, hfl, -⟩ := appReleaseTag_eq hrel
    let s1 : Sys maxMtu L :=
      { s with inner := { s.inner with stack := { s.inner.stack with flows := fl } } }
    have h1 : Inv s1 := h.congr rfl rfl (List.Sublist.refl _) (Nat.le_refl _) hfl rfl (Nat.le_refl _)
      fun _ h => h
    exact h1.removeApp ha fun c t => by rw [hk]; exact nofun
  · rename_i hk
    obtain rfl := congrArg Prod.fst (Option.some.inj hd)
    exact h.removeApp ha fun c t => by rw [hk]; exact nofun
  · obtain rfl := congrArg Prod.fst (Option.some.inj hd)
    exact h

section Steps

variable {lk : PortLookup L} {maxPayload : Nat}

theorem Inv.inboundStep {s s' : Sys maxMtu L} {obs : Obs} (h : Inv s) {pkt : List UInt8}
    {port : PortId} {reasm : Reassembly} (hs : s.inboundStep lk maxPayload pkt port reasm = some (s', obs)) :
    Inv s' := by
  have hlk : ∀ l, Inv ({ s with inner := { s.inner with lookup := l } } : Sys maxMtu L) := fun l =>
    h.frame rfl rfl rfl rfl (Nat.le_refl _) fun _ h => h
  unfold Sys.inboundStep at hs
  split at hs
  · obtain rfl := congrArg Prod.fst (Option.some.inj hs)
    exact h
  · split at hs
    · obtain ⟨⟨inner, t, ws⟩, hr, he⟩ := Option.map_eq_some'.mp hs
      rw [show s' = _ from congrArg Prod.fst he.symm]
      exact h.receiveLocal hr
    · split at hs
      · obtain rfl := congrArg Prod.fst (Option.some.inj hs)
        exact hlk _
      · split at hs
        · obtain rfl := congrArg Prod.fst (Option.some.inj hs)
          exact hlk _
        · obtain ⟨ps', -, he⟩ := Option.map_eq_some'.mp hs
          rw [show s' = _ from congrArg Prod.fst he.symm]
          exact (hlk _).frame rfl rfl rfl rfl (Nat.le_succ _) fun _ h => h

theorem Inv.portStep {s s' : Sys maxMtu L} {obs : Obs} (h : Inv s) {p : Nat}
    {a : PortAct Fragmenter} (hs : s.portStep maxPayload p a = some (s', obs)) : Inv s' := by
  unfold Sys.portStep at hs
  split at hs
  · obtain rfl := congrArg Prod.fst (Option.some.inj hs)
    exact h
  · obtain ⟨ps', -, he⟩ := Option.map_eq_some'.mp hs
    rw [show s' = _ from congrArg Prod.fst he.symm]
    exact h.ports _

/-- **Every step keeps the invariant.** -/
theorem Inv.step {s s' : Sys maxMtu L} {obs : Obs} (h : Inv s) (act : Act)
    (hs : s.step lk maxPayload act = some (s', obs)) : Inv s' := by
  cases step_cases hs with
  | noop _ => exact h
  | bind hb => exact h.bind hb
  | bindError hb =>
    rcases Listeners.appBind_cases s.table _ with ⟨-, he⟩ | ⟨-, -, he⟩ | ⟨-, i, -, -, -, he⟩ <;>
      rw [he] at hb <;> cases hb <;> exact h.ports _
  | req eid => exact h.add _ nofun
  | noexpire hf hk hop =>
    obtain ⟨ha, hid, huniq⟩ := find_some h.apps hf
    refine h.update _ _ (fun _ _ _ => rfl) (fun b hb hb' c t => ?_) (fun b hb hb' => ?_)
      fun b hb hb' c te bl w hop => hop
    · rw [huniq b hb hb', hk]; exact ⟨nofun, nofun⟩
    · rw [huniq b hb hb', hop]; intro _ _ _ _ _ hop; cases hop
  | send _ _ _ hs => exact h.sendStart hs
  | recv hf _ hs => exact h.recvStart (find_some h.apps hf).1 hs
  | pollRecv hf hop hs =>
    have ha := (find_some h.apps hf).1
    exact h.pollRecv ha (h.apps.ops _ ha _ _ _ _ _ hop) hs
  | pollSend _ _ _ _ => exact h.sendContinue _ _ _ _
  | cancel _ => exact h.settle _ _ (fun _ => rfl) (fun _ _ _ => Iff.rfl) fun _ _ _ _ _ _ => nofun
  | cancelSend _ _ _ =>
    exact (h.ports _).settle _ _ (fun _ => rfl) (fun _ _ _ => Iff.rfl) fun _ _ _ _ _ _ => nofun
  | drop hf _ => exact h.dropApp (find_some h.apps hf).1
  | asyncDrop hf _ hs => exact h.asyncDropApp (find_some h.apps hf).1 hs
  | inbound hs => exact h.inboundStep hs
  | port _ hs => exact h.portStep hs
  | time now => exact h.updateTime now
  | setEid _ =>
    exact h.congr rfl rfl (List.Sublist.refl _) (Nat.le_refl _) (fun _ h => h) rfl (Nat.le_refl _)
      fun _ h => h

end Steps

theorem Inv.init (ownEid : Eid) (now : Nat) (lookup : L) (ports : List (PortSys maxMtu Fragmenter)) :
    Inv (init ownEid now lookup ports) where
  apps :=
    { idsNodup := List.nodup_nil
      idsLt := fun _ h => nomatch h
      ops := fun _ h => nomatch h
      bound := fun _ h => nomatch h
      owner := fun i _ hi => nomatch (Listeners.typeAt_empty i).symm.trans hi
      cookieUnique := fun _ h => nomatch h
      typeUnique := fun i _ _ hi => nomatch (Listeners.typeAt_empty i).symm.trans hi }
  stack := ⟨(fun _ h => nomatch h), List.nodup_nil, (fun _ h => nomatch h), (fun _ h => nomatch h),
    (fun _ h => nomatch h), (fun _ h => nomatch h), fun _ h => nomatch h⟩
  wait := ⟨(fun _ h => nomatch h), (fun _ h => nomatch h), fun _ h => nomatch h⟩

/-- **The invariant holds in every reachable state.** -/
theorem Reachable.inv {lk : PortLookup L} {maxPayload : Nat} {s : Sys maxMtu L}
    (h : Reachable lk maxPayload s) : Inv s := by
  induction h with
  | init ownEid now lookup ports _ => exact Inv.init ownEid now lookup ports
  | step act _ hs ih => exact ih.step act hs


/-! ## The ports

The ports of the router are the ports of `MctpRouter.PortTasks`: every port of a reachable
router is a state that the port's own calls reach, so what is proved there of one port (the
slots of each send are consecutive) holds of each port of the router. -/

/-- Every port of the router is in a state that its own calls reach. -/
def PortsReachable (maxPayload : Nat) (s : Sys maxMtu L) : Prop :=
  ∀ p ∈ s.ports, PortSys.Reachable mctpHeader maxPayload Fragmenter.frag p

theorem finishSend_ports (s : Sys maxMtu L) (id : Nat) (r : Except Error Tag) :
    (s.finishSend id r).1.ports = s.ports := by
  cases r <;> rfl

theorem sendContinue_ports (s : Sys maxMtu L) (id p task : Nat) (ps : PortSys maxMtu Fragmenter) :
    (s.sendContinue id p task ps).1.ports = s.ports.set p ps := by
  unfold Sys.sendContinue
  split
  · exact finishSend_ports _ _ _
  · rfl

theorem finishRecv_ports (s : Sys maxMtu L) (a : App) (res : Except Error Msg) :
    (s.finishRecv a res).1.ports = s.ports := by
  unfold Sys.finishRecv
  split
  · split
    · rfl
    · split <;> rfl
  · rfl

theorem pollRecv_ports {s s' : Sys maxMtu L} {obs : Obs} {a : App} {c : Option AppCookie}
    {te : Option (Tag × Eid)} {bl : Nat} {w : Waker} (hp : s.pollRecv a c te bl w = some (s', obs)) :
    s'.ports = s.ports := by
  unfold Sys.pollRecv at hp
  split at hp
  · cases hp
  · obtain rfl := congrArg Prod.fst (Option.some.inj hp); rfl
  · rw [show s' = _ from congrArg Prod.fst (Option.some.inj hp).symm, finishRecv_ports]

theorem recvStart_ports {s s' : Sys maxMtu L} {obs : Obs} {a : App} {w : Waker} {bufLen : Nat}
    (hr : s.recvStart a w bufLen = some (s', obs)) : s'.ports = s.ports := by
  unfold Sys.recvStart at hr
  split at hr
  · exact pollRecv_ports hr
  · exact pollRecv_ports hr
  all_goals obtain rfl := congrArg Prod.fst (Option.some.inj hr); rfl

theorem dropApp_ports (s : Sys maxMtu L) (a : App) : (s.dropApp a).1.ports = s.ports := by
  unfold Sys.dropApp
  split <;> rfl

theorem asyncDropApp_ports {s s' : Sys maxMtu L} {obs : Obs} {a : App}
    (hd : s.asyncDropApp a = some (s', obs)) : s'.ports = s.ports := by
  unfold Sys.asyncDropApp at hd
  split at hd
  · obtain ⟨_, -, he⟩ := Option.map_eq_some'.mp hd
    exact (congrArg (·.1.ports) he).symm
  all_goals obtain rfl := congrArg Prod.fst (Option.some.inj hd); rfl

section Ports

variable {lk : PortLookup L} {maxPayload : Nat}

theorem PortsReachable.of_ports {s s' : Sys maxMtu L} (h : PortsReachable maxPayload s)
    (he : s'.ports = s.ports) : PortsReachable maxPayload s' := fun p hp => h p (he ▸ hp)

theorem PortsReachable.set {s s' : Sys maxMtu L} (h : PortsReachable maxPayload s) {i : Nat}
    {ps ps' : PortSys maxMtu Fragmenter} (hps : s.ports[i]? = some ps)
    (hstep : PortSys.Reachable mctpHeader maxPayload Fragmenter.frag ps →
      PortSys.Reachable mctpHeader maxPayload Fragmenter.frag ps')
    (he : s'.ports = s.ports.set i ps') : PortsReachable maxPayload s' := by
  intro p hp
  rw [he] at hp
  rcases List.mem_or_eq_of_mem_set hp with hp | rfl
  · exact h p hp
  · exact hstep (h ps (List.getElem?_mem hps))

theorem PortsReachable.sendStart {s s' : Sys maxMtu L} {obs : Obs} (h : PortsReachable maxPayload s)
    {id : Nat} {eid : Eid} {typ : MsgType} {tag : Option Tag} {tagExpires ic : Bool}
    {bufs : List (List UInt8)} (hs : s.sendStart lk maxPayload id eid typ tag tagExpires ic bufs = some (s', obs)) :
    PortsReachable maxPayload s' := by
  unfold Sys.sendStart at hs
  split at hs
  · obtain rfl := congrArg Prod.fst (Option.some.inj hs)
    exact h
  · rename_i p ps frag inner heq
    obtain ⟨-, ⟨_, hr, -⟩ | ⟨_, _, _, hr, hps, -⟩⟩ := appSendStart_cases heq
    · cases hr
    · cases hr
      obtain ⟨ps', hps', he⟩ := Option.map_eq_some'.mp hs
      obtain ⟨ps1, h1, h2⟩ := Option.bind_eq_some.mp hps'
      exact h.set hps (fun hr => (hr.step _ h1).step _ h2)
        ((congrArg (·.1.ports) he).symm.trans (sendContinue_ports _ _ _ _ _))

theorem PortsReachable.inboundStep {s s' : Sys maxMtu L} {obs : Obs} (h : PortsReachable maxPayload s)
    {pkt : List UInt8} {port : PortId} {reasm : Reassembly}
    (hs : s.inboundStep lk maxPayload pkt port reasm = some (s', obs)) : PortsReachable maxPayload s' := by
  unfold Sys.inboundStep at hs
  split at hs
  · obtain rfl := congrArg Prod.fst (Option.some.inj hs); exact h
  · split at hs
    · obtain ⟨_, -, he⟩ := Option.map_eq_some'.mp hs
      exact h.of_ports (congrArg (·.1.ports) he).symm
    · split at hs
      · obtain rfl := congrArg Prod.fst (Option.some.inj hs); exact h
      · split at hs
        · obtain rfl := congrArg Prod.fst (Option.some.inj hs); exact h
        · rename_i ps hps
          obtain ⟨ps', hps', he⟩ := Option.map_eq_some'.mp hs
          obtain ⟨ps1, h1, h2⟩ := Option.bind_eq_some.mp hps'
          exact h.set hps (fun hr => (hr.step _ h1).step _ h2) (congrArg (·.1.ports) he).symm

theorem PortsReachable.portStep {s s' : Sys maxMtu L} {obs : Obs} (h : PortsReachable maxPayload s)
    {p : Nat} {a : PortAct Fragmenter} (hs : s.portStep maxPayload p a = some (s', obs)) :
    PortsReachable maxPayload s' := by
  unfold Sys.portStep at hs
  split at hs
  · obtain rfl := congrArg Prod.fst (Option.some.inj hs); exact h
  · rename_i ps hps
    obtain ⟨ps', h1, he⟩ := Option.map_eq_some'.mp hs
    exact h.set hps (fun hr => hr.step _ h1) (congrArg (·.1.ports) he).symm

/-- **Every step keeps the ports reachable by their own calls.** -/
theorem PortsReachable.step {s s' : Sys maxMtu L} {obs : Obs} (h : PortsReachable maxPayload s)
    (act : Act) (hs : s.step lk maxPayload act = some (s', obs)) : PortsReachable maxPayload s' := by
  cases step_cases hs with
  | noop _ => exact h
  | bind _ | bindError _ | req _ | noexpire _ _ _ | cancel _ | time _ | setEid _ =>
    exact h.of_ports rfl
  | send _ _ _ hs => exact h.sendStart hs
  | recv _ _ hs => exact h.of_ports (recvStart_ports hs)
  | pollRecv _ _ hs => exact h.of_ports (pollRecv_ports hs)
  | pollSend _ _ hps h1 => exact h.set hps (fun hr => hr.step _ h1) (sendContinue_ports _ _ _ _ _)
  | cancelSend _ _ hps => exact h.set hps (fun hr => hr.step (.dropSend _) rfl) rfl
  | drop _ _ => exact h.of_ports (dropApp_ports _ _)
  | asyncDrop _ _ hs => exact h.of_ports (asyncDropApp_ports hs)
  | inbound hs => exact h.inboundStep hs
  | port _ hs => exact h.portStep hs

/-- **The ports of a reachable router are reachable ports.** -/
theorem Reachable.portsReachable {s : Sys maxMtu L} (h : Reachable lk maxPayload s) :
    PortsReachable maxPayload s := by
  induction h with
  | init ownEid now lookup ports hports =>
    intro p hp
    obtain ⟨q, mtu, hmtu, rfl⟩ := hports p hp
    exact .init q mtu hmtu
  | step act _ hs ih => exact ih.step act hs

end Ports

end Sys

end MctpRouter
