import Mathlib.Data.Finset.Card
import MctpRouter.Preservation

/-!
# What the router guarantees its applications, over every run

* `step_recv_cases`: a step that returns a message from `recv` was a `Ready` poll of
  `app_recv_message` by a call that fits its object.
* **`listener_table_matches`**: the listener table holds exactly the live listeners, each in the
  slot of its cookie with the type it was created with; hence when `Router::listener` fails,
  and that a listener's `drop` always unbinds.
* **`waiting_receiver_has_no_message`**: a call waiting on an unwoken waker has no message to take.
* **`listener_never_internal_error`**: a listener's `recv` returns only messages with an owned tag
  and its own cookie — and `listener_recv_other_type`: not always of its own type, once its slot
  was reused.
* **`req_recv_flow`**: a request channel's `recv` returns a response accepted on a flow to its
  `(eid, tv)` — and `req_recv_other_flow`: not always on the flow its own send allocated.
* `failed_send_leaks_flow`: a send that fails after `start_send` leaves a flow that
  `async_drop` does not cancel.

The runs start from `singlePortRouter` and replay the spec's scenarios with `Sys.run`.
-/

namespace MctpRouter

variable {maxMtu : Nat} {L : Type}

/-- What `recv` returns, from a listener or from a request channel. -/
def Obs.isRecv : Obs → Bool
  | .listenerMsg _ _ => true
  | .reqMsg _ _ => true
  | _ => false

/-- Whether an object is a listener. -/
def App.isListener (a : App) : Bool :=
  match a.kind with
  | .listener _ _ => true
  | _ => false

/-- The slot a listener's cookie names. -/
def App.slot (a : App) : Nat :=
  match a.kind with
  | .listener c _ => c.idx
  | _ => 0

/-- The live listeners. -/
def Sys.listeners (s : Sys maxMtu L) : List App := s.apps.filter App.isListener

theorem App.isListener_iff {a : App} : a.isListener = true ↔ ∃ c typ, a.kind = .listener c typ := by
  unfold App.isListener
  split <;> simp_all

namespace Sys

/-! ## Which steps return messages -/

theorem finishSend_isRecv (s : Sys maxMtu L) (id : Nat) (r : Except Error Tag) :
    (s.finishSend id r).2.isRecv = false := by
  cases r <;> rfl

theorem sendContinue_isRecv (s : Sys maxMtu L) (id p task : Nat) (ps : PortSys maxMtu Fragmenter) :
    (s.sendContinue id p task ps).2.isRecv = false := by
  unfold Sys.sendContinue
  split
  · exact finishSend_isRecv _ _ _
  · rfl

theorem dropApp_isRecv (s : Sys maxMtu L) (a : App) : (s.dropApp a).2.isRecv = false := by
  unfold Sys.dropApp
  split <;> rfl

section Steps

variable {lk : PortLookup L} {maxPayload : Nat}

theorem sendStart_isRecv {s s' : Sys maxMtu L} {obs : Obs} {id : Nat} {eid : Eid} {typ : MsgType}
    {tag : Option Tag} {tagExpires ic : Bool} {bufs : List (List UInt8)}
    (hs : s.sendStart lk maxPayload id eid typ tag tagExpires ic bufs = some (s', obs)) :
    obs.isRecv = false := by
  unfold Sys.sendStart at hs
  split at hs
  · obtain rfl := congrArg Prod.snd (Option.some.inj hs)
    rfl
  · obtain ⟨ps', -, he⟩ := Option.map_eq_some'.mp hs
    rw [show obs = _ from congrArg Prod.snd he.symm]
    exact sendContinue_isRecv _ _ _ _ _

theorem inboundStep_isRecv {s s' : Sys maxMtu L} {obs : Obs} {pkt : List UInt8} {port : PortId}
    {reasm : Reassembly} (hs : s.inboundStep lk maxPayload pkt port reasm = some (s', obs)) :
    obs.isRecv = false := by
  unfold Sys.inboundStep at hs
  split at hs
  · obtain rfl := congrArg Prod.snd (Option.some.inj hs); rfl
  · split at hs
    · obtain ⟨_, -, he⟩ := Option.map_eq_some'.mp hs
      rw [show obs = _ from congrArg Prod.snd he.symm]; rfl
    · split at hs
      · obtain rfl := congrArg Prod.snd (Option.some.inj hs); rfl
      · split at hs
        · obtain rfl := congrArg Prod.snd (Option.some.inj hs); rfl
        · obtain ⟨_, -, he⟩ := Option.map_eq_some'.mp hs
          rw [show obs = _ from congrArg Prod.snd he.symm]; rfl

theorem portStep_isRecv {s s' : Sys maxMtu L} {obs : Obs} {p : Nat} {a : PortAct Fragmenter}
    (hs : s.portStep maxPayload p a = some (s', obs)) : obs.isRecv = false := by
  unfold Sys.portStep at hs
  split at hs
  · obtain rfl := congrArg Prod.snd (Option.some.inj hs); rfl
  · obtain ⟨_, -, he⟩ := Option.map_eq_some'.mp hs
    rw [show obs = _ from congrArg Prod.snd he.symm]; rfl

theorem asyncDropApp_isRecv {s s' : Sys maxMtu L} {obs : Obs} {a : App}
    (hs : s.asyncDropApp a = some (s', obs)) : obs.isRecv = false := by
  unfold Sys.asyncDropApp at hs
  split at hs
  · obtain ⟨_, -, he⟩ := Option.map_eq_some'.mp hs
    rw [show obs = _ from congrArg Prod.snd he.symm]; rfl
  · obtain rfl := congrArg Prod.snd (Option.some.inj hs); rfl
  · obtain rfl := congrArg Prod.snd (Option.some.inj hs); rfl

theorem recvStart_cases {s s' : Sys maxMtu L} {obs : Obs} {a : App} {w : Waker} {bufLen : Nat}
    (hr : s.recvStart a w bufLen = some (s', obs)) (hobs : obs.isRecv = true) :
    (∃ c te, a.Fits c te ∧ s.pollRecv a c te bufLen w = some (s', obs)) ∨
      obs = .reqMsg a.id (.error .badArgument) := by
  unfold Sys.recvStart at hr
  split at hr
  · rename_i c typ hk
    exact .inl ⟨_, _, .inl ⟨c, typ, hk, rfl, rfl⟩, hr⟩
  · rename_i eid tv te hk
    exact .inl ⟨_, _, .inr ⟨eid, tv, te, hk, rfl, rfl⟩, hr⟩
  · exact .inr (congrArg Prod.snd (Option.some.inj hr)).symm
  · obtain rfl := congrArg Prod.snd (Option.some.inj hr)
    cases hobs

/-- **A step that returns a message from `recv`** was a poll by a call that fits its object. -/
theorem step_recv_cases {s s' : Sys maxMtu L} {obs : Obs} (h : Inv s) {act : Act}
    (hs : s.step lk maxPayload act = some (s', obs)) (hobs : obs.isRecv = true) :
    (∃ a ∈ s.apps, ∃ c te bl w, a.Fits c te ∧ s.pollRecv a c te bl w = some (s', obs)) ∨
      ∃ id, obs = .reqMsg id (.error .badArgument) := by
  have hne : obs.isRecv ≠ false := by rw [hobs]; decide
  cases step_cases hs with
  | noop ho => rcases ho with rfl | rfl <;> cases hobs
  | bind _ | bindError _ | req _ | noexpire _ _ _ | cancel _ | cancelSend _ _ _ | time _
  | setEid _ => cases hobs
  | send _ _ _ hs => exact absurd (sendStart_isRecv hs) hne
  | recv hf _ hs =>
    rcases recvStart_cases hs hobs with ⟨c, te, hfit, hp⟩ | hbad
    · exact .inl ⟨_, (find_some h.apps hf).1, c, te, _, _, hfit, hp⟩
    · exact .inr ⟨_, hbad⟩
  | pollRecv hf hop hs =>
    have ha := (find_some h.apps hf).1
    exact .inl ⟨_, ha, _, _, _, _, h.apps.ops _ ha _ _ _ _ _ hop, hs⟩
  | pollSend _ _ _ _ => exact absurd (sendContinue_isRecv _ _ _ _ _) hne
  | drop _ _ => exact absurd (dropApp_isRecv _ _) hne
  | asyncDrop _ _ hs => exact absurd (asyncDropApp_isRecv hs) hne
  | inbound hs => exact absurd (inboundStep_isRecv hs) hne
  | port _ hs => exact absurd (portStep_isRecv hs) hne

end Steps

/-! ## What `recv` returns -/

theorem finishRecv_listenerMsg {s : Sys maxMtu L} {a : App} {res : Except Error Msg} {id : Nat}
    {r : Except Error Msg} (h : (s.finishRecv a res).2 = .listenerMsg id r) :
    a.id = id ∧ ∃ c typ, a.kind = .listener c typ ∧
      (r = res ∨ ∃ m tv, res = .ok m ∧ m.tag = .unowned tv ∧ r = .error .internalError) := by
  unfold Sys.finishRecv at h
  split at h
  · rename_i c typ hk
    split at h
    · cases h; exact ⟨rfl, c, typ, hk, .inl rfl⟩
    · rename_i m
      split at h
      · cases h; exact ⟨rfl, c, typ, hk, .inl rfl⟩
      · rename_i tv htv
        cases h; exact ⟨rfl, c, typ, hk, .inr ⟨m, tv, rfl, htv, rfl⟩⟩
  · cases h

theorem finishRecv_reqMsg {s : Sys maxMtu L} {a : App} {res : Except Error Msg} {id : Nat}
    {r : Except Error Msg} (h : (s.finishRecv a res).2 = .reqMsg id r) :
    a.id = id ∧ r = res ∧ ∀ c typ, a.kind ≠ .listener c typ := by
  unfold Sys.finishRecv at h
  split at h
  · split at h
    · cases h
    · split at h <;> cases h
  · rename_i hk
    cases h
    exact ⟨rfl, rfl, hk⟩

/-- **A poll that returns from `recv`** took a stored message the call selects. -/
theorem pollRecv_ready {s s' : Sys maxMtu L} {obs : Obs} (h : Inv s) {a : App}
    {c : Option AppCookie} {te : Option (Tag × Eid)} {bl : Nat} {w : Waker}
    (hp : s.pollRecv a c te bl w = some (s', obs)) (hobs : obs.isRecv = true) :
    ∃ m ∈ s.inner.stack.msgs, Selects c te m ∧ ∃ res, (res = .ok m ∨ res = .error .noSpace) ∧
      ∃ t : Sys maxMtu L, obs = (t.finishRecv a res).2 := by
  unfold Sys.pollRecv at hp
  split at hp
  · cases hp
  · obtain rfl := congrArg Prod.snd (Option.some.inj hp)
    cases hobs
  · rename_i inner t ws res hpoll
    obtain ⟨m, hm, hsel, rfl, rfl, -, hres⟩ := appRecvPoll_ready h.stack.handlesNodup hpoll
    refine ⟨m, hm, hsel, res, ?_, _, (congrArg Prod.snd (Option.some.inj hp)).symm⟩
    split_ifs at hres
    · exact .inr hres
    · exact .inl hres

/-! ## The listener table -/

theorem find_of_mem {s : Sys maxMtu L} (h : AppsInv s) {a : App} (ha : a ∈ s.apps) :
    s.find a.id = some a := by
  cases hf : s.find a.id with
  | none =>
    simp only [find, List.find?_eq_none, decide_eq_true_eq] at hf
    exact absurd rfl (hf a ha)
  | some b => rw [(find_some h hf).2.2 a ha rfl]

theorem AppsInv.typeAt_iff {s : Sys maxMtu L} (h : AppsInv s) (i : Nat) (typ : MsgType) :
    s.table.typeAt i = some typ ↔ ∃ a ∈ s.apps, a.kind = .listener ⟨i⟩ typ :=
  ⟨h.owner i typ, fun ⟨a, ha, hk⟩ => h.bound a ha _ typ hk⟩

theorem AppsInv.listener_slots {s : Sys maxMtu L} (h : AppsInv s) :
    (s.listeners.map App.slot).Nodup ∧ ∀ i, i ∈ s.listeners.map App.slot ↔ s.table.get i ≠ none := by
  have hslot : ∀ a ∈ s.listeners, ∃ typ, a.kind = .listener ⟨a.slot⟩ typ ∧ a ∈ s.apps := by
    intro a ha
    obtain ⟨ha, hl⟩ := List.mem_filter.mp ha
    obtain ⟨c, typ, hk⟩ := App.isListener_iff.mp hl
    exact ⟨typ, by rw [hk]; simp [App.slot, hk], ha⟩
  refine ⟨(List.Nodup.filter _ (List.Nodup.of_map App.id h.idsNodup)).map_on fun a ha b hb hab => ?_,
    fun i => ⟨fun hi => ?_, fun hi => ?_⟩⟩
  · obtain ⟨t, hka, ha⟩ := hslot a ha
    obtain ⟨t', hkb, hb⟩ := hslot b hb
    rw [hab] at hka
    exact h.cookieUnique a ha b hb _ t t' hka hkb
  · obtain ⟨a, ha, rfl⟩ := List.mem_map.mp hi
    obtain ⟨t, hk, ha⟩ := hslot a ha
    exact Listeners.get_ne_none_of_typeAt (h.bound a ha _ t hk)
  · obtain ⟨⟨typ, w⟩, hget⟩ := Option.ne_none_iff_exists'.mp hi
    obtain ⟨a, ha, hk⟩ := h.owner i typ (by simp [Listeners.typeAt, hget])
    refine List.mem_map.mpr ⟨a, List.mem_filter.mpr ⟨ha, App.isListener_iff.mpr ⟨_, _, hk⟩⟩, ?_⟩
    simp [App.slot, hk]

theorem AppsInv.full_iff {s : Sys maxMtu L} (h : AppsInv s) :
    (∀ i < maxListeners, s.table.get i ≠ none) ↔ s.listeners.length = maxListeners := by
  obtain ⟨hnd, hmem⟩ := h.listener_slots
  have hsub : (s.listeners.map App.slot).toFinset ⊆ Finset.range maxListeners := fun i hi =>
    Finset.mem_range.mpr (Listeners.lt_of_get_ne_none ((hmem i).mp (List.mem_toFinset.mp hi)))
  have hcard : (s.listeners.map App.slot).toFinset.card = s.listeners.length := by
    rw [List.toFinset_card_of_nodup hnd, List.length_map]
  constructor
  · intro hall
    have heq : (s.listeners.map App.slot).toFinset = Finset.range maxListeners :=
      Finset.Subset.antisymm hsub fun i hi =>
        List.mem_toFinset.mpr ((hmem i).mpr (hall i (Finset.mem_range.mp hi)))
    rw [← hcard, heq, Finset.card_range]
  · intro hlen i hi
    have heq : (s.listeners.map App.slot).toFinset = Finset.range maxListeners :=
      Finset.eq_of_subset_of_card_le hsub (by rw [hcard, hlen, Finset.card_range])
    exact (hmem i).mp (List.mem_toFinset.mp (heq ▸ Finset.mem_range.mpr hi))

section Steps

variable {lk : PortLookup L} {maxPayload : Nat}

theorem step_listener_obs (s : Sys maxMtu L) (typ : MsgType) :
    (s.step lk maxPayload (.listener typ)).map Prod.snd =
      some (.listener ((s.table.appBind typ).1.map fun _ => s.nextId)) := by
  rcases hb : s.table.appBind typ with ⟨_ | c, t⟩ <;> simp [Sys.step, hb, Except.map]

/-- **The listener table follows the live listeners**, so `Router::listener` fails exactly when it
should. -/
theorem listener_table_matches {s : Sys maxMtu L} (h : Reachable lk maxPayload s) :
    (∀ i typ, s.table.typeAt i = some typ ↔ ∃ a ∈ s.apps, a.kind = .listener ⟨i⟩ typ) ∧
    (∀ i j typ, s.table.typeAt i = some typ → s.table.typeAt j = some typ → i = j) ∧
    (∀ typ, (s.step lk maxPayload (.listener typ)).map Prod.snd =
        some (.listener (.error .addrInUse)) ↔ ∃ a ∈ s.apps, ∃ c, a.kind = .listener c typ) ∧
    (∀ typ, (s.step lk maxPayload (.listener typ)).map Prod.snd =
        some (.listener (.error .noSpace)) ↔
      (∀ a ∈ s.apps, ∀ c, a.kind ≠ .listener c typ) ∧ s.listeners.length = maxListeners) ∧
    (∀ a ∈ s.apps, a.op = .idle → ∀ c typ, a.kind = .listener c typ →
      (s.step lk maxPayload (.drop a.id)).map Prod.snd = some (.unbind (.ok ()))) ∧
    (∀ a ∈ s.apps, ∀ c typ, a.kind = .listener c typ →
      c.idx < maxListeners ∧ ∃ w, s.table.get c.idx = some (typ, w)) := by
  have hi := h.inv
  have herr : ∀ typ e, (s.step lk maxPayload (.listener typ)).map Prod.snd =
      some (.listener (.error e)) ↔ (s.table.appBind typ).1 = .error e := fun typ e => by
    rw [step_listener_obs]
    cases (s.table.appBind typ).1 <;> simp [Except.map]
  have hnone : ∀ typ, (∀ i, s.table.typeAt i ≠ some typ) ↔ ∀ a ∈ s.apps, ∀ c, a.kind ≠ .listener c typ :=
    fun typ => ⟨fun hno a ha c hk => hno c.idx (hi.apps.bound a ha c typ hk),
      fun hno i hi' => by
        obtain ⟨a, ha, hk⟩ := hi.apps.owner i typ hi'
        exact hno a ha _ hk⟩
  refine ⟨hi.apps.typeAt_iff, hi.apps.typeUnique, fun typ => ?_, fun typ => ?_, ?_, ?_⟩
  · rw [herr, Listeners.appBind_addrInUse_iff]
    constructor
    · rintro ⟨i, hi'⟩
      obtain ⟨a, ha, hk⟩ := hi.apps.owner i typ hi'
      exact ⟨a, ha, _, hk⟩
    · rintro ⟨a, ha, c, hk⟩
      exact ⟨c.idx, hi.apps.bound a ha c typ hk⟩
  · rw [herr, Listeners.appBind_noSpace_iff, hnone, hi.apps.full_iff]
  · intro a ha hidle c typ hk
    simp only [Sys.step, find_of_mem hi.apps ha, if_pos hidle, Option.map_some']
    unfold Sys.dropApp
    split
    · rename_i c' typ' hk'
      rw [(hi.dropListener ha hk').1]
    · rename_i hk'
      exact absurd hk (hk' c typ)
  · intro a ha c typ hk
    have ht := hi.apps.bound a ha c typ hk
    have hget := Listeners.get_ne_none_of_typeAt ht
    refine ⟨Listeners.lt_of_get_ne_none hget, ?_⟩
    obtain ⟨⟨t, w⟩, hw⟩ := Option.ne_none_iff_exists'.mp hget
    simp only [Listeners.typeAt, hw, Option.map_some', Option.some.injEq] at ht
    exact ⟨w, by rw [hw, ht]⟩

/-- Scenario S1, then the listener is dropped with the request deferred and type 0x10 takes slot
0. -/
def slotReuse : List Act :=
  [.listener ⟨0x7e⟩,
    .inbound [1, 8, 9, 0xcb, 0x7e, 0xaa, 0xbb] ⟨0⟩ (.complete ⟨0x7e⟩ false [0xaa, 0xbb]),
    .drop 0, .listener ⟨0x10⟩]

/-- After `slotReuse`, `Router::listener(0x10)` fails with `AddrInUse`. -/
theorem listener_table_matches_reuse :
    ∃ s os, singlePortRouter.run singlePortLookup 1024 slotReuse = some (s, os) ∧
      Reachable singlePortLookup 1024 s ∧
      (s.step singlePortLookup 1024 (.listener ⟨0x10⟩)).map Prod.snd =
        some (.listener (.error .addrInUse)) := by
  obtain ⟨s, os, hr, hs, hf⟩ : ∃ s os, singlePortRouter.run singlePortLookup 1024 slotReuse =
      some (s, os) ∧ Reachable singlePortLookup 1024 s ∧
      s.find 1 = some ⟨1, .listener ⟨0⟩ ⟨0x10⟩, .idle⟩ :=
    singlePortRouter_reachable.of_run (by decide)
  exact ⟨s, os, hr, hs, ((listener_table_matches hs).2.2.1 _).mpr
    ⟨_, List.mem_of_find?_eq_some hf, _, rfl⟩⟩

/-! ## Waiting calls and the messages they take -/

/-- **A listener's `recv` never fails with `InternalError`.** -/
theorem listener_never_internal_error {s : Sys maxMtu L} (h : Reachable lk maxPayload s) :
    (∀ m ∈ s.inner.stack.msgs, m.cookie ≠ none → m.tag.isOwner = true) ∧
    ∀ act s' id r, s.step lk maxPayload act = some (s', .listenerMsg id r) →
      r ≠ .error .internalError ∧ ∀ m, r = .ok m → m.tag.isOwner = true ∧
        ∃ a ∈ s.apps, a.id = id ∧ ∃ c typ, a.kind = .listener c typ ∧ m.cookie = some c := by
  have hi := h.inv
  refine ⟨hi.stack.cookieOwned, fun act s' id r hs => ?_⟩
  rcases step_recv_cases hi hs rfl with ⟨a, ha, c, te, bl, w, hfit, hp⟩ | ⟨_, hbad⟩
  · obtain ⟨m, hm, hsel, res, hres, t, hobs⟩ := pollRecv_ready hi hp rfl
    obtain ⟨rfl, c0, typ, hk, hr⟩ := finishRecv_listenerMsg hobs.symm
    obtain ⟨rfl, rfl⟩ : c = some c0 ∧ te = none := by
      rcases hfit with ⟨c1, typ1, hk1, rfl, rfl⟩ | ⟨_, _, _, hk1, -, -⟩ <;> rw [hk] at hk1 <;>
        cases hk1
      exact ⟨rfl, rfl⟩
    have hc : m.cookie = some c0 := hsel
    have hown : m.tag.isOwner = true := hi.stack.cookieOwned m hm (by rw [hc]; exact nofun)
    rcases hr with rfl | ⟨m', tv, rfl, htv, rfl⟩ <;> rcases hres with hres | hres <;> cases hres
    · exact ⟨nofun, fun m' hm' => by cases hm'; exact ⟨hown, a, ha, rfl, c0, typ, hk, hc⟩⟩
    · exact ⟨nofun, nofun⟩
    · rw [htv] at hown; cases hown
  · cases hbad


/-- Scenario S1: a listener of type 0x7E and a request from EID 9 with tag `Owned(3)`. -/
def listenerRequest : List Act :=
  [.listener ⟨0x7e⟩,
    .inbound [1, 8, 9, 0xcb, 0x7e, 0xaa, 0xbb] ⟨0⟩ (.complete ⟨0x7e⟩ false [0xaa, 0xbb])]

/-- In scenario S1 the listener's `recv` returns the request, with its owned tag. -/
theorem listener_never_internal_error_request :
    ∃ s os, singlePortRouter.run singlePortLookup 1024 listenerRequest = some (s, os) ∧
      Reachable singlePortLookup 1024 s ∧ ∃ s' m,
        s.step singlePortLookup 1024 (.recv 0 5 64) = some (s', .listenerMsg 0 (.ok m)) ∧
        m.tag.isOwner = true := by
  obtain ⟨s, os, hr, hs, hm⟩ : ∃ s os, singlePortRouter.run singlePortLookup 1024 listenerRequest =
      some (s, os) ∧ Reachable singlePortLookup 1024 s ∧
      (s.step singlePortLookup 1024 (.recv 0 5 64)).map Prod.snd = some (.listenerMsg 0 (.ok
        ⟨0, ⟨9⟩, ⟨0x7e⟩, .owned ⟨3⟩, false, [0xaa, 0xbb], some ⟨0⟩, true, none⟩)) :=
    singlePortRouter_reachable.of_run (by decide)
  obtain ⟨⟨s', o⟩, hst, rfl⟩ := Option.map_eq_some'.mp hm
  exact ⟨s, os, hr, hs, s', _, hst,
    ((listener_never_internal_error hs).2 _ _ _ _ hst).2 _ rfl |>.1⟩

/-- **A listener can return a message of another type**, after a slot is reused. -/
theorem listener_recv_other_type :
    ∃ s os, singlePortRouter.run singlePortLookup 1024 slotReuse = some (s, os) ∧
      Reachable singlePortLookup 1024 s ∧ s.find 1 = some ⟨1, .listener ⟨0⟩ ⟨0x10⟩, .idle⟩ ∧
      (s.step singlePortLookup 1024 (.recv 1 5 64)).map Prod.snd = some (.listenerMsg 1 (.ok
        ⟨0, ⟨9⟩, ⟨0x7e⟩, .owned ⟨3⟩, false, [0xaa, 0xbb], some ⟨0⟩, true, none⟩)) :=
  singlePortRouter_reachable.of_run (by decide)

/-- **A request channel's `recv` returns a response to its own `(eid, tv)`.** -/
theorem req_recv_flow {s s' : Sys maxMtu L} (h : Reachable lk maxPayload s) {act : Act} {id : Nat}
    {m : Msg} (hs : s.step lk maxPayload act = some (s', .reqMsg id (.ok m))) :
    ∃ a ∈ s.apps, a.id = id ∧ ∃ eid tv te, a.kind = .req eid (some (.owned tv)) te ∧
      m.source = eid ∧ m.tag = .unowned tv ∧ ∃ k o, m.flow = some k ∧ ⟨k, o, eid, tv⟩ ∈ s.flowLog ∧
        ((∀ r ∈ s.flowLog, r.eid = eid → r.tv = tv → r.owner = id) → o = id) := by
  have hi := h.inv
  rcases step_recv_cases hi hs rfl with ⟨a, ha, c, te, bl, w, hfit, hp⟩ | ⟨_, hbad⟩
  · obtain ⟨m', hm, hsel, res, hres, t, hobs⟩ := pollRecv_ready hi hp rfl
    obtain ⟨rfl, rfl, hnl⟩ := finishRecv_reqMsg hobs.symm
    obtain rfl : m' = m := by rcases hres with hres | hres <;> cases hres; rfl
    rcases hfit with ⟨c1, typ1, hk1, -, -⟩ | ⟨eid, tv, te', hk, rfl, rfl⟩
    · exact absurd hk1 (hnl c1 typ1)
    obtain ⟨hsrc, htag⟩ : m'.source = eid ∧ m'.tag = .unowned tv := hsel
    obtain ⟨k, o, hk', hlog⟩ := hi.stack.msgFlow m' hm tv htag
    rw [hsrc] at hlog
    exact ⟨a, ha, rfl, eid, tv, te', hk, hsrc, htag, k, o, hk', hlog, fun hall => hall _ hlog rfl rfl⟩
  · cases hbad


/-- Scenario S4: a request channel to EID 9 sends type 1, and EID 9 answers with `Unowned(0)`. -/
def requestReply : List Act :=
  [.req ⟨9⟩, .reqSend 0 ⟨1⟩ false [[1, 2, 3]],
    .inbound [1, 8, 9, 0xc0, 1, 4] ⟨0⟩ (.complete ⟨1⟩ false [4])]

/-- In scenario S4 the channel's `recv` returns the response, accepted on a flow to `(9, 0)`. -/
theorem req_recv_flow_reply :
    ∃ s os, singlePortRouter.run singlePortLookup 1024 requestReply = some (s, os) ∧
      Reachable singlePortLookup 1024 s ∧ ∃ s' m,
        s.step singlePortLookup 1024 (.recv 0 5 64) = some (s', .reqMsg 0 (.ok m)) ∧
        ∃ k o, m.flow = some k ∧ ⟨k, o, ⟨9⟩, ⟨0⟩⟩ ∈ s.flowLog := by
  obtain ⟨s, os, hr, hs, hm⟩ : ∃ s os, singlePortRouter.run singlePortLookup 1024 requestReply =
      some (s, os) ∧ Reachable singlePortLookup 1024 s ∧
      (s.step singlePortLookup 1024 (.recv 0 5 64)).map Prod.snd =
        some (.reqMsg 0 (.ok ⟨0, ⟨9⟩, ⟨1⟩, .unowned ⟨0⟩, false, [4], none, true, some 0⟩)) :=
    singlePortRouter_reachable.of_run (by decide)
  obtain ⟨⟨s', o⟩, hst, rfl⟩ := Option.map_eq_some'.mp hm
  obtain ⟨-, -, -, eid, tv, -, -, hsrc, htag, k, o', hk, hlog, -⟩ := req_recv_flow hs hst
  cases hsrc
  cases htag
  exact ⟨s, os, hr, hs, s', _, hst, k, o', hk, hlog⟩

/-- Two request channels to EID 9 that get tag value 0 in turn, and EID 9 answers the second. -/
def tagReuse : List Act :=
  [.req ⟨9⟩, .reqSend 0 ⟨2⟩ false [[1, 2, 3]], .updateTime 6000, .req ⟨9⟩,
    .reqSend 2 ⟨2⟩ false [[4]], .inbound [1, 8, 9, 0xc0, 2, 4] ⟨0⟩ (.complete ⟨2⟩ false [4])]

/-- **A request channel can return another channel's response**, after tag reuse. -/
theorem req_recv_other_flow :
    ∃ s os, singlePortRouter.run singlePortLookup 1024 tagReuse = some (s, os) ∧
      Reachable singlePortLookup 1024 s ∧
      s.find 0 = some ⟨0, .req ⟨9⟩ (some (.owned ⟨0⟩)) true, .idle⟩ ∧
      s.find 2 = some ⟨2, .req ⟨9⟩ (some (.owned ⟨0⟩)) true, .idle⟩ ∧
      s.flowLog = [⟨0, 0, ⟨9⟩, ⟨0⟩⟩, ⟨1, 2, ⟨9⟩, ⟨0⟩⟩] ∧
      (s.step singlePortLookup 1024 (.recv 0 5 64)).map Prod.snd =
        some (.reqMsg 0 (.ok ⟨0, ⟨9⟩, ⟨2⟩, .unowned ⟨0⟩, false, [4], none, true, some 1⟩)) :=
  singlePortRouter_reachable.of_run (by decide)

/-! ## Releasing a tag that does not expire -/

/-- A request channel with a non-expiring tag, a send of 1025 bytes, and `async_drop`. -/
def noexpireOverflow : List Act :=
  [.req ⟨9⟩, .tagNoexpire 0, .reqSend 0 ⟨1⟩ false [List.replicate 1024 0, [0]], .asyncDrop 0]

set_option maxRecDepth 8000 in
/-- **A send that fails after `start_send` leaks its flow**, which then outlives the channel. -/
theorem failed_send_leaks_flow :
    ∃ s os, singlePortRouter.run singlePortLookup 1024 noexpireOverflow = some (s, os) ∧
      Reachable singlePortLookup 1024 s ∧
      os = [.none, .noexpire (.ok ()), .sent 0 (.error .noSpace), .none] ∧ s.apps = [] ∧
      s.inner.stack.flows = [⟨⟨9⟩, ⟨0⟩, none, none, 0⟩] ∧ s.flowLog = [⟨0, 0, ⟨9⟩, ⟨0⟩⟩] :=
  singlePortRouter_reachable.of_run (by decide)

end Steps

end Sys

end MctpRouter
