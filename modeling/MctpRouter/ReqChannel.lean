import MctpRouter.Guarantees

/-!
# A request channel's tag, over every run

`RouterAsyncReqChannel` keeps in `sent_tag` the tag that its first successful send returned,
sends with it from then on, and receives its replies by it (`send_vectored`, `recv`,
`tag_noexpire`, `async_drop` in `router.rs`). `start_send` gives a send with no tag a fresh owned
tag and a send with a tag that tag, and the port's fragment loop returns the tag of the
fragmenter it was given (`PortSys.Reachable.tagInv`), so the tag a send returns is the one
`send_vectored` passed, or a fresh owned one.

* `Kind.TagFor k tag`: a send of an object of kind `k` goes out with `tag`.
* `ReqInv`: a `sent_tag` is `None` or owned, a send an object waits on is a call on its port
  whose fragmenter has the tag the object sends with, and every call on a port has an id below
  `nextId`.
* `KindStep`, `Follows`: how one step changes the kinds of the objects, with `ReqInv` after it.
  `Follows.of_kept` covers the steps that only keep, drop or add objects; `Follows.noexpire`,
  `Follows.sendContinue` and `Follows.sendStart` the steps that set a channel's tag.
* `Follows.step`: every step from a state of the invariants; `Reachable.reqInv` by induction.
* **`req_channel_tag`**: the life of a request channel's `sent_tag`.
-/

namespace MctpRouter

variable {maxMtu : Nat} {L : Type}

/-- A send of an object of kind `k` goes out with `tag`: for a request channel, its owned
`sent_tag`. -/
def Kind.TagFor (k : Kind) (tag : Tag) : Prop :=
  ∀ eid st te, k = .req eid st te → (∃ tv, tag = .owned tv) ∧ (st = none ∨ st = some tag)

theorem Kind.setSentTag_owned {k : Kind} {tag : Tag} (hk : k.TagFor tag) {eid : Eid} {t : Tag}
    {te : Bool} (he : k.setSentTag tag = .req eid (some t) te) : ∃ tv, t = .owned tv := by
  cases k with
  | req eid' st te' =>
    simp only [Kind.setSentTag, Kind.req.injEq, Option.some.injEq] at he
    obtain ⟨-, rfl, -⟩ := he
    exact (hk _ _ _ rfl).1
  | listener c typ => cases he
  | resp eid' tv typ => cases he

/-- Object `a` holds only owned tags, and a send it waits on carries the tag it sends with. -/
def App.TagOk (a : App) (ports : List (PortSys maxMtu Fragmenter)) : Prop :=
  (∀ eid tag te, a.kind = .req eid (some tag) te → ∃ tv, tag = .owned tv) ∧
  ∀ p task, a.op = .sending p task → ∃ ps t, ports[p]? = some ps ∧
    ps.sends.find? (·.id = task) = some t ∧ a.kind.TagFor t.frag0.tag

/-- Object `a'` is `a`, with its kind and any send it waits on as they were. -/
def App.Kept (a a' : App) : Prop :=
  a'.id = a.id ∧ a'.kind = a.kind ∧ ∀ p t, a'.op = .sending p t → a.op = .sending p t

theorem App.Kept.refl (a : App) : a.Kept a := ⟨rfl, rfl, fun _ _ h => h⟩

theorem App.Kept.op {a : App} {op : Op} (hop : ∀ p t, op ≠ .sending p t) : a.Kept { a with op := op } :=
  ⟨rfl, rfl, fun p t h => absurd h (hop p t)⟩

/-- Every port of `ports` is a port of `ports'`, with every send call it had. -/
def PortsKeep (ports ports' : List (PortSys maxMtu Fragmenter)) : Prop :=
  ∀ (p : Nat) (ps : PortSys maxMtu Fragmenter), ports[p]? = some ps →
    ∃ ps', ports'[p]? = some ps' ∧ ps.KeepsCalls ps'

theorem PortsKeep.refl (ports : List (PortSys maxMtu Fragmenter)) : PortsKeep ports ports :=
  fun _ ps hps => ⟨ps, hps, .refl ps⟩

theorem PortsKeep.set {ports : List (PortSys maxMtu Fragmenter)} {i : Nat}
    {ps ps' : PortSys maxMtu Fragmenter} (hps : ports[i]? = some ps) (hk : ps.KeepsCalls ps') :
    PortsKeep ports (ports.set i ps') := by
  intro p q hq
  by_cases hp : i = p
  · subst hp
    rw [hps] at hq
    cases hq
    exact ⟨ps', List.getElem?_set_self (List.getElem?_eq_some_iff.mp hps).1, hk⟩
  · exact ⟨q, by rw [List.getElem?_set_ne hp]; exact hq, .refl q⟩

theorem App.Kept.tagOk {a a' : App} (h : a.Kept a') {ports ports' : List (PortSys maxMtu Fragmenter)}
    (ha : a.TagOk ports) (hports : PortsKeep ports ports') : a'.TagOk ports' := by
  obtain ⟨-, hk, hop⟩ := h
  refine ⟨fun eid tag te he => ha.1 eid tag te (hk ▸ he), fun p task hs => ?_⟩
  obtain ⟨ps, t, hps, hf, htag⟩ := ha.2 p task (hop p task hs)
  obtain ⟨ps', hps', hkeep⟩ := hports p ps hps
  obtain ⟨t', hf', h0⟩ := hkeep task t hf
  exact ⟨ps', t', hps', hf', by rw [hk, h0]; exact htag⟩

/-- Every call on every port has an id below `n`. -/
def PortIdsLt (ports : List (PortSys maxMtu Fragmenter)) (n : Nat) : Prop :=
  ∀ ps ∈ ports, ∀ i ∈ ps.ids, i < n

theorem PortIdsLt.mono {ports : List (PortSys maxMtu Fragmenter)} {n n' : Nat}
    (h : PortIdsLt ports n) (hn : n ≤ n') : PortIdsLt ports n' :=
  fun ps hps i hi => Nat.lt_of_lt_of_le (h ps hps i hi) hn

theorem PortIdsLt.set {ports : List (PortSys maxMtu Fragmenter)} {n n' p : Nat}
    {ps ps' : PortSys maxMtu Fragmenter} (h : PortIdsLt ports n) (hps : ports[p]? = some ps)
    (hids : ∀ i ∈ ps'.ids, i ∈ ps.ids ∨ i < n') (hn : n ≤ n') : PortIdsLt (ports.set p ps') n' := by
  intro q hq i hi
  rcases List.mem_or_eq_of_mem_set hq with hq | rfl
  · exact h.mono hn q hq i hi
  · rcases hids i hi with hi | hi
    · exact h.mono hn ps (List.getElem?_mem hps) i hi
    · exact hi

theorem PortIdsLt.step {ports : List (PortSys maxMtu Fragmenter)} {n p : Nat}
    {ps ps' : PortSys maxMtu Fragmenter} {header : List UInt8 → Except Error Header} {mp : Nat}
    {F : Frag maxMtu Fragmenter} {a : PortAct Fragmenter} (h : PortIdsLt ports n)
    (hps : ports[p]? = some ps) (hs : ps.step header mp F a = some ps') (ha : a.newId = none) :
    PortIdsLt (ports.set p ps') n :=
  h.set hps (fun i hi => ((PortSys.keepsCalls_step hs).2 i hi).imp_right fun he => by
    rw [ha] at he; cases he) (Nat.le_refl _)

theorem PortIdsLt.spawn {ports : List (PortSys maxMtu Fragmenter)} {n p : Nat}
    {ps ps1 ps' : PortSys maxMtu Fragmenter} {header : List UInt8 → Except Error Header} {mp : Nat}
    {F : Frag maxMtu Fragmenter} {a b : PortAct Fragmenter} (h : PortIdsLt ports n)
    (hps : ports[p]? = some ps) (h1 : ps.step header mp F a = some ps1)
    (h2 : ps1.step header mp F b = some ps') (ha : a.newId = some n) (hb : b.newId = none) :
    PortIdsLt (ports.set p ps') (n + 1) := by
  refine h.set hps (fun i hi => ?_) (Nat.le_succ _)
  rcases (PortSys.keepsCalls_step h2).2 i hi with hi | hi
  · rcases (PortSys.keepsCalls_step h1).2 i hi with hi | hi
    · exact .inl hi
    · rw [ha] at hi
      cases hi
      exact .inr (Nat.lt_succ_self _)
  · rw [hb] at hi
    cases hi

theorem Op.eq_of_wake_sending {op : Op} {ws : List Waker} {p t : Nat}
    (h : op.wake ws = .sending p t) : op = .sending p t := by
  cases op with
  | sending => exact h
  | idle => cases h
  | receiving => cases h

namespace Sys

/-! ## The invariant -/

/-- The tags of the objects, and the call ids of the ports. -/
structure ReqInv (s : Sys maxMtu L) : Prop where
  apps : ∀ a ∈ s.apps, a.TagOk s.ports
  portIds : PortIdsLt s.ports s.nextId

/-- How a step returning `obs` may change the kind of object `id`: keep a returned tag, or
`tag_noexpire`. -/
def KindStep (id : Nat) (k k' : Kind) (obs : Obs) : Prop :=
  (∀ tag, obs = .sent id (.ok tag) → k.TagFor tag ∧ k' = k.setSentTag tag) ∧
  ((∀ tag, obs ≠ .sent id (.ok tag)) →
    k' = k ∨ ∃ eid te, k = .req eid none te ∧ k' = .req eid none false)

theorem KindStep.keep {id : Nat} {k : Kind} {obs : Obs} (h : ∀ tag, obs ≠ .sent id (.ok tag)) :
    KindStep id k k obs :=
  ⟨fun tag he => absurd he (h tag), fun _ => .inl rfl⟩

/-- What a step from `s` to `s'` keeps of the tags: `ReqInv` after it, and kinds changed as
`KindStep` allows. -/
structure Follows (s s' : Sys maxMtu L) (obs : Obs) : Prop where
  inv : ReqInv s'
  kind : ∀ a ∈ s.apps, ∀ a' ∈ s'.apps, a'.id = a.id → KindStep a.id a.kind a'.kind obs

/-! ## Steps that keep, drop or add objects -/

/-- Each object after a step is one from before, kept, or a new one holding no tag and no send. -/
def AppsKept (s s' : Sys maxMtu L) : Prop :=
  ∀ a' ∈ s'.apps, (∃ a ∈ s.apps, App.Kept a a') ∨
    (s.nextId ≤ a'.id ∧ (∀ p t, a'.op ≠ .sending p t) ∧ ∀ eid tag te, a'.kind ≠ .req eid (some tag) te)

theorem AppsKept.of_map {s s' : Sys maxMtu L} {g : App → App} (he : s'.apps = s.apps.map g)
    (hg : ∀ a : App, a.Kept (g a)) : AppsKept s s' := by
  intro a' ha'
  rw [he] at ha'
  obtain ⟨a, ha, rfl⟩ := List.mem_map.mp ha'
  exact .inl ⟨a, ha, hg a⟩

theorem AppsKept.of_apps {s s' : Sys maxMtu L} (he : s'.apps = s.apps) : AppsKept s s' :=
  fun a' ha' => .inl ⟨a', he ▸ ha', .refl a'⟩

theorem AppsKept.update (s : Sys maxMtu L) (id : Nat) {f : App → App}
    (hf : ∀ a : App, a.Kept (f a)) : AppsKept s (s.update id f) :=
  .of_map rfl fun a => by
    split_ifs
    · exact hf a
    · exact .refl a

theorem AppsKept.wake (s : Sys maxMtu L) (ws : List Waker) : AppsKept s (s.wake ws) :=
  .of_map rfl fun _ => ⟨rfl, rfl, fun _ _ h => Op.eq_of_wake_sending h⟩

theorem AppsKept.add (s : Sys maxMtu L) {k : Kind} (hk : ∀ eid tag te, k ≠ .req eid (some tag) te) :
    AppsKept s (s.add k) := by
  intro a' ha'
  rcases (mem_add s).mp ha' with ha | rfl
  · exact .inl ⟨a', ha, .refl a'⟩
  · exact .inr ⟨Nat.le_refl _, (fun _ _ h => by cases h), hk⟩

theorem AppsKept.remove (s : Sys maxMtu L) (id : Nat) : AppsKept s (s.remove id) :=
  fun a' ha' => .inl ⟨a', ((mem_remove s).mp ha').1, .refl a'⟩

theorem AppsKept.trans {s1 s2 s3 : Sys maxMtu L} (h1 : AppsKept s1 s2) (h2 : AppsKept s2 s3)
    (hn : s1.nextId ≤ s2.nextId) : AppsKept s1 s3 := by
  intro a3 ha3
  rcases h2 a3 ha3 with ⟨a2, ha2, hid2, hk2, hop2⟩ | ⟨hlt, hop, hk⟩
  · rcases h1 a2 ha2 with ⟨a1, ha1, hid1, hk1, hop1⟩ | ⟨hlt, hop, hk⟩
    · exact .inl ⟨a1, ha1, hid2.trans hid1, hk2.trans hk1, fun p t h => hop1 p t (hop2 p t h)⟩
    · exact .inr ⟨hid2 ▸ hlt, fun p t h => hop p t (hop2 p t h),
        fun eid tag te h => hk eid tag te (hk2 ▸ h)⟩
  · exact .inr ⟨Nat.le_trans hn hlt, hop, hk⟩

variable {s s' : Sys maxMtu L} {obs : Obs}

theorem Follows.of_kept (h : ReqInv s) (hi : AppsInv s) (happs : AppsKept s s')
    (hports : PortsKeep s.ports s'.ports) (hids : PortIdsLt s'.ports s'.nextId)
    (hobs : ∀ id tag, obs ≠ .sent id (.ok tag)) : Follows s s' obs := by
  refine ⟨⟨fun a' ha' => ?_, hids⟩, fun a ha a' ha' hid => ?_⟩
  · rcases happs a' ha' with ⟨a, ha, hk⟩ | ⟨-, hop, hk⟩
    · exact hk.tagOk (h.apps a ha) hports
    · exact ⟨fun eid tag te he => absurd he (hk eid tag te), fun p t hs => absurd hs (hop p t)⟩
  · rcases happs a' ha' with ⟨b, hb, hid', hk, -⟩ | ⟨hlt, -⟩
    · rw [hk, hi.find_unique_id hb ha (hid'.symm.trans hid)]
      exact .keep (hobs a.id)
    · exact absurd (hi.idsLt a ha) (by omega)

/-- A step that keeps, drops or adds objects and returns `Ok` to no send. -/
def Plain (s s' : Sys maxMtu L) (obs : Obs) : Prop :=
  AppsKept s s' ∧ s.nextId ≤ s'.nextId ∧ ∀ id tag, obs ≠ .sent id (.ok tag)

theorem Follows.of_plain (h : ReqInv s) (hi : AppsInv s) (hp : Plain s s' obs)
    (hports : s'.ports = s.ports) : Follows s s' obs :=
  .of_kept h hi hp.1 (hports ▸ .refl _) (hports ▸ h.portIds.mono hp.2.1) hp.2.2

theorem Plain.refl (s : Sys maxMtu L) {obs : Obs} (hobs : ∀ id tag, obs ≠ .sent id (.ok tag)) :
    Plain s s obs :=
  ⟨.of_apps rfl, Nat.le_refl _, hobs⟩

theorem plain_finishRecv (s : Sys maxMtu L) (a : App) (res : Except Error Msg) :
    Plain s (s.finishRecv a res).1 (s.finishRecv a res).2 := by
  have h1 : AppsKept s (s.update a.id fun a => { a with op := .idle }) :=
    .update s a.id fun _ => .op fun _ _ h => nomatch h
  unfold Sys.finishRecv
  dsimp only
  split
  · split
    · exact ⟨h1, Nat.le_refl _, fun _ _ h => nomatch h⟩
    · split
      · exact ⟨h1.trans (.add _ fun _ _ _ h => nomatch h) (Nat.le_refl _), Nat.le_succ _,
          fun _ _ h => nomatch h⟩
      · exact ⟨h1, Nat.le_refl _, fun _ _ h => nomatch h⟩
  · exact ⟨h1, Nat.le_refl _, fun _ _ h => nomatch h⟩

theorem plain_pollRecv {a : App} {c : Option AppCookie} {te : Option (Tag × Eid)} {bl : Nat}
    {w : Waker} (hp : s.pollRecv a c te bl w = some (s', obs)) : Plain s s' obs := by
  unfold Sys.pollRecv at hp
  split at hp
  · cases hp
  · cases hp
    refine ⟨AppsKept.trans ?_ (.wake _ _) (Nat.le_refl _), Nat.le_refl _, fun _ _ h => nomatch h⟩
    exact .update _ _ fun _ => .op fun _ _ h => nomatch h
  · obtain ⟨rfl, rfl⟩ := Prod.ext_iff.mp (Option.some.inj hp).symm
    exact plain_finishRecv _ a _

theorem plain_recvStart {a : App} {w : Waker} {bufLen : Nat}
    (hr : s.recvStart a w bufLen = some (s', obs)) : Plain s s' obs := by
  unfold Sys.recvStart at hr
  split at hr
  · exact plain_pollRecv hr
  · exact plain_pollRecv hr
  all_goals cases hr; exact .refl s fun _ _ h => nomatch h

theorem plain_dropApp (s : Sys maxMtu L) (a : App) : Plain s (s.dropApp a).1 (s.dropApp a).2 := by
  unfold Sys.dropApp
  split
  · exact ⟨.remove _ _, Nat.le_refl _, fun _ _ h => nomatch h⟩
  · exact ⟨.remove _ _, Nat.le_refl _, fun _ _ h => nomatch h⟩

theorem plain_asyncDropApp {a : App} (hd : s.asyncDropApp a = some (s', obs)) : Plain s s' obs := by
  unfold Sys.asyncDropApp at hd
  split at hd
  · obtain ⟨_, -, he⟩ := Option.map_eq_some'.mp hd
    cases he
    exact ⟨.remove _ _, Nat.le_refl _, fun _ _ h => nomatch h⟩
  · cases hd
    exact ⟨.remove _ _, Nat.le_refl _, fun _ _ h => nomatch h⟩
  · cases hd
    exact .refl s fun _ _ h => nomatch h

/-! ## Steps that set a channel's tag -/

theorem AppsInv.update_eq (hi : AppsInv s) {id : Nat} {f : App → App} {b b' : App}
    (hb : b ∈ s.apps) (hb' : b' ∈ s.apps.map fun b => if b.id = id then f b else b)
    (hid : b'.id = b.id) (hf : ∀ b, (f b).id = b.id) : b' = if b.id = id then f b else b := by
  obtain ⟨b0, hb0, rfl⟩ := List.mem_map.mp hb'
  have h0 : b0.id = b.id := by
    split_ifs at hid
    · rwa [hf] at hid
    · exact hid
  rw [hi.find_unique_id hb0 hb h0]

theorem Follows.update (S : Sys maxMtu L) (h : ReqInv s) (hi : AppsInv s) (happs : S.apps = s.apps)
    (hports : PortsKeep s.ports S.ports) (hids : PortIdsLt S.ports S.nextId) {a : App}
    (ha : a ∈ s.apps) {f : App → App} (hf : ∀ b, (f b).id = b.id) (hok : (f a).TagOk S.ports)
    (hkind : KindStep a.id a.kind (f a).kind obs)
    (hobs : ∀ b ∈ s.apps, b.id ≠ a.id → ∀ tag, obs ≠ .sent b.id (.ok tag)) :
    Follows s (S.update a.id f) obs := by
  have hmem : ∀ {b'}, b' ∈ (S.update a.id f).apps →
      b' ∈ s.apps.map fun b => if b.id = a.id then f b else b := fun hb' => by
    rw [← happs]; exact hb'
  refine ⟨⟨fun b' hb' => ?_, hids⟩, fun b hb b' hb' hid => ?_⟩
  · obtain ⟨b, hb, rfl⟩ := List.mem_map.mp (hmem hb')
    split_ifs with hbid
    · rwa [hi.find_unique_id hb ha hbid]
    · exact (App.Kept.refl b).tagOk (h.apps b hb) hports
  · rw [hi.update_eq hb (hmem hb') hid hf]
    split_ifs with hbid
    · rwa [hi.find_unique_id hb ha hbid]
    · exact .keep (hobs b hb hbid)

theorem Follows.noexpire (h : ReqInv s) (hi : AppsInv s) {id : Nat} {a : App}
    (hf : s.find id = some a) {eid : Eid} {te : Bool} (hk : a.kind = .req eid none te)
    (hop : a.op = .idle) :
    Follows s (s.update id fun a => { a with kind := .req eid none false }) (.noexpire (.ok ())) := by
  obtain ⟨ha, rfl, -⟩ := find_some hi hf
  refine .update s h hi rfl (.refl _) h.portIds ha (fun _ => rfl)
    ⟨(fun _ _ _ he => by cases he), fun _ _ hs => nomatch hop.symm.trans hs⟩
    ⟨(fun _ h => nomatch h), fun _ => .inr ⟨eid, te, hk, rfl⟩⟩ fun _ _ _ _ h => nomatch h

theorem Follows.sendContinue (h : ReqInv s) (hi : AppsInv s) (s1 : Sys maxMtu L)
    (happs : s1.apps = s.apps) {p task : Nat} {ps ps' : PortSys maxMtu Fragmenter}
    (hps : s1.ports[p]? = some ps) (hports : PortsKeep s.ports (s1.ports.set p ps'))
    (hids : PortIdsLt (s1.ports.set p ps') s1.nextId) {a : App} (ha : a ∈ s.apps)
    {t : SendTask Fragmenter} (hf : ps'.sends.find? (·.id = task) = some t)
    (htag : a.kind.TagFor t.frag0.tag) (htags : PortSys.TagInv Fragmenter.frag ps') :
    Follows s (s1.sendContinue a.id p task ps').1 (s1.sendContinue a.id p task ps').2 := by
  unfold Sys.sendContinue
  rw [hf, Option.map_some']
  split
  · rename_i r hr
    have hpc : t.pc = .sent r := Option.some.inj hr
    cases r with
    | ok tag =>
      dsimp only [Sys.finishSend]
      -- the call returned the tag of its fragmenter
      have htag' : a.kind.TagFor tag := by
        have := htags t (List.mem_of_find?_eq_some hf)
        rw [hpc] at this
        exact (show tag = t.frag0.tag from this) ▸ htag
      refine .update { s1 with ports := s1.ports.set p ps' } h hi happs hports hids ha (fun _ => rfl)
        ⟨(fun _ _ _ he => Kind.setSentTag_owned htag' he),
        fun _ _ hs => nomatch hs⟩
        ⟨fun tag' he => by cases he; exact ⟨htag', rfl⟩, fun hne => absurd rfl (hne tag)⟩
        fun _ _ hne _ he => hne (Obs.sent.inj he).1.symm
    | error e =>
      dsimp only [Sys.finishSend]
      refine .update { s1 with ports := s1.ports.set p ps' } h hi happs hports hids ha (fun _ => rfl)
        ⟨(h.apps a ha).1, fun _ _ hs => nomatch hs⟩ (.keep ?_) ?_
      · exact fun _ h => nomatch (Obs.sent.inj h).2
      · exact fun _ _ _ _ h => nomatch (Obs.sent.inj h).2
  · refine .update { s1 with ports := s1.ports.set p ps' } h hi happs hports hids ha (fun _ => rfl)
      ⟨(h.apps a ha).1, fun p' task' hs => ?_⟩ (.keep fun _ h => nomatch h)
      fun _ _ _ _ h => nomatch h
    obtain ⟨rfl, rfl⟩ := Op.sending.inj hs
    exact ⟨ps', t, List.getElem?_set_self (List.getElem?_eq_some_iff.mp hps).1, hf, htag⟩

variable {lk : PortLookup L} {maxPayload : Nat}

theorem Follows.sendStart (h : ReqInv s) (hi : Inv s) (hp : PortsReachable maxPayload s)
    {id : Nat} {a : App} {eid : Eid} {typ : MsgType} {tag : Option Tag} {te ic : Bool}
    {bufs : List (List UInt8)} (hf : s.find id = some a)
    (hk : a.kind = .req eid tag te ∨ ∃ tv, a.kind = .resp eid tv typ ∧ tag = some (.unowned tv) ∧ te = false)
    (hs : s.sendStart lk maxPayload id eid typ tag te ic bufs = some (s', obs)) : Follows s s' obs := by
  obtain ⟨ha, rfl, -⟩ := find_some hi.apps hf
  unfold Sys.sendStart at hs
  split at hs
  · cases hs
    exact .of_plain h hi.apps (.refl s fun _ _ h => nomatch h) rfl
  · rename_i p ps frag inner heq
    obtain ⟨-, ⟨_, hr, -⟩ | ⟨_, _, _, hr, hps, hst⟩⟩ := appSendStart_cases heq
    · cases hr
    cases hr
    obtain ⟨ps', hps', he⟩ := Option.map_eq_some'.mp hs
    obtain ⟨ps1, h1, h2⟩ := Option.bind_eq_some.mp hps'
    have hnew : s.nextId ∉ ps.ids := fun hin =>
      Nat.lt_irrefl _ (h.portIds ps (List.getElem?_mem hps) _ hin)
    obtain ⟨t1, hf1, ht1⟩ := PortSys.spawnSend_find hnew h1
    have k1 := (PortSys.keepsCalls_step h1).1
    have k2 := (PortSys.keepsCalls_step h2).1
    obtain ⟨t, hf', ht⟩ := k2 _ _ hf1
    have htags : PortSys.TagInv Fragmenter.frag ps' :=
      (((hp ps (List.getElem?_mem hps)).step _ h1).step _ h2).tagInv Fragmenter.frag_keepsTag
    -- `start_send` gives a channel with no tag a fresh owned one, and one with a tag that tag
    have htag : a.kind.TagFor t.frag0.tag := by
      rw [ht, ht1]
      intro eid' st te' hk'
      rcases hk with hk | ⟨tv, hk, -⟩
      · obtain ⟨-, rfl, -⟩ := Kind.req.inj (hk.symm.trans hk')
        obtain ⟨-, -, -, ⟨rfl, tv, hft, -⟩ | ⟨tg, rfl, hft, -⟩⟩ := Stack.startSend_cases hst
        · exact ⟨⟨tv, hft⟩, .inl rfl⟩
        · obtain ⟨tv, rfl⟩ := (h.apps a ha).1 _ _ _ hk
          exact ⟨⟨tv, hft⟩, .inr (by rw [hft])⟩
      · cases hk.symm.trans hk'
    let s1 : Sys maxMtu L :=
      { s with inner := inner, nextId := s.nextId + 1, flowLog := s.logFlow a.id eid tag frag }
    have := Follows.sendContinue h hi.apps s1 rfl hps (.set hps (k1.trans k2))
      (h.portIds.spawn hps h1 h2 rfl rfl) ha hf' htag htags
    rw [he] at this
    exact this

theorem Follows.portStep (h : ReqInv s) (hi : AppsInv s) {p : Nat} {pa : PortAct Fragmenter}
    (hpa : pa.newId = none) (hs : s.portStep maxPayload p pa = some (s', obs)) : Follows s s' obs := by
  unfold Sys.portStep at hs
  split at hs
  · cases hs
    exact .of_plain h hi (.refl s fun _ _ h => nomatch h) rfl
  · rename_i ps hps
    obtain ⟨ps', h1, he⟩ := Option.map_eq_some'.mp hs
    cases he
    exact .of_kept h hi (.of_apps rfl) (.set hps (PortSys.keepsCalls_step h1).1)
      (h.portIds.step hps h1 hpa) fun _ _ h => nomatch h

theorem Follows.inboundStep (h : ReqInv s) (hi : AppsInv s) {pkt : List UInt8} {port : PortId}
    {reasm : Reassembly} (hs : s.inboundStep lk maxPayload pkt port reasm = some (s', obs)) :
    Follows s s' obs := by
  have hlk : ∀ (l : L) (o : Obs), (∀ id tag, o ≠ .sent id (.ok tag)) →
      Follows s { s with inner := { s.inner with lookup := l } } o := fun l o ho =>
    .of_plain h hi (.refl s ho) rfl
  unfold Sys.inboundStep at hs
  split at hs
  · cases hs
    exact .of_plain h hi (.refl s fun _ _ h => nomatch h) rfl
  · split at hs
    · obtain ⟨_, -, he⟩ := Option.map_eq_some'.mp hs
      cases he
      exact .of_plain h hi ⟨.wake _ _, Nat.le_refl _, fun _ _ h => nomatch h⟩ rfl
    · split at hs
      · cases hs
        exact hlk _ _ fun _ _ h => nomatch h
      · split at hs
        · cases hs
          exact hlk _ _ fun _ _ h => nomatch h
        · rename_i ps hps
          obtain ⟨ps', hps', he⟩ := Option.map_eq_some'.mp hs
          obtain ⟨ps1, h1, h2⟩ := Option.bind_eq_some.mp hps'
          cases he
          exact .of_kept h hi (.of_apps rfl)
            (.set hps ((PortSys.keepsCalls_step h1).1.trans (PortSys.keepsCalls_step h2).1))
            (h.portIds.spawn hps h1 h2 rfl rfl) fun _ _ h => nomatch h

/-! ## Every step, every run -/

/-- **Every step keeps `ReqInv`**, and changes kinds only as `KindStep` allows. -/
theorem Follows.step (h : ReqInv s) (hi : Inv s) (hp : PortsReachable maxPayload s) {act : Act}
    (hs : s.step lk maxPayload act = some (s', obs)) : Follows s s' obs := by
  have ha := hi.apps
  cases step_cases hs with
  | noop ho =>
    exact .of_plain h ha (.refl s fun _ _ he => by rcases ho with rfl | rfl <;> cases he) rfl
  | bind _ =>
    exact .of_plain h ha ⟨.add _ (fun _ _ _ h => nomatch h), Nat.le_succ _, fun _ _ h => nomatch h⟩ rfl
  | bindError _ => exact .of_plain h ha (.refl s fun _ _ h => nomatch h) rfl
  | req eid =>
    exact .of_plain h ha ⟨.add _ (fun _ _ _ h => by cases h), Nat.le_succ _, fun _ _ h => nomatch h⟩ rfl
  | noexpire hf hk hop => exact .noexpire h ha hf hk hop
  | send hf _ hk hs => exact .sendStart h hi hp hf hk hs
  | recv _ _ hs => exact .of_plain h ha (plain_recvStart hs) (recvStart_ports hs)
  | pollRecv _ _ hs => exact .of_plain h ha (plain_pollRecv hs) (pollRecv_ports hs)
  | pollSend hf hop hps h1 =>
    obtain ⟨hmem, rfl, -⟩ := find_some ha hf
    obtain ⟨ps0, t, hps0, ht, htag⟩ := (h.apps _ hmem).2 _ _ hop
    obtain rfl := Option.some.inj (hps0.symm.trans hps)
    have k := (PortSys.keepsCalls_step h1).1
    obtain ⟨t', ht', h0⟩ := k _ _ ht
    exact .sendContinue h ha s rfl hps (.set hps k) (h.portIds.step hps h1 rfl) hmem ht' (h0 ▸ htag)
      ((hp _ (List.getElem?_mem hps)).step _ h1 |>.tagInv Fragmenter.frag_keepsTag)
  | cancel _ =>
    exact .of_plain h ha ⟨.update _ _ (fun _ => .op fun _ _ h => nomatch h), Nat.le_refl _,
      fun _ _ h => nomatch h⟩ rfl
  | cancelSend _ _ hps =>
    exact .of_kept h ha (.update _ _ fun _ => .op fun _ _ h => nomatch h)
      (.set hps (PortSys.keepsCalls_dropSend _ _))
      (h.portIds.set hps (fun i hi' => .inl (by rwa [PortSys.ids_dropSend] at hi')) (Nat.le_refl _))
      fun _ _ h => nomatch h
  | drop _ _ => exact .of_plain h ha (plain_dropApp _ _) (dropApp_ports _ _)
  | asyncDrop _ _ hs => exact .of_plain h ha (plain_asyncDropApp hs) (asyncDropApp_ports hs)
  | inbound hs => exact .inboundStep h ha hs
  | port hpa hs => exact .portStep h ha hpa hs
  | time now => exact .of_plain h ha ⟨.wake _ _, Nat.le_refl _, fun _ _ h => nomatch h⟩ rfl
  | setEid _ => exact .of_plain h ha (.refl s fun _ _ h => nomatch h) rfl

/-- **`ReqInv` holds in every reachable state.** -/
theorem Reachable.reqInv (h : Reachable lk maxPayload s) : ReqInv s := by
  induction h with
  | init ownEid now lookup ports hports =>
    refine ⟨(fun _ h => nomatch h), fun ps hps i hi => ?_⟩
    obtain ⟨q, mtu, hmtu, rfl⟩ := hports ps hps
    simp [PortSys.ids, PortSys.init] at hi
  | step act hr hs ih => exact (Follows.step ih hr.inv hr.portsReachable hs).inv

/-! ## A request channel's `sent_tag` -/

theorem KindStep.req {id : Nat} {eid : Eid} {st : Option Tag} {te : Bool} {k' : Kind} {obs : Obs}
    (h : KindStep id (.req eid st te) k' obs) :
    ∃ st' te', k' = .req eid st' te' ∧
      (∀ tag, obs = .sent id (.ok tag) →
        st' = some tag ∧ (∃ tv, tag = .owned tv) ∧ (st = none ∨ st = some tag)) ∧
      ((∀ tag, obs ≠ .sent id (.ok tag)) → st' = st) := by
  by_cases ho : ∃ tag, obs = .sent id (.ok tag)
  · obtain ⟨tag, rfl⟩ := ho
    obtain ⟨htag, rfl⟩ := h.1 tag rfl
    refine ⟨some tag, te, rfl, fun tag' he => ?_, fun hne => absurd rfl (hne tag)⟩
    cases he
    exact ⟨rfl, htag eid st te rfl⟩
  · push_neg at ho
    rcases h.2 ho with rfl | ⟨eid', te', he, rfl⟩
    · exact ⟨st, te, rfl, fun tag he => absurd he (ho tag), fun _ => rfl⟩
    · obtain ⟨rfl, rfl, -⟩ := Kind.req.inj he
      exact ⟨none, false, rfl, fun tag he => absurd he (ho tag), fun _ => rfl⟩

end Sys

end MctpRouter
