import MctpRouter.System

/-!
# What holds in every reachable state of the router

* `AppsInv`: object ids are fresh and distinct, each call fits its object, and the listener
  table holds exactly the live listeners, each in the slot of its cookie with its type.
* `StackInv`: every stored message is deferred, has a handle below the next, carries a cookie
  only if its tag is owned, and, if it is a response, was accepted on a logged flow; no flow
  carries a cookie.
* `WaitInv s ws`: a receiving call whose latest waker was not woken has that waker registered,
  and no deferred message it would take exists — except for calls whose waker is in `ws`, which
  the step is about to wake.

`Inv` is the three together. The lemmas here move it across the changes a step makes to
the objects, the table and the stack; `MctpRouter.Preservation` shows that every step keeps it.
-/

namespace MctpRouter

variable {maxMtu : Nat} {L : Type}

/-- The selectors `app_recv_message(cookie, tag_eid)` object `a` receives by. -/
def App.Fits (a : App) (cookie : Option AppCookie) (tagEid : Option (Tag × Eid)) : Prop :=
  (∃ c typ, a.kind = .listener c typ ∧ cookie = some c ∧ tagEid = none) ∨
  (∃ eid tv te, a.kind = .req eid (some (.owned tv)) te ∧ cookie = none ∧
    tagEid = some (.unowned tv, eid))

/-- A call in progress fits its object. -/
def App.OpOk (a : App) : Prop :=
  ∀ c te bl w b, a.op = .receiving c te bl w b → a.Fits c te

@[simp] theorem Op.wake_idle (ws : List Waker) : Op.idle.wake ws = .idle := rfl
@[simp] theorem Op.wake_sending (ws : List Waker) (p t : Nat) :
    (Op.sending p t).wake ws = .sending p t := rfl

theorem Op.receiving_of_wake {op : Op} {ws : List Waker} {c te bl w b}
    (h : op.wake ws = .receiving c te bl w b) : ∃ b', op = .receiving c te bl w b' := by
  cases op with
  | receiving c' te' bl' w' b' =>
    simp only [Op.wake, Op.receiving.injEq] at h
    obtain ⟨rfl, rfl, rfl, rfl, -⟩ := h
    exact ⟨b', rfl⟩
  | _ => cases h

theorem Op.wake_eq_pending {op : Op} {ws : List Waker} {c te bl w} :
    op.wake ws = .receiving c te bl w false ↔ op = .receiving c te bl w false ∧ w ∉ ws := by
  cases op with
  | receiving c' te' bl' w' b' =>
    simp only [Op.wake, Op.receiving.injEq, Bool.or_eq_false_iff, decide_eq_false_iff_not]
    constructor
    · rintro ⟨rfl, rfl, rfl, rfl, rfl, h⟩; exact ⟨⟨rfl, rfl, rfl, rfl, rfl⟩, h⟩
    · rintro ⟨⟨rfl, rfl, rfl, rfl, rfl⟩, h⟩; exact ⟨rfl, rfl, rfl, rfl, rfl, h⟩
  | _ => simp [Op.wake]

namespace Sys

/-! ## Frame lemmas -/

section Frame

variable (s : Sys maxMtu L)

@[simp] theorem update_inner (id : Nat) (f : App → App) : (s.update id f).inner = s.inner := rfl
@[simp] theorem update_table (id : Nat) (f : App → App) : (s.update id f).table = s.table := rfl
@[simp] theorem update_nextId (id : Nat) (f : App → App) : (s.update id f).nextId = s.nextId := rfl
@[simp] theorem update_flowLog (id : Nat) (f : App → App) :
    (s.update id f).flowLog = s.flowLog := rfl
@[simp] theorem remove_inner (id : Nat) : (s.remove id).inner = s.inner := rfl
@[simp] theorem remove_table (id : Nat) : (s.remove id).table = s.table := rfl
@[simp] theorem remove_nextId (id : Nat) : (s.remove id).nextId = s.nextId := rfl
@[simp] theorem remove_flowLog (id : Nat) : (s.remove id).flowLog = s.flowLog := rfl
@[simp] theorem add_inner (k : Kind) : (s.add k).inner = s.inner := rfl
@[simp] theorem add_table (k : Kind) : (s.add k).table = s.table := rfl
@[simp] theorem add_nextId (k : Kind) : (s.add k).nextId = s.nextId + 1 := rfl
@[simp] theorem add_flowLog (k : Kind) : (s.add k).flowLog = s.flowLog := rfl
@[simp] theorem wake_inner (ws : List Waker) : (s.wake ws).inner = s.inner := rfl
@[simp] theorem wake_table (ws : List Waker) : (s.wake ws).table = s.table := rfl
@[simp] theorem wake_nextId (ws : List Waker) : (s.wake ws).nextId = s.nextId := rfl
@[simp] theorem wake_flowLog (ws : List Waker) : (s.wake ws).flowLog = s.flowLog := rfl
@[simp] theorem update_ports (id : Nat) (f : App → App) : (s.update id f).ports = s.ports := rfl
@[simp] theorem remove_ports (id : Nat) : (s.remove id).ports = s.ports := rfl
@[simp] theorem add_ports (k : Kind) : (s.add k).ports = s.ports := rfl
@[simp] theorem wake_ports (ws : List Waker) : (s.wake ws).ports = s.ports := rfl

theorem update_apps (id : Nat) (f : App → App) :
    (s.update id f).apps = s.apps.map fun a => if a.id = id then f a else a := rfl
theorem wake_apps (ws : List Waker) :
    (s.wake ws).apps = s.apps.map fun a => { a with op := a.op.wake ws } := rfl

theorem mem_remove {id : Nat} {b : App} : b ∈ (s.remove id).apps ↔ b ∈ s.apps ∧ b.id ≠ id := by
  simp [remove]

theorem mem_add {k : Kind} {b : App} : b ∈ (s.add k).apps ↔ b ∈ s.apps ∨ b = ⟨s.nextId, k, .idle⟩ := by
  simp [add]

theorem mem_of_mem_add {k : Kind} {b : App} (hb : b ∈ (s.add k).apps) {c : Option AppCookie}
    {te : Option (Tag × Eid)} {bl : Nat} {w : Waker} {x : Bool} (hop : b.op = .receiving c te bl w x) :
    b ∈ s.apps :=
  ((mem_add s).mp hb).resolve_right fun he => by rw [he] at hop; cases hop

end Frame

/-! ## The invariant -/

/-- Objects, and the listener table against the live listeners. -/
structure AppsInv (s : Sys maxMtu L) : Prop where
  idsNodup : (s.apps.map App.id).Nodup
  idsLt : ∀ a ∈ s.apps, a.id < s.nextId
  ops : ∀ a ∈ s.apps, a.OpOk
  bound : ∀ a ∈ s.apps, ∀ c typ, a.kind = .listener c typ → s.table.typeAt c.idx = some typ
  owner : ∀ i typ, s.table.typeAt i = some typ → ∃ a ∈ s.apps, a.kind = .listener ⟨i⟩ typ
  cookieUnique : ∀ a ∈ s.apps, ∀ b ∈ s.apps, ∀ c t t', a.kind = .listener c t →
    b.kind = .listener c t' → a = b
  typeUnique : ∀ i j typ, s.table.typeAt i = some typ → s.table.typeAt j = some typ → i = j

/-- The messages and flows of the stack. -/
structure StackInv (s : Sys maxMtu L) : Prop where
  deferred : ∀ m ∈ s.inner.stack.msgs, m.deferred = true
  handlesNodup : (s.inner.stack.msgs.map Msg.handle).Nodup
  handleLt : ∀ m ∈ s.inner.stack.msgs, m.handle < s.inner.stack.nextHandle
  cookieOwned : ∀ m ∈ s.inner.stack.msgs, m.cookie ≠ none → m.tag.isOwner = true
  flowCookie : ∀ f ∈ s.inner.stack.flows, f.cookie = none
  flowLogged : ∀ f ∈ s.inner.stack.flows, ∃ o, ⟨f.serial, o, f.eid, f.tv⟩ ∈ s.flowLog
  msgFlow : ∀ m ∈ s.inner.stack.msgs, ∀ tv, m.tag = .unowned tv →
    ∃ k o, m.flow = some k ∧ ⟨k, o, m.source, tv⟩ ∈ s.flowLog

/-- Pending receiving calls: each waker is registered where a new message wakes it. -/
structure WaitInv (s : Sys maxMtu L) (ws : List Waker) : Prop where
  listenerWaker : ∀ a ∈ s.apps, ∀ c typ bl w, a.kind = .listener c typ →
    a.op = .receiving (some c) none bl w false → w ∉ ws → s.table.wakerAt c.idx = some w
  reqWaker : ∀ a ∈ s.apps, ∀ te bl w, a.op = .receiving none te bl w false → w ∉ ws →
    w ∈ s.inner.appReceiveWakers
  noLost : ∀ a ∈ s.apps, ∀ c te bl w, a.op = .receiving c te bl w false → w ∉ ws →
    ∀ m ∈ s.inner.stack.msgs, ¬ Selects c te m

/-- The invariant of the router. -/
structure Inv (s : Sys maxMtu L) : Prop where
  apps : AppsInv s
  stack : StackInv s
  wait : WaitInv s []

/-! ## Objects that change one by one -/

theorem AppsInv.map {s s' : Sys maxMtu L} (h : AppsInv s) (g : App → App)
    (happs : s'.apps = s.apps.map g) (hid : ∀ a ∈ s.apps, (g a).id = a.id)
    (hkind : ∀ a ∈ s.apps, ∀ c t, (g a).kind = .listener c t ↔ a.kind = .listener c t)
    (hop : ∀ a ∈ s.apps, (g a).OpOk) (htable : ∀ i, s'.table.typeAt i = s.table.typeAt i)
    (hnext : s.nextId ≤ s'.nextId) : AppsInv s' where
  idsNodup := by
    have hmap : s.apps.map (App.id ∘ g) = s.apps.map App.id :=
      List.map_congr_left fun a ha => hid a ha
    rw [happs, List.map_map, hmap]
    exact h.idsNodup
  idsLt := by
    intro b hb
    rw [happs, List.mem_map] at hb
    obtain ⟨a, ha, rfl⟩ := hb
    rw [hid a ha]
    exact Nat.lt_of_lt_of_le (h.idsLt a ha) hnext
  ops := by
    intro b hb
    rw [happs, List.mem_map] at hb
    obtain ⟨a, ha, rfl⟩ := hb
    exact hop a ha
  bound := by
    intro b hb c typ hk
    rw [happs, List.mem_map] at hb
    obtain ⟨a, ha, rfl⟩ := hb
    rw [htable]
    exact h.bound a ha c typ ((hkind a ha c typ).mp hk)
  owner := by
    intro i typ hi
    obtain ⟨a, ha, hk⟩ := h.owner i typ ((htable i).symm.trans hi)
    exact ⟨g a, happs ▸ List.mem_map_of_mem g ha, (hkind a ha _ _).mpr hk⟩
  cookieUnique := by
    intro b hb b' hb' c t t' hk hk'
    rw [happs, List.mem_map] at hb hb'
    obtain ⟨a, ha, rfl⟩ := hb
    obtain ⟨a', ha', rfl⟩ := hb'
    rw [h.cookieUnique a ha a' ha' c t t' ((hkind a ha c t).mp hk) ((hkind a' ha' c t').mp hk')]
  typeUnique := fun i j typ hi hj =>
    h.typeUnique i j typ ((htable i).symm.trans hi) ((htable j).symm.trans hj)

theorem AppsInv.congr {s s' : Sys maxMtu L} (h : AppsInv s) (happs : s'.apps = s.apps)
    (htable : ∀ i, s'.table.typeAt i = s.table.typeAt i) (hid : s.nextId ≤ s'.nextId) :
    AppsInv s' :=
  h.map id (by rw [happs, List.map_id]) (fun _ _ => rfl) (fun _ _ _ _ => Iff.rfl) h.ops htable hid

theorem WaitInv.map {s s' : Sys maxMtu L} {ws ws' : List Waker} (h : WaitInv s ws)
    (g : App → App) (happs : s'.apps = s.apps.map g)
    (hkind : ∀ a ∈ s.apps, ∀ c t, (g a).kind = .listener c t → a.kind = .listener c t)
    (hop : ∀ a ∈ s.apps, ∀ c te bl w, (g a).op = .receiving c te bl w false → w ∉ ws' →
      a.op = .receiving c te bl w false)
    (hws : ∀ w ∈ ws, w ∈ ws')
    (hwaker : ∀ i w, s.table.wakerAt i = some w → w ∉ ws' → s'.table.wakerAt i = some w)
    (hrecv : ∀ w ∈ s.inner.appReceiveWakers, w ∉ ws' → w ∈ s'.inner.appReceiveWakers)
    (hmsgs : ∀ a ∈ s.apps, ∀ c te bl w, a.op = .receiving c te bl w false → w ∉ ws' →
      ∀ m ∈ s'.inner.stack.msgs, Selects c te m → m ∈ s.inner.stack.msgs) : WaitInv s' ws' where
  listenerWaker := by
    intro b hb c typ bl w hk hop' hw
    rw [happs, List.mem_map] at hb
    obtain ⟨a, ha, rfl⟩ := hb
    exact hwaker _ _ (h.listenerWaker a ha c typ bl w (hkind a ha c typ hk) (hop a ha _ _ _ _ hop' hw)
      fun hw' => hw (hws w hw')) hw
  reqWaker := by
    intro b hb te bl w hop' hw
    rw [happs, List.mem_map] at hb
    obtain ⟨a, ha, rfl⟩ := hb
    exact hrecv _ (h.reqWaker a ha te bl w (hop a ha _ _ _ _ hop' hw) fun hw' => hw (hws w hw')) hw
  noLost := by
    intro b hb c te bl w hop' hw m hm hsel
    rw [happs, List.mem_map] at hb
    obtain ⟨a, ha, rfl⟩ := hb
    have hopa := hop a ha _ _ _ _ hop' hw
    exact h.noLost a ha c te bl w hopa (fun hw' => hw (hws w hw')) m
      (hmsgs a ha c te bl w hopa hw m hm hsel) hsel

theorem StackInv.sub {s s' : Sys maxMtu L} (h : StackInv s)
    (hmsgs : s'.inner.stack.msgs.Sublist s.inner.stack.msgs)
    (hnext : s.inner.stack.nextHandle ≤ s'.inner.stack.nextHandle)
    (hflows : ∀ f ∈ s'.inner.stack.flows, f ∈ s.inner.stack.flows)
    (hlog : ∀ r ∈ s.flowLog, r ∈ s'.flowLog) : StackInv s' where
  deferred := fun m hm => h.deferred m (hmsgs.subset hm)
  handlesNodup := h.handlesNodup.sublist (hmsgs.map _)
  handleLt := fun m hm => Nat.lt_of_lt_of_le (h.handleLt m (hmsgs.subset hm)) hnext
  cookieOwned := fun m hm => h.cookieOwned m (hmsgs.subset hm)
  flowCookie := fun f hf => h.flowCookie f (hflows f hf)
  flowLogged := fun f hf => (h.flowLogged f (hflows f hf)).imp fun _ hr => hlog _ hr
  msgFlow := fun m hm tv htv =>
    (h.msgFlow m (hmsgs.subset hm) tv htv).imp fun _ => Exists.imp fun _ hr => ⟨hr.1, hlog _ hr.2⟩

theorem StackInv.frame {s s' : Sys maxMtu L} (h : StackInv s)
    (hstack : s'.inner.stack = s.inner.stack) (hlog : s'.flowLog = s.flowLog) : StackInv s' :=
  h.sub (by rw [hstack]) (by rw [hstack]) (by rw [hstack]; exact fun _ h => h) (by rw [hlog]; exact fun _ h => h)

/-! ## Waking -/

theorem AppsInv.wake {s : Sys maxMtu L} (h : AppsInv s) (ws : List Waker) : AppsInv (s.wake ws) :=
  h.map _ (wake_apps s ws) (fun _ _ => rfl) (fun _ _ _ _ => Iff.rfl)
    (fun a ha c te bl w b hop => by
      obtain ⟨b', hb'⟩ := Op.receiving_of_wake hop
      exact h.ops a ha c te bl w b' hb')
    (fun _ => rfl) (Nat.le_refl _)

theorem WaitInv.wake {s : Sys maxMtu L} {ws : List Waker} (h : WaitInv s ws) :
    WaitInv (s.wake ws) [] :=
  have hw : ∀ b ∈ (s.wake ws).apps, ∀ c te bl w, b.op = .receiving c te bl w false →
      ∃ a ∈ s.apps, b.kind = a.kind ∧ a.op = .receiving c te bl w false ∧ w ∉ ws := by
    intro b hb c te bl w hop
    rw [wake_apps, List.mem_map] at hb
    obtain ⟨a, ha, rfl⟩ := hb
    exact ⟨a, ha, rfl, Op.wake_eq_pending.mp hop⟩
  { listenerWaker := fun b hb c typ bl w hk hop _ => by
      obtain ⟨a, ha, hka, hopa, hws⟩ := hw b hb _ _ _ _ hop
      exact h.listenerWaker a ha c typ bl w (hka ▸ hk) hopa hws
    reqWaker := fun b hb te bl w hop _ => by
      obtain ⟨a, ha, -, hopa, hws⟩ := hw b hb _ _ _ _ hop
      exact h.reqWaker a ha te bl w hopa hws
    noLost := fun b hb c te bl w hop _ => by
      obtain ⟨a, ha, -, hopa, hws⟩ := hw b hb _ _ _ _ hop
      exact h.noLost a ha c te bl w hopa hws }

theorem Inv.wake {s : Sys maxMtu L} {ws : List Waker} (ha : AppsInv s) (hs : StackInv s)
    (hw : WaitInv s ws) : Inv (s.wake ws) :=
  ⟨ha.wake ws, hs.frame rfl rfl, hw.wake⟩

/-! ## Changing, adding and removing objects -/

theorem Inv.ofStack {s s' : Sys maxMtu L} (h : Inv s) (happs : s'.apps = s.apps)
    (htable : s'.table = s.table) (hstack : StackInv s')
    (hmsgs : ∀ m ∈ s'.inner.stack.msgs, m ∈ s.inner.stack.msgs)
    (hrecv : s'.inner.appReceiveWakers = s.inner.appReceiveWakers) (hid : s.nextId ≤ s'.nextId) :
    Inv s' where
  apps := h.apps.congr happs (fun _ => by rw [htable]) hid
  stack := hstack
  wait := h.wait.map id (by rw [happs, List.map_id]) (fun _ _ _ _ h => h) (fun _ _ _ _ _ _ h _ => h)
    (fun _ h => h) (fun _ _ h _ => by rwa [htable]) (fun _ h _ => by rwa [hrecv])
    fun _ _ _ _ _ _ _ _ m hm _ => hmsgs m hm

theorem Inv.congr {s s' : Sys maxMtu L} (h : Inv s) (happs : s'.apps = s.apps)
    (htable : s'.table = s.table) (hmsgs : s'.inner.stack.msgs.Sublist s.inner.stack.msgs)
    (hnext : s.inner.stack.nextHandle ≤ s'.inner.stack.nextHandle)
    (hflows : ∀ f ∈ s'.inner.stack.flows, f ∈ s.inner.stack.flows)
    (hrecv : s'.inner.appReceiveWakers = s.inner.appReceiveWakers) (hid : s.nextId ≤ s'.nextId)
    (hlog : ∀ r ∈ s.flowLog, r ∈ s'.flowLog) : Inv s' :=
  h.ofStack happs htable (h.stack.sub hmsgs hnext hflows hlog) (fun _ hm => hmsgs.subset hm) hrecv hid

theorem Inv.frame {s s' : Sys maxMtu L} (h : Inv s) (happs : s'.apps = s.apps)
    (htable : s'.table = s.table) (hstack : s'.inner.stack = s.inner.stack)
    (hrecv : s'.inner.appReceiveWakers = s.inner.appReceiveWakers) (hid : s.nextId ≤ s'.nextId)
    (hlog : ∀ r ∈ s.flowLog, r ∈ s'.flowLog) : Inv s' :=
  h.congr happs htable (by rw [hstack]) (by rw [hstack]) (by rw [hstack]; exact fun _ h => h) hrecv
    hid hlog

theorem AppsInv.find_unique_id {s : Sys maxMtu L} (h : AppsInv s) {a b : App} (ha : a ∈ s.apps)
    (hb : b ∈ s.apps) (hid : a.id = b.id) : a = b :=
  List.inj_on_of_nodup_map h.idsNodup ha hb hid

theorem find_some {s : Sys maxMtu L} (h : AppsInv s) {id : Nat} {a : App} (hf : s.find id = some a) :
    a ∈ s.apps ∧ a.id = id ∧ ∀ b ∈ s.apps, b.id = id → b = a := by
  have ha := List.mem_of_find?_eq_some hf
  have hid : a.id = id := by simpa using List.find?_some hf
  exact ⟨ha, hid, fun b hb hb' =>
    List.inj_on_of_nodup_map h.idsNodup hb ha (hb'.trans hid.symm)⟩

theorem Inv.update {s : Sys maxMtu L} (h : Inv s) (id : Nat) (f : App → App)
    (hid : ∀ a ∈ s.apps, a.id = id → (f a).id = a.id)
    (hkind : ∀ a ∈ s.apps, a.id = id → ∀ c t, (f a).kind = .listener c t ↔ a.kind = .listener c t)
    (hok : ∀ a ∈ s.apps, a.id = id → (f a).OpOk)
    (hop : ∀ a ∈ s.apps, a.id = id → ∀ c te bl w, (f a).op = .receiving c te bl w false →
      a.op = .receiving c te bl w false) : Inv (s.update id f) where
  apps := h.apps.map _ (update_apps s id f) (fun a ha => by split_ifs with hi <;> simp [hid a ha, hi])
    (fun a ha c t => by split_ifs with hi; exacts [hkind a ha hi c t, Iff.rfl])
    (fun a ha => by split_ifs with hi; exacts [hok a ha hi, h.apps.ops a ha]) (fun _ => rfl)
    (Nat.le_refl _)
  stack := h.stack.frame rfl rfl
  wait := h.wait.map _ (update_apps s id f)
    (fun a ha c t hk => by split_ifs at hk with hi; exacts [(hkind a ha hi c t).mp hk, hk])
    (fun a ha c te bl w hop' _ => by split_ifs at hop' with hi; exacts [hop a ha hi _ _ _ _ hop', hop'])
    (fun _ h => h) (fun _ _ h _ => h) (fun _ h _ => h) fun _ _ _ _ _ _ _ _ _ hm _ => hm

theorem AppsInv.nodup_add {s : Sys maxMtu L} (h : AppsInv s) (k : Kind) :
    ((s.add k).apps.map App.id).Nodup := by
  simp only [Sys.add, List.map_append, List.map_cons, List.map_nil, List.nodup_append,
    List.nodup_cons, List.not_mem_nil, not_false_eq_true, List.nodup_nil, and_self,
    List.disjoint_singleton, List.mem_map, not_exists, not_and, true_and]
  exact ⟨h.idsNodup, fun a ha hid => Nat.lt_irrefl _ (hid ▸ h.idsLt a ha)⟩

theorem AppsInv.lt_add {s : Sys maxMtu L} (h : AppsInv s) (k : Kind) :
    ∀ a ∈ (s.add k).apps, a.id < s.nextId + 1 := fun a ha => by
  rcases (mem_add s).mp ha with ha | rfl
  · exact Nat.lt_succ_of_lt (h.idsLt a ha)
  · exact Nat.lt_succ_self _

theorem Inv.add {s : Sys maxMtu L} (h : Inv s) (k : Kind) (hk : ∀ c t, k ≠ .listener c t) :
    Inv (s.add k) where
  apps :=
    { idsNodup := h.apps.nodup_add k
      idsLt := h.apps.lt_add k
      ops := fun a ha c te bl w b hop => h.apps.ops a (mem_of_mem_add s ha hop) c te bl w b hop
      bound := fun a ha c typ hka => by
        rcases (mem_add s).mp ha with ha | rfl
        · exact h.apps.bound a ha c typ hka
        · exact absurd hka (hk c typ)
      owner := fun i typ hi => (h.apps.owner i typ hi).imp fun a ha =>
        ⟨(mem_add s).mpr (.inl ha.1), ha.2⟩
      cookieUnique := fun a ha b hb c t t' hka hkb => by
        rcases (mem_add s).mp ha with ha | rfl
        · rcases (mem_add s).mp hb with hb | rfl
          · exact h.apps.cookieUnique a ha b hb c t t' hka hkb
          · exact absurd hkb (hk c t')
        · exact absurd hka (hk c t)
      typeUnique := h.apps.typeUnique }
  stack := h.stack.frame rfl rfl
  wait :=
    { listenerWaker := fun a ha c typ bl w hka hop =>
        h.wait.listenerWaker a (mem_of_mem_add s ha hop) c typ bl w hka hop
      reqWaker := fun a ha te bl w hop => h.wait.reqWaker a (mem_of_mem_add s ha hop) te bl w hop
      noLost := fun a ha c te bl w hop => h.wait.noLost a (mem_of_mem_add s ha hop) c te bl w hop }

theorem Inv.remove {s : Sys maxMtu L} (h : Inv s) (id : Nat)
    (hnl : ∀ a ∈ s.apps, a.id = id → ∀ c t, a.kind ≠ .listener c t) : Inv (s.remove id) where
  apps :=
    { idsNodup := (h.apps.idsNodup.sublist (List.Sublist.map _ (List.filter_sublist _)))
      idsLt := fun a ha => h.apps.idsLt a ((mem_remove s).mp ha).1
      ops := fun a ha => h.apps.ops a ((mem_remove s).mp ha).1
      bound := fun a ha => h.apps.bound a ((mem_remove s).mp ha).1
      owner := fun i typ hi => by
        obtain ⟨a, ha, hka⟩ := h.apps.owner i typ hi
        exact ⟨a, (mem_remove s).mpr ⟨ha, fun hid => hnl a ha hid _ _ hka⟩, hka⟩
      cookieUnique := fun a ha b hb => h.apps.cookieUnique a ((mem_remove s).mp ha).1 b
        ((mem_remove s).mp hb).1
      typeUnique := h.apps.typeUnique }
  stack := h.stack.frame rfl rfl
  wait :=
    { listenerWaker := fun a ha => h.wait.listenerWaker a ((mem_remove s).mp ha).1
      reqWaker := fun a ha => h.wait.reqWaker a ((mem_remove s).mp ha).1
      noLost := fun a ha => h.wait.noLost a ((mem_remove s).mp ha).1 }

theorem Inv.settle {s : Sys maxMtu L} (h : Inv s) (id : Nat) (f : App → App)
    (hid : ∀ a, (f a).id = a.id)
    (hkind : ∀ a c t, (f a).kind = .listener c t ↔ a.kind = .listener c t)
    (hop : ∀ a c te bl w b, (f a).op ≠ .receiving c te bl w b) : Inv (s.update id f) :=
  h.update id f (fun a _ _ => hid a) (fun a _ _ => hkind a)
    (fun a _ _ c te bl w b hr => absurd hr (hop a c te bl w b))
    (fun a _ _ c te bl w hr => absurd hr (hop a c te bl w false))

theorem Inv.ports {s : Sys maxMtu L} (h : Inv s) (ps : List (PortSys maxMtu Fragmenter)) :
    Inv { s with ports := ps } :=
  h.frame rfl rfl rfl rfl (Nat.le_refl _) fun _ h => h

end Sys

end MctpRouter
