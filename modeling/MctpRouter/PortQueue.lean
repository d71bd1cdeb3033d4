import MctpRouter.PortTasks

/-!
# The ring of one port over whole runs

What the calls on one port do to its ring, what the driver takes out of it, and why no call on
a port the router drives reaches a panic.

* `Commits`: a step takes slots from the free ones, fills them and commits them at the end of
  the ring, logged as one call's; `ring_step` says that every step does so, or is
  `outbound_done`.
* `queue_step`: the queued slots, then the slots a step commits, are the slot `outbound_done`
  took, then the queued slots after it; `runOut` runs a port's steps with the slots
  `outbound_done` consumed.
* `SendPc.Live`, `FwdPc.Parses`, `CallsOk`: with the stack's fragmenter, a send call that has
  not returned holds a fragmenter that is not done, made for the port's MTU; a forward call
  that has not run holds a packet whose header parses; every queued slot fits the port's MTU
  and is empty or framed (`PktBuf.Framed`, the spec's invariant of a packet buffer).
  `CallsOk.step`: every step of a port in that state, on a call the router can start, is defined
  (no `unwrap` fails and no `unreachable!()` is reached) and keeps it.
* `SendPc.flat`, `MessageHeld`: the flatten buffer is held by exactly the send call fragmenting
  a payload flattened into it; `pollSend_message` says what a poll does with the buffer (keep,
  release or take it), and `Reachable.mutexes` gives both mutexes' holders in a reachable port.
-/

namespace MctpRouter

variable {maxMtu : Nat} {σ : Type}

namespace PortSys

variable {header : List UInt8 → Except Error Header} {maxPayload : Nat} {F : Frag maxMtu σ}

/-! ## The ring, step by step -/

/-- `s'` has the ring of `s` with the slots `cs` taken from the free ones and committed as call
`id`'s. -/
structure Commits (s s' : PortSys maxMtu σ) (id : Nat) (cs : List (PktBuf maxMtu)) : Prop where
  le : cs.length ≤ s.top.packets.free.length
  packets : s'.top.packets = ⟨s.top.packets.queued ++ cs, s.top.packets.free.drop cs.length⟩
  log : s'.log = s.log ++ cs.map (id, ·)
  mtu : s'.top.mtu = s.top.mtu

theorem Commits.nil {s s' : PortSys maxMtu σ} (ht : s'.top = s.top) (hl : s'.log = s.log)
    (id : Nat) : Commits s s' id [] :=
  ⟨Nat.zero_le _, by simp [ht], by simp [hl], by rw [ht]⟩

theorem Commits.congr {s0 s s' : PortSys maxMtu σ} {id : Nat} {cs : List (PktBuf maxMtu)}
    (h : Commits s0 s' id cs) (ht : s0.top = s.top) (hl : s0.log = s.log) : Commits s s' id cs :=
  ⟨ht ▸ h.le, ht ▸ h.packets, hl ▸ h.log, ht ▸ h.mtu⟩

theorem Channel.capacity_commit (c : Channel maxMtu) {cs : List (PktBuf maxMtu)}
    (h : cs.length ≤ c.free.length) :
    (⟨c.queued ++ cs, c.free.drop cs.length⟩ : Channel maxMtu).capacity = c.capacity := by
  simp only [Channel.capacity, List.length_append, List.length_drop]
  omega

theorem runSlot_ring {s s' : PortSys maxMtu σ} {id : Nat} {frag : σ} {payload : List UInt8}
    {flat : Bool} (h : runSlot F s id frag payload flat = some s') : ∃ cs, Commits s s' id cs := by
  unfold runSlot at h
  rw [sendLoop_eq] at h
  rcases hr : fragRun F payload frag s.top.packets.free.length with _ | ⟨bs, f | r⟩ <;>
    simp only [hr, Option.map_none', Option.map_some'] at h
  · cases h
  all_goals
    cases h
    exact ⟨bs, ⟨(fragRun_length hr).1, rfl, commit_log _ _ _ _, rfl⟩⟩

theorem lock_ring {s s' : PortSys maxMtu σ} {id : Nat} {frag : σ} {payload : List UInt8}
    {flat : Bool} (h : lock F s id frag payload flat = some s') : ∃ cs, Commits s s' id cs := by
  unfold lock at h
  split at h
  · cases h
    exact ⟨[], .nil (setSend_top _ _ _) (setSend_log _ _ _) id⟩
  · obtain ⟨cs, hc⟩ := runSlot_ring h
    exact ⟨cs, hc.congr rfl rfl⟩

theorem pollSend_ring {s s' : PortSys maxMtu σ} {id : Nat}
    (h : pollSend maxPayload F s id = some s') : ∃ cs, Commits s s' id cs := by
  unfold pollSend at h
  split at h
  · unfold flattenStep at h
    split at h
    · cases h
      exact ⟨[], .nil rfl rfl id⟩
    · split at h
      · cases h
        exact ⟨[], .nil (setSend_top _ _ _) (setSend_log _ _ _) id⟩
      · obtain ⟨cs, hc⟩ := lock_ring h
        exact ⟨cs, hc.congr rfl rfl⟩
  · exact lock_ring h
  · exact runSlot_ring h
  · cases h
    exact ⟨[], .nil rfl rfl id⟩

theorem forwardPacket_commits {top top' : PortTop maxMtu} {pkt : List UInt8}
    {r : Except Error Unit} (h : top.forwardPacket header pkt = some (r, top')) :
    top'.mtu = top.mtu ∧ ∃ cs : List (PktBuf maxMtu), cs.length ≤ top.packets.free.length ∧
      (∀ b ∈ cs, b.data = pkt ∧ b.len ≤ top.mtu ∧ ∃ hdr, header pkt = .ok hdr ∧ b.dest = hdr.dest) ∧
      top'.packets = ⟨top.packets.queued ++ cs, top.packets.free.drop cs.length⟩ := by
  have hsame : ∃ cs : List (PktBuf maxMtu), cs.length ≤ top.packets.free.length ∧
      (∀ b ∈ cs, b.data = pkt ∧ b.len ≤ top.mtu ∧ ∃ hdr, header pkt = .ok hdr ∧ b.dest = hdr.dest) ∧
      top.packets = ⟨top.packets.queued ++ cs, top.packets.free.drop cs.length⟩ :=
    ⟨[], Nat.zero_le _, by simp, by simp⟩
  unfold PortTop.forwardPacket at h
  split at h
  · cases h; exact ⟨rfl, hsame⟩
  rename_i hmtu
  split at h
  · cases h; exact ⟨rfl, hsame⟩
  rename_i slot hs
  split at h
  · cases h
  rename_i b hb
  cases h
  obtain ⟨x, xs, hx⟩ := List.exists_cons_of_ne_nil
    (show top.packets.free ≠ [] from fun hf => by simp [Channel.trySend, hf] at hs)
  unfold PktBuf.set at hb
  split at hb
  · cases hb
  split at hb
  · rename_i hdr hh hlen
    cases hb
    refine ⟨rfl, [⟨pkt, hdr.dest, hlen⟩], by simp [hx], ?_, by simp [Channel.sendDone, hx]⟩
    intro b hb
    rw [List.mem_singleton.mp hb]
    exact ⟨rfl, Nat.le_of_not_lt hmtu, hdr, hh, rfl⟩
  · cases hb

theorem pollForward_ring {s s' : PortSys maxMtu σ} {id : Nat}
    (h : pollForward header s id = some s') : ∃ cs, Commits s s' id cs := by
  unfold pollForward at h
  split at h
  · split at h
    · cases h
      exact ⟨[], .nil rfl rfl id⟩
    · obtain ⟨⟨r, top'⟩, hf, rfl⟩ := Option.map_eq_some'.mp h
      obtain ⟨-, cs, hle, -, hp⟩ := forwardPacket_commits hf
      exact ⟨cs, ⟨hle, hp, by rw [setFwd_log, hp]; exact commit_log _ _ _ _, rfl⟩⟩
  · cases h
    exact ⟨[], .nil rfl rfl id⟩

@[simp] theorem dropSend_top (s : PortSys maxMtu σ) (id : Nat) : (s.dropSend id).top = s.top := by
  unfold dropSend; split <;> rfl

@[simp] theorem dropSend_log (s : PortSys maxMtu σ) (id : Nat) : (s.dropSend id).log = s.log := by
  unfold dropSend; split <;> rfl

@[simp] theorem dropForward_top (s : PortSys maxMtu σ) (id : Nat) :
    (s.dropForward id).top = s.top := by
  unfold dropForward; split <;> rfl

@[simp] theorem dropForward_log (s : PortSys maxMtu σ) (id : Nat) :
    (s.dropForward id).log = s.log := by
  unfold dropForward; split <;> rfl

/-- The slots `outbound_done` consumes in step `a`: the oldest queued one. -/
def taken (s : PortSys maxMtu σ) : PortAct σ → List (PktBuf maxMtu)
  | .outboundDone => s.top.packets.queued.take 1
  | _ => []

/-- **What a step does to the ring**: it commits slots at its end, or frees the oldest one. -/
theorem ring_step {s s' : PortSys maxMtu σ} {a : PortAct σ}
    (h : s.step header maxPayload F a = some s') :
    (s.taken a = [] ∧ ∃ id cs, Commits s s' id cs) ∨ (a = .outboundDone ∧ s' = s.outboundDone) := by
  cases a with
  | spawnSend id frag pkt =>
    cases h
    exact .inl ⟨rfl, id, [], .nil (by split <;> rfl) (by split <;> rfl) id⟩
  | spawnForward id pkt =>
    cases h
    exact .inl ⟨rfl, id, [], .nil (by split <;> rfl) (by split <;> rfl) id⟩
  | pollSend id => exact .inl ⟨rfl, id, pollSend_ring h⟩
  | pollForward id => exact .inl ⟨rfl, id, pollForward_ring h⟩
  | dropSend id =>
    cases h
    exact .inl ⟨rfl, id, [], .nil (dropSend_top s id) (dropSend_log s id) id⟩
  | dropForward id =>
    cases h
    exact .inl ⟨rfl, id, [], .nil (dropForward_top s id) (dropForward_log s id) id⟩
  | outboundDone => cases h; exact .inr ⟨rfl, rfl⟩

theorem queue_step {s s' : PortSys maxMtu σ} {a : PortAct σ}
    (h : s.step header maxPayload F a = some s') :
    ∃ new, s'.log = s.log ++ new ∧
      s.top.packets.queued ++ new.map Prod.snd = s.taken a ++ s'.top.packets.queued ∧
      s'.top.packets.capacity = s.top.packets.capacity := by
  rcases ring_step h with ⟨ht, id, cs, hc⟩ | ⟨rfl, rfl⟩
  · refine ⟨cs.map (id, ·), hc.log, ?_, ?_⟩
    · simp [ht, hc.packets, Function.comp_def]
    · rw [hc.packets]
      exact Channel.capacity_commit _ hc.le
  · refine ⟨[], by simp [outboundDone], ?_, Channel.capacity_receiveDone _⟩
    simp only [taken, outboundDone, Channel.receiveDone, List.map_nil, List.append_nil]
    cases s.top.packets.queued <;> rfl

section Run

variable (header maxPayload F)

/-- Run the steps of a list in order, with the slots `outbound_done` consumed, oldest first. -/
def runOut (s : PortSys maxMtu σ) : List (PortAct σ) → Option (PortSys maxMtu σ × List (PktBuf maxMtu))
  | [] => some (s, [])
  | a :: as => (s.step header maxPayload F a).bind fun s' =>
      (runOut s' as).map fun r => (r.1, s.taken a ++ r.2)

end Run

end PortSys

/-! ## The stack's fragmenter in the fragment loop -/

/-- The payload bytes a fragmenter has still to send, and one for its last packet. -/
def Fragmenter.rem (f : Fragmenter) (payload : List UInt8) : Nat := payload.length + 1 - f.sent

/-- The spec's invariant of a packet buffer: empty, or an MCTP packet for the buffer's `dest`. -/
def PktBuf.Framed (b : PktBuf maxMtu) : Prop :=
  b.data = [] ∨ ∃ hdr, mctpHeader b.data = .ok hdr ∧ hdr.dest = b.dest

theorem Fragmenter.fillSlot_live (maxMtu : Nat) {f : Fragmenter} (hf : f.done = false)
    (payload : List UInt8) :
    ∃ b f' r, fillSlot (Fragmenter.frag : Frag maxMtu Fragmenter) f payload = some (b, f', r) ∧
      b.len ≤ f.mtu ∧ b.Framed ∧ f'.mtu = f.mtu ∧
      (r = none → f'.done = false ∧ f'.rem payload < f.rem payload) := by
  unfold fillSlot
  simp only [Fragmenter.frag]
  unfold Fragmenter.fragment
  rw [if_neg (by simp [hf])]
  have hlead := Fragmenter.lead_length_le f
  split_ifs with hm
  · refine ⟨_, _, _, rfl, ?_, .inr ⟨⟨f.src, f.dest⟩, rfl, rfl⟩, rfl, fun hr => ?_⟩
    · have := Fragmenter.body_length_le maxMtu f payload
      simp only [PktBuf.len, List.length_append, List.length_cons, List.length_nil]
      omega
    · split at hr
      · cases hr
      · rename_i heom
        simp only [decide_eq_true_eq] at heom
        simp only [Fragmenter.rem, Fragmenter.body, List.length_append, List.length_take,
          List.length_drop] at heom ⊢
        exact ⟨by simpa using heom, by omega⟩
  · exact ⟨_, _, _, rfl, Nat.zero_le _, .inl rfl, rfl, fun hr => nomatch hr⟩

/-- **The stack's fragment loop, from a fragmenter that is not done**, never reaches
`unreachable!()` and fills slots that fit its MTU. -/
theorem Fragmenter.fragRun_live (maxMtu : Nat) {f : Fragmenter} (hf : f.done = false)
    (payload : List UInt8) (n : Nat) :
    ∃ bs e, fragRun (Fragmenter.frag : Frag maxMtu Fragmenter) payload f n = some (bs, e) ∧
      (∀ b ∈ bs, b.len ≤ f.mtu ∧ b.Framed) ∧ ∀ f', e = .blocked f' → f'.done = false ∧
        f'.mtu = f.mtu ∧ f'.rem payload + min n 1 ≤ f.rem payload := by
  induction n generalizing f with
  | zero =>
    exact ⟨[], .blocked f, rfl, by simp, fun f' h => by cases h; exact ⟨hf, rfl, by omega⟩⟩
  | succ n ih =>
    obtain ⟨b, f', r, hfill, hb, hbf, hmtu, hdone⟩ := Fragmenter.fillSlot_live maxMtu hf payload
    cases r with
    | some r => exact ⟨[b], .finished r, by simp [fragRun, hfill], by simpa using ⟨hb, hbf⟩, nofun⟩
    | none =>
      obtain ⟨hd, hrem⟩ := hdone rfl
      obtain ⟨bs, e, hrun, hbs, he⟩ := ih hd
      refine ⟨b :: bs, e, by simp [fragRun, hfill, hrun], ?_, fun f'' h => ?_⟩
      · rintro x (_ | ⟨_, hx⟩)
        · exact ⟨hb, hbf⟩
        · exact hmtu ▸ hbs x hx
      · obtain ⟨h1, h2, h3⟩ := he f'' h
        exact ⟨h1, h2.trans hmtu, by omega⟩

/-! ## The calls the router starts on a port -/

/-- A send call at `pc`, if it has not returned, holds a fragmenter that is not done, made for MTU
`mtu`. -/
def SendPc.Live (mtu : Nat) : SendPc Fragmenter → Prop
  | .flatten f _ | .lock f _ _ | .slot f _ _ => f.done = false ∧ f.mtu = mtu
  | .sent _ | .dropped => True

/-- A forward call at `pc`, if it has not run, holds a packet whose header parses. -/
def FwdPc.Parses (header : List UInt8 → Except Error Header) : FwdPc → Prop
  | .lock pkt => ∃ hdr, header pkt = .ok hdr
  | .forwarded _ | .dropped => True

/-- The calls the router starts on a port of MTU `mtu`: sends with a fragmenter made for it, and
forwards of parsed packets. -/
def PortAct.Starts (header : List UInt8 → Except Error Header) (mtu : Nat) :
    PortAct Fragmenter → Prop
  | .spawnSend _ frag _ => frag.done = false ∧ frag.mtu = mtu
  | .spawnForward _ pkt => ∃ hdr, header pkt = .ok hdr
  | _ => True

theorem PortAct.starts_of_newId {header : List UInt8 → Except Error Header}
    {a : PortAct Fragmenter} (h : a.newId = none) (mtu : Nat) :
    a.Starts header mtu := by
  cases a with
  | spawnSend => nomatch h
  | spawnForward => nomatch h
  | _ => trivial

namespace PortSys

variable {maxPayload : Nat}

/-- The calls on a port that the router drives: sends hold live fragmenters for the port's MTU,
forwards hold parsed packets, queued slots fit the MTU and are framed. -/
structure CallsOk (s : PortSys maxMtu Fragmenter) : Prop where
  sends : ∀ t ∈ s.sends, t.pc.Live s.top.mtu
  forwards : ∀ u ∈ s.forwards, u.pc.Parses mctpHeader
  fits : ∀ b ∈ s.top.packets.queued, b.len ≤ s.top.mtu
  framed : ∀ b ∈ s.top.packets.queued, b.Framed

theorem mem_setFwd {s : PortSys maxMtu σ} {id : Nat} {pc : FwdPc} {u' : FwdTask}
    (h : u' ∈ (s.setFwd id pc).forwards) : u' ∈ s.forwards ∨ u'.pc = pc := by
  obtain ⟨u, hu, rfl⟩ := List.mem_map.mp h
  split
  · exact .inr rfl
  · exact .inl hu

theorem CallsOk.of_commits {s s' : PortSys maxMtu Fragmenter} (h : CallsOk s) {id : Nat}
    {cs : List (PktBuf maxMtu)} (hc : Commits s s' id cs)
    (hfit : ∀ b ∈ cs, b.len ≤ s.top.mtu ∧ b.Framed)
    (hs : ∀ t ∈ s'.sends, t ∈ s.sends ∨ t.pc.Live s.top.mtu)
    (hf : ∀ u ∈ s'.forwards, u ∈ s.forwards ∨ u.pc.Parses mctpHeader) : CallsOk s' := by
  rw [← hc.mtu] at hfit hs
  have hq : ∀ b ∈ s'.top.packets.queued, b ∈ s.top.packets.queued ∨ b ∈ cs := fun b hb => by
    rwa [hc.packets, List.mem_append] at hb
  exact ⟨fun t ht => (hs t ht).elim (fun ht => hc.mtu ▸ h.sends t ht) fun h => h,
    fun u hu => (hf u hu).elim (h.forwards u) fun h => h,
    fun b hb => (hq b hb).elim (fun hb => hc.mtu ▸ h.fits b hb) fun hb => (hfit b hb).1,
    fun b hb => (hq b hb).elim (h.framed b) fun hb => (hfit b hb).2⟩

theorem CallsOk.of_sends {s s' : PortSys maxMtu Fragmenter} (h : CallsOk s) {id : Nat}
    {pc : SendPc Fragmenter} (hc : Commits s s' id []) (he : s'.sends = (s.setSend id pc).sends)
    (hfw : s'.forwards = s.forwards) (hpc : pc.Live s.top.mtu) : CallsOk s' := by
  refine h.of_commits hc (by simp) (fun t ht => ?_) (fun u hu => .inl (hfw ▸ hu))
  rw [he] at ht
  rcases mem_setSend ht with ⟨ht, -⟩ | ⟨t0, -, -, rfl⟩
  · exact .inl ht
  · exact .inr hpc

/-- **The fragment loop of a send call** is defined, and keeps `CallsOk`. -/
theorem runSlot_callsOk {s : PortSys maxMtu Fragmenter} (h : CallsOk s) {id : Nat}
    {frag : Fragmenter} {payload : List UInt8} {flat : Bool} (hf : frag.done = false)
    (hm : frag.mtu = s.top.mtu) :
    ∃ s', runSlot Fragmenter.frag s id frag payload flat = some s' ∧ CallsOk s' := by
  obtain ⟨bs, e, hrun, hbs, he⟩ := Fragmenter.fragRun_live maxMtu hf payload
    s.top.packets.free.length
  have hc : ∀ X : PortSys maxMtu Fragmenter,
      X.top.packets = ⟨s.top.packets.queued ++ bs, s.top.packets.free.drop bs.length⟩ →
      X.log = s.log ++ bs.map (id, ·) → X.top.mtu = s.top.mtu → Commits s X id bs :=
    fun X hp hl hx => ⟨(fragRun_length hrun).1, hp, hl, hx⟩
  unfold runSlot
  rw [sendLoop_eq, hrun]
  cases e with
  | blocked f' =>
    refine ⟨_, rfl, h.of_commits (hc _ rfl (commit_log _ _ _ _) rfl) (hm ▸ hbs) ?_
      (fun u hu => .inl hu)⟩
    intro t ht
    rcases mem_setSend ht with ⟨ht, -⟩ | ⟨t0, -, -, rfl⟩
    · exact .inl ht
    · exact .inr (hm ▸ ⟨(he f' rfl).1, (he f' rfl).2.1⟩)
  | finished r =>
    refine ⟨_, rfl, h.of_commits (hc _ rfl (commit_log _ _ _ _) rfl) (hm ▸ hbs) ?_
      (fun u hu => .inl hu)⟩
    intro t ht
    rcases mem_setSend ht with ⟨ht, -⟩ | ⟨t0, -, -, rfl⟩
    · exact .inl ht
    · exact .inr trivial

theorem lock_callsOk {s : PortSys maxMtu Fragmenter} (h : CallsOk s) {id : Nat}
    {frag : Fragmenter} {payload : List UInt8} {flat : Bool} (hf : frag.done = false)
    (hm : frag.mtu = s.top.mtu) :
    ∃ s', lock Fragmenter.frag s id frag payload flat = some s' ∧ CallsOk s' := by
  unfold lock
  split
  · exact ⟨_, rfl, h.of_sends (.nil (by rfl) (by rfl) id) rfl rfl ⟨hf, hm⟩⟩
  · exact runSlot_callsOk (s := { s with producer := some id })
      ⟨h.sends, h.forwards, h.fits, h.framed⟩ hf hm

theorem pollSend_callsOk {s : PortSys maxMtu Fragmenter} (h : CallsOk s) (id : Nat) :
    ∃ s', pollSend maxPayload Fragmenter.frag s id = some s' ∧ CallsOk s' := by
  have hlive : ∀ {pc}, (s.sends.find? (·.id = id)).map SendTask.pc = some pc → pc.Live s.top.mtu :=
    fun hpc => by
      obtain ⟨t, ht, rfl⟩ := Option.map_eq_some'.mp hpc
      exact h.sends t (List.mem_of_find?_eq_some ht)
  unfold pollSend
  split
  · rename_i hpc
    obtain ⟨hf, hm⟩ := hlive hpc
    unfold flattenStep
    split
    · exact ⟨s, rfl, h⟩
    · split
      · exact ⟨_, rfl, h.of_sends (.nil (by rfl) (by rfl) id) rfl rfl trivial⟩
      · exact lock_callsOk (s := { s with message := some id })
          ⟨h.sends, h.forwards, h.fits, h.framed⟩ hf hm
  · rename_i hpc
    exact lock_callsOk h (hlive hpc).1 (hlive hpc).2
  · rename_i hpc
    exact runSlot_callsOk h (hlive hpc).1 (hlive hpc).2
  · exact ⟨s, rfl, h⟩

theorem pollForward_callsOk {s : PortSys maxMtu Fragmenter} (h : CallsOk s) (id : Nat) :
    ∃ s', pollForward mctpHeader s id = some s' ∧ CallsOk s' := by
  unfold pollForward
  split
  · rename_i pkt hpc
    obtain ⟨u, hu, hpu⟩ := Option.map_eq_some'.mp hpc
    obtain ⟨hdr, hh⟩ : ∃ hdr, mctpHeader pkt = .ok hdr := by
      have := h.forwards u (List.mem_of_find?_eq_some hu)
      rw [hpu] at this
      exact this
    split
    · exact ⟨s, rfl, h⟩
    have hsome : (s.top.forwardPacket mctpHeader pkt).isSome := by
      rw [forwardPacket_eq mctpHeader s.top pkt hh]
      split_ifs <;> rfl
    obtain ⟨⟨r, top'⟩, hfw⟩ := Option.isSome_iff_exists.mp hsome
    obtain ⟨-, cs, hle, hfit, hp⟩ := forwardPacket_commits hfw
    refine ⟨(s.commit id top'.packets).setFwd id (.forwarded r), by rw [hfw]; rfl,
      h.of_commits ⟨hle, hp, by rw [setFwd_log, hp]; exact commit_log _ _ _ _, rfl⟩
        (fun b hb => ?_) (fun t ht => .inl ht) fun u' hu' => ?_⟩
    · obtain ⟨hd, hlen, hdr', hh', hde⟩ := hfit b hb
      exact ⟨hlen, .inr ⟨hdr', hd ▸ hh', hde.symm⟩⟩
    rcases mem_setFwd hu' with hu' | hu'
    · exact .inl hu'
    · exact .inr (by rw [hu']; trivial)
  · exact ⟨s, rfl, h⟩

/-- **No call the router starts on a port panics**, and every step keeps `CallsOk`. -/
theorem CallsOk.step {s : PortSys maxMtu Fragmenter} (h : CallsOk s) (maxPayload : Nat)
    {a : PortAct Fragmenter} (ha : a.Starts mctpHeader s.top.mtu) :
    ∃ s', s.step mctpHeader maxPayload Fragmenter.frag a = some s' ∧ CallsOk s' := by
  cases a with
  | spawnSend id frag pkt =>
    refine ⟨_, rfl, ?_⟩
    split
    · exact h
    · refine ⟨fun t ht => ?_, h.forwards, h.fits, h.framed⟩
      rcases List.mem_append.mp ht with ht | ht
      · exact h.sends t ht
      · rw [List.mem_singleton.mp ht]
        split <;> exact ha
  | spawnForward id pkt =>
    refine ⟨_, rfl, ?_⟩
    split
    · exact h
    · refine ⟨h.sends, fun u hu => ?_, h.fits, h.framed⟩
      rcases List.mem_append.mp hu with hu | hu
      · exact h.forwards u hu
      · rw [List.mem_singleton.mp hu]
        exact ha
  | pollSend id => exact pollSend_callsOk h id
  | pollForward id => exact pollForward_callsOk h id
  | dropSend id =>
    refine ⟨_, rfl, ?_⟩
    unfold dropSend
    split
    · exact h
    · exact h
    · exact h.of_sends (.nil (by rfl) (by rfl) id) rfl rfl trivial
  | dropForward id =>
    refine ⟨_, rfl, ?_⟩
    unfold dropForward
    split
    · refine h.of_commits (.nil (by rfl) (by rfl) id) (by simp)
        (fun t ht => .inl ht) fun u hu => ?_
      rcases mem_setFwd hu with hu | hu
      · exact .inl hu
      · exact .inr (by rw [hu]; trivial)
    · exact h
  | outboundDone =>
    exact ⟨_, rfl, ⟨h.sends, h.forwards, fun b hb => h.fits b (List.mem_of_mem_tail hb),
      fun b hb => h.framed b (List.mem_of_mem_tail hb)⟩⟩

theorem CallsOk.of_step {s s' : PortSys maxMtu Fragmenter} (h : CallsOk s)
    {a : PortAct Fragmenter} (ha : a.Starts mctpHeader s.top.mtu)
    (hs : s.step mctpHeader maxPayload Fragmenter.frag a = some s') : CallsOk s' := by
  obtain ⟨s'', hs', h'⟩ := h.step maxPayload ha
  rw [hs] at hs'
  cases hs'
  exact h'

theorem CallsOk.init (q mtu : Nat) (hm : mtu ≤ maxMtu) :
    CallsOk (init q mtu hm : PortSys maxMtu Fragmenter) :=
  ⟨(fun _ h => nomatch h), (fun _ h => nomatch h), (fun _ h => nomatch h), fun _ h => nomatch h⟩

end PortSys

/-! ## The two mutexes

`send_message` holds the producer mutex only across `sender.send().await`, and the flatten
buffer from `self.message.lock().await` until it returns, since the payload it fragments borrows
from the buffer. -/

/-- Whether a send call at `pc` fragments a payload it flattened into `PortTop::message`. -/
def SendPc.flat : SendPc σ → Bool
  | .lock _ _ flat | .slot _ _ flat => flat
  | _ => false

namespace PortSys

variable {header : List UInt8 → Except Error Header} {maxPayload : Nat} {F : Frag maxMtu σ}

/-- The flatten buffer is held by exactly the send call that fragments a payload flattened into
it. -/
def MessageHeld (s : PortSys maxMtu σ) : Prop :=
  ∀ i, s.message = some i ↔ ∃ t ∈ s.sends, t.id = i ∧ t.pc.flat

@[simp] theorem setSend_message (s : PortSys maxMtu σ) (id : Nat) (pc : SendPc σ) :
    (s.setSend id pc).message = s.message := rfl

theorem Inv.producer_iff {s : PortSys maxMtu σ} (hi : Inv maxPayload F s) (i : Nat) :
    s.producer = some i ↔ ∃ t ∈ s.sends, t.id = i ∧ t.pc.isSlot := by
  refine ⟨hi.mutex i, fun ⟨t, ht, hid, hslot⟩ => ?_⟩
  have hst := hi.sends t ht
  unfold SendInv at hst
  cases hpc : t.pc <;> simp only [hpc, SendPc.isSlot, Bool.false_eq_true] at hst hslot
  exact hid ▸ hst.1

theorem MessageHeld.self {s : PortSys maxMtu σ} (hi : Inv maxPayload F s) (h : MessageHeld s)
    {t : SendTask σ} (ht : t ∈ s.sends) : s.message = some t.id ↔ t.pc.flat :=
  (h t.id).trans ⟨fun ⟨_, ht', hid, hf⟩ => hi.send_eq ht' ht hid ▸ hf, fun hf => ⟨t, ht, rfl, hf⟩⟩

theorem MessageHeld.of_frame {s X : PortSys maxMtu σ} (h : MessageHeld s)
    (hs : X.sends = s.sends) (hm : X.message = s.message) : MessageHeld X := fun i => by
  rw [hs, hm]
  exact h i

theorem MessageHeld.setSend {s X : PortSys maxMtu σ} (h : MessageHeld s) {t : SendTask σ}
    (ht : t ∈ s.sends) {pc : SendPc σ} (hXs : X.sends = (s.setSend t.id pc).sends)
    (hself : X.message = some t.id ↔ pc.flat)
    (hother : ∀ i ≠ t.id, X.message = some i ↔ s.message = some i) : MessageHeld X := by
  intro i
  rw [hXs]
  by_cases hit : i = t.id
  · subst hit
    rw [hself]
    refine ⟨fun hf => ⟨{ t with pc := pc }, List.mem_map.mpr ⟨t, ht, by simp⟩, rfl, hf⟩, ?_⟩
    rintro ⟨t', ht', hid, hf⟩
    rcases mem_setSend ht' with ⟨-, hne⟩ | ⟨t₀, -, -, rfl⟩
    · exact absurd hid hne
    · exact hf
  · rw [hother i hit, h]
    refine ⟨fun ⟨t', ht', hid, hf⟩ =>
      ⟨t', List.mem_map.mpr ⟨t', ht', by simp [hid, hit]⟩, hid, hf⟩, ?_⟩
    rintro ⟨t', ht', hid, hf⟩
    rcases mem_setSend ht' with ⟨ht', -⟩ | ⟨t₀, -, hid₀, rfl⟩
    · exact ⟨t', ht', hid, hf⟩
    · exact absurd (hid.symm.trans hid₀) hit

/-- What a poll of send call `t` does with the flatten buffer: keep it, release it, or take it. -/
def BufferMove (t : SendTask σ) (pc : SendPc σ) (m m' : Option Nat) : Prop :=
  pc.flat = t.pc.flat ∧ m' = m ∨ t.pc.flat ∧ pc.flat = false ∧ m' = none ∨
    m = none ∧ pc.flat ∧ m' = some t.id

theorem MessageHeld.move {s X : PortSys maxMtu σ} (hi : Inv maxPayload F s) (h : MessageHeld s)
    {t : SendTask σ} (ht : t ∈ s.sends) {pc : SendPc σ} (hXs : X.sends = (s.setSend t.id pc).sends)
    (hm : BufferMove t pc s.message X.message) : MessageHeld X := by
  have hself := h.self hi ht
  rcases hm with ⟨h1, h2⟩ | ⟨h0, h1, h2⟩ | ⟨h0, h1, h2⟩
  · exact h.setSend ht hXs (by rw [h2, h1, hself]) fun i _ => by rw [h2]
  · refine h.setSend ht hXs (by simp [h1, h2]) fun i hne => ?_
    simp only [h2, hself.mpr h0, Option.some.injEq, reduceCtorEq, false_iff]
    exact Ne.symm hne
  · refine h.setSend ht hXs (by simp [h1, h2]) fun i hne => ?_
    simp only [h2, h0, Option.some.injEq, reduceCtorEq, iff_false]
    exact Ne.symm hne

theorem runSlot_message {s s' : PortSys maxMtu σ} {id : Nat} {frag : σ} {payload : List UInt8}
    {flat : Bool} (h : runSlot F s id frag payload flat = some s') :
    ∃ pc, s'.sends = (s.setSend id pc).sends ∧
      (pc.flat = flat ∧ s'.message = s.message ∨ flat ∧ pc.flat = false ∧ s'.message = none) := by
  unfold runSlot at h
  split at h
  · cases h
  · cases h
    exact ⟨_, rfl, .inl ⟨rfl, rfl⟩⟩
  · cases h
    cases flat
    · exact ⟨_, rfl, .inl ⟨rfl, rfl⟩⟩
    · exact ⟨_, rfl, .inr ⟨rfl, rfl, rfl⟩⟩

theorem lock_message {s s' : PortSys maxMtu σ} {id : Nat} {frag : σ} {payload : List UInt8}
    {flat : Bool} (h : lock F s id frag payload flat = some s') :
    ∃ pc, s'.sends = (s.setSend id pc).sends ∧
      (pc.flat = flat ∧ s'.message = s.message ∨ flat ∧ pc.flat = false ∧ s'.message = none) := by
  unfold lock at h
  split at h
  · cases h
    exact ⟨_, rfl, .inl ⟨rfl, rfl⟩⟩
  · obtain ⟨pc, he, hm⟩ := runSlot_message h
    exact ⟨pc, he, hm⟩

theorem flattenStep_message {s s' : PortSys maxMtu σ} {id : Nat} {frag : σ}
    {pkt : List (List UInt8)} (h : flattenStep maxPayload F s id frag pkt = some s') :
    s' = s ∨ ∃ pc, s'.sends = (s.setSend id pc).sends ∧
      (pc.flat = false ∧ s'.message = s.message ∨ s.message = none ∧ pc.flat ∧
        s'.message = some id) := by
  unfold flattenStep at h
  split at h
  · exact .inl (Option.some.inj h).symm
  rename_i hm
  have hm : s.message = none := by simpa using hm
  split at h
  · cases h
    exact .inr ⟨_, rfl, .inl ⟨rfl, rfl⟩⟩
  · obtain ⟨pc, he, ⟨h1, h2⟩ | ⟨-, h1, h2⟩⟩ := lock_message h
    · exact .inr ⟨pc, he, .inr ⟨hm, h1, h2⟩⟩
    · exact .inr ⟨pc, he, .inl ⟨h1, h2.trans hm.symm⟩⟩

/-- **A poll of a send call** keeps, releases or takes the flatten buffer for that call alone. -/
theorem pollSend_message {s s' : PortSys maxMtu σ} {id : Nat}
    (h : pollSend maxPayload F s id = some s') :
    s' = s ∨ ∃ t ∈ s.sends, t.id = id ∧ ∃ pc, s'.sends = (s.setSend id pc).sends ∧
      BufferMove t pc s.message s'.message := by
  unfold pollSend at h
  rcases hf : s.sends.find? (·.id = id) with _ | t <;>
    simp only [hf, Option.map_none', Option.map_some'] at h
  · exact .inl (Option.some.inj h).symm
  have ht : t ∈ s.sends := List.mem_of_find?_eq_some hf
  have hid : t.id = id := by simpa using List.find?_some hf
  have hkeep : ∀ {flat pc m'}, t.pc.flat = flat →
      (pc.flat = flat ∧ m' = s.message ∨ flat ∧ pc.flat = false ∧ m' = none) →
      BufferMove t pc s.message m' := fun hflat hm => by
    subst hflat
    exact hm.imp_right .inl
  cases hpc : t.pc with
  | flatten frag pkt =>
    rw [hpc] at h
    rcases flattenStep_message h with rfl | ⟨pc, he, ⟨h1, h2⟩ | ⟨h0, h1, h2⟩⟩
    · exact .inl rfl
    · exact .inr ⟨t, ht, hid, pc, he, .inl ⟨by rw [h1, hpc]; rfl, h2⟩⟩
    · exact .inr ⟨t, ht, hid, pc, he, .inr (.inr ⟨h0, h1, hid ▸ h2⟩)⟩
  | lock frag payload flat =>
    rw [hpc] at h
    obtain ⟨pc, he, hm⟩ := lock_message h
    exact .inr ⟨t, ht, hid, pc, he, hkeep (by rw [hpc]; rfl) hm⟩
  | slot frag payload flat =>
    rw [hpc] at h
    obtain ⟨pc, he, hm⟩ := runSlot_message h
    exact .inr ⟨t, ht, hid, pc, he, hkeep (by rw [hpc]; rfl) hm⟩
  | sent r => rw [hpc] at h; exact .inl (Option.some.inj h).symm
  | dropped => rw [hpc] at h; exact .inl (Option.some.inj h).symm

theorem pollForward_frame {s s' : PortSys maxMtu σ} {id : Nat}
    (h : pollForward header s id = some s') : s'.sends = s.sends ∧ s'.message = s.message := by
  unfold pollForward at h
  split at h
  · split at h
    · cases h
      exact ⟨rfl, rfl⟩
    · obtain ⟨_, -, rfl⟩ := Option.map_eq_some'.mp h
      exact ⟨rfl, rfl⟩
  · cases h
    exact ⟨rfl, rfl⟩

/-- **Every step keeps the flatten buffer with the call fragmenting from it.** -/
theorem MessageHeld.step {s s' : PortSys maxMtu σ} (hi : Inv maxPayload F s) (h : MessageHeld s)
    {a : PortAct σ} (hs : s.step header maxPayload F a = some s') : MessageHeld s' := by
  cases a with
  | spawnSend id frag pkt =>
    cases hs
    split
    · exact h
    refine fun i => (h i).trans ⟨fun ⟨t, ht, hf⟩ => ⟨t, List.mem_append_left _ ht, hf⟩, ?_⟩
    rintro ⟨t, ht, hid, hf⟩
    rcases List.mem_append.mp ht with ht | ht
    · exact ⟨t, ht, hid, hf⟩
    · rw [List.mem_singleton.mp ht] at hf
      split at hf <;> cases hf
  | spawnForward id pkt =>
    cases hs
    split
    · exact h
    · exact h
  | pollSend id =>
    rcases pollSend_message hs with rfl | ⟨t, ht, rfl, pc, he, hm⟩
    · exact h
    · exact h.move hi ht he hm
  | pollForward id => exact h.of_frame (pollForward_frame hs).1 (pollForward_frame hs).2
  | dropSend id =>
    cases hs
    unfold dropSend
    split
    · exact h
    · exact h
    · rename_i heq
      obtain ⟨t, hf, -⟩ := Option.map_eq_some'.mp heq
      obtain rfl : t.id = id := by simpa using List.find?_some hf
      have ht := List.mem_of_find?_eq_some hf
      refine h.move hi ht rfl ?_
      by_cases hflat : t.pc.flat
      · exact .inr (.inl ⟨hflat, rfl, by simp [(h.self hi ht).mpr hflat]⟩)
      · have hne : s.message ≠ some t.id := fun e => hflat ((h.self hi ht).mp e)
        exact .inl ⟨by simpa [SendPc.flat] using hflat, by simp [hne]⟩
  | dropForward id =>
    cases hs
    unfold dropForward
    split
    · exact h
    · exact h
  | outboundDone => exact h.of_frame (by cases hs; rfl) (by cases hs; rfl)

theorem Reachable.messageHeld {s : PortSys maxMtu σ} (h : Reachable header maxPayload F s) :
    MessageHeld s := by
  induction h with
  | init q mtu hm => exact fun i => by simp [PortSys.init]
  | step a hr hs ih => exact ih.step hr.inv hs

/-- **Each mutex of a reachable port is held by exactly the call the code holds it for.** -/
theorem Reachable.mutexes {s : PortSys maxMtu σ} (h : Reachable header maxPayload F s) :
    (∀ i, s.producer = some i ↔ ∃ t ∈ s.sends, t.id = i ∧ t.pc.isSlot) ∧
      (∀ i, s.message = some i ↔ ∃ t ∈ s.sends, t.id = i ∧ t.pc.flat) ∧
      ∀ t ∈ s.sends, ∀ t' ∈ s.sends, t.pc.flat → t'.pc.flat → t = t' := by
  have hi := h.inv
  have hm := h.messageHeld
  refine ⟨hi.producer_iff, hm, fun t ht t' ht' hf hf' => hi.send_eq ht ht' ?_⟩
  exact Option.some.inj (((hm.self hi ht).mpr hf).symm.trans ((hm.self hi ht').mpr hf'))

end PortSys

end MctpRouter
