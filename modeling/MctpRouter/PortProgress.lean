import Mathlib.Algebra.Order.BigOperators.Group.List
import Mathlib.Algebra.Order.Ring.Nat
import MctpRouter.Safety

/-!
# Every call on a port can return

A port does not deadlock. On a ring of at least one slot, from every state the router leaves
a port in, the driver's `outbound_done` and polls of the calls already on the port bring every
call to return.

* `SendPc.work`, `FwdPc.work`, `PortSys.work`: the work a port's calls have left. For a send
  call, this is the payload bytes its fragmenter has still to send and its last packet, plus one
  for each await before the fragment loop.
* `exists_poll`: with a free slot, some call's poll lowers the work. The choice is the call
  holding the producer mutex; else a forward; else a send at the head of the fragment loop;
  else a send about to flatten, which then finds the flatten buffer free. Whichever call holds
  a mutex can always go on.
* `exists_step`: with the ring full, `outbound_done` frees a slot; `rank` falls on every step.
* `CallsOk.settles`: by induction on `rank`, a run of polls and `outbound_done`s after which
  every call has returned, and no call was dropped on the way.
* **`port_calls_return`**: this holds for every port of a reachable router.
-/

namespace MctpRouter

variable {maxMtu : Nat} {σ : Type}

/-- The work a send call at `pc` has left: payload bytes, its last packet, and its awaits. -/
def SendPc.work : SendPc Fragmenter → Nat
  | .flatten f pkt => f.rem pkt.flatten + 3
  | .lock f payload _ => f.rem payload + 2
  | .slot f payload _ => f.rem payload + 1
  | .sent _ | .dropped => 0

/-- The work a forward call at `pc` has left. -/
def FwdPc.work : FwdPc → Nat
  | .lock _ => 1
  | .forwarded _ | .dropped => 0

/-- The driver's `outbound_done`, or a poll of a call already on the port. -/
def PortAct.Drives : PortAct σ → Bool
  | .pollSend _ | .pollForward _ | .outboundDone => true
  | _ => false

theorem SendPc.work_eq_zero {pc : SendPc Fragmenter} (h : pc.work = 0) :
    (∃ r, pc = .sent r) ∨ pc = .dropped := by
  cases pc with
  | sent r => exact .inl ⟨r, rfl⟩
  | dropped => exact .inr rfl
  | _ => simp [SendPc.work] at h

theorem FwdPc.work_eq_zero {pc : FwdPc} (h : pc.work = 0) :
    (∃ r, pc = .forwarded r) ∨ pc = .dropped := by
  cases pc with
  | lock => simp [FwdPc.work] at h
  | forwarded r => exact .inl ⟨r, rfl⟩
  | dropped => exact .inr rfl

theorem sum_map_update {α : Type} (key : α → Nat) (w : α → Nat) (upd : α → α) {l : List α}
    (hl : (l.map key).Nodup) {a : α} (ha : a ∈ l) :
    ((l.map fun u => if key u = key a then upd u else u).map w).sum + w a =
      (l.map w).sum + w (upd a) := by
  induction l with
  | nil => cases ha
  | cons u l ih =>
    rw [List.map_cons, List.nodup_cons] at hl
    rcases List.mem_cons.mp ha with rfl | ha
    · have hrest : (l.map fun v => if key v = key a then upd v else v) = l :=
        (List.map_congr_left fun v hv =>
          if_neg fun (e : key v = key a) => hl.1 (e ▸ List.mem_map_of_mem key hv)).trans
          (List.map_id' l)
      simp only [List.map_cons, if_pos, hrest, List.sum_cons]
      omega
    · have hne : key u ≠ key a := fun e => hl.1 (e ▸ List.mem_map_of_mem key ha)
      simp only [List.map_cons, if_neg hne, List.sum_cons]
      have := ih hl.2 ha
      omega

namespace PortSys

variable {maxPayload : Nat}

/-- The work a port's calls have left. -/
def work (s : PortSys maxMtu Fragmenter) : Nat :=
  (s.sends.map (·.pc.work)).sum + (s.forwards.map (·.pc.work)).sum

/-- The work left, and whether the driver has first to free a slot. -/
def rank (s : PortSys maxMtu Fragmenter) : Nat :=
  2 * s.work + if s.top.packets.free = [] then 1 else 0

theorem work_eq_zero_iff {s : PortSys maxMtu Fragmenter} :
    s.work = 0 ↔ (∀ t ∈ s.sends, t.pc.work = 0) ∧ ∀ u ∈ s.forwards, u.pc.work = 0 := by
  rw [work, Nat.add_eq_zero_iff, List.sum_eq_zero_iff, List.sum_eq_zero_iff]
  simp

theorem work_sends {s X : PortSys maxMtu Fragmenter} (hn : (s.sends.map (·.id)).Nodup)
    {t : SendTask Fragmenter} (ht : t ∈ s.sends) {pc : SendPc Fragmenter}
    (he : X.sends = (s.setSend t.id pc).sends) (hf : X.forwards = s.forwards) :
    X.work + t.pc.work = s.work + pc.work := by
  have := sum_map_update (·.id) (·.pc.work) (fun u => { u with pc := pc }) hn ht
  simp only [work, he, hf, setSend, List.map_map] at this ⊢
  omega

theorem work_forwards {s X : PortSys maxMtu Fragmenter} (hn : (s.forwards.map (·.id)).Nodup)
    {u : FwdTask} (hu : u ∈ s.forwards) {pc : FwdPc} (hs : X.sends = s.sends)
    (he : X.forwards = (s.setFwd u.id pc).forwards) :
    X.work + u.pc.work = s.work + pc.work := by
  have := sum_map_update (·.id) (·.pc.work) (fun u => { u with pc := pc }) hn hu
  simp only [work, he, hs, setFwd, List.map_map] at this ⊢
  omega

/-- `s'` has the calls of `s`, and every call dropped in `s'` was already dropped in `s`. -/
structure Keeps (s s' : PortSys maxMtu σ) : Prop where
  ids : s'.ids = s.ids
  sends : ∀ t ∈ s'.sends, t.pc = .dropped → t ∈ s.sends
  forwards : ∀ u ∈ s'.forwards, u.pc = .dropped → u ∈ s.forwards

theorem Keeps.refl (s : PortSys maxMtu σ) : Keeps s s := ⟨rfl, fun _ h _ => h, fun _ h _ => h⟩

theorem Keeps.trans {s₁ s₂ s₃ : PortSys maxMtu σ} (h₁ : Keeps s₁ s₂) (h₂ : Keeps s₂ s₃) :
    Keeps s₁ s₃ :=
  ⟨h₂.ids.trans h₁.ids, fun t ht hd => h₁.sends t (h₂.sends t ht hd) hd,
    fun u hu hd => h₁.forwards u (h₂.forwards u hu hd) hd⟩

theorem Keeps.setSend {s X : PortSys maxMtu σ} {id : Nat} {pc : SendPc σ}
    (he : X.sends = (s.setSend id pc).sends) (hf : X.forwards = s.forwards)
    (hd : pc ≠ .dropped) : Keeps s X := by
  refine ⟨ids_of_sends he hf, fun t ht htd => ?_, fun u hu _ => hf ▸ hu⟩
  rw [he] at ht
  rcases mem_setSend ht with ⟨ht, -⟩ | ⟨t₀, -, -, rfl⟩
  · exact ht
  · exact absurd htd hd

theorem Keeps.setFwd {s X : PortSys maxMtu σ} {id : Nat} {pc : FwdPc}
    (hs : X.sends = s.sends) (he : X.forwards = (s.setFwd id pc).forwards)
    (hd : pc ≠ .dropped) : Keeps s X := by
  refine ⟨by rw [← ids_setFwd s id pc]; unfold PortSys.ids; rw [hs, he]; rfl, fun t ht _ => hs ▸ ht,
    fun u hu hud => ?_⟩
  rw [he] at hu
  rcases mem_setFwd hu with hu | hu
  · exact hu
  · exact absurd (hu.symm.trans hud) hd

theorem Inv.find_send {F : Frag maxMtu σ} {s : PortSys maxMtu σ} (hi : Inv maxPayload F s)
    {t : SendTask σ} (ht : t ∈ s.sends) : s.sends.find? (·.id = t.id) = some t := by
  obtain ⟨t', hf⟩ : ∃ t', s.sends.find? (·.id = t.id) = some t' :=
    Option.isSome_iff_exists.mp (List.find?_isSome.mpr ⟨t, ht, by simp⟩)
  rw [hf, hi.send_eq (List.mem_of_find?_eq_some hf) ht (by simpa using List.find?_some hf)]

theorem Inv.find_fwd {F : Frag maxMtu σ} {s : PortSys maxMtu σ} (hi : Inv maxPayload F s)
    {u : FwdTask} (hu : u ∈ s.forwards) : s.forwards.find? (·.id = u.id) = some u := by
  obtain ⟨u', hf⟩ : ∃ u', s.forwards.find? (·.id = u.id) = some u' :=
    Option.isSome_iff_exists.mp (List.find?_isSome.mpr ⟨u, hu, by simp⟩)
  rw [hf, List.inj_on_of_nodup_map (List.nodup_append.mp hi.nodup).2.1
    (List.mem_of_find?_eq_some hf) hu (by simpa using List.find?_some hf)]

theorem Inv.pollSend_eq {F : Frag maxMtu σ} {s : PortSys maxMtu σ} (hi : Inv maxPayload F s)
    {t : SendTask σ} (ht : t ∈ s.sends) :
    pollSend maxPayload F s t.id = match t.pc with
      | .flatten frag pkt => flattenStep maxPayload F s t.id frag pkt
      | .lock frag payload flat => lock F s t.id frag payload flat
      | .slot frag payload flat => runSlot F s t.id frag payload flat
      | _ => some s := by
  unfold pollSend
  rw [hi.find_send ht]
  obtain ⟨id, frag0, pkt, pc⟩ := t
  cases pc <;> rfl

theorem runSlot_work {s : PortSys maxMtu Fragmenter} {f : Fragmenter} (id : Nat)
    (payload : List UInt8) (flat : Bool) (hf : f.done = false)
    (hfree : s.top.packets.free ≠ []) :
    ∃ X pc, runSlot Fragmenter.frag s id f payload flat = some X ∧
      X.sends = (s.setSend id pc).sends ∧ X.forwards = s.forwards ∧ pc ≠ .dropped ∧
      pc.work ≤ f.rem payload := by
  obtain ⟨bs, e, hrun, -, he⟩ :=
    Fragmenter.fragRun_live maxMtu hf payload s.top.packets.free.length
  have hn : min s.top.packets.free.length 1 = 1 := by
    have := List.length_pos.mpr hfree
    omega
  unfold runSlot
  rw [sendLoop_eq, hrun]
  cases e with
  | blocked f' =>
    have := (he f' rfl).2.2
    exact ⟨_, .slot f' payload flat, rfl, rfl, rfl, nofun, by simp only [SendPc.work]; omega⟩
  | finished r => exact ⟨_, .sent r, rfl, rfl, rfl, nofun, Nat.zero_le _⟩

theorem CallsOk.lock_done {s : PortSys maxMtu Fragmenter} (h : CallsOk s)
    {t : SendTask Fragmenter} (ht : t ∈ s.sends) {f : Fragmenter} {payload : List UInt8}
    {flat : Bool} (hpc : t.pc = .lock f payload flat ∨ t.pc = .slot f payload flat) :
    f.done = false := by
  have hl := h.sends t ht
  rcases hpc with hpc | hpc <;> rw [hpc] at hl <;> exact hl.1

section Polls

variable {s : PortSys maxMtu Fragmenter} (hi : Inv maxPayload Fragmenter.frag s)
include hi

theorem pollSend_lowers {t : SendTask Fragmenter} (ht : t ∈ s.sends) {X : PortSys maxMtu Fragmenter}
    {pc : SendPc Fragmenter} (hX : pollSend maxPayload Fragmenter.frag s t.id = some X)
    (he : X.sends = (s.setSend t.id pc).sends) (hf : X.forwards = s.forwards)
    (hd : pc ≠ .dropped) (hlt : pc.work < t.pc.work) :
    ∃ a : PortAct Fragmenter, a.Drives ∧ ∃ s', s.step mctpHeader maxPayload Fragmenter.frag a =
      some s' ∧ s'.work < s.work ∧ Keeps s s' := by
  have := work_sends (List.nodup_append.mp hi.nodup).1 ht he hf
  exact ⟨.pollSend t.id, rfl, X, hX, by omega, .setSend he hf hd⟩

theorem slot_lowers (h : CallsOk s) (hfree : s.top.packets.free ≠ []) {t : SendTask Fragmenter}
    (ht : t ∈ s.sends) {f : Fragmenter} {payload : List UInt8} {flat : Bool}
    (hpc : t.pc = .slot f payload flat) :
    ∃ a : PortAct Fragmenter, a.Drives ∧ ∃ s', s.step mctpHeader maxPayload Fragmenter.frag a =
      some s' ∧ s'.work < s.work ∧ Keeps s s' := by
  obtain ⟨X, pc, hX, he, hf, hd, hle⟩ :=
    runSlot_work (s := s) t.id payload flat (h.lock_done ht (.inr hpc)) hfree
  exact pollSend_lowers hi ht (by rw [hi.pollSend_eq ht, hpc]; exact hX) he hf hd
    (by rw [hpc]; exact Nat.lt_of_le_of_lt hle (Nat.lt_succ_self _))

theorem lock_lowers (h : CallsOk s) (hfree : s.top.packets.free ≠ []) (hp : s.producer = none)
    {t : SendTask Fragmenter} (ht : t ∈ s.sends) {f : Fragmenter} {payload : List UInt8}
    {flat : Bool} (hpc : t.pc = .lock f payload flat) :
    ∃ a : PortAct Fragmenter, a.Drives ∧ ∃ s', s.step mctpHeader maxPayload Fragmenter.frag a =
      some s' ∧ s'.work < s.work ∧ Keeps s s' := by
  obtain ⟨X, pc, hX, he, hf, hd, hle⟩ := runSlot_work (s := { s with producer := some t.id })
    t.id payload flat (h.lock_done ht (.inl hpc)) hfree
  refine pollSend_lowers hi ht ?_ he hf hd
    (by rw [hpc]; exact Nat.lt_of_le_of_lt hle (by show _ < f.rem payload + 2; omega))
  rw [hi.pollSend_eq ht, hpc]
  unfold lock
  rw [hp]
  exact hX

theorem flatten_lowers (h : CallsOk s) (hfree : s.top.packets.free ≠ []) (hp : s.producer = none)
    (hmsg : s.message = none) {t : SendTask Fragmenter} (ht : t ∈ s.sends) {f : Fragmenter}
    {pkt : List (List UInt8)} (hpc : t.pc = .flatten f pkt) :
    ∃ a : PortAct Fragmenter, a.Drives ∧ ∃ s', s.step mctpHeader maxPayload Fragmenter.frag a =
      some s' ∧ s'.work < s.work ∧ Keeps s s' := by
  have hfd : f.done = false := by
    have hl := h.sends t ht
    rw [hpc] at hl
    exact hl.1
  have hstep : pollSend maxPayload Fragmenter.frag s t.id =
      flattenStep maxPayload Fragmenter.frag s t.id f pkt := by
    rw [hi.pollSend_eq ht, hpc]
  unfold flattenStep at hstep
  simp only [hmsg, Option.isSome_none, Bool.false_eq_true, if_false, flatten_eq] at hstep
  split_ifs at hstep
  · obtain ⟨X, pc, hX, he, hf, hd, hle⟩ :=
      runSlot_work (s := { s with message := some t.id, producer := some t.id }) t.id
        pkt.flatten true hfd hfree
    refine pollSend_lowers hi ht (hstep.trans ?_) he hf hd
      (by rw [hpc]; exact Nat.lt_of_le_of_lt hle (by show _ < f.rem pkt.flatten + 3; omega))
    unfold lock
    rw [hp]
    exact hX
  · exact pollSend_lowers hi ht hstep rfl rfl nofun (by rw [hpc]; simp [SendPc.work])

theorem forward_lowers (h : CallsOk s) (hp : s.producer = none) {u : FwdTask}
    (hu : u ∈ s.forwards) {pkt : List UInt8} (hpc : u.pc = .lock pkt) :
    ∃ a : PortAct Fragmenter, a.Drives ∧ ∃ s', s.step mctpHeader maxPayload Fragmenter.frag a =
      some s' ∧ s'.work < s.work ∧ Keeps s s' := by
  obtain ⟨hdr, hh⟩ : ∃ hdr, mctpHeader pkt = .ok hdr := by
    have := h.forwards u hu
    rw [hpc] at this
    exact this
  obtain ⟨⟨r, top'⟩, hfp⟩ : ∃ x, s.top.forwardPacket mctpHeader pkt = some x :=
    Option.isSome_iff_exists.mp (by rw [forwardPacket_eq mctpHeader s.top pkt hh]; split_ifs <;> rfl)
  have hX : pollForward mctpHeader s u.id =
      some ((s.commit u.id top'.packets).setFwd u.id (.forwarded r)) := by
    unfold pollForward
    rw [hi.find_fwd hu]
    simp only [Option.map_some', hpc, hp, Option.isSome_none, Bool.false_eq_true, if_false, hfp]
  have hw := work_forwards (List.nodup_append.mp hi.nodup).2.1 hu
    (X := (s.commit u.id top'.packets).setFwd u.id (.forwarded r)) rfl rfl
  rw [hpc] at hw
  exact ⟨.pollForward u.id, rfl, _, hX, by simp only [FwdPc.work] at hw; omega,
    .setFwd rfl rfl nofun⟩

/-- **With a free slot, some call's poll lowers the work left**, and drops no call. -/
theorem exists_poll (hm : MessageHeld s) (h : CallsOk s) (hfree : s.top.packets.free ≠ [])
    (hw : s.work ≠ 0) :
    ∃ a : PortAct Fragmenter, a.Drives ∧ ∃ s', s.step mctpHeader maxPayload Fragmenter.frag a =
      some s' ∧ s'.work < s.work ∧ Keeps s s' := by
  cases hp : s.producer with
  | some i =>
    obtain ⟨t, ht, rfl, hslot⟩ := (hi.producer_iff i).mp hp
    cases hpc : t.pc <;> simp only [hpc, SendPc.isSlot, Bool.false_eq_true] at hslot
    exact slot_lowers hi h hfree ht hpc
  | none =>
    by_cases hfw : ∃ u ∈ s.forwards, ∃ pkt, u.pc = .lock pkt
    · obtain ⟨u, hu, pkt, hpc⟩ := hfw
      exact forward_lowers hi h hp hu hpc
    by_cases hlk : ∃ t ∈ s.sends, ∃ f payload flat, t.pc = .lock f payload flat
    · obtain ⟨t, ht, f, payload, flat, hpc⟩ := hlk
      exact lock_lowers hi h hfree hp ht hpc
    -- no call waits for a slot or at the head of the loop, so some send is about to flatten,
    -- and no call holds the buffer
    have hslot : ∀ t ∈ s.sends, t.pc.isSlot = false := fun t ht => hi.not_slot ht (by simp [hp])
    obtain ⟨t, ht, f, pkt, hpc⟩ : ∃ t ∈ s.sends, ∃ f pkt, t.pc = .flatten f pkt := by
      by_contra hno
      refine hw (work_eq_zero_iff.mpr ⟨fun t ht => ?_, fun u hu => ?_⟩)
      · have := hslot t ht
        cases hpc : t.pc with
        | flatten f pkt => exact absurd ⟨t, ht, f, pkt, hpc⟩ hno
        | lock f payload flat => exact absurd ⟨t, ht, f, payload, flat, hpc⟩ hlk
        | slot => simp [hpc, SendPc.isSlot] at this
        | sent r => rfl
        | dropped => rfl
      · cases hpc : u.pc with
        | lock pkt => exact absurd ⟨u, hu, pkt, hpc⟩ hfw
        | forwarded r => rfl
        | dropped => rfl
    have hmsg : s.message = none := by
      cases hmm : s.message with
      | none => rfl
      | some j =>
        obtain ⟨t', ht', -, hflat⟩ := (hm j).mp hmm
        have := hslot t' ht'
        cases hpc' : t'.pc with
        | lock f payload flat => exact absurd ⟨t', ht', f, payload, flat, hpc'⟩ hlk
        | slot => simp [hpc', SendPc.isSlot] at this
        | _ => simp [hpc', SendPc.flat] at hflat
    exact flatten_lowers hi h hfree hp hmsg ht hpc

end Polls

/-- **Some step of the driver or of a call lowers the rank**, and drops no call. -/
theorem exists_step {s : PortSys maxMtu Fragmenter} (hi : Inv maxPayload Fragmenter.frag s)
    (hm : MessageHeld s) (h : CallsOk s) (hq : 0 < s.top.packets.capacity)
    (hw : s.work ≠ 0) :
    ∃ a : PortAct Fragmenter, a.Drives ∧ ∃ s', s.step mctpHeader maxPayload Fragmenter.frag a = some s' ∧
      s'.rank < s.rank ∧ Keeps s s' := by
  by_cases hfree : s.top.packets.free = []
  · obtain ⟨b, bs, hb⟩ : ∃ b bs, s.top.packets.queued = b :: bs := by
      cases hqs : s.top.packets.queued with
      | nil => simp [Channel.capacity, hqs, hfree] at hq
      | cons b bs => exact ⟨b, bs, rfl⟩
    have hne : s.outboundDone.top.packets.free ≠ [] := by
      simp [outboundDone, Channel.receiveDone, hb]
    have hwk : s.outboundDone.work = s.work := rfl
    refine ⟨.outboundDone, rfl, _, rfl, ?_, ⟨rfl, fun _ h _ => h, fun _ h _ => h⟩⟩
    unfold rank
    rw [if_pos hfree, if_neg hne, hwk]
    omega
  · obtain ⟨a, ha, s', hs, hlt, hk⟩ := exists_poll hi hm h hfree hw
    exact ⟨a, ha, s', hs, by unfold rank; split_ifs <;> omega, hk⟩

/-- **A port's calls can all return** within `rank` steps. -/
theorem CallsOk.settles {s : PortSys maxMtu Fragmenter} (hi : Inv maxPayload Fragmenter.frag s)
    (hm : MessageHeld s) (h : CallsOk s) (hq : 0 < s.top.packets.capacity) :
    ∃ acts s' out, (∀ a ∈ acts, PortAct.Drives a) ∧ acts.length ≤ s.rank ∧
      runOut mctpHeader maxPayload Fragmenter.frag s acts = some (s', out) ∧ s'.work = 0 ∧
      Keeps s s' := by
  by_cases hw : s.work = 0
  · exact ⟨[], s, [], nofun, Nat.zero_le _, rfl, hw, .refl s⟩
  obtain ⟨a, ha, s₁, hs, hlt, hk⟩ := exists_step hi hm h hq hw
  have hstart : a.Starts mctpHeader s.top.mtu :=
    PortAct.starts_of_newId (by cases a <;> first | rfl | cases ha) _
  obtain ⟨-, -, -, hcap⟩ := queue_step hs
  obtain ⟨acts, s', out, hacts, hlen, hrun, hw', hk'⟩ :=
    CallsOk.settles (inv_step hi hs) (hm.step hi hs) (h.of_step hstart hs) (hcap ▸ hq)
  refine ⟨a :: acts, s', s.taken a ++ out, ?_, by simp only [List.length_cons]; omega,
    by simp [runOut, hs, hrun], hw', hk.trans hk'⟩
  rintro b (_ | ⟨_, hb⟩)
  · exact ha
  · exact hacts b hb
termination_by s.rank

end PortSys

namespace Sys

variable {L : Type} {lk : PortLookup L} {maxPayload : Nat}

/-- **No port of the router deadlocks**: the driver and polls bring every call to return. -/
theorem port_calls_return {s : Sys maxMtu L} (h : Reachable lk maxPayload s) :
    ∀ ps ∈ s.ports, 0 < ps.top.packets.capacity →
      ∃ acts ps' out, (∀ a ∈ acts, PortAct.Drives a) ∧ acts.length ≤ ps.rank ∧
        PortSys.runOut mctpHeader maxPayload Fragmenter.frag ps acts = some (ps', out) ∧
        ps'.ids = ps.ids ∧
        (∀ t ∈ ps'.sends, (∃ r, t.pc = .sent r) ∨ t ∈ ps.sends ∧ t.pc = .dropped) ∧
        ∀ u ∈ ps'.forwards, (∃ r, u.pc = .forwarded r) ∨ u ∈ ps.forwards ∧ u.pc = .dropped := by
  intro ps hps hq
  have hr := h.portsReachable ps hps
  obtain ⟨acts, ps', out, hacts, hlen, hrun, hw, hk⟩ :=
    (h.portsOk ps hps).settles hr.inv hr.messageHeld hq
  obtain ⟨hs, hf⟩ := PortSys.work_eq_zero_iff.mp hw
  refine ⟨acts, ps', out, hacts, hlen, hrun, hk.ids, fun t ht => ?_, fun u hu => ?_⟩
  · rcases SendPc.work_eq_zero (hs t ht) with hpc | hpc
    · exact .inl hpc
    · exact .inr ⟨hk.sends t ht hpc, hpc⟩
  · rcases FwdPc.work_eq_zero (hf u hu) with hpc | hpc
    · exact .inl hpc
    · exact .inr ⟨hk.forwards u hu hpc, hpc⟩

/-- After `fullRing` the fifth send holds both mutexes; still every call returns. -/
theorem port_calls_return_full_ring :
    ∃ s os, singlePortRouter.run singlePortLookup 1024 fullRing = some (s, os) ∧
      ∃ ps ∈ s.ports, ps.producer = some 9 ∧ ∃ acts ps' out,
        PortSys.runOut mctpHeader 1024 Fragmenter.frag ps acts = some (ps', out) ∧
        ∀ t ∈ ps'.sends, (∃ r, t.pc = .sent r) ∨ t ∈ ps.sends ∧ t.pc = .dropped := by
  obtain ⟨s, os, hr, hs, hq⟩ : ∃ s os, singlePortRouter.run singlePortLookup 1024 fullRing =
      some (s, os) ∧ Reachable singlePortLookup 1024 s ∧
      s.ports.head?.map (fun ps => (ps.producer, ps.top.packets.capacity)) = some (some 9, 4) :=
    singlePortRouter_reachable.of_run (by decide)
  obtain ⟨ps, hps, hp, hc⟩ : ∃ ps ∈ s.ports, ps.producer = some 9 ∧ ps.top.packets.capacity = 4 := by
    cases hpo : s.ports with
    | nil => simp [hpo] at hq
    | cons ps _ =>
      simp only [hpo, List.head?_cons, Option.map_some', Option.some.injEq, Prod.mk.injEq] at hq
      exact ⟨ps, List.mem_cons_self _ _, hq⟩
  obtain ⟨acts, ps', out, -, -, hrun, -, hsends, -⟩ :=
    port_calls_return hs ps hps (by rw [hc]; decide)
  exact ⟨s, os, hr, ps, hps, hp, acts, ps', out, hrun, hsends⟩

end Sys

end MctpRouter
