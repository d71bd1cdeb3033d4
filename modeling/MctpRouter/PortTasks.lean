import Mathlib.Data.List.Nodup
import MctpRouter.Send

/-!
# The producer side of one port, call by call

Single-core cooperative scheduling of the calls that fill one port's ring: `send_message`
(through `app_send_message`) and `forward_packet` (through `inbound`), with the driver
draining the ring through `outbound_done`.

* `SendTask`, `FwdTask`: a call in progress and the await it is suspended at.
* `PortSys`: the ring, the holders of the producer mutex and of the flatten-buffer mutex, the
  calls, and a ghost `log` of every slot committed, with the call that committed it.
* `PortSys.step`: start a call, poll one (it runs until an await returns `Pending` or the call
  returns), drop one, or consume the oldest slot.
* `Inv` and **`send_slots_consecutive`**: the slots of one `send_message` are consecutive.
* `KeepsCalls`, `keepsCalls_step`: a step keeps every send call, under its id, with the
  fragmenter it was started with, and adds no call id but the one it starts; `TagInv` and
  **`Reachable.tagInv`**: a send call returns the tag of the fragmenter it was started with.
-/

namespace MctpRouter

variable {maxMtu : Nat} {σ : Type}

/-- Where a `send_message` call is suspended, or how it ended. -/
inductive SendPc (σ : Type) where
  /-- at `self.message.lock().await`, about to flatten several slices -/
  | flatten (frag : σ) (pkt : List (List UInt8))
  /-- at `self.packets.lock().await`, the head of the fragment loop; `flat` when it holds the
  flatten buffer -/
  | lock (frag : σ) (payload : List UInt8) (flat : Bool)
  /-- holding the producer mutex, at `sender.send().await` -/
  | slot (frag : σ) (payload : List UInt8) (flat : Bool)
  | sent (r : Except Error Tag)
  | dropped

/-- Whether a send call waits for a free slot, holding the producer mutex. -/
def SendPc.isSlot : SendPc σ → Bool
  | .slot .. => true
  | _ => false

/-- A `send_message(fragmenter, pkt)` call; `frag0` and `pkt` are its arguments. -/
structure SendTask (σ : Type) where
  id : Nat
  frag0 : σ
  pkt : List (List UInt8)
  pc : SendPc σ

/-- Where a `forward_packet(pkt)` call is suspended, or how it ended. -/
inductive FwdPc where
  /-- at `self.packets.lock().await` -/
  | lock (pkt : List UInt8)
  | forwarded (r : Except Error Unit)
  | dropped
deriving DecidableEq

/-- A `forward_packet` call. -/
structure FwdTask where
  id : Nat
  pc : FwdPc
deriving DecidableEq

/-- One port's producer side and the calls on it. -/
structure PortSys (maxMtu : Nat) (σ : Type) where
  top : PortTop maxMtu
  /-- the call holding the mutex around the ring's `Sender` -/
  producer : Option Nat
  /-- the call holding the mutex around the flatten buffer -/
  message : Option Nat
  sends : List (SendTask σ)
  forwards : List FwdTask
  /-- ghost: every committed slot, oldest first, with the call that committed it -/
  log : List (Nat × PktBuf maxMtu)

/-- The calls a port sees. -/
inductive PortAct (σ : Type) where
  | spawnSend (id : Nat) (frag : σ) (pkt : List (List UInt8))
  | spawnForward (id : Nat) (pkt : List UInt8)
  | pollSend (id : Nat)
  | pollForward (id : Nat)
  | dropSend (id : Nat)
  | dropForward (id : Nat)
  | outboundDone

/-- The id of the call an action starts, if it starts one. -/
def PortAct.newId : PortAct σ → Option Nat
  | .spawnSend id _ _ | .spawnForward id _ => some id
  | _ => none

namespace PortSys

/-- A port built on `q` fresh slots, with no call on it. -/
def init (q mtu : Nat) (h : mtu ≤ maxMtu) : PortSys maxMtu σ := ⟨⟨.new q, mtu, h⟩, none, none, [], [], []⟩

/-- The ids of the calls, sends first. -/
def ids (s : PortSys maxMtu σ) : List Nat := s.sends.map (·.id) ++ s.forwards.map (·.id)

/-- Move send call `id` to `pc`. -/
def setSend (s : PortSys maxMtu σ) (id : Nat) (pc : SendPc σ) : PortSys maxMtu σ :=
  { s with sends := s.sends.map fun t => if t.id = id then { t with pc := pc } else t }

/-- Move forward call `id` to `pc`. -/
def setFwd (s : PortSys maxMtu σ) (id : Nat) (pc : FwdPc) : PortSys maxMtu σ :=
  { s with forwards := s.forwards.map fun t => if t.id = id then { t with pc := pc } else t }

/-- Replace the ring by `c`, which extends it, logging the new slots as call `id`'s. -/
def commit (s : PortSys maxMtu σ) (id : Nat) (c : Channel maxMtu) : PortSys maxMtu σ :=
  { s with top := { s.top with packets := c },
           log := s.log ++ (c.queued.drop s.top.packets.queued.length).map (id, ·) }

variable (header : List UInt8 → Except Error Header) (maxPayload : Nat) (F : Frag maxMtu σ)

/-- Send call `id`, holding the producer mutex, runs the fragment loop until the ring is full or the
loop breaks; the re-lock between two iterations finds the mutex free. -/
def runSlot (s : PortSys maxMtu σ) (id : Nat) (frag : σ) (payload : List UInt8) (flat : Bool) :
    Option (PortSys maxMtu σ) :=
  match sendLoop F payload frag s.top.packets.queued s.top.packets.free with
  | none => none
  | some (c, .blocked frag') => some ((s.commit id c).setSend id (.slot frag' payload flat))
  | some (c, .finished r) =>
    some ({ s.commit id c with producer := none,
                               message := if flat then none else s.message }.setSend id (.sent r))

/-- Send call `id` at the head of the fragment loop takes the producer mutex, or waits for it. -/
def lock (s : PortSys maxMtu σ) (id : Nat) (frag : σ) (payload : List UInt8) (flat : Bool) :
    Option (PortSys maxMtu σ) :=
  if s.producer.isSome then some (s.setSend id (.lock frag payload flat))
  else runSlot F { s with producer := some id } id frag payload flat

/-- Send call `id` takes the flatten buffer if it is free and flattens its slices into it. -/
def flattenStep (s : PortSys maxMtu σ) (id : Nat) (frag : σ) (pkt : List (List UInt8)) :
    Option (PortSys maxMtu σ) :=
  if s.message.isSome then some s
  else match flatten maxPayload pkt with
    | .error e => some (s.setSend id (.sent (.error e)))
    | .ok payload => lock F { s with message := some id } id frag payload true

/-- Poll send call `id`. -/
def pollSend (s : PortSys maxMtu σ) (id : Nat) : Option (PortSys maxMtu σ) :=
  match (s.sends.find? (·.id = id)).map SendTask.pc with
  | some (.flatten frag pkt) => flattenStep maxPayload F s id frag pkt
  | some (.lock frag payload flat) => lock F s id frag payload flat
  | some (.slot frag payload flat) => runSlot F s id frag payload flat
  | _ => some s

/-- Poll forward call `id`: with the producer mutex free, it runs `forward_packet` to its end. -/
def pollForward (s : PortSys maxMtu σ) (id : Nat) : Option (PortSys maxMtu σ) :=
  match (s.forwards.find? (·.id = id)).map FwdTask.pc with
  | some (.lock pkt) =>
    if s.producer.isSome then some s
    else (s.top.forwardPacket header pkt).map fun (r, top) =>
      (s.commit id top.packets).setFwd id (.forwarded r)
  | _ => some s

/-- Drop the future of send call `id`: its mutex guards are dropped with it. -/
def dropSend (s : PortSys maxMtu σ) (id : Nat) : PortSys maxMtu σ :=
  match (s.sends.find? (·.id = id)).map SendTask.pc with
  | some (.sent _) | none => s
  | some _ =>
    { s with producer := if s.producer = some id then none else s.producer,
             message := if s.message = some id then none else s.message }.setSend id .dropped

/-- Drop the future of forward call `id`, which holds no mutex while suspended. -/
def dropForward (s : PortSys maxMtu σ) (id : Nat) : PortSys maxMtu σ :=
  match (s.forwards.find? (·.id = id)).map FwdTask.pc with
  | some (.lock _) => s.setFwd id .dropped
  | _ => s

/-- `PortBottom::outbound_done`: the driver consumes the oldest slot. -/
def outboundDone (s : PortSys maxMtu σ) : PortSys maxMtu σ :=
  { s with top := { s.top with packets := s.top.packets.receiveDone } }

/-- One step of the port. A new call takes an id no call has. `none` where the code panics. -/
def step (s : PortSys maxMtu σ) : PortAct σ → Option (PortSys maxMtu σ)
  | .spawnSend id frag pkt =>
    some (if id ∈ s.ids then s else
      { s with sends := s.sends ++ [⟨id, frag, pkt, match pkt with
        | [p] => .lock frag p false
        | _ => .flatten frag pkt⟩] })
  | .spawnForward id pkt =>
    some (if id ∈ s.ids then s else { s with forwards := s.forwards ++ [⟨id, .lock pkt⟩] })
  | .pollSend id => pollSend maxPayload F s id
  | .pollForward id => pollForward header s id
  | .dropSend id => some (s.dropSend id)
  | .dropForward id => some (s.dropForward id)
  | .outboundDone => some s.outboundDone

/-- The states a port reaches from a fresh one. -/
inductive Reachable : PortSys maxMtu σ → Prop
  | init (q mtu : Nat) (h : mtu ≤ maxMtu) : Reachable (init q mtu h)
  | step {s s' : PortSys maxMtu σ} (a : PortAct σ) :
      Reachable s → s.step header maxPayload F a = some s' → Reachable s'

/-- Run the steps of a list in order. -/
def run (s : PortSys maxMtu σ) : List (PortAct σ) → Option (PortSys maxMtu σ)
  | [] => some s
  | a :: acts => (s.step header maxPayload F a).bind (run · acts)

/-! ## Blocks of the log -/

/-- The entries of call `id` in `log` are the slots `bs`, next to each other. -/
def Block (log : List (Nat × PktBuf maxMtu)) (id : Nat) (bs : List (PktBuf maxMtu)) : Prop :=
  ∃ pre post, log = pre ++ bs.map (id, ·) ++ post ∧ (∀ e ∈ pre, e.1 ≠ id) ∧ ∀ e ∈ post, e.1 ≠ id

/-- The entries of call `id` are the slots `bs`, and they end the log. -/
def AtEnd (log : List (Nat × PktBuf maxMtu)) (id : Nat) (bs : List (PktBuf maxMtu)) : Prop :=
  ∃ pre, log = pre ++ bs.map (id, ·) ∧ ∀ e ∈ pre, e.1 ≠ id

theorem block_nil_iff {log : List (Nat × PktBuf maxMtu)} {id : Nat} :
    Block log id [] ↔ ∀ e ∈ log, e.1 ≠ id := by
  constructor
  · rintro ⟨pre, post, rfl, h1, h2⟩ e he
    simp only [List.map_nil, List.append_nil, List.mem_append] at he
    exact he.elim (h1 e) (h2 e)
  · intro h
    exact ⟨log, [], by simp, h, by simp⟩

theorem AtEnd.block {log : List (Nat × PktBuf maxMtu)} {id : Nat} {bs : List (PktBuf maxMtu)}
    (h : AtEnd log id bs) : Block log id bs := by
  obtain ⟨pre, rfl, h⟩ := h
  exact ⟨pre, [], by simp, h, by simp⟩

theorem Block.append {log : List (Nat × PktBuf maxMtu)} {id : Nat} {bs : List (PktBuf maxMtu)}
    (h : Block log id bs) {new : List (Nat × PktBuf maxMtu)} (hn : ∀ e ∈ new, e.1 ≠ id) :
    Block (log ++ new) id bs := by
  obtain ⟨pre, post, rfl, h1, h2⟩ := h
  refine ⟨pre, post ++ new, by simp, h1, ?_⟩
  simp only [List.mem_append]
  exact fun e he => he.elim (h2 e) (hn e)

theorem AtEnd.append {log : List (Nat × PktBuf maxMtu)} {id : Nat} {bs : List (PktBuf maxMtu)}
    (h : AtEnd log id bs) (cs : List (PktBuf maxMtu)) :
    AtEnd (log ++ cs.map (id, ·)) id (bs ++ cs) := by
  obtain ⟨pre, rfl, h⟩ := h
  exact ⟨pre, by simp, h⟩

/-! ## The invariant -/

/-- The slots `bs` are the first ones the call's fragmenter fills, in order. -/
def Produced (t : SendTask σ) (bs : List (PktBuf maxMtu)) : Prop :=
  bs = [] ∨ ∃ payload e, payloadOf maxPayload t.pkt = .ok payload ∧
    fragRun F payload t.frag0 bs.length = some (bs, e)

/-- What the log says of send call `t` at each point it can be suspended at. -/
def SendInv (s : PortSys maxMtu σ) (t : SendTask σ) : Prop :=
  match t.pc with
  | .flatten frag pkt => Block s.log t.id [] ∧ frag = t.frag0 ∧ pkt = t.pkt ∧ t.pkt.length ≠ 1
  | .lock frag payload _ =>
    Block s.log t.id [] ∧ frag = t.frag0 ∧ payloadOf maxPayload t.pkt = .ok payload
  | .slot frag payload _ =>
    s.producer = some t.id ∧ payloadOf maxPayload t.pkt = .ok payload ∧
      ∃ bs, AtEnd s.log t.id bs ∧ fragRun F payload t.frag0 bs.length = some (bs, .blocked frag)
  | .sent _ | .dropped => ∃ bs, Block s.log t.id bs ∧ Produced maxPayload F t bs

/-- The invariant of a port: distinct call ids, the producer mutex held only by a call waiting for a
slot, each send's slots a block of the log, the ring the newest slots of the log. -/
structure Inv (s : PortSys maxMtu σ) : Prop where
  nodup : s.ids.Nodup
  logIds : ∀ e ∈ s.log, e.1 ∈ s.ids
  mutex : ∀ i, s.producer = some i → ∃ t ∈ s.sends, t.id = i ∧ t.pc.isSlot
  sends : ∀ t ∈ s.sends, SendInv maxPayload F s t
  queue : ∃ pre, s.log.map Prod.snd = pre ++ s.top.packets.queued

/-! ## Frame lemmas -/

variable {header maxPayload F}

@[simp] theorem setSend_log (s : PortSys maxMtu σ) (id : Nat) (pc : SendPc σ) :
    (s.setSend id pc).log = s.log := rfl
@[simp] theorem setSend_producer (s : PortSys maxMtu σ) (id : Nat) (pc : SendPc σ) :
    (s.setSend id pc).producer = s.producer := rfl
@[simp] theorem setSend_top (s : PortSys maxMtu σ) (id : Nat) (pc : SendPc σ) :
    (s.setSend id pc).top = s.top := rfl
@[simp] theorem setSend_forwards (s : PortSys maxMtu σ) (id : Nat) (pc : SendPc σ) :
    (s.setSend id pc).forwards = s.forwards := rfl
@[simp] theorem setFwd_log (s : PortSys maxMtu σ) (id : Nat) (pc : FwdPc) :
    (s.setFwd id pc).log = s.log := rfl
@[simp] theorem setFwd_producer (s : PortSys maxMtu σ) (id : Nat) (pc : FwdPc) :
    (s.setFwd id pc).producer = s.producer := rfl
@[simp] theorem setFwd_top (s : PortSys maxMtu σ) (id : Nat) (pc : FwdPc) :
    (s.setFwd id pc).top = s.top := rfl
@[simp] theorem setFwd_sends (s : PortSys maxMtu σ) (id : Nat) (pc : FwdPc) :
    (s.setFwd id pc).sends = s.sends := rfl
@[simp] theorem commit_sends (s : PortSys maxMtu σ) (id : Nat) (c : Channel maxMtu) :
    (s.commit id c).sends = s.sends := rfl
@[simp] theorem commit_forwards (s : PortSys maxMtu σ) (id : Nat) (c : Channel maxMtu) :
    (s.commit id c).forwards = s.forwards := rfl
@[simp] theorem commit_producer (s : PortSys maxMtu σ) (id : Nat) (c : Channel maxMtu) :
    (s.commit id c).producer = s.producer := rfl
@[simp] theorem commit_packets (s : PortSys maxMtu σ) (id : Nat) (c : Channel maxMtu) :
    (s.commit id c).top.packets = c := rfl

theorem commit_log (s : PortSys maxMtu σ) (id : Nat) (cs : List (PktBuf maxMtu))
    (free : List (PktBuf maxMtu)) :
    (s.commit id ⟨s.top.packets.queued ++ cs, free⟩).log = s.log ++ cs.map (id, ·) := by
  simp [commit]

@[simp] theorem ids_setSend (s : PortSys maxMtu σ) (id : Nat) (pc : SendPc σ) :
    (s.setSend id pc).ids = s.ids := by
  simp only [ids, setSend, List.map_map]
  congr 2
  funext t
  simp only [Function.comp_apply]
  split <;> rfl

@[simp] theorem ids_setFwd (s : PortSys maxMtu σ) (id : Nat) (pc : FwdPc) :
    (s.setFwd id pc).ids = s.ids := by
  simp only [ids, setFwd, List.map_map]
  congr 2
  funext t
  simp only [Function.comp_apply]
  split <;> rfl

@[simp] theorem ids_commit (s : PortSys maxMtu σ) (id : Nat) (c : Channel maxMtu) :
    (s.commit id c).ids = s.ids := rfl

theorem mem_setSend {s : PortSys maxMtu σ} {id : Nat} {pc : SendPc σ} {t' : SendTask σ}
    (h : t' ∈ (s.setSend id pc).sends) :
    (t' ∈ s.sends ∧ t'.id ≠ id) ∨ ∃ t ∈ s.sends, t.id = id ∧ t' = { t with pc := pc } := by
  obtain ⟨t, ht, rfl⟩ := List.mem_map.mp h
  by_cases hid : t.id = id
  · exact .inr ⟨t, ht, hid, by simp [hid]⟩
  · exact .inl (by simp [hid, ht])

theorem mem_ids_of_sends {s : PortSys maxMtu σ} {t : SendTask σ} (ht : t ∈ s.sends) :
    t.id ∈ s.ids :=
  List.mem_append_left _ (List.mem_map_of_mem _ ht)

theorem mem_ids_of_forwards {s : PortSys maxMtu σ} {u : FwdTask} (hu : u ∈ s.forwards) :
    u.id ∈ s.ids :=
  List.mem_append_right _ (List.mem_map_of_mem _ hu)

theorem Inv.send_eq (hi : Inv maxPayload F s) {t t' : SendTask σ} (ht : t ∈ s.sends)
    (ht' : t' ∈ s.sends) (h : t.id = t'.id) : t = t' :=
  List.inj_on_of_nodup_map (List.nodup_append.mp hi.nodup).1 ht ht' h

theorem Inv.not_slot (hi : Inv maxPayload F s) {t : SendTask σ} (ht : t ∈ s.sends)
    (hp : s.producer ≠ some t.id) : t.pc.isSlot = false := by
  have := hi.sends t ht
  unfold SendInv at this
  cases h : t.pc <;> simp_all [SendPc.isSlot]

theorem SendInv.frame {s s' : PortSys maxMtu σ} {t : SendTask σ} (h : SendInv maxPayload F s t)
    (hslot : t.pc.isSlot = false) {new : List (Nat × PktBuf maxMtu)}
    (hlog : s'.log = s.log ++ new) (hn : ∀ e ∈ new, e.1 ≠ t.id) : SendInv maxPayload F s' t := by
  unfold SendInv at h ⊢
  rw [hlog]
  cases hpc : t.pc <;> simp only [hpc] at h ⊢
  · exact ⟨h.1.append hn, h.2⟩
  · exact ⟨h.1.append hn, h.2⟩
  · simp [hpc, SendPc.isSlot] at hslot
  · obtain ⟨bs, hb, hp⟩ := h; exact ⟨bs, hb.append hn, hp⟩
  · obtain ⟨bs, hb, hp⟩ := h; exact ⟨bs, hb.append hn, hp⟩

theorem SendInv.congr {s s' : PortSys maxMtu σ} {t : SendTask σ} (h : SendInv maxPayload F s t)
    (hl : s'.log = s.log) (hp : s'.producer = s.producer) : SendInv maxPayload F s' t := by
  unfold SendInv at h ⊢
  rw [hl, hp]
  exact h

theorem Inv.not_slot_of_ne (hi : Inv maxPayload F s) {i : Nat}
    (hp : s.producer = none ∨ s.producer = some i) {t : SendTask σ} (ht : t ∈ s.sends)
    (hne : t.id ≠ i) : t.pc.isSlot = false :=
  hi.not_slot ht (by rcases hp with hp | hp <;> rw [hp] <;> simp [Ne.symm hne])

/-! ## Each step keeps the invariant -/

theorem inv_setSend (hi : Inv maxPayload F s) {t : SendTask σ} (ht : t ∈ s.sends)
    (hslot : t.pc.isSlot = false) {pc : SendPc σ}
    (hnew : SendInv maxPayload F s { t with pc := pc }) : Inv maxPayload F (s.setSend t.id pc) := by
  refine ⟨by simpa using hi.nodup, by simpa using hi.logIds, fun i hp => ?_, fun t' ht' => ?_,
    by simpa using hi.queue⟩
  · obtain ⟨u, hu, rfl, hus⟩ := hi.mutex i hp
    have hne : u.id ≠ t.id := fun h => by rw [hi.send_eq hu ht h] at hus; simp_all
    exact ⟨u, List.mem_map.mpr ⟨u, hu, by simp [hne]⟩, rfl, hus⟩
  · rcases mem_setSend ht' with ⟨ht', hne⟩ | ⟨t₀, ht₀, hid, rfl⟩
    · exact (hi.sends t' ht').congr rfl rfl
    · rw [hi.send_eq ht₀ ht hid]
      exact hnew.congr rfl rfl

theorem inv_commitSend (hi : Inv maxPayload F s) {t : SendTask σ} (ht : t ∈ s.sends)
    (hother : ∀ t' ∈ s.sends, t'.id ≠ t.id → t'.pc.isSlot = false)
    {X : PortSys maxMtu σ} (hXs : X.sends = s.sends) (hXf : X.forwards = s.forwards)
    (cs : List (PktBuf maxMtu)) (hXl : X.log = s.log ++ cs.map (t.id, ·))
    (hXq : X.top.packets.queued = s.top.packets.queued ++ cs)
    {pc : SendPc σ} (hXp : ∀ i, X.producer = some i → i = t.id ∧ pc.isSlot)
    (hnew : SendInv maxPayload F X { t with pc := pc }) :
    Inv maxPayload F (X.setSend t.id pc) := by
  have hids : X.ids = s.ids := by simp only [ids, hXs, hXf]
  refine ⟨by simpa [hids] using hi.nodup, fun e he => ?_, fun i hp => ?_, fun t' ht' => ?_, ?_⟩
  · rw [setSend_log, hXl, List.mem_append] at he
    rw [ids_setSend, hids]
    rcases he with he | he
    · exact hi.logIds e he
    · obtain ⟨b, -, rfl⟩ := List.mem_map.mp he
      exact mem_ids_of_sends ht
  · obtain ⟨rfl, hpc⟩ := hXp i hp
    exact ⟨{ t with pc := pc }, List.mem_map.mpr ⟨t, hXs ▸ ht, by simp⟩, rfl, hpc⟩
  · rcases mem_setSend ht' with ⟨ht', hne⟩ | ⟨t₀, ht₀, hid, rfl⟩
    · rw [hXs] at ht'
      refine ((hi.sends t' ht').frame (hother t' ht' hne) hXl ?_).congr rfl rfl
      simp only [List.mem_map]
      rintro _ ⟨b, -, rfl⟩
      exact Ne.symm hne
    · rw [hi.send_eq (hXs ▸ ht₀) ht hid]
      exact hnew.congr rfl rfl
  · obtain ⟨pre, hpre⟩ := hi.queue
    exact ⟨pre, by simp [hXl, hXq, hpre]⟩

/-- **The fragment loop keeps the invariant.** -/
theorem inv_runSlot (hi : Inv maxPayload F s) {t : SendTask σ} (ht : t ∈ s.sends)
    (hfree : s.producer = none ∨ s.producer = some t.id) {frag : σ} {payload : List UInt8}
    (hpay : payloadOf maxPayload t.pkt = .ok payload) {bs : List (PktBuf maxMtu)}
    (hend : AtEnd s.log t.id bs)
    (hrun : fragRun F payload t.frag0 bs.length = some (bs, .blocked frag)) {flat : Bool}
    {s' : PortSys maxMtu σ}
    (hr : runSlot F { s with producer := some t.id } t.id frag payload flat = some s') :
    Inv maxPayload F s' := by
  have hother : ∀ t' ∈ s.sends, t'.id ≠ t.id → t'.pc.isSlot = false :=
    fun t' ht' hne => hi.not_slot_of_ne hfree ht' hne
  simp only [runSlot, sendLoop_eq] at hr
  rcases hfr : fragRun F payload frag s.top.packets.free.length with _ | ⟨cs, e⟩ <;>
    simp only [hfr, Option.map_none', Option.map_some'] at hr
  · cases hr
  have hq : (s.top.packets.queued ++ cs).drop s.top.packets.queued.length = cs := by simp
  have hrun' : fragRun F payload t.frag0 (bs ++ cs).length = some (bs ++ cs, e) := by
    rw [List.length_append, fragRun_add hrun cs.length, fragRun_self hfr]
    rfl
  cases e with
  | blocked f' =>
    cases hr
    refine inv_commitSend hi ht hother (by rfl) (by rfl) cs (by simp [commit, hq]) (by rfl)
      (fun i hi' => ⟨by simp at hi'; exact hi'.symm, rfl⟩) ⟨rfl, hpay, bs ++ cs, ?_, hrun'⟩
    simpa [commit, hq] using hend.append cs
  | finished r =>
    cases hr
    refine inv_commitSend hi ht hother (by rfl) (by rfl) cs (by simp [commit, hq]) (by rfl)
      (by simp) ⟨bs ++ cs, ?_, .inr ⟨payload, .finished r, hpay, hrun'⟩⟩
    simpa [commit, hq] using (hend.append cs).block

theorem Inv.withMessage (hi : Inv maxPayload F s) (m : Option Nat) :
    Inv maxPayload F { s with message := m } :=
  ⟨hi.nodup, hi.logIds, hi.mutex, fun t ht => (hi.sends t ht).congr rfl rfl, hi.queue⟩

theorem Inv.send_ne_fwd (hi : Inv maxPayload F s) {t : SendTask σ} (ht : t ∈ s.sends)
    {u : FwdTask} (hu : u ∈ s.forwards) : t.id ≠ u.id := fun h =>
  (List.nodup_append.mp hi.nodup).2.2 (List.mem_map_of_mem _ ht) (h ▸ List.mem_map_of_mem _ hu)

theorem atEnd_nil {log : List (Nat × PktBuf maxMtu)} {id : Nat} (h : Block log id []) :
    AtEnd log id [] :=
  ⟨log, by simp, block_nil_iff.mp h⟩

theorem inv_lock (hi : Inv maxPayload F s) {t : SendTask σ} (ht : t ∈ s.sends)
    (hslot : t.pc.isSlot = false) (hb : Block s.log t.id []) {payload : List UInt8}
    (hpay : payloadOf maxPayload t.pkt = .ok payload) {flat : Bool} {s' : PortSys maxMtu σ}
    (h : lock F s t.id t.frag0 payload flat = some s') : Inv maxPayload F s' := by
  unfold lock at h
  split at h
  · cases h
    exact inv_setSend hi ht hslot ⟨hb, rfl, hpay⟩
  · rename_i hp
    exact inv_runSlot hi ht (.inl (by simpa using hp)) hpay (atEnd_nil hb) rfl h

theorem inv_flattenStep (hi : Inv maxPayload F s) {t : SendTask σ} (ht : t ∈ s.sends)
    {frag : σ} {pkt : List (List UInt8)} (hpc : t.pc = .flatten frag pkt) {s' : PortSys maxMtu σ}
    (h : flattenStep maxPayload F s t.id frag pkt = some s') : Inv maxPayload F s' := by
  obtain ⟨hb, rfl, rfl, hlen⟩ : Block s.log t.id [] ∧ frag = t.frag0 ∧ pkt = t.pkt ∧
      t.pkt.length ≠ 1 := by simpa [SendInv, hpc] using hi.sends t ht
  have hslot : t.pc.isSlot = false := by simp [hpc, SendPc.isSlot]
  unfold flattenStep at h
  split at h
  · cases h; exact hi
  · split at h
    · cases h
      exact inv_setSend hi ht hslot ⟨[], hb, .inl rfl⟩
    · rename_i payload hfl
      exact inv_lock (hi.withMessage (some t.id)) ht hslot hb
        (by rw [payloadOf_of_length_ne_one hlen]; exact hfl) h

theorem inv_pollSend (hi : Inv maxPayload F s) {id : Nat} {s' : PortSys maxMtu σ}
    (h : pollSend maxPayload F s id = some s') : Inv maxPayload F s' := by
  unfold pollSend at h
  rcases hf : s.sends.find? (·.id = id) with _ | t <;>
    simp only [hf, Option.map_none', Option.map_some'] at h
  · cases h; exact hi
  have ht : t ∈ s.sends := List.mem_of_find?_eq_some hf
  obtain rfl : t.id = id := by simpa using List.find?_some hf
  have hst := hi.sends t ht
  cases hpc : t.pc with
  | flatten frag pkt => rw [hpc] at h; exact inv_flattenStep hi ht hpc h
  | lock frag payload flat =>
    rw [hpc] at h
    simp only [SendInv, hpc] at hst
    obtain ⟨hb, rfl, hpay⟩ := hst
    exact inv_lock hi ht (by simp [hpc, SendPc.isSlot]) hb hpay h
  | slot frag payload flat =>
    rw [hpc] at h
    simp only [SendInv, hpc] at hst
    obtain ⟨hprod, hpay, bs, hend, hrun⟩ := hst
    have hs : { s with producer := some t.id } = s := by rw [← hprod]
    rw [← hs] at h
    exact inv_runSlot hi ht (.inr hprod) hpay hend hrun h
  | sent r => rw [hpc] at h; cases h; exact hi
  | dropped => rw [hpc] at h; cases h; exact hi

theorem inv_pollForward (hi : Inv maxPayload F s) {id : Nat} {s' : PortSys maxMtu σ}
    (h : pollForward header s id = some s') : Inv maxPayload F s' := by
  unfold pollForward at h
  rcases hf : s.forwards.find? (·.id = id) with _ | u <;>
    simp only [hf, Option.map_none', Option.map_some'] at h
  · cases h; exact hi
  have hu : u ∈ s.forwards := List.mem_of_find?_eq_some hf
  obtain rfl : u.id = id := by simpa using List.find?_some hf
  cases hpc : u.pc with
  | lock pkt =>
    simp only [hpc] at h
    split at h
    · cases h; exact hi
    rename_i hp
    have hnone : s.producer = none := by simpa using hp
    obtain ⟨⟨r, top'⟩, hfw, rfl⟩ := Option.map_eq_some'.mp h
    obtain ⟨-, cs, -, hc⟩ := forwardPacket_packets hfw
    have hlog : (s.commit u.id top'.packets).log = s.log ++ cs.map (u.id, ·) := by
      rw [hc, commit_log]
    refine ⟨by simpa using hi.nodup, fun e he => ?_, fun i hp => by simp [hnone] at hp,
      fun t ht => ?_, ?_⟩
    · rw [setFwd_log, hlog, List.mem_append] at he
      rw [ids_setFwd, ids_commit]
      rcases he with he | he
      · exact hi.logIds e he
      · obtain ⟨b, -, rfl⟩ := List.mem_map.mp he
        exact mem_ids_of_forwards hu
    · refine ((hi.sends t ht).frame (hi.not_slot ht (by simp [hnone])) hlog ?_).congr rfl rfl
      simp only [List.mem_map]
      rintro _ ⟨b, -, rfl⟩
      exact (hi.send_ne_fwd ht hu).symm
    · obtain ⟨pre, hpre⟩ := hi.queue
      refine ⟨pre, ?_⟩
      rw [setFwd_log, hlog, setFwd_top, commit_packets, hc]
      simp [hpre]
  | forwarded r => rw [hpc] at h; cases h; exact hi
  | dropped => rw [hpc] at h; cases h; exact hi

theorem Inv.setFwd (hi : Inv maxPayload F s) (id : Nat) (pc : FwdPc) :
    Inv maxPayload F (s.setFwd id pc) :=
  ⟨by simpa using hi.nodup, by simpa using hi.logIds, by simpa using hi.mutex,
    fun t ht => (hi.sends t ht).congr rfl rfl, by simpa using hi.queue⟩

theorem inv_dropSend (hi : Inv maxPayload F s) (id : Nat) : Inv maxPayload F (s.dropSend id) := by
  unfold dropSend
  rcases hf : s.sends.find? (·.id = id) with _ | t <;>
    simp only [hf, Option.map_none', Option.map_some']
  · exact hi
  have ht : t ∈ s.sends := List.mem_of_find?_eq_some hf
  obtain rfl : t.id = id := by simpa using List.find?_some hf
  have hst := hi.sends t ht
  have hnp : ¬ t.pc.isSlot → s.producer ≠ some t.id := fun hs hp => by
    obtain ⟨u, hu, hid, hus⟩ := hi.mutex _ hp
    rw [hi.send_eq hu ht hid] at hus
    exact hs hus
  cases hpc : t.pc with
  | sent r => exact hi
  | slot frag payload flat =>
    simp only [SendInv, hpc] at hst
    obtain ⟨hprod, hpay, bs, hend, hrun⟩ := hst
    simp only [hprod, ↓reduceIte]
    exact inv_commitSend hi ht (fun t' ht' hne => hi.not_slot_of_ne (.inr hprod) ht' hne)
      (by rfl) (by rfl) [] (by simp) (by simp) (by simp)
      ⟨bs, hend.block, .inr ⟨payload, _, hpay, hrun⟩⟩
  | flatten frag pkt | lock frag payload flat | dropped =>
    -- a call that holds no slot has produced nothing past its block
    have hdone : ∃ bs, Block s.log t.id bs ∧ Produced maxPayload F t bs := by
      simp only [SendInv, hpc] at hst
      first | exact hst | exact ⟨[], hst.1, .inl rfl⟩
    simp only [hnp (by simp [hpc, SendPc.isSlot]), ↓reduceIte]
    apply inv_setSend (hi.withMessage (if s.message = some t.id then none else s.message)) ht
      (by simp [hpc, SendPc.isSlot])
    exact hdone

theorem inv_dropForward (hi : Inv maxPayload F s) (id : Nat) :
    Inv maxPayload F (s.dropForward id) := by
  unfold dropForward
  split
  · exact hi.setFwd _ _
  · exact hi

theorem inv_spawnSend (hi : Inv maxPayload F s) {id : Nat} (hid : id ∉ s.ids) (frag : σ)
    (pkt : List (List UInt8)) :
    Inv maxPayload F { s with sends := s.sends ++ [⟨id, frag, pkt, match pkt with
      | [p] => .lock frag p false
      | _ => .flatten frag pkt⟩] } := by
  have hids : ∀ i ∈ s.ids, i ∈ ({ s with sends := s.sends ++ [⟨id, frag, pkt, .dropped⟩] } :
      PortSys maxMtu σ).ids := by
    simp only [ids, List.map_append, List.mem_append]; tauto
  have hb : Block s.log id [] := block_nil_iff.mpr fun e he h => hid (h ▸ hi.logIds e he)
  refine ⟨?_, fun e he => ?_, fun i hp => ?_, fun t ht => ?_, hi.queue⟩
  · simp only [ids, List.map_append, List.map_cons, List.map_nil, List.append_assoc,
      List.singleton_append]
    rw [List.nodup_middle, List.nodup_cons]
    exact ⟨hid, hi.nodup⟩
  · simpa [ids] using hids _ (hi.logIds e he)
  · obtain ⟨t, ht, h1, h2⟩ := hi.mutex i hp
    exact ⟨t, List.mem_append_left _ ht, h1, h2⟩
  · rcases List.mem_append.mp ht with ht | ht
    · exact (hi.sends t ht).congr rfl rfl
    · rw [List.mem_singleton.mp ht]
      match pkt with
      | [p] => exact ⟨hb, rfl, rfl⟩
      | [] => exact ⟨hb, rfl, rfl, by simp⟩
      | p :: q :: ps => exact ⟨hb, rfl, rfl, by simp⟩

theorem inv_spawnForward (hi : Inv maxPayload F s) {id : Nat} (hid : id ∉ s.ids)
    (pkt : List UInt8) :
    Inv maxPayload F { s with forwards := s.forwards ++ [⟨id, .lock pkt⟩] } := by
  refine ⟨?_, fun e he => ?_, hi.mutex, fun t ht => (hi.sends t ht).congr rfl rfl, hi.queue⟩
  · simp only [ids, List.map_append, List.map_cons, List.map_nil, ← List.append_assoc]
    rw [List.nodup_append_comm, List.singleton_append, List.nodup_cons]
    exact ⟨hid, hi.nodup⟩
  · have := hi.logIds e he
    simp only [ids, List.map_append, List.mem_append] at this ⊢
    tauto

theorem inv_outboundDone (hi : Inv maxPayload F s) : Inv maxPayload F s.outboundDone := by
  refine ⟨hi.nodup, hi.logIds, hi.mutex, fun t ht => (hi.sends t ht).congr rfl rfl, ?_⟩
  obtain ⟨pre, hpre⟩ := hi.queue
  refine ⟨pre ++ s.top.packets.queued.take 1, ?_⟩
  simp only [outboundDone, Channel.receiveDone_queued, List.append_assoc, hpre]
  rw [← List.drop_one, List.take_append_drop]

/-- **Every step keeps the invariant.** -/
theorem inv_step (hi : Inv maxPayload F s) {a : PortAct σ} {s' : PortSys maxMtu σ}
    (h : s.step header maxPayload F a = some s') : Inv maxPayload F s' := by
  cases a with
  | spawnSend id frag pkt =>
    cases h
    split
    · exact hi
    · exact inv_spawnSend hi ‹_› frag pkt
  | spawnForward id pkt =>
    cases h
    split
    · exact hi
    · exact inv_spawnForward hi ‹_› pkt
  | pollSend id => exact inv_pollSend hi h
  | pollForward id => exact inv_pollForward hi h
  | dropSend id => cases h; exact inv_dropSend hi id
  | dropForward id => cases h; exact inv_dropForward hi id
  | outboundDone => cases h; exact inv_outboundDone hi

theorem Reachable.run {s s' : PortSys maxMtu σ} :
    ∀ {acts : List (PortAct σ)}, Reachable header maxPayload F s →
      s.run header maxPayload F acts = some s' → Reachable header maxPayload F s'
  | [], h, hr => Option.some.inj hr ▸ h
  | a :: _, h, hr => by
    obtain ⟨s1, h1, h2⟩ := Option.bind_eq_some.mp hr
    exact Reachable.run (h.step a h1) h2

theorem Reachable.inv (h : Reachable header maxPayload F s) : Inv maxPayload F s := by
  induction h with
  | init q mtu h =>
    exact ⟨List.nodup_nil, by simp [PortSys.init], by simp [PortSys.init],
      by simp [PortSys.init], [], rfl⟩
  | step a _ hs ih => exact inv_step ih hs

/-- **The slots of one `send_message` are consecutive** in the log, in the order its fragmenter
filled them. -/
theorem send_slots_consecutive (h : Reachable header maxPayload F s) {t : SendTask σ}
    (ht : t ∈ s.sends) :
    (∃ bs, Block s.log t.id bs ∧ Produced maxPayload F t bs) ∧
      ∃ pre, s.log.map Prod.snd = pre ++ s.top.packets.queued := by
  have hi := h.inv
  refine ⟨?_, hi.queue⟩
  have hst := hi.sends t ht
  unfold SendInv at hst
  split at hst
  · exact ⟨[], hst.1, .inl rfl⟩
  · exact ⟨[], hst.1, .inl rfl⟩
  · obtain ⟨-, hpay, bs, hend, hrun⟩ := hst
    exact ⟨bs, hend.block, .inr ⟨_, _, hpay, hrun⟩⟩
  · exact hst
  · exact hst

/-- The stack's fragmenter for a message from EID 8 to EID 9 of type 1, made for MTU `mtu`. -/
def fragFor (mtu : Nat) : Fragmenter := ⟨⟨8⟩, ⟨9⟩, ⟨1⟩, false, .owned ⟨0⟩, mtu, 0, 0, false⟩

/-- Two sends of three and two packets and a forward, on a port of two slots and MTU 8: the
second send and the forward wait while the first holds the producer mutex, then each commits
its packets in turn. -/
def twoSends : List (PortAct Fragmenter) :=
  [.spawnSend 0 (fragFor 8) [[1, 2, 3, 4, 5, 6, 7, 8]], .spawnSend 2 (fragFor 8) [[1, 2, 3, 4, 5]],
    .spawnForward 1 [1, 9, 10, 0xc0, 1, 4], .pollSend 0, .pollSend 2, .pollForward 1, .outboundDone,
    .pollSend 2, .pollSend 0, .outboundDone, .outboundDone, .pollForward 1, .pollSend 2,
    .outboundDone, .pollSend 2]

/-- After `twoSends` each send's packets are one block of the log. -/
theorem send_slots_consecutive_two_sends : ∃ s : PortSys 255 Fragmenter,
    Reachable mctpHeader 1024 Fragmenter.frag s ∧ s.log.map Prod.fst = [0, 0, 0, 1, 2, 2] ∧
      ∀ t ∈ s.sends, (∃ bs, Block s.log t.id bs ∧ Produced 1024 Fragmenter.frag t bs) ∧
        ∃ pre, s.log.map Prod.snd = pre ++ s.top.packets.queued := by
  have hr : (init 2 8 (by decide) : PortSys 255 Fragmenter).run mctpHeader 1024 Fragmenter.frag
      twoSends = some _ := rfl
  have h := (Reachable.init 2 8 _).run hr
  exact ⟨_, h, rfl, fun t ht => send_slots_consecutive h ht⟩

/-- **`send_message` does not hold a packet to the port's MTU**: the stack's fragmenter made for MTU
64 commits a 15-byte slot on a port of MTU 8. -/
theorem send_exceeds_port_mtu : ∃ s : PortSys 255 Fragmenter,
    Reachable mctpHeader 1024 Fragmenter.frag s ∧ s.top.mtu = 8 ∧
    (∀ t ∈ s.sends, t.frag0.mtu = 64 ∧ t.frag0.done = false) ∧
    ∃ e ∈ s.log, s.top.mtu < e.2.data.length := by
  have h0 : Reachable mctpHeader 1024 Fragmenter.frag
      (PortSys.init 1 8 (by decide) : PortSys 255 Fragmenter) := .init 1 8 _
  have h1 := Reachable.step (.spawnSend 0 (fragFor 64) [[1, 2, 3, 4, 5, 6, 7, 8, 9, 10]]) h0 rfl
  have h2 := Reachable.step (.pollSend 0) h1 rfl
  exact ⟨_, h2, rfl, by decide, by decide⟩

/-! ## What a send call keeps of its fragmenter

A send call stays under its id with the fragmenter it was started with, and a step adds no
call id but the one it starts. With a fragmenter whose calls keep its tag, as the stack's does,
every send call holds, or returned, the tag of the fragmenter it was started with: the
`Ok(tag)` of `send_message` is the tag `start_send` put in the fragmenter. -/

/-- A send call at `pc` holds a fragmenter of tag `tag`, or returned `Ok(tag)`. -/
def PcTag (F : Frag maxMtu σ) (tag : Tag) : SendPc σ → Prop
  | .flatten f _ | .lock f _ _ | .slot f _ _ => F.tag f = tag
  | .sent (.ok t) => t = tag
  | .sent (.error _) | .dropped => True

/-- Every send call holds, or returned, the tag of the fragmenter it was started with. -/
def TagInv (F : Frag maxMtu σ) (s : PortSys maxMtu σ) : Prop :=
  ∀ t ∈ s.sends, PcTag F (F.tag t.frag0) t.pc

/-- Every send call of `s` is one of `s'`, under the same id, with the same fragmenter. -/
def KeepsCalls (s s' : PortSys maxMtu σ) : Prop :=
  ∀ i t, s.sends.find? (·.id = i) = some t →
    ∃ t', s'.sends.find? (·.id = i) = some t' ∧ t'.frag0 = t.frag0

theorem KeepsCalls.refl (s : PortSys maxMtu σ) : KeepsCalls s s := fun _ t h => ⟨t, h, rfl⟩

theorem KeepsCalls.trans {s1 s2 s3 : PortSys maxMtu σ} (h1 : KeepsCalls s1 s2)
    (h2 : KeepsCalls s2 s3) : KeepsCalls s1 s3 := fun i t h => by
  obtain ⟨t2, h2', e2⟩ := h1 i t h
  obtain ⟨t3, h3, e3⟩ := h2 i t2 h2'
  exact ⟨t3, h3, e3.trans e2⟩

theorem keepsCalls_setSend {s s' : PortSys maxMtu σ} {id : Nat} {pc : SendPc σ}
    (he : s'.sends = (s.setSend id pc).sends) : KeepsCalls s s' := by
  intro i t h
  have hp : ((fun t : SendTask σ => decide (t.id = i)) ∘
      fun t => if t.id = id then { t with pc := pc } else t) = fun t => decide (t.id = i) := by
    funext t
    simp only [Function.comp_apply]
    split <;> rfl
  refine ⟨if t.id = id then { t with pc := pc } else t, ?_, by split <;> rfl⟩
  rw [he, setSend, List.find?_map, hp, h]
  rfl

theorem keepsCalls_append {s s' : PortSys maxMtu σ} {new : List (SendTask σ)}
    (he : s'.sends = s.sends ++ new) : KeepsCalls s s' := fun i t h =>
  ⟨t, by rw [he, List.find?_append, h]; rfl, rfl⟩

theorem runSlot_sends {s s' : PortSys maxMtu σ} {id : Nat} {frag : σ} {payload : List UInt8}
    {flat : Bool} (h : runSlot F s id frag payload flat = some s') :
    ∃ pc, s'.sends = (s.setSend id pc).sends ∧ s'.forwards = s.forwards ∧
      (F.KeepsTag → PcTag F (F.tag frag) pc) := by
  unfold runSlot at h
  rw [sendLoop_eq] at h
  rcases hr : fragRun F payload frag s.top.packets.free.length with _ | ⟨bs, f | r⟩ <;>
    simp only [hr, Option.map_none', Option.map_some'] at h
  · cases h
  · cases h
    exact ⟨_, rfl, rfl, fun hF => (fragRun_tag hF hr).1 f rfl⟩
  · cases h
    refine ⟨_, rfl, rfl, fun hF => ?_⟩
    rcases r with e | tag
    · trivial
    · exact (fragRun_tag hF hr).2 tag rfl

theorem lock_sends {s s' : PortSys maxMtu σ} {id : Nat} {frag : σ} {payload : List UInt8}
    {flat : Bool} (h : lock F s id frag payload flat = some s') :
    ∃ pc, s'.sends = (s.setSend id pc).sends ∧ s'.forwards = s.forwards ∧
      (F.KeepsTag → PcTag F (F.tag frag) pc) := by
  unfold lock at h
  split at h
  · cases h
    exact ⟨_, rfl, rfl, fun _ => rfl⟩
  · obtain ⟨pc, he, hfw, htag⟩ := runSlot_sends h
    exact ⟨pc, he, hfw, htag⟩

theorem flattenStep_sends {s s' : PortSys maxMtu σ} {id : Nat} {frag : σ}
    {pkt : List (List UInt8)} (h : flattenStep maxPayload F s id frag pkt = some s') :
    s' = s ∨ ∃ pc, s'.sends = (s.setSend id pc).sends ∧ s'.forwards = s.forwards ∧
      (F.KeepsTag → PcTag F (F.tag frag) pc) := by
  unfold flattenStep at h
  split at h
  · exact .inl (Option.some.inj h).symm
  · split at h
    · cases h
      exact .inr ⟨_, rfl, rfl, fun _ => trivial⟩
    · obtain ⟨pc, he, hfw, htag⟩ := lock_sends h
      exact .inr ⟨pc, he, hfw, htag⟩

/-- **A poll of a send call** moves that call alone, keeping its tag. -/
theorem pollSend_sends {s s' : PortSys maxMtu σ} {id : Nat}
    (h : pollSend maxPayload F s id = some s') :
    s' = s ∨ ∃ t ∈ s.sends, t.id = id ∧ ∃ pc, s'.sends = (s.setSend id pc).sends ∧
      s'.forwards = s.forwards ∧
      (F.KeepsTag → PcTag F (F.tag t.frag0) t.pc → PcTag F (F.tag t.frag0) pc) := by
  unfold pollSend at h
  rcases hf : s.sends.find? (·.id = id) with _ | t <;>
    simp only [hf, Option.map_none', Option.map_some'] at h
  · exact .inl (Option.some.inj h).symm
  have ht : t ∈ s.sends := List.mem_of_find?_eq_some hf
  have hid : t.id = id := by simpa using List.find?_some hf
  cases hpc : t.pc with
  | flatten frag pkt =>
    rw [hpc] at h
    rcases flattenStep_sends h with rfl | ⟨pc, he, hfw, htag⟩
    · exact .inl rfl
    · exact .inr ⟨t, ht, hid, pc, he, hfw, fun hF h0 =>
      (show F.tag frag = F.tag t.frag0 by rw [hpc] at h0; exact h0) ▸ htag hF⟩
  | lock frag payload flat =>
    rw [hpc] at h
    obtain ⟨pc, he, hfw, htag⟩ := lock_sends h
    exact .inr ⟨t, ht, hid, pc, he, hfw, fun hF h0 =>
      (show F.tag frag = F.tag t.frag0 by rw [hpc] at h0; exact h0) ▸ htag hF⟩
  | slot frag payload flat =>
    rw [hpc] at h
    obtain ⟨pc, he, hfw, htag⟩ := runSlot_sends h
    exact .inr ⟨t, ht, hid, pc, he, hfw, fun hF h0 =>
      (show F.tag frag = F.tag t.frag0 by rw [hpc] at h0; exact h0) ▸ htag hF⟩
  | sent r => rw [hpc] at h; exact .inl (Option.some.inj h).symm
  | dropped => rw [hpc] at h; exact .inl (Option.some.inj h).symm

theorem ids_of_sends {s s' : PortSys maxMtu σ} {id : Nat} {pc : SendPc σ}
    (he : s'.sends = (s.setSend id pc).sends) (hf : s'.forwards = s.forwards) : s'.ids = s.ids := by
  rw [← ids_setSend s id pc, ids, ids, he, hf]
  rfl

@[simp] theorem ids_dropSend (s : PortSys maxMtu σ) (id : Nat) : (s.dropSend id).ids = s.ids := by
  unfold dropSend
  split
  · rfl
  · rfl
  · exact (ids_setSend _ _ _).trans rfl

theorem keepsCalls_dropSend (s : PortSys maxMtu σ) (id : Nat) : KeepsCalls s (s.dropSend id) := by
  unfold dropSend
  split
  · exact .refl _
  · exact .refl _
  · exact keepsCalls_setSend (s := s) (show _ = (s.setSend id .dropped).sends from rfl)

/-- **What a step does to the send calls**: nothing, moves one, or adds one. -/
theorem sends_step {s s' : PortSys maxMtu σ} {a : PortAct σ}
    (h : s.step header maxPayload F a = some s') :
    (s'.sends = s.sends ∨
      (∃ t ∈ s.sends, ∃ pc, s'.sends = (s.setSend t.id pc).sends ∧
        (F.KeepsTag → PcTag F (F.tag t.frag0) t.pc → PcTag F (F.tag t.frag0) pc)) ∨
      ∃ t : SendTask σ, s'.sends = s.sends ++ [t] ∧ PcTag F (F.tag t.frag0) t.pc) ∧
    ∀ i ∈ s'.ids, i ∈ s.ids ∨ a.newId = some i := by
  cases a with
  | spawnSend id frag pkt =>
    cases h
    split
    · exact ⟨.inl rfl, fun i hi => .inl hi⟩
    · refine ⟨.inr (.inr ⟨_, rfl, by split <;> rfl⟩), fun i hi => ?_⟩
      simp only [ids, List.map_append, List.mem_append, List.map_cons, List.map_nil,
        List.mem_singleton] at hi ⊢
      rcases hi with (hi | rfl) | hi
      · exact .inl (.inl hi)
      · exact .inr rfl
      · exact .inl (.inr hi)
  | spawnForward id pkt =>
    cases h
    split
    · exact ⟨.inl rfl, fun i hi => .inl hi⟩
    · refine ⟨.inl rfl, fun i hi => ?_⟩
      simp only [ids, List.map_append, List.mem_append, List.map_cons, List.map_nil,
        List.mem_singleton] at hi ⊢
      rcases hi with hi | hi | rfl
      · exact .inl (.inl hi)
      · exact .inl (.inr hi)
      · exact .inr rfl
  | pollSend id =>
    rcases pollSend_sends h with rfl | ⟨t, ht, rfl, pc, he, hf, hpc⟩
    · exact ⟨.inl rfl, fun i hi => .inl hi⟩
    · exact ⟨.inr (.inl ⟨t, ht, pc, he, hpc⟩), fun i hi => .inl (ids_of_sends he hf ▸ hi)⟩
  | pollForward id =>
    change pollForward header s id = some s' at h
    unfold pollForward at h
    split at h
    · split at h
      · cases h; exact ⟨.inl rfl, fun i hi => .inl hi⟩
      · obtain ⟨_, -, rfl⟩ := Option.map_eq_some'.mp h
        exact ⟨.inl rfl, fun i hi => .inl (by simpa using hi)⟩
    · cases h; exact ⟨.inl rfl, fun i hi => .inl hi⟩
  | dropSend id =>
    cases h
    refine ⟨?_, fun i hi => .inl (by rwa [ids_dropSend] at hi)⟩
    unfold dropSend
    split
    · exact .inl rfl
    · exact .inl rfl
    · rename_i heq
      obtain ⟨t, hf, -⟩ := Option.map_eq_some'.mp heq
      obtain rfl : t.id = id := by simpa using List.find?_some hf
      exact .inr (.inl ⟨t, List.mem_of_find?_eq_some hf, .dropped, rfl, fun _ _ => trivial⟩)
  | dropForward id =>
    cases h
    unfold dropForward
    split
    · exact ⟨.inl rfl, fun i hi => .inl (by simpa using hi)⟩
    · exact ⟨.inl rfl, fun i hi => .inl hi⟩
  | outboundDone => cases h; exact ⟨.inl rfl, fun i hi => .inl hi⟩

/-- **A step keeps every send call**, and the only call id it adds is the one it starts. -/
theorem keepsCalls_step {s s' : PortSys maxMtu σ} {a : PortAct σ}
    (h : s.step header maxPayload F a = some s') :
    KeepsCalls s s' ∧ ∀ i ∈ s'.ids, i ∈ s.ids ∨ a.newId = some i := by
  obtain ⟨hs, hids⟩ := sends_step h
  refine ⟨?_, hids⟩
  rcases hs with he | ⟨t, -, pc, he, -⟩ | ⟨t, he, -⟩
  · exact fun i t h => ⟨t, he ▸ h, rfl⟩
  · exact keepsCalls_setSend he
  · exact keepsCalls_append he

theorem spawnSend_find {s s' : PortSys maxMtu σ} {id : Nat} {frag : σ} {pkt : List (List UInt8)}
    (hid : id ∉ s.ids) (h : s.step header maxPayload F (.spawnSend id frag pkt) = some s') :
    ∃ t, s'.sends.find? (·.id = id) = some t ∧ t.frag0 = frag := by
  simp only [step, if_neg hid, Option.some.injEq] at h
  subst h
  rw [List.find?_append, List.find?_eq_none.mpr fun t ht he =>
    hid (by simpa using (of_decide_eq_true he) ▸ mem_ids_of_sends ht)]
  simp

theorem TagInv.setSend {s s' : PortSys maxMtu σ} (h : TagInv F s) {id : Nat} {pc : SendPc σ}
    (hpc : ∀ t ∈ s.sends, t.id = id → PcTag F (F.tag t.frag0) pc)
    (he : s'.sends = (s.setSend id pc).sends) : TagInv F s' := by
  intro t' ht'
  rw [he] at ht'
  rcases mem_setSend ht' with ⟨ht, -⟩ | ⟨t, ht, hid, rfl⟩
  · exact h t' ht
  · exact hpc t ht hid

theorem tagInv_step (hF : F.KeepsTag) (hi : Inv maxPayload F s) (h : TagInv F s) {a : PortAct σ}
    {s' : PortSys maxMtu σ} (hs : s.step header maxPayload F a = some s') : TagInv F s' := by
  rcases (sends_step hs).1 with he | ⟨t, ht, pc, he, hpc⟩ | ⟨t, he, ht⟩
  · exact fun t' ht' => h t' (he ▸ ht')
  · exact h.setSend (fun t' ht' hid => hi.send_eq ht ht' hid.symm ▸ hpc hF (h t ht)) he
  · intro t' ht'
    rw [he] at ht'
    rcases List.mem_append.mp ht' with ht' | ht'
    · exact h t' ht'
    · rw [List.mem_singleton.mp ht']
      exact ht

/-- **A send call returns the tag of its fragmenter.** -/
theorem Reachable.tagInv (hF : F.KeepsTag) (h : Reachable header maxPayload F s) : TagInv F s := by
  induction h with
  | init => exact fun _ h => nomatch h
  | step a hr hs ih => exact tagInv_step hF hr.inv ih hs

end PortSys

end MctpRouter
