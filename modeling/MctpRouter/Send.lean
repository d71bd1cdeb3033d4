import MctpRouter.Packet

/-!
# Sending a message on a port

`PortTop::send_message`: flatten the vectored payload, then fragment it straight into queue
slots.

* `SendOutput`, `Frag`: the fragmenter as `send_message` sees it. `Fragmenter` is the stack's
  fragmenter, modelled from the spec.
* `flatten` and `payloadOf`: the flatten step; **`flatten_eq`**: it concatenates, or fails with
  `NoSpace` past `MAX_PAYLOAD`.
* `fillSlot`, `sendLoop`: one iteration and the loop of one poll, until the ring is full or the
  fragmenter stops; `sendMessage` is the first poll of a call. **`fragRun_tag`**: with a
  fragmenter that keeps its tag (`Frag.KeepsTag`, as the stack's does), the loop returns `Ok` of
  the tag it started with.
* `LoopCalls` states what the loop did call by call, against the iterates `(F.next payload)^[k]`
  of the fragmenter; **`fragment_loop_calls`**: for any fragmenter that never answers `Complete`
  when fresh or not done, and any number of slots, the loop does that and never panics.
* **`sendMessage_eq_join`**: the single-slice fast path and the flatten path agree, except that
  several slices totalling more than `MAX_PAYLOAD` fail with `NoSpace` and commit nothing.
-/

namespace MctpRouter

variable {maxMtu : Nat}

/-- What one call of `Fragmenter::fragment` produced; a packet is a prefix of the slot. -/
inductive SendOutput (maxMtu : Nat) where
  | packet (p : List UInt8) (h : p.length ≤ maxMtu)
  | error (err : Error)
  | complete

/-- The calls `send_message` makes on a fragmenter with state `σ`. -/
structure Frag (maxMtu : Nat) (σ : Type) where
  fragment : σ → List UInt8 → SendOutput maxMtu × σ
  isDone : σ → Bool
  tag : σ → Tag
  dest : σ → Eid

/-- The fragmenter after one call of `fragment` on `payload`. -/
def Frag.next {σ : Type} (F : Frag maxMtu σ) (payload : List UInt8) (f : σ) : σ :=
  (F.fragment f payload).2

/-- No call of `fragment` changes the fragmenter's tag. -/
def Frag.KeepsTag {σ : Type} (F : Frag maxMtu σ) : Prop :=
  ∀ f payload, F.tag (F.next payload f) = F.tag f

/-! ## The stack's fragmenter -/

/-- Modelled from the spec (§6.2, scenario S6): the `Fragmenter` that `Stack::start_send`
returns. -/
structure Fragmenter where
  src : Eid
  dest : Eid
  typ : MsgType
  ic : Bool
  tag : Tag
  mtu : Nat
  sent : Nat
  seq : Nat
  done : Bool
deriving DecidableEq, Repr

namespace Fragmenter

/-- The message header byte: integrity check bit and message type. -/
def typByte (f : Fragmenter) : UInt8 := UInt8.ofNat ((if f.ic then 128 else 0) + f.typ.id.toNat % 128)

/-- The TO bit and tag value bits of the MCTP header's flags byte. -/
def tagBits : Tag → Nat
  | .owned tv => 8 + tv.id.toNat % 8
  | .unowned tv => tv.id.toNat % 8

/-- The flags byte of the MCTP header: SOM, EOM, sequence number, TO bit and tag value. -/
def flags (f : Fragmenter) (eom : Bool) : UInt8 :=
  UInt8.ofNat ((if f.seq = 0 then 128 else 0) + (if eom then 64 else 0) + f.seq % 4 * 16 +
    tagBits f.tag)

/-- The message type byte, in the first packet only. -/
def lead (f : Fragmenter) : List UInt8 := if f.seq = 0 then [f.typByte] else []

/-- The body of the next packet: `lead`, then the next chunk of payload. -/
def body (maxMtu : Nat) (f : Fragmenter) (payload : List UInt8) : List UInt8 :=
  f.lead ++ (payload.drop f.sent).take (min f.mtu maxMtu - 4 - f.lead.length)

theorem lead_length_le (f : Fragmenter) : f.lead.length ≤ 1 := by
  unfold lead; split <;> simp

theorem body_length_le (maxMtu : Nat) (f : Fragmenter) (payload : List UInt8) :
    4 + (body maxMtu f payload).length ≤ max (min f.mtu maxMtu) 5 := by
  have := lead_length_le f
  simp only [body, List.length_append, List.length_take]
  omega

/-- `Fragmenter::fragment`. -/
def fragment (f : Fragmenter) (payload : List UInt8) : SendOutput maxMtu × Fragmenter :=
  if f.done then (.complete, f)
  else if h : 5 < min f.mtu maxMtu then
    let eom := payload.length ≤ f.sent + ((body maxMtu f payload).length - f.lead.length)
    (.packet ([1, f.dest.id, f.src.id, f.flags eom] ++ body maxMtu f payload) (by
        have := body_length_le maxMtu f payload
        simp only [List.length_append, List.length_cons, List.length_nil]
        omega),
      { f with sent := f.sent + ((body maxMtu f payload).length - f.lead.length),
               seq := f.seq + 1, done := eom })
  else (.error .badArgument, f)

/-- The fragmenter as `send_message` calls it. -/
def frag : Frag maxMtu Fragmenter := ⟨fragment, done, tag, dest⟩

theorem fragment_ne_complete {f : Fragmenter} (hf : f.done = false) (payload : List UInt8) :
    (fragment f payload : SendOutput maxMtu × Fragmenter).1 ≠ .complete := by
  unfold fragment
  rw [if_neg (by simp [hf])]
  split <;> nofun

theorem fragment_length_le {f f' : Fragmenter} {payload p : List UInt8} {hp : p.length ≤ maxMtu}
    (h : fragment f payload = (.packet p hp, f')) : p.length ≤ f.mtu := by
  unfold fragment at h
  split_ifs at h with hd hm
  · cases h
  · dsimp only at h
    cases h
    have := body_length_le maxMtu f payload
    simp only [List.length_append, List.length_cons, List.length_nil]
    omega
  · cases h

theorem frag_keepsTag : (frag : Frag maxMtu Fragmenter).KeepsTag := by
  intro f payload
  show (fragment f payload : SendOutput maxMtu × Fragmenter).2.tag = f.tag
  unfold fragment
  split_ifs <;> rfl

end Fragmenter

/-! ## The flatten step -/

/-- The flatten step: `msg.clear()`, then `extend_from_slice` of each slice, failing with
`NoSpace`. -/
def flatten (maxPayload : Nat) (pkt : List (List UInt8)) : Except Error (List UInt8) :=
  pkt.foldlM (fun msg p =>
    if msg.length + p.length ≤ maxPayload then .ok (msg ++ p) else .error .noSpace) []

/-- The payload `send_message` fragments: the single slice itself, or the flattened slices. -/
def payloadOf (maxPayload : Nat) (pkt : List (List UInt8)) : Except Error (List UInt8) :=
  match pkt with
  | [p] => .ok p
  | _ => flatten maxPayload pkt

theorem payloadOf_of_length_ne_one {maxPayload : Nat} {pkt : List (List UInt8)}
    (h : pkt.length ≠ 1) : payloadOf maxPayload pkt = flatten maxPayload pkt := by
  unfold payloadOf
  split
  · simp at h
  · rfl

theorem foldlM_flatten (maxPayload : Nat) (pkt : List (List UInt8)) (acc : List UInt8)
    (hacc : acc.length ≤ maxPayload) :
    pkt.foldlM (m := Except Error) (fun msg p =>
        if msg.length + p.length ≤ maxPayload then .ok (msg ++ p) else .error .noSpace) acc =
      if acc.length + pkt.flatten.length ≤ maxPayload then .ok (acc ++ pkt.flatten)
      else .error .noSpace := by
  induction pkt generalizing acc with
  | nil => simp [List.foldlM, hacc]; rfl
  | cons p ps ih =>
    simp only [List.foldlM, List.flatten_cons, List.length_append]
    by_cases h : acc.length + p.length ≤ maxPayload
    · simp only [h, ↓reduceIte, bind, Except.bind]
      rw [ih _ (by simpa using h)]
      simp only [List.length_append, List.append_assoc, Nat.add_assoc]
    · simp only [h, ↓reduceIte, bind, Except.bind]
      rw [if_neg (by omega)]

/-- **Flattening** concatenates the slices, or fails with `NoSpace` past `MAX_PAYLOAD` bytes. -/
theorem flatten_eq (maxPayload : Nat) (pkt : List (List UInt8)) :
    flatten maxPayload pkt =
      if pkt.flatten.length ≤ maxPayload then .ok pkt.flatten else .error .noSpace := by
  simpa using foldlM_flatten maxPayload pkt [] (Nat.zero_le _)

/-! ## The fragment loop -/

variable {σ : Type}

/-- Where one poll of the fragment loop stops. -/
inductive LoopEnd (σ : Type) where
  /-- The ring is full: the task waits in `sender.send().await`, holding the producer mutex. -/
  | blocked (frag : σ)
  /-- The loop broke with this result. -/
  | finished (r : Except Error Tag)
deriving DecidableEq

/-- One iteration of the fragment loop on the slot `send()` gave out; `none` at `unreachable!()`. -/
def fillSlot (F : Frag maxMtu σ) (frag : σ) (payload : List UInt8) :
    Option (PktBuf maxMtu × σ × Option (Except Error Tag)) :=
  match F.fragment frag payload with
  | (.packet p h, frag') =>
    some (⟨p, F.dest frag, h⟩, frag', if F.isDone frag' then some (.ok (F.tag frag')) else none)
  | (.error e, frag') => some (⟨[], F.dest frag, Nat.zero_le _⟩, frag', some (.error e))
  | (.complete, _) => none

/-- The fragment loop within one poll: fill and commit slots until the loop breaks or the ring is
full. -/
def sendLoop (F : Frag maxMtu σ) (payload : List UInt8) (frag : σ) (queued : List (PktBuf maxMtu)) :
    List (PktBuf maxMtu) → Option (Channel maxMtu × LoopEnd σ)
  | [] => some (⟨queued, []⟩, .blocked frag)
  | _ :: free =>
    match fillSlot F frag payload with
    | none => none
    | some (b, _, some r) => some (⟨queued ++ [b], free⟩, .finished r)
    | some (b, frag', none) => sendLoop F payload frag' (queued ++ [b]) free

/-- The first `n` iterations of the fragment loop from `frag`, with a free slot for each. -/
def fragRun (F : Frag maxMtu σ) (payload : List UInt8) : σ → Nat →
    Option (List (PktBuf maxMtu) × LoopEnd σ)
  | frag, 0 => some ([], .blocked frag)
  | frag, n + 1 =>
    match fillSlot F frag payload with
    | none => none
    | some (b, _, some r) => some ([b], .finished r)
    | some (b, frag', none) => (fragRun F payload frag' n).map fun (bs, e) => (b :: bs, e)

/-- **The loop of one poll** runs the fragmenter over the free slots of the ring, in order. -/
theorem sendLoop_eq (F : Frag maxMtu σ) (payload : List UInt8) (frag : σ)
    (queued free : List (PktBuf maxMtu)) :
    sendLoop F payload frag queued free =
      (fragRun F payload frag free.length).map fun (bs, e) =>
        (⟨queued ++ bs, free.drop bs.length⟩, e) := by
  induction free generalizing frag queued with
  | nil => simp [sendLoop, fragRun]
  | cons x free ih =>
    simp only [sendLoop, fragRun, List.length_cons]
    rcases h : fillSlot F frag payload with _ | ⟨b, frag', _ | r⟩
    · rfl
    · simp only [ih, Option.map_map]
      cases fragRun F payload frag' free.length <;> simp
    · rfl

theorem fragRun_length {F : Frag maxMtu σ} {payload : List UInt8} {frag : σ} {n : Nat}
    {bs : List (PktBuf maxMtu)} {e : LoopEnd σ} (h : fragRun F payload frag n = some (bs, e)) :
    bs.length ≤ n ∧ (∀ f, e = .blocked f → bs.length = n) := by
  induction n generalizing frag bs with
  | zero => simp [fragRun] at h; obtain ⟨rfl, rfl⟩ := h; simp
  | succ n ih =>
    simp only [fragRun] at h
    rcases hf : fillSlot F frag payload with _ | ⟨b, frag', _ | r⟩ <;> rw [hf] at h
    · cases h
    · obtain ⟨⟨bs', e'⟩, h', hbs⟩ := Option.map_eq_some'.mp h
      simp only [Prod.mk.injEq] at hbs
      obtain ⟨rfl, rfl⟩ := hbs
      have := ih h'
      simp only [List.length_cons]
      exact ⟨by omega, fun f hf => by rw [this.2 f hf]⟩
    · simp only [Option.some.injEq, Prod.mk.injEq] at h
      obtain ⟨rfl, rfl⟩ := h
      simp

theorem fragRun_self {F : Frag maxMtu σ} {payload : List UInt8} {frag : σ} {n : Nat}
    {bs : List (PktBuf maxMtu)} {e : LoopEnd σ} (h : fragRun F payload frag n = some (bs, e)) :
    fragRun F payload frag bs.length = some (bs, e) := by
  induction n generalizing frag bs with
  | zero => simp only [fragRun, Option.some.injEq, Prod.mk.injEq] at h; obtain ⟨rfl, rfl⟩ := h; rfl
  | succ n ih =>
    simp only [fragRun] at h
    rcases hf : fillSlot F frag payload with _ | ⟨b, frag', _ | r⟩ <;> simp [hf] at h
    · obtain ⟨bs', h', rfl⟩ := h
      simp [fragRun, hf, ih h']
    · obtain ⟨rfl, rfl⟩ := h
      simp [fragRun, hf]

theorem fragRun_add {F : Frag maxMtu σ} {payload : List UInt8} {frag frag' : σ} {m : Nat}
    {bs : List (PktBuf maxMtu)} (h : fragRun F payload frag m = some (bs, .blocked frag'))
    (n : Nat) :
    fragRun F payload frag (m + n) =
      (fragRun F payload frag' n).map fun (cs, e) => (bs ++ cs, e) := by
  induction m generalizing frag bs with
  | zero =>
    simp only [fragRun, Option.some.injEq, Prod.mk.injEq, LoopEnd.blocked.injEq] at h
    obtain ⟨rfl, rfl⟩ := h
    simp
  | succ m ih =>
    rw [Nat.add_right_comm]
    simp only [fragRun] at h ⊢
    rcases hf : fillSlot F frag payload with _ | ⟨b, f1, _ | r⟩ <;> simp [hf] at h ⊢
    obtain ⟨bs', h', rfl⟩ := h
    rw [ih h', Option.map_map]
    rfl

theorem fillSlot_next {F : Frag maxMtu σ} {frag frag' : σ} {payload : List UInt8}
    {b : PktBuf maxMtu} {r : Option (Except Error Tag)}
    (h : fillSlot F frag payload = some (b, frag', r)) :
    frag' = F.next payload frag ∧ ∀ tag, r = some (.ok tag) → tag = F.tag frag' := by
  unfold fillSlot at h
  rcases hf : F.fragment frag payload with ⟨o, f⟩
  rw [hf] at h
  have hn : F.next payload frag = f := by rw [Frag.next, hf]
  cases o with
  | packet p hp =>
    simp only [Option.some.injEq, Prod.mk.injEq] at h
    obtain ⟨-, rfl, rfl⟩ := h
    refine ⟨hn.symm, fun tag he => ?_⟩
    split at he <;> simp_all
  | error e =>
    simp only [Option.some.injEq, Prod.mk.injEq] at h
    obtain ⟨-, rfl, rfl⟩ := h
    exact ⟨hn.symm, fun _ he => nomatch he⟩
  | complete => cases h

/-- **The loop keeps the fragmenter's tag.** -/
theorem fragRun_tag {F : Frag maxMtu σ} (hF : F.KeepsTag) {payload : List UInt8} {n : Nat} :
    ∀ {frag : σ} {bs : List (PktBuf maxMtu)} {e : LoopEnd σ},
      fragRun F payload frag n = some (bs, e) →
      (∀ f, e = .blocked f → F.tag f = F.tag frag) ∧
        ∀ tag, e = .finished (.ok tag) → tag = F.tag frag := by
  induction n with
  | zero =>
    intro frag bs e h
    simp only [fragRun, Option.some.injEq, Prod.mk.injEq] at h
    obtain ⟨-, rfl⟩ := h
    exact ⟨fun f he => by cases he; rfl, fun _ he => nomatch he⟩
  | succ n ih =>
    intro frag bs e h
    simp only [fragRun] at h
    rcases hf : fillSlot F frag payload with _ | ⟨b, frag', _ | r⟩ <;> rw [hf] at h
    · cases h
    · obtain ⟨⟨bs', e'⟩, h', he⟩ := Option.map_eq_some'.mp h
      cases he
      rw [← hF frag payload, ← (fillSlot_next hf).1]
      exact ih h'
    · cases h
      obtain ⟨rfl, hr⟩ := fillSlot_next hf
      exact ⟨(fun _ he => nomatch he), fun tag he => by
        cases he
        rw [hr tag rfl, hF]⟩

/-! ## The fragment loop, call by call -/

/-- **What the fragment loop did with `n` slots**, call by call of `fragment`. -/
structure LoopCalls (F : Frag maxMtu σ) (payload : List UInt8) (frag : σ) (n : Nat)
    (bs : List (PktBuf maxMtu)) (e : LoopEnd σ) : Prop where
  length_le : bs.length ≤ n
  slot : ∀ k (hk : k < bs.length),
    (∃ p hp, (F.fragment ((F.next payload)^[k] frag) payload).1 = .packet p hp ∧
      bs[k] = ⟨p, F.dest ((F.next payload)^[k] frag), hp⟩) ∨
    (∃ err, (F.fragment ((F.next payload)^[k] frag) payload).1 = .error err ∧
      bs[k] = ⟨[], F.dest ((F.next payload)^[k] frag), Nat.zero_le _⟩ ∧
      k + 1 = bs.length ∧ e = .finished (.error err))
  notDone : ∀ k, 0 < k → k < bs.length → F.isDone ((F.next payload)^[k] frag) = false
  ok : ∀ tag, e = .finished (.ok tag) → 0 < bs.length ∧
    F.isDone ((F.next payload)^[bs.length] frag) = true ∧
    tag = F.tag ((F.next payload)^[bs.length] frag)
  error : ∀ err, e = .finished (.error err) → 0 < bs.length ∧
    (F.fragment ((F.next payload)^[bs.length - 1] frag) payload).1 = .error err
  blocked : ∀ f, e = .blocked f → bs.length = n ∧ f = (F.next payload)^[n] frag ∧
    (0 < n → F.isDone f = false)

section LoopCalls

variable {F : Frag maxMtu σ} {payload : List UInt8} {frag frag' : σ}

theorem LoopCalls.nil : LoopCalls F payload frag 0 [] (.blocked frag) where
  length_le := le_refl _
  slot := fun _ hk => absurd hk (Nat.not_lt_zero _)
  notDone := fun _ _ hk => absurd hk (Nat.not_lt_zero _)
  ok := fun _ h => nomatch h
  error := fun _ h => nomatch h
  blocked := fun _ h => by cases h; exact ⟨rfl, rfl, fun h => absurd h (Nat.lt_irrefl 0)⟩

theorem LoopCalls.done {p : List UInt8} {hp : p.length ≤ maxMtu}
    (hf : F.fragment frag payload = (.packet p hp, frag')) (hd : F.isDone frag' = true) (n : Nat) :
    LoopCalls F payload frag (n + 1) [⟨p, F.dest frag, hp⟩] (.finished (.ok (F.tag frag'))) := by
  have hnext : F.next payload frag = frag' := congrArg Prod.snd hf
  refine ⟨by simp, fun k hk => ?_, fun k h0 hk => ?_, fun tag h => ?_, (fun _ h => nomatch h),
    fun _ h => nomatch h⟩
  · obtain rfl : k = 0 := by simpa using hk
    exact .inl ⟨p, hp, by rw [Function.iterate_zero_apply, hf], rfl⟩
  · simp only [List.length_singleton] at hk; omega
  · cases h
    exact ⟨Nat.one_pos, by simpa [hnext] using hd, by simp [hnext]⟩

theorem LoopCalls.err {err : Error} (hf : F.fragment frag payload = (.error err, frag')) (n : Nat) :
    LoopCalls F payload frag (n + 1) [⟨[], F.dest frag, Nat.zero_le _⟩] (.finished (.error err)) := by
  refine ⟨by simp, fun k hk => ?_, fun k h0 hk => ?_, (fun _ h => nomatch h), fun err' h => ?_,
    fun _ h => nomatch h⟩
  · obtain rfl : k = 0 := by simpa using hk
    exact .inr ⟨err, by rw [Function.iterate_zero_apply, hf], rfl, rfl, rfl⟩
  · simp only [List.length_singleton] at hk; omega
  · cases h
    exact ⟨Nat.one_pos, by rw [List.length_singleton, Function.iterate_zero_apply, hf]⟩

theorem LoopCalls.cons {p : List UInt8} {hp : p.length ≤ maxMtu}
    (hf : F.fragment frag payload = (.packet p hp, frag')) (hd : F.isDone frag' = false)
    {n : Nat} {bs : List (PktBuf maxMtu)} {e : LoopEnd σ} (h : LoopCalls F payload frag' n bs e) :
    LoopCalls F payload frag (n + 1) (⟨p, F.dest frag, hp⟩ :: bs) e := by
  have hnext : F.next payload frag = frag' := congrArg Prod.snd hf
  have hit : ∀ k, (F.next payload)^[k + 1] frag = (F.next payload)^[k] frag' := fun k => by
    rw [Function.iterate_succ_apply, hnext]
  refine ⟨by simpa using h.length_le, fun k hk => ?_, fun k h0 hk => ?_, fun tag he => ?_,
    fun err he => ?_, fun f he => ?_⟩
  · cases k with
    | zero => exact .inl ⟨p, hp, by rw [Function.iterate_zero_apply, hf], rfl⟩
    | succ k =>
      simp only [List.length_cons, Nat.add_lt_add_iff_right] at hk
      simpa only [hit, List.getElem_cons_succ, List.length_cons, Nat.add_right_cancel_iff] using
        h.slot k hk
  · cases k with
    | zero => exact absurd h0 (Nat.lt_irrefl 0)
    | succ k =>
      rw [hit]
      cases k with
      | zero => simpa using hd
      | succ k => exact h.notDone _ (Nat.succ_pos _) (by simpa using hk)
  · obtain ⟨hpos, hdone, rfl⟩ := h.ok tag he
    exact ⟨Nat.succ_pos _, by simpa [hit] using hdone, by simp [hit]⟩
  · obtain ⟨hpos, herr⟩ := h.error err he
    refine ⟨Nat.succ_pos _, ?_⟩
    obtain ⟨j, hj⟩ := Nat.exists_eq_succ_of_ne_zero (Nat.pos_iff_ne_zero.mp hpos)
    simpa [hj, hit] using herr
  · obtain ⟨hlen, rfl, hnd⟩ := h.blocked f he
    refine ⟨by simp [hlen], by rw [hit], fun _ => ?_⟩
    cases n with
    | zero => simpa using hd
    | succ n => exact hnd (Nat.succ_pos _)

/-- **The loop stops right after the packet that makes the fragmenter done.** -/
theorem LoopCalls.stops {n : Nat} {bs : List (PktBuf maxMtu)} {e : LoopEnd σ}
    (h : LoopCalls F payload frag n bs e) {m : Nat} (hm : 0 < m) (hmn : m ≤ n)
    (hpkt : ∀ k < m, ∃ p hp, (F.fragment ((F.next payload)^[k] frag) payload).1 = .packet p hp)
    (hnd : ∀ k, 0 < k → k < m → F.isDone ((F.next payload)^[k] frag) = false)
    (hd : F.isDone ((F.next payload)^[m] frag) = true) :
    bs.length = m ∧ e = .finished (.ok (F.tag ((F.next payload)^[m] frag))) := by
  have hnoerr : ∀ err, e ≠ .finished (.error err) := fun err he => by
    obtain ⟨hpos, herr⟩ := h.error err he
    obtain ⟨p, hp, hpk⟩ := hpkt (bs.length - 1) (by
      have := h.notDone m hm
      rcases Nat.lt_or_ge m bs.length with hlt | hge
      · rw [this hlt] at hd; cases hd
      · omega)
    rw [hpk] at herr
    cases herr
  rcases e with f | r
  · obtain ⟨hlen, rfl, hnd'⟩ := h.blocked f rfl
    rcases Nat.lt_or_ge m n with hlt | hge
    · rw [h.notDone m hm (hlen ▸ hlt)] at hd; cases hd
    · obtain rfl := le_antisymm hmn hge
      rw [hnd' hm] at hd; cases hd
  · cases r with
    | error err => exact absurd rfl (hnoerr err)
    | ok tag =>
      obtain ⟨hpos, hdone, rfl⟩ := h.ok tag rfl
      have hlen : bs.length = m := by
        rcases Nat.lt_trichotomy bs.length m with hlt | heq | hgt
        · rw [hnd _ hpos hlt] at hdone; cases hdone
        · exact heq
        · rw [h.notDone m hm hgt] at hd; cases hd
      exact ⟨hlen, by rw [hlen]⟩

end LoopCalls

theorem fragRun_calls (F : Frag maxMtu σ) (payload : List UInt8) (n : Nat) :
    ∀ frag : σ, (∀ f, (f = frag ∨ F.isDone f = false) → (F.fragment f payload).1 ≠ .complete) →
      ∃ bs e, fragRun F payload frag n = some (bs, e) ∧ LoopCalls F payload frag n bs e := by
  induction n with
  | zero => exact fun frag _ => ⟨[], _, rfl, .nil⟩
  | succ n ih =>
    intro frag hF
    rcases hf : F.fragment frag payload with ⟨o, frag'⟩
    cases o with
    | complete => exact absurd (congrArg Prod.fst hf) (hF frag (.inl rfl))
    | error err => exact ⟨_, _, by simp only [fragRun, fillSlot, hf], .err hf n⟩
    | packet p hp =>
      cases hd : F.isDone frag'
      · obtain ⟨bs, e, hrun, hcalls⟩ := ih frag' fun f hf' => hF f (.inr (hf'.elim (· ▸ hd) id))
        have hrun' : fragRun F payload frag (n + 1) = some (⟨p, F.dest frag, hp⟩ :: bs, e) := by
          simp only [fragRun, fillSlot, hf, hd, hrun, Bool.false_eq_true, if_false]
          rfl
        exact ⟨_, e, hrun', hcalls.cons hf hd⟩
      · exact ⟨_, _, by simp only [fragRun, fillSlot, hf, hd, if_true], .done hf hd n⟩

/-- **The fragment loop of `send_message`, call by call**, for any fragmenter that never answers
`Complete` before it is done. -/
theorem fragment_loop_calls (F : Frag maxMtu σ) (payload : List UInt8) (frag : σ)
    (hF : ∀ f, (f = frag ∨ F.isDone f = false) → (F.fragment f payload).1 ≠ .complete) (n : Nat) :
    ∃ bs e, fragRun F payload frag n = some (bs, e) ∧ LoopCalls F payload frag n bs e ∧
      (∀ m, 0 < m → m ≤ n →
        (∀ k < m, ∃ p hp, (F.fragment ((F.next payload)^[k] frag) payload).1 = .packet p hp) →
        (∀ k, 0 < k → k < m → F.isDone ((F.next payload)^[k] frag) = false) →
        F.isDone ((F.next payload)^[m] frag) = true →
        bs.length = m ∧ e = .finished (.ok (F.tag ((F.next payload)^[m] frag)))) ∧
      ∀ queued free : List (PktBuf maxMtu), free.length = n →
        sendLoop F payload frag queued free = some (⟨queued ++ bs, free.drop bs.length⟩, e) := by
  obtain ⟨bs, e, hrun, hcalls⟩ := fragRun_calls F payload n frag hF
  refine ⟨bs, e, hrun, hcalls, fun m hm hmn hpkt hnd hd => hcalls.stops hm hmn hpkt hnd hd,
    fun queued free hlen => ?_⟩
  rw [sendLoop_eq, hlen, hrun]
  rfl

/-- Scenario S6's fragmenter: EID 8 to EID 9 on a port of MTU 69, with tag `Owned(0)`. -/
def s6Fragmenter : Fragmenter := ⟨⟨8⟩, ⟨9⟩, ⟨1⟩, false, .owned ⟨0⟩, 69, 0, 0, false⟩

/-- Scenario S6: a 200-byte payload on four slots, with the stack's fragmenter. -/
theorem fragment_loop_calls_s6 :
    (∀ f, (f = s6Fragmenter ∨ (Fragmenter.frag : Frag 255 Fragmenter).isDone f = false) →
      ((Fragmenter.frag : Frag 255 Fragmenter).fragment f (List.replicate 200 7)).1 ≠ .complete) ∧
    ∃ bs e, fragRun (Fragmenter.frag : Frag 255 Fragmenter) (List.replicate 200 7) s6Fragmenter 4 =
      some (bs, e) ∧ LoopCalls Fragmenter.frag (List.replicate 200 7) s6Fragmenter 4 bs e := by
  have hF : ∀ f, (f = s6Fragmenter ∨ (Fragmenter.frag : Frag 255 Fragmenter).isDone f = false) →
      ((Fragmenter.frag : Frag 255 Fragmenter).fragment f (List.replicate 200 7)).1 ≠ .complete :=
    fun f hf => Fragmenter.fragment_ne_complete (hf.elim (fun h => by rw [h]; rfl) id) _
  obtain ⟨bs, e, hrun, hcalls, -⟩ := fragment_loop_calls _ _ _ hF 4
  exact ⟨hF, bs, e, hrun, hcalls⟩

set_option maxRecDepth 8000 in
/-- Scenario S6: four packets, of 69, 69, 69 and 10 bytes, then `Ok` with the fragmenter's tag. -/
example : (fragRun (Fragmenter.frag : Frag 255 Fragmenter) (List.replicate 200 7) s6Fragmenter 4).map
    (fun r => (r.1.map (·.data.length), r.2)) =
      some ([69, 69, 69, 10], .finished (.ok (.owned ⟨0⟩))) := by decide

/-- The first poll of `send_message(fragmenter, pkt)` on a port whose mutexes are free. -/
def sendMessage (maxPayload : Nat) (F : Frag maxMtu σ) (frag : σ) (pkt : List (List UInt8))
    (c : Channel maxMtu) : Option (Channel maxMtu × LoopEnd σ) :=
  match payloadOf maxPayload pkt with
  | .error e => some (c, .finished (.error e))
  | .ok payload => sendLoop F payload frag c.queued c.free

theorem payloadOf_eq (maxPayload : Nat) (pkt : List (List UInt8)) :
    payloadOf maxPayload pkt =
      if pkt.length ≠ 1 ∧ maxPayload < pkt.flatten.length then .error .noSpace
      else .ok pkt.flatten := by
  unfold payloadOf
  split
  · simp
  · rename_i hp
    have h1 : pkt.length ≠ 1 := fun h => by
      obtain ⟨a, rfl⟩ := List.length_eq_one.mp h
      exact hp a rfl
    rw [flatten_eq]
    by_cases h : pkt.flatten.length ≤ maxPayload
    · rw [if_pos h, if_neg (fun hc => absurd hc.2 (Nat.not_lt.mpr h))]
    · rw [if_neg h, if_pos ⟨h1, Nat.lt_of_not_le h⟩]

/-- **The fast path and the flatten path agree** within `MAX_PAYLOAD` bytes. -/
theorem sendMessage_eq_join (maxPayload : Nat) (F : Frag maxMtu σ) (frag : σ)
    (pkt : List (List UInt8)) (c : Channel maxMtu) :
    sendMessage maxPayload F frag pkt c =
      if pkt.length ≠ 1 ∧ maxPayload < pkt.flatten.length then some (c, .finished (.error .noSpace))
      else sendMessage maxPayload F frag [pkt.flatten] c := by
  unfold sendMessage
  rw [payloadOf_eq]
  split_ifs <;> rfl

theorem Fragmenter.fillSlot_isSome {f : Fragmenter} (hf : f.done = false)
    (hm : 5 < min f.mtu maxMtu) (payload : List UInt8) :
    (fillSlot (Fragmenter.frag : Frag maxMtu Fragmenter) f payload).isSome := by
  simp [fillSlot, Fragmenter.frag, Fragmenter.fragment, hf, hm]

/-- Slices one byte past `MAX_PAYLOAD`: the flatten path commits nothing, the single slice a
slot. -/
theorem sendMessage_two_slices_ne {f : Fragmenter} (hf : f.done = false)
    (hm : 5 < min f.mtu maxMtu) (maxPayload : Nat) :
    sendMessage maxPayload (Fragmenter.frag : Frag maxMtu Fragmenter) f
        [List.replicate maxPayload 0, [0]] (.new 1) ≠
      sendMessage maxPayload Fragmenter.frag f [List.replicate maxPayload 0 ++ [0]] (.new 1) := by
  intro h
  have hl : payloadOf maxPayload [List.replicate maxPayload 0, [0]] = .error .noSpace := by
    rw [payloadOf_eq]; simp
  obtain ⟨⟨b, f', r⟩, hb⟩ := Option.isSome_iff_exists.mp
    (@Fragmenter.fillSlot_isSome maxMtu f hf hm (List.replicate maxPayload 0 ++ [0]))
  unfold sendMessage at h
  rw [hl] at h
  simp only [payloadOf, Channel.new, List.replicate, sendLoop, hb] at h
  cases r <;> simp [sendLoop] at h

/-- **The two paths of `send_message` differ past `MAX_PAYLOAD`.** -/
theorem sendMessage_flatten_differs :
    sendMessage 1024 (Fragmenter.frag : Frag 255 Fragmenter)
        ⟨⟨8⟩, ⟨9⟩, ⟨1⟩, false, .owned ⟨0⟩, 64, 0, 0, false⟩
        [List.replicate 1024 0, [0]] (.new 1) ≠
      sendMessage 1024 Fragmenter.frag ⟨⟨8⟩, ⟨9⟩, ⟨1⟩, false, .owned ⟨0⟩, 64, 0, 0, false⟩
        [List.replicate 1024 0 ++ [0]] (.new 1) :=
  sendMessage_two_slices_ne rfl (by decide) 1024

end MctpRouter
