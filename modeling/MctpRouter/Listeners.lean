import MctpRouter.Stack

/-!
# The listener table

`Router::app_listeners`: `MAX_LISTENERS` slots, each empty or holding the message type of a
listener with its `WakerRegistration`. The index of a slot is the listener's `AppCookie`.

* `appBind`, `appUnbind`, `register`: the table side of `app_bind`, `app_unbind` and of a
  `Pending` poll of `app_recv_message` by a listener; **`appBind_cases`** and
  **`appUnbind_cases`** say everything each can do.
* **`appBind_spec`**: over every table, the outcome of `app_bind` against the slots, the lowest
  empty slot taken, the error paths changing nothing, and bind then unbind giving the table back.
* `listenerLoop`: the scan of `incoming_listener`. **`listenerLoop_eq`**: it hands the message to
  the first slot bound to its type, or keeps it when no slot is.
-/

namespace MctpRouter

/-- One slot: the type bound there and the waker its `WakerRegistration` holds. -/
abbrev Slot := Option (MsgType × Option Waker)

/-- A slot after `WakerRegistration::wake`, which takes the waker out. -/
def clearWaker (b : Slot) : Slot := b.map fun p => (p.1, none)

/-- Whether a slot is bound to `typ`. -/
def boundTo (typ : MsgType) (b : Slot) : Bool := b.any (·.1 = typ)

/-- `[Option<(MsgType, WakerRegistration)>; MAX_LISTENERS]`. -/
structure Listeners where
  slots : List Slot
  length_eq : slots.length = maxListeners
deriving DecidableEq

namespace Listeners

/-- The table of `Router::new`: every slot empty. -/
def empty : Listeners := ⟨List.replicate maxListeners none, List.length_replicate _ _⟩

/-- Slot `i`; past the end, nothing. -/
def get (t : Listeners) (i : Nat) : Slot := t.slots[i]?.getD none

/-- The type bound at slot `i`. -/
def typeAt (t : Listeners) (i : Nat) : Option MsgType := (t.get i).map Prod.fst

/-- The waker registered at slot `i`. -/
def wakerAt (t : Listeners) (i : Nat) : Option Waker := (t.get i).bind Prod.snd

/-- Overwrite slot `i`. -/
def set (t : Listeners) (i : Nat) (x : Slot) : Listeners :=
  ⟨t.slots.set i x, by rw [List.length_set, t.length_eq]⟩

/-- Slot `i` after its waker was woken. -/
def takeWaker (t : Listeners) (i : Nat) : Listeners := t.set i (clearWaker (t.get i))

theorem get_set (t : Listeners) {i : Nat} (hi : i < maxListeners) (x : Slot) (j : Nat) :
    (t.set i x).get j = if j = i then x else t.get j := by
  unfold get set
  rw [List.getElem?_set, t.length_eq, if_pos hi]
  by_cases h : j = i
  · subst h; simp
  · rw [if_neg (Ne.symm h), if_neg h]

theorem get_of_le (t : Listeners) {i : Nat} (hi : maxListeners ≤ i) : t.get i = none := by
  simp [get, List.getElem?_eq_none (t.length_eq ▸ hi)]

theorem set_of_le (t : Listeners) {i : Nat} (hi : maxListeners ≤ i) (x : Slot) : t.set i x = t := by
  cases t
  simp only [set, Listeners.mk.injEq]
  exact List.set_eq_of_length_le (by omega)

theorem lt_of_get_ne_none {t : Listeners} {i : Nat} (h : t.get i ≠ none) : i < maxListeners :=
  Nat.lt_of_not_le fun hi => h (get_of_le t hi)

@[simp] theorem get_empty (i : Nat) : empty.get i = none := by
  simp only [get, empty, List.getElem?_replicate]
  split <;> rfl

@[simp] theorem typeAt_empty (i : Nat) : empty.typeAt i = none := by
  simp only [typeAt, get_empty, Option.map_none']

theorem set_get (t : Listeners) (i : Nat) : t.set i (t.get i) = t := by
  by_cases hi : i < maxListeners
  · cases t with
    | mk slots hl =>
      simp only [set, Listeners.mk.injEq]
      exact set_self_of_getElem? (by simp [get, List.getElem?_eq_getElem (hl ▸ hi)])
  · exact set_of_le t (Nat.le_of_not_lt hi) _

theorem getElem?_eq (t : Listeners) {i : Nat} (hi : i < maxListeners) :
    t.slots[i]? = some (t.get i) := by
  simp [get, List.getElem?_eq_getElem (t.length_eq ▸ hi)]

/-- `Router::app_bind`: `AddrInUse` if a slot holds `typ`; else the lowest empty slot, or
`NoSpace`. -/
def appBind (t : Listeners) (typ : MsgType) : Except Error AppCookie × Listeners :=
  if t.slots.any (boundTo typ) then (.error .addrInUse, t)
  else match t.slots.findIdx? Option.isNone with
    | some i => (.ok ⟨i⟩, t.set i (some (typ, none)))
    | none => (.error .noSpace, t)

/-- `Router::app_unbind`: a cookie past the table or naming an empty slot is `BadArgument`. -/
def appUnbind (t : Listeners) (cookie : AppCookie) : Except Error Unit × Listeners :=
  match t.slots[cookie.idx]? with
  | none => (.error .badArgument, t)
  | some none => (.error .badArgument, t)
  | some (some _) => (.ok (), t.set cookie.idx none)

/-- The listener branch of a `Pending` poll of `app_recv_message`: `waker.register(cx.waker())` in
the cookie's slot (spec §9); a bad cookie registers nothing. -/
def register (t : Listeners) (cookie : AppCookie) (w : Waker) : Listeners :=
  match t.slots[cookie.idx]? with
  | some (some (typ, _)) => t.set cookie.idx (some (typ, some w))
  | _ => t

theorem boundTo_iff {typ : MsgType} {b : Slot} : boundTo typ b = true ↔ b.map Prod.fst = some typ := by
  rcases b with _ | ⟨p, w⟩ <;> simp [boundTo]

theorem any_slots_iff (t : Listeners) (typ : MsgType) :
    t.slots.any (boundTo typ) = true ↔ ∃ i, t.typeAt i = some typ := by
  rw [List.any_eq_true]
  constructor
  · rintro ⟨b, hb, hany⟩
    obtain ⟨i, hi⟩ := List.mem_iff_getElem?.mp hb
    exact ⟨i, by simpa [typeAt, get, hi] using boundTo_iff.mp hany⟩
  · rintro ⟨i, hi⟩
    have hlt : i < maxListeners :=
      lt_of_get_ne_none (show t.get i ≠ none from fun h => by simp [typeAt, h] at hi)
    exact ⟨_, List.mem_iff_getElem?.mpr ⟨i, t.getElem?_eq hlt⟩, boundTo_iff.mpr hi⟩

/-- **What `app_bind` does**: `AddrInUse`, `NoSpace`, or bind the lowest empty slot. -/
theorem appBind_cases (t : Listeners) (typ : MsgType) :
    ((∃ i, t.typeAt i = some typ) ∧ t.appBind typ = (.error .addrInUse, t)) ∨
    ((∀ i, t.typeAt i ≠ some typ) ∧ (∀ i < maxListeners, t.get i ≠ none) ∧
      t.appBind typ = (.error .noSpace, t)) ∨
    ((∀ i, t.typeAt i ≠ some typ) ∧ ∃ i < maxListeners, t.get i = none ∧
      (∀ j < i, t.get j ≠ none) ∧ t.appBind typ = (.ok ⟨i⟩, t.set i (some (typ, none)))) := by
  unfold appBind
  split
  · rename_i h
    exact .inl ⟨(any_slots_iff t typ).mp h, rfl⟩
  · rename_i h
    have hno : ∀ i, t.typeAt i ≠ some typ := fun i hi => h ((any_slots_iff t typ).mpr ⟨i, hi⟩)
    split
    · rename_i i hi
      obtain ⟨hlt, hnone, hbefore⟩ := List.findIdx?_eq_some_iff_getElem.mp hi
      rw [t.length_eq] at hlt
      refine .inr (.inr ⟨hno, i, hlt, ?_, fun j hj => ?_, rfl⟩)
      · simpa [get, List.getElem?_eq_getElem (t.length_eq ▸ hlt)] using hnone
      · simpa [get, List.getElem?_eq_getElem (Nat.lt_trans hj (t.length_eq ▸ hlt))] using
          hbefore j hj
    · rename_i hi
      refine .inr (.inl ⟨hno, fun i hlt => ?_, rfl⟩)
      simpa [get, List.getElem?_eq_getElem (t.length_eq ▸ hlt), Option.ne_none_iff_isSome] using
        List.findIdx?_eq_none_iff.mp hi _ (List.getElem_mem (t.length_eq ▸ hlt))

theorem appBind_addrInUse_iff (t : Listeners) (typ : MsgType) :
    (t.appBind typ).1 = .error .addrInUse ↔ ∃ i, t.typeAt i = some typ := by
  rcases appBind_cases t typ with ⟨hex, he⟩ | ⟨hno, -, he⟩ | ⟨hno, i, -, -, -, he⟩ <;> rw [he]
  · exact ⟨fun _ => hex, fun _ => rfl⟩
  · exact ⟨(fun h => by cases h), fun ⟨i, hi⟩ => absurd hi (hno i)⟩
  · exact ⟨(fun h => by cases h), fun ⟨i, hi⟩ => absurd hi (hno i)⟩

theorem appBind_noSpace_iff (t : Listeners) (typ : MsgType) :
    (t.appBind typ).1 = .error .noSpace ↔
      (∀ i, t.typeAt i ≠ some typ) ∧ ∀ i < maxListeners, t.get i ≠ none := by
  rcases appBind_cases t typ with ⟨⟨i, hi⟩, he⟩ | ⟨hno, hfull, he⟩ | ⟨-, i, hi, hget, -, he⟩ <;>
    rw [he]
  · exact ⟨(fun h => by cases h), fun ⟨hno, _⟩ => absurd hi (hno i)⟩
  · exact ⟨fun _ => ⟨hno, hfull⟩, fun _ => rfl⟩
  · exact ⟨(fun h => by cases h), fun ⟨_, hfull⟩ => (hfull i hi hget).elim⟩

/-- **What `app_unbind` does**: empty an occupied slot, or fail with `BadArgument`. -/
theorem appUnbind_cases (t : Listeners) (c : AppCookie) :
    (t.get c.idx ≠ none ∧ t.appUnbind c = (.ok (), t.set c.idx none)) ∨
    (t.get c.idx = none ∧ t.appUnbind c = (.error .badArgument, t)) := by
  unfold appUnbind
  split
  · rename_i h
    exact .inr ⟨by simp [get, h], rfl⟩
  · rename_i h
    exact .inr ⟨by simp [get, h], rfl⟩
  · rename_i b h
    exact .inl ⟨by simp [get, h], rfl⟩

theorem set_set (t : Listeners) (i : Nat) (x y : Slot) : (t.set i x).set i y = t.set i y := by
  simp only [set, List.set_set]

theorem appBind_error_eq {t : Listeners} {typ : MsgType} {e : Error}
    (h : (t.appBind typ).1 = .error e) : (t.appBind typ).2 = t := by
  rcases appBind_cases t typ with ⟨-, he⟩ | ⟨-, -, he⟩ | ⟨-, i, -, -, -, he⟩ <;> rw [he] at h ⊢
  cases h

theorem appUnbind_set_of_get {t : Listeners} {i : Nat} (hi : i < maxListeners)
    (hget : t.get i = none) (typ : MsgType) :
    (t.set i (some (typ, none))).appUnbind ⟨i⟩ = (.ok (), t) := by
  rcases appUnbind_cases (t.set i (some (typ, none))) ⟨i⟩ with ⟨-, he⟩ | ⟨hnone, -⟩
  · rw [he, set_set, ← hget, set_get]
  · simp [get_set t hi] at hnone

theorem appUnbind_badArgument_iff (t : Listeners) (c : AppCookie) :
    (t.appUnbind c).1 = .error .badArgument ↔ maxListeners ≤ c.idx ∨ t.get c.idx = none := by
  have hle : maxListeners ≤ c.idx → t.get c.idx = none := get_of_le t
  rcases appUnbind_cases t c with ⟨hne, he⟩ | ⟨hnone, he⟩ <;> rw [he]
  · exact ⟨(fun h => by cases h), fun h => (hne (h.elim hle id)).elim⟩
  · exact ⟨fun _ => .inr hnone, fun _ => rfl⟩

/-- **`app_bind` and `app_unbind` over every table.** -/
theorem appBind_spec (t : Listeners) (typ : MsgType) :
    ((t.appBind typ).1 = .error .addrInUse ↔ ∃ i, t.typeAt i = some typ) ∧
    ((t.appBind typ).1 = .error .noSpace ↔
      (∀ i, t.typeAt i ≠ some typ) ∧ ∀ i < maxListeners, t.get i ≠ none) ∧
    (∀ e, (t.appBind typ).1 = .error e → (t.appBind typ).2 = t) ∧
    ((∀ i, t.typeAt i ≠ some typ) → (∃ i < maxListeners, t.get i = none) →
      ∃ i, (t.appBind typ).1 = .ok ⟨i⟩ ∧ i < maxListeners ∧ t.get i = none ∧
        (∀ j < i, t.get j ≠ none) ∧ (t.appBind typ).2.get i = some (typ, none) ∧
        (∀ j, j ≠ i → (t.appBind typ).2.get j = t.get j) ∧
        (t.appBind typ).2.appUnbind ⟨i⟩ = (.ok (), t)) ∧
    ∀ c, ((t.appUnbind c).1 = .error .badArgument ↔ maxListeners ≤ c.idx ∨ t.get c.idx = none) ∧
      ((t.appUnbind c).1 = .error .badArgument → (t.appUnbind c).2 = t) := by
  refine ⟨appBind_addrInUse_iff t typ, appBind_noSpace_iff t typ, fun _ => appBind_error_eq,
    fun hno hfree => ?_, fun c => ⟨appUnbind_badArgument_iff t c, fun h => ?_⟩⟩
  · rcases appBind_cases t typ with ⟨⟨i, hi⟩, -⟩ | ⟨-, hfull, -⟩ | ⟨-, i, hi, hget, hbefore, he⟩
    · exact absurd hi (hno i)
    · obtain ⟨i, hi, hget⟩ := hfree
      exact absurd hget (hfull i hi)
    · rw [he]
      refine ⟨i, rfl, hi, hget, hbefore, by simp [get_set t hi], fun j hj => ?_,
        appUnbind_set_of_get hi hget typ⟩
      rw [get_set t hi, if_neg hj]
  · rcases appUnbind_cases t c with ⟨-, he⟩ | ⟨-, he⟩ <;> rw [he] at h ⊢
    cases h

/-- Scenario S5: the first bind of type 0x10 takes slot 0, and a second one is refused. -/
example : (empty.appBind ⟨0x10⟩).1 = .ok ⟨0⟩ ∧
    ((empty.appBind ⟨0x10⟩).2.appBind ⟨0x10⟩).1 = .error .addrInUse := by decide

theorem register_eq (t : Listeners) (c : AppCookie) (w : Waker) :
    t.register c w = t.set c.idx ((t.get c.idx).map fun p => (p.1, some w)) := by
  unfold register
  split
  · rename_i typ w' h
    simp [get, h]
  · rename_i h
    have hget : t.get c.idx = none := by
      cases hc : t.slots[c.idx]? with
      | none => simp [get, hc]
      | some b => cases b with
        | none => simp [get, hc]
        | some p => exact absurd hc (h p.1 p.2)
    calc t = t.set c.idx (t.get c.idx) := (set_get t c.idx).symm
      _ = _ := by rw [hget]; rfl


theorem typeAt_takeWaker (t : Listeners) (i j : Nat) : (t.takeWaker i).typeAt j = t.typeAt j := by
  by_cases hi : i < maxListeners
  · simp only [typeAt, takeWaker, get_set t hi]
    split_ifs with h
    · subst h; cases t.get j <;> rfl
    · rfl
  · rw [takeWaker, set_of_le t (Nat.le_of_not_lt hi)]

theorem findIdx?_boundTo_some {t : Listeners} {typ : MsgType} {j : Nat}
    (h : t.slots.findIdx? (boundTo typ) = some j) : j < maxListeners ∧ t.typeAt j = some typ := by
  obtain ⟨hlt, hb, -⟩ := List.findIdx?_eq_some_iff_getElem.mp h
  refine ⟨t.length_eq ▸ hlt, ?_⟩
  simpa [typeAt, get, List.getElem?_eq_getElem hlt] using boundTo_iff.mp hb

theorem findIdx?_boundTo_none {t : Listeners} {typ : MsgType}
    (h : t.slots.findIdx? (boundTo typ) = none) (i : Nat) : t.typeAt i ≠ some typ := by
  intro hi
  obtain ⟨b, hb, hbt⟩ := List.any_eq_true.mp ((any_slots_iff t typ).mpr ⟨i, hi⟩)
  exact absurd hbt (by simp [List.findIdx?_eq_none_iff.mp h b hb])


theorem typeAt_set (t : Listeners) {i : Nat} (hi : i < maxListeners) (x : Slot) (j : Nat) :
    (t.set i x).typeAt j = if j = i then x.map Prod.fst else t.typeAt j := by
  simp only [typeAt, get_set t hi]
  split_ifs <;> rfl

theorem wakerAt_set (t : Listeners) {i : Nat} (hi : i < maxListeners) (x : Slot) (j : Nat) :
    (t.set i x).wakerAt j = if j = i then x.bind Prod.snd else t.wakerAt j := by
  simp only [wakerAt, get_set t hi]
  split_ifs <;> rfl

theorem typeAt_register (t : Listeners) (c : AppCookie) (w : Waker) (j : Nat) :
    (t.register c w).typeAt j = t.typeAt j := by
  rw [register_eq]
  by_cases hi : c.idx < maxListeners
  · rw [typeAt_set t hi]
    split_ifs with h
    · subst h; cases hg : t.get c.idx <;> simp [typeAt, hg]
    · rfl
  · rw [set_of_le t (Nat.le_of_not_lt hi)]

theorem wakerAt_register (t : Listeners) (c : AppCookie) (w : Waker) (j : Nat) :
    (t.register c w).wakerAt j = if j = c.idx ∧ t.get c.idx ≠ none then some w else t.wakerAt j := by
  rw [register_eq]
  by_cases hi : c.idx < maxListeners
  · rw [wakerAt_set t hi]
    by_cases hj : j = c.idx
    · subst hj
      cases hg : t.get c.idx <;> simp [hg, wakerAt]
    · simp [hj]
  · rw [set_of_le t (Nat.le_of_not_lt hi), if_neg]
    rintro ⟨-, h⟩
    exact h (get_of_le t (Nat.le_of_not_lt hi))

theorem wakerAt_takeWaker (t : Listeners) (i j : Nat) :
    (t.takeWaker i).wakerAt j = if j = i then none else t.wakerAt j := by
  by_cases hi : i < maxListeners
  · rw [takeWaker, wakerAt_set t hi]
    split_ifs
    · cases t.get i <;> rfl
    · rfl
  · rw [takeWaker, set_of_le t (Nat.le_of_not_lt hi)]
    split_ifs with h
    · subst h; simp [wakerAt, get_of_le t (Nat.le_of_not_lt hi)]
    · rfl

theorem get_ne_none_of_typeAt {t : Listeners} {i : Nat} {typ : MsgType} (h : t.typeAt i = some typ) :
    t.get i ≠ none := fun hg => by simp [typeAt, hg] at h

end Listeners

/-! ## The scan of `incoming_listener` -/

/-- The loop of `incoming_listener` from slot `i` on: the first slot bound to `typ` takes the
handle, wakes its waker and breaks; `none` where `take().unwrap()` panics. -/
def listenerLoop (typ : MsgType) (handle : Option Nat) (stack : Stack) :
    Nat → List Slot → Option (List Slot × Option Nat × Stack × List Waker)
  | _, [] => some ([], handle, stack, [])
  | i, none :: rest =>
    (listenerLoop typ handle stack (i + 1) rest).map fun (rest', r) => (none :: rest', r)
  | i, some (t, w) :: rest =>
    if t = typ then
      match handle with
      | none => none
      | some h =>
        some (some (t, none) :: rest, none, (stack.setCookie h (some ⟨i⟩)).returnHandle h, w.toList)
    else (listenerLoop typ handle stack (i + 1) rest).map fun (rest', r) => (some (t, w) :: rest', r)

/-- **The scan hands the message to the first slot bound to its type**, and never panics. -/
theorem listenerLoop_eq (typ : MsgType) (h : Nat) (stack : Stack) (slots : List Slot) (i : Nat) :
    listenerLoop typ (some h) stack i slots =
      match slots.findIdx? (boundTo typ) with
      | some j => some (slots.set j (clearWaker (slots[j]?.getD none)), none,
          (stack.setCookie h (some ⟨i + j⟩)).returnHandle h,
          ((slots[j]?.getD none).bind Prod.snd).toList)
      | none => some (slots, some h, stack, []) := by
  induction slots generalizing i with
  | nil => rfl
  | cons b rest ih =>
    rw [List.findIdx?_cons, List.findIdx?_succ]
    rcases b with _ | ⟨t, w⟩
    · simp only [listenerLoop, ih, boundTo, Option.any_none, Bool.false_eq_true, if_false]
      cases rest.findIdx? (boundTo typ) <;> simp [Nat.add_right_comm, Nat.add_assoc]
    · by_cases ht : t = typ
      · simp [listenerLoop, ht, clearWaker, boundTo]
      · have hb : boundTo typ (some (t, w)) = false := by simp [boundTo, ht]
        simp only [listenerLoop, ht, if_false, ih, hb, Bool.false_eq_true]
        cases rest.findIdx? (boundTo typ) <;> simp [Nat.add_right_comm, Nat.add_assoc]

end MctpRouter
