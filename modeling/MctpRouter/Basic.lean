import Mathlib.Data.List.Basic

/-!
# The router's vocabulary

Identifiers and error values shared by every part of `router.rs`, as the `mctp` crate defines
them: endpoint ids, message types, tags, application cookies and port ids.

* `Tag.owned` is a tag the sender of the message allocated (TO bit set); `Tag.isOwner` tests it.
* `maxListeners`, `maxReceivers`: the two sizes `router.rs` fixes itself. `MAX_MTU` and
  `MAX_PAYLOAD` are build constants of the crate and stay parameters (`maxMtu`, `maxPayload`).
* A waker is named by the task it wakes (`Waker`).
-/

namespace MctpRouter

/-- An MCTP endpoint id, `Eid(u8)`. -/
structure Eid where
  id : UInt8
deriving DecidableEq, Repr

/-- A message type, the listener demultiplexing key, `MsgType(u8)`. -/
structure MsgType where
  id : UInt8
deriving DecidableEq, Repr

/-- The value of a tag, `TagValue(u8)`. -/
structure TagValue where
  id : UInt8
deriving DecidableEq, Repr

/-- A tag is owned by the side that allocated it: `Owned` when the sender of the message did. -/
inductive Tag where
  | owned (tv : TagValue)
  | unowned (tv : TagValue)
deriving DecidableEq, Repr

/-- `Tag::is_owner`: the TO bit. -/
def Tag.isOwner : Tag → Bool
  | .owned _ => true
  | .unowned _ => false

@[simp] theorem Tag.isOwner_owned (tv : TagValue) : (Tag.owned tv).isOwner = true := rfl
@[simp] theorem Tag.isOwner_unowned (tv : TagValue) : (Tag.unowned tv).isOwner = false := rfl

theorem Tag.isOwner_iff {t : Tag} : t.isOwner = true ↔ ∃ tv, t = .owned tv := by
  cases t <;> simp

/-- An index into the listener table, handed out by `app_bind`. -/
structure AppCookie where
  idx : Nat
deriving DecidableEq, Repr

/-- An index into the router's `ports`. -/
structure PortId where
  id : UInt8
deriving DecidableEq, Repr

/-- The `mctp::Error` values the router produces or passes on. -/
inductive Error where
  | noSpace
  | txFailure
  | badArgument
  | addrInUse
  | internalError
  | invalidInput
  | tagUnavailable
  | other
deriving DecidableEq, Repr

/-- `MAX_LISTENERS`. -/
def maxListeners : Nat := 20

/-- `MAX_RECEIVERS`. -/
def maxReceivers : Nat := 50

/-- A waker, named by the task it wakes. -/
abbrev Waker := Nat

theorem set_self_of_getElem? {α : Type} {l : List α} {i : Nat} {a : α} (h : l[i]? = some a) :
    l.set i a = l := by
  apply List.ext_getElem?
  intro j
  rw [List.getElem?_set]
  split_ifs with h1 h2
  · subst h1; exact h.symm
  · subst h1; rw [List.getElem?_eq_none (Nat.le_of_not_lt h2)] at h; cases h
  · rfl

instance decEqExcept {ε α : Type} [DecidableEq ε] [DecidableEq α] : DecidableEq (Except ε α)
  | .error a, .error b => decidable_of_iff (a = b) (by simp)
  | .ok a, .ok b => decidable_of_iff (a = b) (by simp)
  | .error _, .ok _ => isFalse (by simp)
  | .ok _, .error _ => isFalse (by simp)

end MctpRouter
