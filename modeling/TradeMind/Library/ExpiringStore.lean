import Mathlib.Logic.Function.Basic
import Mathlib.Algebra.Order.Ring.Int

/-!
# A key-value store whose keys expire

A key is set with a time to live and is gone once that has passed.  `setNx` sets a key only
where none lives, the primitive of a lock that frees itself: it succeeds again exactly when the
key was deleted or its time has passed (`setNx_of_gone`, `setNx_of_live`).
-/

set_option autoImplicit false

namespace TradeMind.Library

universe u v

/-- A value, and the instant it expires if it ever does. -/
structure Expiring (α : Type v) where
  value : α
  expiresAt : Option ℤ := none
  deriving DecidableEq, Repr

/-- Keys to what was last set under them, expired or not. -/
abbrev ExpiringStore (κ : Type u) (α : Type v) := κ → Option (Expiring α)

namespace ExpiringStore

variable {κ : Type u} {α : Type v}

/-- The value that lives under a key at an instant. -/
def get (store : ExpiringStore κ α) (now : ℤ) (key : κ) : Option α :=
  (store key).bind fun entry =>
    if entry.expiresAt.all (now < ·) then some entry.value else none

/-- A key that was set with a time to live lives until that has passed. -/
theorem get_of_lt {store : ExpiringStore κ α} {now expiry : ℤ} {key : κ} {value : α}
    (h : store key = some { value, expiresAt := some expiry }) (hnow : now < expiry) :
    store.get now key = some value := by
  simp [get, h, hnow]

/-- A key that was set with a time to live is gone from the end of that time on. -/
theorem get_of_le {store : ExpiringStore κ α} {now expiry : ℤ} {key : κ} {value : α}
    (h : store key = some { value, expiresAt := some expiry }) (hnow : expiry ≤ now) :
    store.get now key = none := by
  simp [get, h, hnow]

variable [DecidableEq κ]

/-- Set a key with a time to live unless one lives; and whether it was set. -/
def setNx (store : ExpiringStore κ α) (now ttl : ℤ) (key : κ) (value : α) :
    ExpiringStore κ α × Bool :=
  if (store.get now key).isSome then (store, false)
  else (Function.update store key (some { value, expiresAt := some (now + ttl) }), true)

/-- Delete a key. -/
def delete (store : ExpiringStore κ α) (key : κ) : ExpiringStore κ α :=
  Function.update store key none

variable {store : ExpiringStore κ α} {now ttl : ℤ} {key : κ} {value : α}

theorem setNx_of_live {old : α} (h : store.get now key = some old) :
    store.setNx now ttl key value = (store, false) := by
  simp [setNx, h]

/-- **A key that is gone is set again** by whoever asks first. -/
theorem setNx_of_gone (h : store.get now key = none) :
    store.setNx now ttl key value =
      (Function.update store key (some { value, expiresAt := some (now + ttl) }), true) := by
  simp [setNx, h]

end ExpiringStore

end TradeMind.Library
