import Mathlib.Data.Int.Notation
import Mathlib.Logic.Function.Basic

/-!
# Maps whose entries expire

An entry may carry the instant from which on it is gone. Reading a key gives the value of its entry as
long as it lives. A write replaces the entry, whether it lives or not.
-/

namespace Expiring

variable {K V : Type}

structure Entry (V : Type) where
  value : V
  /-- The instant from which on the entry is gone; `none` for one that stays. -/
  expires : Option ℤ
deriving DecidableEq

def Entry.live (e : Entry V) (now : ℤ) : Bool := e.expires.all (now < ·)

/-- When something that is written now is gone. A time to live in seconds that is not positive means that
it stays. -/
def expiry (now ttlSeconds : ℤ) : Option ℤ :=
  if 0 < ttlSeconds then some (now + ttlSeconds * 1000000000) else none

/-- What is written later with the same time to live is there as long, or longer. -/
theorem live_mono {e e' : Entry V} {t t' ttlSeconds now : ℤ} (he : e.expires = expiry t ttlSeconds)
    (he' : e'.expires = expiry t' ttlSeconds) (hle : t ≤ t') (hlive : e.live now = true) :
    e'.live now = true := by
  rw [Entry.live, he, expiry] at hlive
  rw [Entry.live, he', expiry]
  split
  · rename_i hpos
    rw [if_pos hpos, Option.all_some, decide_eq_true_eq] at hlive
    exact decide_eq_true (by omega)
  · rfl

/-- A map from keys to entries. -/
abbrev Map (K V : Type) := K → Option (Entry V)

def read (m : Map K V) (k : K) (now : ℤ) : Option V :=
  ((m k).filter fun e => e.live now).map Entry.value

theorem read_of_live {m : Map K V} {k : K} {e : Entry V} {now : ℤ} (hm : m k = some e)
    (hlive : e.live now = true) : read m k now = some e.value := by
  rw [read, hm, Option.filter_some, if_pos hlive, Option.map_some]

variable [DecidableEq K]

def write (m : Map K V) (k : K) (e : Entry V) : Map K V := Function.update m k (some e)

theorem write_self (m : Map K V) (k : K) (e : Entry V) : write m k e k = some e :=
  Function.update_self k _ m

theorem write_of_ne {m : Map K V} {k k' : K} (e : Entry V) (h : k' ≠ k) : write m k e k' = m k' :=
  Function.update_of_ne h _ m

theorem read_write_of_ne {m : Map K V} {k k' : K} (e : Entry V) (now : ℤ) (h : k' ≠ k) :
    read (write m k e) k' now = read m k' now := by
  rw [read, write_of_ne e h, read]

end Expiring
