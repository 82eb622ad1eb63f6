-- The backing store under the wear leveling: its sizes, its content, and
-- the driver calls of `wear_leveling_internal.h`, each of which can fail.
import KeychronQMK.Lib.Memory
import Mathlib.Tactic.Common
import Mathlib.Algebra.Group.Nat.Defs

namespace keychron_qmk.wear_leveling

open memory

/-- The configuration, with the static asserts of `wear_leveling_internal.h`
and the limits of the address types: 19 bits in a log entry, 32 bits in
the driver calls. -/
structure Config where
  /-- `BACKING_STORE_WRITE_SIZE` -/
  write_size : Nat
  /-- `WEAR_LEVELING_LOGICAL_SIZE` -/
  logical_size : Nat
  /-- `WEAR_LEVELING_BACKING_SIZE` -/
  backing_size : Nat
  write_size_valid : write_size = 2 ∨ write_size = 4 ∨ write_size = 8
  logical_pos : 0 < logical_size
  logical_addressable : logical_size ≤ 2 ^ 19
  backing_addressable : backing_size + 8 ≤ 2 ^ 32
  backing_twice : logical_size * 2 ≤ backing_size
  logical_aligned : logical_size % write_size = 0
  backing_multiple : backing_size % logical_size = 0

/-- The first address of the write log. The 8 is the FNV1a_64 of the
consolidated data. -/
def Config.log_start (c : Config) : Nat := c.logical_size + 8

/-- What the driver answers to a call: it does what it is asked, or it
returns false. `left` is what a refused write or erase leaves in the
store, and what a refused read leaves in the caller's buffer. -/
inductive Answer where
  | done
  | refused (left : Nat → UInt8)
  /-- The answer to this call and to all calls after it: the driver does what
  it is asked, and refuses to read behind the store. -/
  | inRange (left : Nat → UInt8)

/-- The accesses that the code makes, as it makes them. -/
inductive Access where
  /-- `backing_store_read` -/
  | read (address : Nat)
  /-- `backing_store_write` -/
  | write (address : Nat) (value : List UInt8)
  /-- `backing_store_erase` -/
  | erase
  /-- A copy of the bytes `first` to `last - 1` of a log entry, of which the
  first `loaded` bytes come from the store. -/
  | entry (first last loaded : Nat)
  /-- An update of `count` bytes of the cache. -/
  | cache (address count : Nat)
  deriving DecidableEq

/-- The static data of `wear_leveling.c`, the content of the store, the
answers that the driver has still to give (it does what it is asked when
none is left), and the accesses so far, newest first. -/
structure State where
  cache : Nat → UInt8
  write_address : Nat
  unlocked : Bool
  store : Nat → UInt8
  answers : List Answer
  trace : List Access
  /-- What lies in memory at the index `i` of a log entry, outside of it, when
  the playback stands at the address `a`. -/
  outside : (a i : Nat) → UInt8

/-- Static data before `wear_leveling_init`, over an erased store. -/
def State.erased : State where
  cache := fun _ => 0
  write_address := 0
  unlocked := false
  store := fun _ => 0
  answers := []
  trace := []
  outside := fun _ _ => 0

def State.powerCycle (s : State) : State := { State.erased with store := s.store }

/-- One more access. -/
def State.log (a : Access) (s : State) : State := { s with trace := a :: s.trace }

def State.update (address : Nat) (value : List UInt8) (s : State) : State :=
  { s.log (.cache address value.length) with cache := patch s.cache address value }

/-- 32-bit addresses wrap. -/
def u32 (n : Nat) : Nat := n % 2 ^ 32

theorem u32_of_lt {n : Nat} (h : n < 2 ^ 32) : u32 n = n := Nat.mod_eq_of_lt h

/-! ## The driver calls -/

/-- The answers left when the driver has done what it was asked. -/
def served : List Answer → List Answer
  | .done :: rest => rest
  | as => as

def backing_store_call (s : State) : Bool × State :=
  match s.answers with
  | .refused _ :: rest => (false, { s with answers := rest })
  | as => (true, { s with answers := served as })

def backing_store_init (s : State) : Bool × State := backing_store_call s

def backing_store_unlock (s : State) : Bool × State := backing_store_call s

def backing_store_lock (s : State) : Bool × State := backing_store_call s

def backing_store_erase (s : State) : Bool × State :=
  match s.answers with
  | .refused left :: rest => (false, { s.log .erase with store := left, answers := rest })
  | as => (true, { s.log .erase with store := fun _ => 0, answers := served as })

def backing_store_write (address : Nat) (value : List UInt8) (s : State) : Bool × State :=
  match s.answers with
  | .refused left :: rest =>
    (false, { s.log (.write address value) with store := left, answers := rest })
  | as =>
    (true, { s.log (.write address value) with
      store := patch s.store address value, answers := served as })

def backing_store_read (c : Config) (address : Nat) (s : State) : Bool × List UInt8 × State :=
  match s.answers with
  | .refused left :: rest =>
    (false, readBlock left address c.write_size, { s.log (.read address) with answers := rest })
  | .inRange left :: _ =>
    if address + c.write_size ≤ c.backing_size then
      (true, readBlock s.store address c.write_size, s.log (.read address))
    else (false, readBlock left address c.write_size, s.log (.read address))
  | as =>
    (true, readBlock s.store address c.write_size,
      { s.log (.read address) with answers := served as })

/-- The weak bulk read: word by word, up to the first word refused. The
rest of the caller's buffer then keeps what was there. -/
def backing_store_read_bulk (c : Config) (address : Nat) :
    Nat → State → Bool × List UInt8 × State
  | 0, s => (true, [], s)
  | n + 1, s =>
    match backing_store_read c address s with
    | (false, value, s) => (false, value ++ List.replicate (n * c.write_size) 0, s)
    | (true, value, s) =>
      let (ok, rest, s) := backing_store_read_bulk c (address + c.write_size) n s
      (ok, value ++ rest, s)

def backing_store_write_bulk (c : Config) (address : Nat) :
    List (List UInt8) → State → Bool × State
  | [], s => (true, s)
  | value :: values, s =>
    match backing_store_write address value s with
    | (false, s) => (false, s)
    | (true, s) => backing_store_write_bulk c (address + c.write_size) values s

def wordsOf (c : Config) (bytes : List UInt8) : List (List UInt8) :=
  (List.range (bytes.length / c.write_size)).map fun i =>
    (bytes.drop (i * c.write_size)).take c.write_size

end keychron_qmk.wear_leveling
