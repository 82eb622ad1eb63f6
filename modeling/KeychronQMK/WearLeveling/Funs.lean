-- The functions of `quantum/wear_leveling/wear_leveling.c`, in the order of
-- the file. Each takes the state and gives its result and the state after.
import KeychronQMK.WearLeveling.Driver

namespace keychron_qmk.wear_leveling

open memory

inductive Status where
  | Failed
  | Success
  | Consolidated
  deriving DecidableEq, Repr

inductive LockStatus where
  | Failure
  | Success
  | Unchanged
  deriving DecidableEq

/-! ## The hash of `lib/fnv` -/

def FNV1A_64_INIT : UInt64 := 0xcbf29ce484222325

/-- The multiply by the FNV prime, as the shifts of `hash_64a.c`. -/
def fnv_64a_octet (hval : UInt64) (octet : UInt8) : UInt64 :=
  let hval := hval ^^^ octet.toUInt64
  hval + ((hval <<< 1) + (hval <<< 4) + (hval <<< 5) + (hval <<< 7) + (hval <<< 8) + (hval <<< 40))

def fnv_64a_buf (buf : List UInt8) (hval : UInt64) : UInt64 := buf.foldl fnv_64a_octet hval

/-- The bytes of `write_log_entry_t` that hold `raw64`. -/
def raw8 (raw64 : UInt64) : List UInt8 :=
  (List.range 8).map fun i => (raw64 >>> (8 * i).toUInt64).toUInt8

@[simp] theorem raw8_length (v : UInt64) : (raw8 v).length = 8 := by simp [raw8]

/-! ## Locks -/

def wear_leveling_unlock (s : State) : LockStatus × State :=
  if s.unlocked then (.Unchanged, s)
  else
    match backing_store_unlock s with
    | (false, s) => (.Failure, s)
    | (true, s) => (.Success, { s with unlocked := true })

def wear_leveling_lock (s : State) : LockStatus × State :=
  if !s.unlocked then (.Unchanged, s)
  else
    match backing_store_lock s with
    | (false, s) => (.Failure, s)
    | (true, s) => (.Success, { s with unlocked := false })

/-! ## The consolidated data -/

def wear_leveling_clear_cache (c : Config) (s : State) : State :=
  { s with cache := fun _ => 0, write_address := c.log_start }

def checksumOf (c : Config) (m : Nat → UInt8) : List UInt8 :=
  raw8 (fnv_64a_buf (readBlock m 0 c.logical_size) FNV1A_64_INIT)

def wear_leveling_read_consolidated (c : Config) (s : State) : Status × State :=
  match backing_store_read_bulk c 0 (c.logical_size / c.write_size) s with
  | (false, _, s) => (.Failed, wear_leveling_clear_cache c s)
  | (true, image, s) =>
    let s := s.update 0 image
    let expected := checksumOf c s.cache
    -- the answer to the read of the checksum is not looked at
    let (_, entry, s) := backing_store_read_bulk c c.logical_size (8 / c.write_size) s
    if entry = expected then (.Success, s) else (.Success, wear_leveling_clear_cache c s)

def wear_leveling_write_consolidated (c : Config) (s : State) : Status × State :=
  let (lock_status, s) := wear_leveling_unlock s
  let (status, s) : Status × State :=
    match backing_store_write_bulk c 0 (wordsOf c (readBlock s.cache 0 c.logical_size)) s with
    | (false, s) => (.Failed, s)
    | (true, s) =>
      match backing_store_write_bulk c c.logical_size (wordsOf c (checksumOf c s.cache)) s with
      | (false, s) => (.Failed, s)
      | (true, s) => (.Consolidated, s)
  if lock_status = .Success then (status, (wear_leveling_lock s).2) else (status, s)

def wear_leveling_consolidate_force (c : Config) (s : State) : Status × State :=
  let (_, s) := wear_leveling_unlock s
  match backing_store_erase s with
  | (false, s) => (.Failed, s)
  | (true, s) =>
    let (status, s) := wear_leveling_write_consolidated c s
    (status, { s with write_address := c.log_start })

def wear_leveling_consolidate_if_needed (c : Config) (s : State) : Status × State :=
  if c.backing_size ≤ s.write_address then wear_leveling_consolidate_force c s else (.Success, s)

/-! ## Appends to the write log -/

def ifSuccess (r : Status × State) (next : State → Status × State) : Status × State :=
  match r with
  | (.Success, s) => next s
  | r => r

def wear_leveling_append_raw (c : Config) (value : List UInt8) (s : State) : Status × State :=
  match backing_store_write s.write_address value s with
  | (false, s) => (.Failed, s)
  | (true, s) =>
    wear_leveling_consolidate_if_needed c
      { s with write_address := u32 (s.write_address + c.write_size) }

def LOG_ENTRY_MAKE_MULTIBYTE (address length : Nat) : List UInt8 :=
  [UInt8.ofNat ((0 &&& 3) <<< 6 ||| (length &&& 7) <<< 3 ||| (address >>> 16) &&& 7),
    UInt8.ofNat ((address >>> 8) &&& 255), UInt8.ofNat (address &&& 255)]

def LOG_ENTRY_MAKE_OPTIMIZED_64 (address : Nat) (value : UInt8) : List UInt8 :=
  [UInt8.ofNat ((1 &&& 3) <<< 6 ||| address &&& 63), value]

def LOG_ENTRY_MAKE_WORD_01 (address value : Nat) : List UInt8 :=
  [UInt8.ofNat ((2 &&& 3) <<< 6 ||| ((if value ≠ 0 then 1 else 0) &&& 1) <<< 5 |||
    (address >>> 9) &&& 31), UInt8.ofNat ((address >>> 1) &&& 255)]

def LOG_ENTRY_MULTIBYTE_MAX_BYTES : Nat := 5

def rawWord (c : Config) (log : List UInt8) (i : Nat) : List UInt8 :=
  (log.drop (i * c.write_size)).take c.write_size

def wear_leveling_write_raw_multibyte (c : Config) (address : Nat) (value : List UInt8)
    (s : State) : Status × State :=
  let length := value.length
  -- the bytes that are not set are zero
  let log := LOG_ENTRY_MAKE_MULTIBYTE address length ++ value ++ List.replicate (5 - length) 0
  if c.write_size = 2 then
    ifSuccess (wear_leveling_append_raw c (rawWord c log 0) s) fun s =>
    ifSuccess (wear_leveling_append_raw c (rawWord c log 1) s) fun s =>
    ifSuccess (if length > 1 then wear_leveling_append_raw c (rawWord c log 2) s
      else (.Success, s)) fun s =>
    if length > 3 then wear_leveling_append_raw c (rawWord c log 3) s else (.Success, s)
  else if c.write_size = 4 then
    ifSuccess (wear_leveling_append_raw c (rawWord c log 0) s) fun s =>
    if length > 1 then wear_leveling_append_raw c (rawWord c log 1) s else (.Success, s)
  else
    wear_leveling_append_raw c (rawWord c log 0) s

/-- The `uint16_t` at the start of the data, low byte first. -/
def u16_at (p : List UInt8) : Nat := (p.getD 1 0).toNat <<< 8 ||| (p.getD 0 0).toNat

/-- The `while (remaining > 0)` loop: `p` is what remains to write. -/
def wear_leveling_write_raw (c : Config) (address : Nat) (p : List UInt8) (s : State) :
    Status × State :=
  if p.length = 0 then (.Success, s)
  else if c.write_size = 2 ∧ 2 ≤ p.length ∧ address % 2 = 0 ∧ address < 16384 ∧
      (u16_at p = 0 ∨ u16_at p = 1) then
    ifSuccess (wear_leveling_append_raw c (LOG_ENTRY_MAKE_WORD_01 address (u16_at p)) s) fun s =>
    wear_leveling_write_raw c (address + 2) (p.drop 2) s
  else if c.write_size = 2 ∧ address < 64 then
    ifSuccess (wear_leveling_append_raw c (LOG_ENTRY_MAKE_OPTIMIZED_64 address (p.getD 0 0)) s)
      fun s =>
    wear_leveling_write_raw c (address + 1) (p.drop 1) s
  else
    let this_length :=
      if LOG_ENTRY_MULTIBYTE_MAX_BYTES ≤ p.length then LOG_ENTRY_MULTIBYTE_MAX_BYTES else p.length
    ifSuccess (wear_leveling_write_raw_multibyte c address (p.take this_length) s) fun s =>
    wear_leveling_write_raw c (address + this_length) (p.drop this_length) s
termination_by p.length
decreasing_by
  all_goals simp only [List.length_drop, LOG_ENTRY_MULTIBYTE_MAX_BYTES] at *
  all_goals grind

/-! ## The playback of the write log -/

def LOG_ENTRY_GET_TYPE (log : List UInt8) : Nat := ((log.getD 0 0).toNat >>> 6) &&& 3

def LOG_ENTRY_MULTIBYTE_GET_ADDRESS (log : List UInt8) : Nat :=
  ((log.getD 0 0).toNat &&& 7) <<< 16 ||| (log.getD 1 0).toNat <<< 8 ||| (log.getD 2 0).toNat

def LOG_ENTRY_MULTIBYTE_GET_LENGTH (log : List UInt8) : Nat := ((log.getD 0 0).toNat >>> 3) &&& 7

def LOG_ENTRY_OPTIMIZED_64_GET_ADDRESS (log : List UInt8) : Nat := (log.getD 0 0).toNat &&& 63

def LOG_ENTRY_OPTIMIZED_64_GET_VALUE (log : List UInt8) : UInt8 := log.getD 1 0

def LOG_ENTRY_WORD_01_GET_ADDRESS (log : List UInt8) : Nat :=
  ((log.getD 0 0).toNat &&& 31) <<< 9 ||| (log.getD 1 0).toNat <<< 1

def LOG_ENTRY_WORD_01_GET_VALUE (log : List UInt8) : UInt8 :=
  UInt8.ofNat (((log.getD 0 0).toNat >>> 5) &&& 1)

/-- The playback in the middle of an entry: the bytes of the entry read so
far, the address of the next word, and the state. A refused read makes
`status` fail. -/
structure Playback where
  status : Status
  log : List UInt8
  address : Nat
  state : State

/-- Reads one more word of the entry, if the entry has it and no read
before was refused. -/
def Playback.word (c : Config) (needed : Bool) (p : Playback) : Playback :=
  if needed && p.status ≠ .Failed then
    match backing_store_read c p.address p.state with
    | (false, _, s) => { p with status := .Failed, state := s }
    | (true, value, s) =>
      { p with log := p.log ++ value, address := p.address + c.write_size, state := s }
  else p

/-- The words of a multi-byte entry of `l` bytes after its address and its
length. -/
def Playback.rest (c : Config) (l : Nat) (p : Playback) : Playback :=
  ((p.word c (c.write_size = 2 ∧ l > 1)).word c (c.write_size = 2 ∧ l > 3)).word c
    (c.write_size = 4 ∧ l > 1)

def Playback.fail (p : Playback) : Playback := { p with status := .Failed }

def Playback.update (a : Nat) (value : List UInt8) (p : Playback) : Playback :=
  { p with state := p.state.update a value }

/-- `case LOG_ENTRY_TYPE_MULTIBYTE`. A byte copied from outside of the union
is what lies there. -/
def playback_multibyte (c : Config) (p : Playback) : Playback :=
  let p := p.word c (c.write_size = 2)
  if p.status = .Failed then p
  else
    let a := LOG_ENTRY_MULTIBYTE_GET_ADDRESS p.log
    let l := LOG_ENTRY_MULTIBYTE_GET_LENGTH p.log
    if a + l > c.logical_size then p.fail
    else
      let p := p.rest c l
      if p.status = .Failed then p
      else
        { p with state := p.state.log (.entry 3 (3 + l) p.log.length) }.update a
          ((List.range l).map fun i => p.log.getD (3 + i) (p.state.outside p.address (3 + i)))

def playback_optimized_64 (c : Config) (p : Playback) : Playback :=
  let a := LOG_ENTRY_OPTIMIZED_64_GET_ADDRESS p.log
  if a ≥ c.logical_size then p.fail
  else p.update a [LOG_ENTRY_OPTIMIZED_64_GET_VALUE p.log]

def playback_word_01 (c : Config) (p : Playback) : Playback :=
  let a := LOG_ENTRY_WORD_01_GET_ADDRESS p.log
  if a + 1 ≥ c.logical_size then p.fail
  else p.update a [LOG_ENTRY_WORD_01_GET_VALUE p.log, 0]

/-- The switch over the type of the entry whose first word is read. -/
def playback_entry (c : Config) (p : Playback) : Playback :=
  if LOG_ENTRY_GET_TYPE p.log = 0 then playback_multibyte c p
  else if c.write_size = 2 ∧ LOG_ENTRY_GET_TYPE p.log = 1 then playback_optimized_64 c p
  else if c.write_size = 2 ∧ LOG_ENTRY_GET_TYPE p.log = 2 then playback_word_01 c p
  else p.fail

theorem Playback.word_address_le (c : Config) (needed : Bool) (p : Playback) :
    p.address ≤ (p.word c needed).address := by
  unfold Playback.word
  split
  · split
    · exact Nat.le_refl _
    · exact Nat.le_add_right _ _
  · exact Nat.le_refl _

theorem Playback.rest_address_le (c : Config) (l : Nat) (p : Playback) :
    p.address ≤ (p.rest c l).address :=
  calc p.address ≤ _ := p.word_address_le c (c.write_size = 2 ∧ l > 1)
    _ ≤ _ := Playback.word_address_le c (c.write_size = 2 ∧ l > 3) _
    _ ≤ _ := Playback.word_address_le c (c.write_size = 4 ∧ l > 1) _

theorem playback_multibyte_address_le (c : Config) (p : Playback) :
    p.address ≤ (playback_multibyte c p).address := by
  have h1 := p.word_address_le c (c.write_size = 2)
  unfold playback_multibyte
  generalize p.word c (c.write_size = 2) = p1 at h1
  have h2 := p1.rest_address_le c (LOG_ENTRY_MULTIBYTE_GET_LENGTH p1.log)
  dsimp only
  split_ifs
  · exact h1
  · exact h1
  · exact h1.trans h2
  · exact h1.trans h2

theorem playback_entry_address_le (c : Config) (p : Playback) :
    p.address ≤ (playback_entry c p).address := by
  unfold playback_entry playback_optimized_64 playback_word_01
  dsimp only
  split_ifs
  · exact playback_multibyte_address_le c p
  all_goals exact Nat.le_refl _

theorem Config.write_size_pos (c : Config) : 0 < c.write_size := by
  rcases c.write_size_valid with h | h | h <;> omega

def playback_at (c : Config) (address : Nat) (value : List UInt8) (s : State) : Playback :=
  playback_entry c ⟨.Success, value, address + c.write_size, s⟩

/-- The loop of `wear_leveling_playback_log`: the status and the address at
its end. -/
def playback_loop (c : Config) (address : Nat) (s : State) : Status × Nat × State :=
  if address < c.backing_size then
    let r := backing_store_read c address s
    if r.1 = false then (.Failed, address, r.2.2)
    else if r.2.1 = List.replicate c.write_size 0 then (.Success, address, r.2.2)
    else
      let p := playback_at c address r.2.1 r.2.2
      if p.status = .Failed then (.Failed, p.address, p.state)
      else playback_loop c p.address p.state
  else (.Success, address, s)
termination_by c.backing_size - address
decreasing_by
  have h := playback_entry_address_le c ⟨.Success, r.2.1, address + c.write_size, r.2.2⟩
  have hw := c.write_size_pos
  change address + c.write_size ≤ p.address at h
  change c.backing_size - p.address < c.backing_size - address
  omega

def wear_leveling_playback_log (c : Config) (s : State) : Status × State :=
  let (status, address, s) := playback_loop c c.log_start s
  let s := { s with write_address := address }
  if status = .Failed then wear_leveling_consolidate_force c s
  else wear_leveling_consolidate_if_needed c s

/-! ## The interface -/

def wear_leveling_init (c : Config) (s : State) : Status × State :=
  let s := wear_leveling_clear_cache c s
  match backing_store_init s with
  | (false, s) => (.Failed, wear_leveling_clear_cache c s)
  | (true, s) =>
    match wear_leveling_read_consolidated c s with
    | (.Failed, s) => (.Failed, wear_leveling_clear_cache c s)
    | (_, s) =>
      match wear_leveling_playback_log c s with
      | (.Failed, s) => (.Failed, wear_leveling_clear_cache c s)
      | r => r

def wear_leveling_erase (c : Config) (s : State) : Status × State :=
  match wear_leveling_unlock s with
  | (.Failure, s) => (.Failed, (wear_leveling_lock s).2)
  | (lock_status, s) =>
    let (ret, s) := backing_store_erase s
    let s := wear_leveling_clear_cache c s
    if lock_status = .Success then
      let (relock, s) := wear_leveling_lock s
      (if ret && relock ≠ .Failure then .Success else .Failed, s)
    else (if ret then .Success else .Failed, s)

def wear_leveling_write_unlocked (c : Config) (address : Nat) (value : List UInt8)
    (lock_status : LockStatus) (s : State) : Status × State :=
  let (status, s) :=
    match wear_leveling_write_raw c address value s with
    | (.Success, s) => wear_leveling_consolidate_if_needed c s
    | r => r
  if lock_status = .Success then
    let (relock, s) := wear_leveling_lock s
    (if relock = .Failure then .Failed else status, s)
  else (status, s)

/-- Skips the write when the cache holds the value already. The status of
the skipped write is `true`, which is `WEAR_LEVELING_SUCCESS`. -/
def wear_leveling_write (c : Config) (address : Nat) (value : List UInt8) (s : State) :
    Status × State :=
  if u32 (address + value.length) > c.logical_size then (.Failed, s)
  else if readBlock s.cache address value.length = value then (.Success, s)
  else
    match wear_leveling_unlock (s.update address value) with
    | (.Failure, s) => (.Failed, (wear_leveling_lock s).2)
    | (lock_status, s) => wear_leveling_write_unlocked c address value lock_status s

/-- The status, and the bytes that the caller gets. -/
def wear_leveling_read (c : Config) (address length : Nat) (s : State) : Status × List UInt8 :=
  if u32 (address + length) > c.logical_size then (.Failed, [])
  else (.Success, readBlock s.cache address length)

end keychron_qmk.wear_leveling
