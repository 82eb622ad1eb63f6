-- The combos of `process_combo.c`: the keys that are held back while a combo
-- may come of them, and the ring of the combos that are fully pressed. The
-- build has a timer and none of the options for each combo.
import KeychronQMK.Lib.Ring
import KeychronQMK.Tapping.Funs

namespace keychron_qmk.combos

open action_tapping (keyevent_t IS_NOEVENT)
open ring

def MAX_COMBO_LENGTH : Nat := 8

def COMBO_END : UInt16 := 0

def QK_COMBO_ON : UInt16 := 0x7C50

def QK_COMBO_OFF : UInt16 := 0x7C51

def QK_COMBO_TOGGLE : UInt16 := 0x7C52

/-! ## State -/

structure combo_t where
  keys : List UInt16
  keycode : UInt16
  keys_ne : keys ≠ []
  length_le : keys.length ≤ MAX_COMBO_LENGTH
  keys_end : COMBO_END ∉ keys

structure ComboState where
  disabled : Bool
  active : Bool
  state : UInt8
  deriving DecidableEq

structure Combos where
  combo_count : Nat
  combo_get : Nat → combo_t
  COMBO_TERM : UInt16
  COMBO_KEY_BUFFER_LENGTH : Nat
  COMBO_STRICT_TIMER : Bool

/-- The tap count is zero throughout. -/
structure keyrecord_t where
  event : keyevent_t
  keycode : UInt16
  deriving DecidableEq

/-- The index is `none` for -1. -/
structure queued_record_t where
  record : keyrecord_t
  combo_index : Option Nat
  keycode : UInt16
  deriving DecidableEq

/-- What goes out: a record to `action_tapping_process`, or a combo without a
keycode. -/
inductive Sent where
  | action_tapping_process (record : keyrecord_t)
  | process_combo_event (combo_index : Nat) (pressed : Bool)
  deriving DecidableEq

/-- The variables of the file and of the combos. The head of the ring is
`combo_buffer_write`, its tail `combo_buffer_read`. -/
structure State (N : Nat) where
  timer : UInt16
  b_combo_enable : Bool
  longest_term : UInt16
  key_buffer : List queued_record_t
  combo_buffer : Ring Nat N
  combo : Nat → ComboState
  sent : List Sent

variable {N : Nat}

/-- No key is down, and the ring of `COMBO_BUFFER_LENGTH = n + 1` slots is at
its first one. -/
def State.boot (n : Nat) : State (n + 1) where
  timer := 0
  b_combo_enable := true
  longest_term := 0
  key_buffer := []
  combo_buffer := ⟨fun _ => 0, ⟨0, Nat.succ_pos n⟩, ⟨0, Nat.succ_pos n⟩⟩
  combo := fun _ => ⟨false, false, 0⟩
  sent := []

namespace State

variable (combo_index : Nat) (s : State N)

/-- A change of the flags of one combo. -/
def modify (f : ComboState → ComboState) : State N :=
  { s with combo := Function.update s.combo combo_index (f (s.combo combo_index)) }

def DISABLE_COMBO : State N := s.modify combo_index fun c => { c with disabled := true }

def ACTIVATE_COMBO : State N := s.modify combo_index fun c => { c with active := true }

def DEACTIVATE_COMBO : State N := s.modify combo_index fun c => { c with active := false }

def send (x : Sent) : State N := { s with sent := s.sent ++ [x] }

end State

/-! ## Bits of the keys -/

def keyMask (key_index : Nat) : UInt8 := .ofNat (2 ^ key_index)

def ALL_COMBO_KEYS_ARE_DOWN (state : UInt8) (key_count : Nat) : Bool :=
  2 ^ key_count - 1 = state.toNat

def ONLY_ONE_KEY_IS_DOWN (state : UInt8) : Bool := state &&& (state - 1) = 0

def KEY_NOT_YET_RELEASED (state : UInt8) (key_index : Nat) : Bool := keyMask key_index &&& state ≠ 0

def KEY_STATE_DOWN (key_index : Nat) (c : ComboState) : ComboState :=
  { c with state := c.state ||| keyMask key_index }

def KEY_STATE_UP (key_index : Nat) (c : ComboState) : ComboState :=
  { c with state := c.state &&& ~~~(keyMask key_index) }

/-- The loop of `_find_key_index_and_count`. The keycode is compared with
`COMBO_END` too. -/
def find_key (keycode : UInt16) : List UInt16 → Nat → Option Nat → Option Nat × Nat
  | [], key_count, key_index => (if keycode = COMBO_END then some key_count else key_index, key_count)
  | key :: keys, key_count, key_index =>
    find_key keycode keys (key_count + 1) (if keycode = key then some key_count else key_index)

def _find_key_index_and_count (keys : List UInt16) (keycode : UInt16) : Option Nat × Nat :=
  find_key keycode keys 0 none

/-! ## The buffers -/

section

variable (cfg : Combos)

/-- One turn of the loop of `dump_key_buffer`. -/
def dump_record (s : State N) (qrecord : queued_record_t) : State N :=
  if IS_NOEVENT qrecord.record.event then s
  else
    match qrecord.combo_index with
    | some combo_index =>
      if qrecord.record.keycode = 0 then s.send (.process_combo_event combo_index true)
      else s.send (.action_tapping_process qrecord.record)
    | none => s.send (.action_tapping_process qrecord.record)

def dump_key_buffer (s : State N) : State N :=
  { s.key_buffer.foldl dump_record s with key_buffer := [] }

def clear_combos (s : State N) : State N :=
  { s with
    longest_term := 0
    combo := fun index =>
      if index < cfg.combo_count ∧ (s.combo index).active = false then
        { s.combo index with disabled := false, state := 0 }
      else s.combo index }

/-- The combo is disabled where the ring has it, and dropped at the read end. -/
def drop_combo_from_buffer (combo_index : Nat) (s : State N) : State N :=
  match s.combo_buffer.window.find? fun i => s.combo_buffer.slots i = combo_index with
  | none => s
  | some i =>
    let s := s.DISABLE_COMBO combo_index
    if i = s.combo_buffer.tail then { s with combo_buffer := s.combo_buffer.drop } else s

/-- The loop of `apply_combo` over the buffer of the keys: the last key of the
combo becomes its result, the others ticks. Whether the combo is complete. -/
def apply_keys (combo_index : Nat) : UInt8 → List queued_record_t → Bool × List queued_record_t
  | _, [] => (false, [])
  | state, qrecord :: rest =>
    match _find_key_index_and_count (cfg.combo_get combo_index).keys qrecord.keycode with
    | (none, _) =>
      let (complete, rest) := apply_keys combo_index state rest
      (complete, qrecord :: rest)
    | (some key_index, key_count) =>
      let state := state ||| keyMask key_index
      let record := qrecord.record
      if ALL_COMBO_KEYS_ARE_DOWN state key_count then
        (true, { qrecord with
          record := {
            event := { record.event with type := .COMBO_EVENT, key := ⟨0, 0⟩ }
            keycode := (cfg.combo_get combo_index).keycode }
          combo_index := some combo_index } :: rest)
      else
        let (complete, rest) := apply_keys combo_index state rest
        (complete, { qrecord with
          record := { record with event := { record.event with type := .TICK_EVENT } } } :: rest)

def apply_combo (combo_index : Nat) (s : State N) : State N :=
  if (s.combo combo_index).disabled then s
  else
    let (complete, key_buffer) := apply_keys cfg combo_index 0 s.key_buffer
    let s := { s with key_buffer := key_buffer }
    drop_combo_from_buffer combo_index (if complete then s.ACTIVATE_COMBO combo_index else s)

def apply_buffered (s : State N) : State N :=
  s.combo_buffer.window.foldl (fun s i => apply_combo cfg (s.combo_buffer.slots i) s) s

def apply_combos (s : State N) : State N :=
  clear_combos cfg (dump_key_buffer (apply_buffered cfg s))

/-- Of two combos with a common key, the one to drop. -/
def overlaps (combo1 combo2 : Nat) : Option Nat :=
  let keys1 := (cfg.combo_get combo1).keys
  let keys2 := (cfg.combo_get combo2).keys
  if ∃ key ∈ keys1, key ∈ keys2 then
    some (if keys2.length < keys1.length then combo2 else combo1)
  else none

def drop_overlapping (combo_index : Nat) :
    Option Nat → List (Fin N) → State N → Option Nat × State N
  | drop, [], s => (drop, s)
  | _, i :: is, s =>
    let buffered := s.combo_buffer.slots i
    match overlaps cfg buffered combo_index with
    | none => drop_overlapping combo_index none is s
    | some drop =>
      let s := s.DISABLE_COMBO drop
      if drop = combo_index then (some drop, s)
      else if i = s.combo_buffer.tail ∧ drop = buffered then
        drop_overlapping combo_index (some drop) is { s with combo_buffer := s.combo_buffer.drop }
      else drop_overlapping combo_index (some drop) is s

/-! ## One combo -/

def release_combo (combo_index : Nat) (now : UInt16) (s : State N) : State N :=
  let keycode := (cfg.combo_get combo_index).keycode
  let s := if keycode ≠ 0 then
      s.send (.action_tapping_process ⟨⟨⟨0, 0⟩, now, .COMBO_EVENT, false, 0⟩, keycode⟩)
    else s.send (.process_combo_event combo_index false)
  s.DEACTIVATE_COMBO combo_index

def term_passed (now : UInt16) (s : State N) : Bool :=
  s.timer ≠ 0 && cfg.COMBO_TERM < now - s.timer

/-- A fully pressed combo goes to the ring, unless a larger one is there. -/
def prepare (combo_index : Nat) (s : State N) : State N :=
  let (drop, s) := drop_overlapping cfg combo_index none s.combo_buffer.window s
  if drop ≠ some combo_index then { s with combo_buffer := s.combo_buffer.push combo_index } else s

def key_down (combo_index key_index : Nat) (s : State N) : State N :=
  if (s.combo combo_index).active then s
  else
    { s.modify combo_index (KEY_STATE_DOWN key_index) with
      longest_term := if s.longest_term < cfg.COMBO_TERM then cfg.COMBO_TERM else s.longest_term }

def key_pressed (combo_index key_index key_count : Nat) (now : UInt16) (s : State N) : State N :=
  let s := key_down cfg combo_index key_index s
  if ALL_COMBO_KEYS_ARE_DOWN (s.combo combo_index).state key_count then
    if term_passed cfg now s then s.DISABLE_COMBO combo_index else prepare cfg combo_index s
  else s

def key_released (combo_index key_index key_count : Nat) (now : UInt16)
    (key_is_part_of_combo : Bool) (s : State N) : Bool × State N :=
  let c := s.combo combo_index
  let (key_is_part_of_combo, s) :=
    if c.active = false ∧ ALL_COMBO_KEYS_ARE_DOWN c.state key_count then
      -- the first key is released quickly
      if c.disabled then (false, drop_combo_from_buffer combo_index s)
      else (key_is_part_of_combo, s)
    else if c.active ∧ ONLY_ONE_KEY_IS_DOWN c.state ∧ KEY_NOT_YET_RELEASED c.state key_index then
      (true, release_combo cfg combo_index now s)
    else if c.active ∧ KEY_NOT_YET_RELEASED c.state key_index then (true, s)
    else (false, s)
  (key_is_part_of_combo, s.modify combo_index (KEY_STATE_UP key_index))

def process_single_combo (keycode : UInt16) (pressed : Bool) (now : UInt16) (combo_index : Nat)
    (s : State N) : Bool × State N :=
  match _find_key_index_and_count (cfg.combo_get combo_index).keys keycode with
  | (none, _) => (false, s)
  | (some key_index, key_count) =>
    let key_is_part_of_combo := !(s.combo combo_index).disabled && s.b_combo_enable
    if pressed && key_is_part_of_combo then
      (true, key_pressed cfg combo_index key_index key_count now s)
    else key_released cfg combo_index key_index key_count now key_is_part_of_combo s

/-! ## All combos -/

def combo_enable (s : State N) : State N := { s with b_combo_enable := true }

def combo_disable (s : State N) : State N :=
  dump_key_buffer (clear_combos cfg { s with
    timer := 0
    b_combo_enable := false
    combo_buffer := { s.combo_buffer with tail := s.combo_buffer.head } })

def combo_toggle (s : State N) : State N :=
  if s.b_combo_enable then combo_disable cfg s else combo_enable s

def process_combos (keycode : UInt16) (pressed : Bool) (now : UInt16) :
    List Nat → State N → Bool × State N
  | [], s => (false, s)
  | idx :: idxs, s =>
    let (is_combo_key, s) := process_single_combo cfg keycode pressed now idx s
    let (is_combo_key', s) := process_combos keycode pressed now idxs s
    (is_combo_key || is_combo_key', s)

def hold_back (keycode : UInt16) (record : keyrecord_t) (now : UInt16) (s : State N) : State N :=
  { s with
    timer := if cfg.COMBO_STRICT_TIMER ∧ s.timer ≠ 0 then s.timer else now
    key_buffer := if s.key_buffer.length < cfg.COMBO_KEY_BUFFER_LENGTH then
        s.key_buffer ++ [⟨record, none, keycode⟩]
      else s.key_buffer }

/-- Whether the record is passed on. -/
def process_combo (keycode : UInt16) (record : keyrecord_t) (now : UInt16) (s : State N) :
    Bool × State N :=
  if keycode = QK_COMBO_ON ∧ record.event.pressed then (true, combo_enable s)
  else if keycode = QK_COMBO_OFF ∧ record.event.pressed then (true, combo_disable cfg s)
  else if keycode = QK_COMBO_TOGGLE ∧ record.event.pressed then (true, combo_toggle cfg s)
  else
    let (is_combo_key, s) :=
      process_combos cfg keycode record.event.pressed now (List.range cfg.combo_count) s
    let s :=
      if record.event.pressed && is_combo_key then hold_back cfg keycode record now s
      else if ¬ s.combo_buffer.isEmpty then apply_combos cfg s
      else clear_combos cfg { dump_key_buffer s with timer := 0 }
    (!is_combo_key, s)

def combo_task (now : UInt16) (s : State N) : State N :=
  if s.b_combo_enable ∧ s.timer ≠ 0 ∧ s.longest_term < now - s.timer then
    if ¬ s.combo_buffer.isEmpty then { apply_combos cfg s with longest_term := 0, timer := 0 }
    else clear_combos cfg { dump_key_buffer s with timer := 0 }
  else s

/-! ## Runs -/

/-- A key event with its keycode, or a turn of the task, at a time. -/
inductive Input where
  | process_combo (keycode : UInt16) (record : keyrecord_t) (now : UInt16)
  | combo_task (now : UInt16)

def step (s : State N) : Input → State N
  | .process_combo keycode record now => (process_combo cfg keycode record now s).2
  | .combo_task now => combo_task cfg now s

end

end keychron_qmk.combos
