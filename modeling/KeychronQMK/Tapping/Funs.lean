-- The tap-hold keys of `quantum/action_tapping.c`: one key that waits to be a
-- tap or a hold, the buffer of the events behind it, and the keys that Chordal
-- Hold and Flow Tap settled early. What the preprocessor selects is a field
-- of the configuration.
import KeychronQMK.Keymap.SourceLayers
import KeychronQMK.Lib.SwapRemove
import KeychronQMK.Report.RegisterCode

namespace keychron_qmk.action_tapping

open action_layer (keypos_t)
open action (KC_RIGHT_GUI IS_MODIFIER_KEYCODE)
open swap_remove (swapRemove)

def WAITING_BUFFER_SIZE : Nat := 8

def REGISTERED_TAPS_SIZE : Nat := 8

/-! ## Events -/

inductive keyevent_type_t where
  | TICK_EVENT
  | KEY_EVENT
  | ENCODER_CW_EVENT
  | ENCODER_CCW_EVENT
  | COMBO_EVENT
  | DIP_SWITCH_ON_EVENT
  | DIP_SWITCH_OFF_EVENT
  deriving DecidableEq

/-- A key event. The source has no `serial`: it counts the events, from 1,
for the statements about their order. No function reads it, and an event
that the code makes has none. -/
structure keyevent_t where
  key : keypos_t
  time : UInt16
  type : keyevent_type_t
  pressed : Bool
  serial : Nat
  deriving DecidableEq

def IS_NOEVENT (event : keyevent_t) : Bool := event.type = .TICK_EVENT

def IS_EVENT (event : keyevent_t) : Bool := event.type ≠ .TICK_EVENT

def IS_KEYEVENT (event : keyevent_t) : Bool := event.type = .KEY_EVENT

structure tap_t where
  interrupted : Bool
  count : Nat
  deriving DecidableEq

structure keyrecord_t where
  event : keyevent_t
  tap : tap_t
  deriving DecidableEq

def keyrecord_t.zero : keyrecord_t := ⟨⟨⟨0, 0⟩, 0, .TICK_EVENT, false, 0⟩, ⟨false, 0⟩⟩

def keyrecord_t.setCount (count : Nat) (record : keyrecord_t) : keyrecord_t :=
  { record with tap := { record.tap with count := count } }

def keyrecord_t.setInterrupted (interrupted : Bool) (record : keyrecord_t) : keyrecord_t :=
  { record with tap := { record.tap with interrupted := interrupted } }

/-! ## Actions -/

abbrev action_t := UInt16

def ACT_LMODS : UInt16 := 0b0000

def ACT_RMODS : UInt16 := 0b0001

def ACT_LMODS_TAP : UInt16 := 0b0010

def ACT_RMODS_TAP : UInt16 := 0b0011

def ACT_SWAP_HANDS : UInt16 := 0b0110

def ACT_LAYER_TAP : UInt16 := 0b1010

def ACT_LAYER_TAP_EXT : UInt16 := 0b1011

def OP_TAP_TOGGLE : UInt8 := 0xF0

def OP_ON_OFF : UInt8 := 0xF1

def OP_OFF_ON : UInt8 := 0xF2

def OP_SET_CLEAR : UInt8 := 0xF3

def OP_ONESHOT : UInt8 := 0xF4

def OP_SH_TAP_TOGGLE : UInt8 := 0xF1

def kind_id (action : action_t) : UInt16 := action >>> 12

def key_mods (action : action_t) : UInt16 := action >>> 8 &&& 0xF

def low_code (action : action_t) : UInt8 := action.toUInt8

def is_tap_action (action : action_t) : Bool :=
  if kind_id action ∈ [ACT_LMODS_TAP, ACT_RMODS_TAP, ACT_LAYER_TAP, ACT_LAYER_TAP_EXT] then
    low_code action ≤ KC_RIGHT_GUI || low_code action = OP_TAP_TOGGLE ||
      low_code action = OP_ONESHOT
  else if kind_id action = ACT_SWAP_HANDS then
    low_code action ≤ KC_RIGHT_GUI || low_code action = OP_SH_TAP_TOGGLE
  else false

/-- The `switch` of `process_tapping` on the release of a key that was pressed
before the tapping key: modifiers and layers stay till the tapping key is settled. -/
def is_retained (action : action_t) (keyp : keyrecord_t) : Bool :=
  if kind_id action ∈ [ACT_LMODS, ACT_RMODS] then
    (key_mods action ≠ 0 && low_code action = 0) || IS_MODIFIER_KEYCODE (low_code action)
  else if kind_id action ∈ [ACT_LMODS_TAP, ACT_RMODS_TAP] then
    (key_mods action ≠ 0 && keyp.tap.count = 0) || IS_MODIFIER_KEYCODE (low_code action)
  else if kind_id action ∈ [ACT_LAYER_TAP, ACT_LAYER_TAP_EXT] then
    low_code action < OP_TAP_TOGGLE || low_code action ∈ [OP_ON_OFF, OP_OFF_ON, OP_SET_CLEAR]
  else false

/-! ## Keycodes -/

def IS_QK_MOD_TAP (code : UInt16) : Bool := 0x2000 ≤ code && code ≤ 0x3FFF

def IS_QK_LAYER_TAP (code : UInt16) : Bool := 0x4000 ≤ code && code ≤ 0x4FFF

def is_mt_or_lt (keycode : UInt16) : Bool := IS_QK_MOD_TAP keycode || IS_QK_LAYER_TAP keycode

/-- The releases that `flow_tap_update_last_event` ignores: those of modifiers
and of held layer switches. -/
def flow_tap_ignores (TRI_LAYER_ENABLE : Bool) (keycode : UInt16) (count : Nat) : Bool :=
  (0xE0 ≤ keycode && keycode ≤ 0xE7) ||
  (0x5220 ≤ keycode && keycode ≤ 0x523F) ||
  (0x52C0 ≤ keycode && keycode ≤ 0x52DF) ||
  (0x52A0 ≤ keycode && keycode ≤ 0x52BF) ||
  (0x5280 ≤ keycode && keycode ≤ 0x529F) ||
  (TRI_LAYER_ENABLE && (keycode = 0x7C77 || keycode = 0x7C78)) ||
  (0x0100 ≤ keycode && keycode ≤ 0x1FFF && keycode &&& 0xFF = 0) ||
  (is_mt_or_lt keycode && count = 0)

/-! ## The state -/

/-- A call to the rest of the firmware. A record is handed over with the tapping
key of that moment, and `early` says that Chordal Hold or Flow Tap settled it. -/
inductive Call where
  | process_record (record tapping_key : keyrecord_t) (early : Bool)
  | process_record_tap_hint (record : keyrecord_t)
  | clear_keyboard
  deriving DecidableEq

/-- A build, and the rest of the firmware: what it answers depends on the
calls it got. -/
structure Config where
  TAPPING_TERM : Nat
  QUICK_TAP_TERM : Nat
  PERMISSIVE_HOLD : Bool
  HOLD_ON_OTHER_KEY_PRESS : Bool
  CHORDAL_HOLD : Bool
  FLOW_TAP_TERM : Bool
  TRI_LAYER_ENABLE : Bool
  layer_switch_get_action : List Call → keypos_t → action_t
  get_record_keycode : List Call → keyrecord_t → UInt16
  get_chordal_hold : UInt16 → keyrecord_t → UInt16 → keyrecord_t → Bool
  get_flow_tap_term : List Call → UInt16 → keyrecord_t → UInt16 → UInt16

/-- The variables of the file, the buffer as its contents from
`waiting_buffer_tail` on. `record` is the parameter of `action_tapping_process`. -/
structure Tapping where
  tapping_key : keyrecord_t
  waiting_buffer : List keyrecord_t
  registered_taps : List keypos_t
  flow_tap_prev_keycode : UInt16
  flow_tap_prev_time : UInt16
  flow_tap_expired : Bool
  record : keyrecord_t
  calls : List Call

/-- The variables at power-up. -/
def Tapping.zero : Tapping := ⟨.zero, [], [], 0, 0, true, .zero, []⟩

/-- Where `keyp` points: to the parameter, or to the buffer. -/
inductive Slot where
  | record
  | tail
  deriving DecidableEq

namespace Tapping

def read (s : Tapping) : Slot → keyrecord_t
  | .record => s.record
  | .tail => s.waiting_buffer.headD .zero

def write (s : Tapping) (record : keyrecord_t) : Slot → Tapping
  | .record => { s with record := record }
  | .tail => { s with waiting_buffer := s.waiting_buffer.modifyHead fun _ => record }

end Tapping

def TIMER_DIFF_16 (a b : UInt16) : Nat := (a - b).toNat

section

variable (cfg : Config)

def WITHIN_TAPPING_TERM (e : keyevent_t) (s : Tapping) : Bool :=
  TIMER_DIFF_16 e.time s.tapping_key.event.time < cfg.TAPPING_TERM

def WITHIN_QUICK_TAP_TERM (e : keyevent_t) (s : Tapping) : Bool :=
  TIMER_DIFF_16 e.time s.tapping_key.event.time < cfg.QUICK_TAP_TERM

def IS_TAPPING_RECORD (r : keyrecord_t) (s : Tapping) : Bool :=
  s.tapping_key.event.key = r.event.key

def is_tap_record (record : keyrecord_t) (s : Tapping) : Bool :=
  !IS_NOEVENT record.event && is_tap_action (cfg.layer_switch_get_action s.calls record.event.key)

/-! ## Records handed over -/

def flow_tap_update_last_event (record : keyrecord_t) (s : Tapping) : Tapping :=
  let keycode := cfg.get_record_keycode s.calls record
  if record.tap.count = 0 &&
      (s.waiting_buffer ≠ [] || (s.tapping_key.event.pressed && s.tapping_key.tap.count = 0)) then s
  else if !record.event.pressed &&
      flow_tap_ignores cfg.TRI_LAYER_ENABLE keycode record.tap.count then s
  else { s with
    flow_tap_prev_keycode := keycode
    flow_tap_prev_time := record.event.time
    flow_tap_expired := false }

def process_record_as (early : Bool) (record : keyrecord_t) (s : Tapping) : Tapping :=
  if IS_NOEVENT record.event then s
  else
    let s := if cfg.FLOW_TAP_TERM then flow_tap_update_last_event cfg record s else s
    { s with calls := s.calls ++ [.process_record record s.tapping_key early] }

def process_record (record : keyrecord_t) (s : Tapping) : Tapping :=
  process_record_as cfg false record s

def process_record_tap_hint (record : keyrecord_t) (s : Tapping) : Tapping :=
  if IS_KEYEVENT record.event then { s with calls := s.calls ++ [.process_record_tap_hint record] }
  else s

def process_tapping_key (s : Tapping) : Tapping := process_record cfg s.tapping_key s

def clear_keyboard (s : Tapping) : Tapping := { s with calls := s.calls ++ [.clear_keyboard] }

def reset (s : Tapping) : Tapping := { s with tapping_key := .zero }

/-! ## Registered taps -/

def registered_taps_add (key : keypos_t) (s : Tapping) : Tapping :=
  let s := if REGISTERED_TAPS_SIZE ≤ s.registered_taps.length then
      { clear_keyboard s with registered_taps := [] }
    else s
  { s with registered_taps := s.registered_taps ++ [key] }

def registered_tap_find (key : keypos_t) (s : Tapping) : Option Nat :=
  s.registered_taps.findIdx? (· = key)

def registered_taps_del_index (i : Nat) (s : Tapping) : Tapping :=
  { s with registered_taps := swapRemove s.registered_taps i }

def flow_tap_key_within (record : keyrecord_t) (prev_time : UInt16) (s : Tapping) : Bool :=
  let idle_time := TIMER_DIFF_16 record.event.time prev_time
  let keycode := cfg.get_record_keycode s.calls record
  let term := min (cfg.get_flow_tap_term s.calls keycode record s.flow_tap_prev_keycode).toNat 500
  !s.flow_tap_expired && idle_time < 500 && is_mt_or_lt keycode && idle_time < term

/-- A key settled as tapped ahead of its release. -/
def process_early_tap (record : keyrecord_t) (s : Tapping) : Tapping :=
  process_record_as cfg true (record.setCount 1) (registered_taps_add record.event.key s)

/-- Where it is true the record is not read again, so its count is not kept. -/
def flow_tap_key_if_within_term (record : keyrecord_t) (prev_time : UInt16) (s : Tapping) :
    Bool × Tapping :=
  if flow_tap_key_within cfg record prev_time s then (true, process_early_tap cfg record s)
  else (false, s)

/-! ## The waiting buffer -/

def waiting_buffer_enq (record : keyrecord_t) (s : Tapping) : Option Tapping :=
  if IS_NOEVENT record.event then some s
  else if s.waiting_buffer.length + 1 = WAITING_BUFFER_SIZE then none
  else some { s with waiting_buffer := s.waiting_buffer ++ [record] }

def waiting_buffer_clear (s : Tapping) : Tapping := { s with waiting_buffer := [] }

def waiting_buffer_typed (event : keyevent_t) (s : Tapping) : Bool :=
  s.waiting_buffer.any fun r => event.key = r.event.key && event.pressed ≠ r.event.pressed

def is_tap_candidate (s : Tapping) (candidate : keyrecord_t) : Bool :=
  IS_EVENT candidate.event && candidate.event.key = s.tapping_key.event.key &&
    !candidate.event.pressed && WITHIN_TAPPING_TERM cfg candidate.event s

def waiting_buffer_scan_tap (s : Tapping) : Tapping :=
  if 0 < s.tapping_key.tap.count || !s.tapping_key.event.pressed then s
  else match s.waiting_buffer.findIdx? (is_tap_candidate cfg s) with
    | none => s
    | some i => process_tapping_key cfg { s with
        tapping_key := s.tapping_key.setCount 1
        waiting_buffer := s.waiting_buffer.modify i (keyrecord_t.setCount 1) }

def popTail (s : Tapping) : Tapping := { s with waiting_buffer := s.waiting_buffer.tail }

def flow_tap_following : List keyrecord_t → UInt16 → Tapping → Tapping
  | [], _, s => s
  | record :: rest, prev_time, s =>
    if !record.event.pressed then s
    else if !is_tap_record cfg record s then
      flow_tap_following rest record.event.time (popTail (process_record cfg record s))
    else match flow_tap_key_if_within_term cfg record prev_time s with
      | (false, s) => s
      | (true, s) => flow_tap_following rest record.event.time (popTail s)

def waiting_buffer_find_chordal_hold_tap (s : Tapping) :
    keyrecord_t → Nat → List keyrecord_t → Option Nat → Option Nat
  | _, _, [], first_tap => first_tap
  | prev, i, cur :: rest, first_tap =>
    let prev_keycode := cfg.get_record_keycode s.calls prev
    let cur_keycode := cfg.get_record_keycode s.calls cur
    if !cur.event.pressed || !is_mt_or_lt prev_keycode then first_tap
    else
      waiting_buffer_find_chordal_hold_tap s cur (i + 1) rest
        (if cfg.get_chordal_hold prev_keycode prev cur_keycode cur then some i else first_tap)

def waiting_buffer_chordal_hold_taps_until (key : keypos_t) : List keyrecord_t → Tapping → Tapping
  | [], s => s
  | record :: rest, s =>
    let s := popTail
      (if record.event.pressed && is_tap_record cfg record s then process_early_tap cfg record s
       else process_record cfg record s)
    if key = record.event.key && record.event.pressed then s
    else waiting_buffer_chordal_hold_taps_until key rest s

def waiting_buffer_process_regular : List keyrecord_t → Tapping → Tapping
  | [], s => s
  | record :: rest, s =>
    if is_tap_record cfg record s then s
    else waiting_buffer_process_regular rest (popTail (process_record cfg record s))

/-! ## The state machine -/

def process_none (keyp : Slot) (s : Tapping) : Tapping :=
  let record := s.read keyp
  if IS_NOEVENT record.event then s
  else if record.event.pressed && is_tap_record cfg record s then
    if cfg.FLOW_TAP_TERM && flow_tap_key_within cfg record s.flow_tap_prev_time s then
      (flow_tap_key_if_within_term cfg record s.flow_tap_prev_time s).2
    else
      let s := { s with tapping_key := record }
      waiting_buffer_scan_tap cfg (process_record_tap_hint s.tapping_key s)
  else process_record cfg record s

def count_first_tap (keyp : Slot) (s : Tapping) : Tapping :=
  let s := { s with tapping_key := s.tapping_key.setCount 1 }
  let s := process_tapping_key cfg s
  s.write { s.read keyp with tap := s.tapping_key.tap } keyp

def first_tap (keyp : Slot) (s : Tapping) : Tapping :=
  let s := count_first_tap cfg keyp s
  if cfg.FLOW_TAP_TERM then
    flow_tap_following cfg s.waiting_buffer s.tapping_key.event.time s
  else s

def chord_considered_tap (s : Tapping) : Tapping :=
  let s := { s with tapping_key := s.tapping_key.setCount 1 }
  reset (process_early_tap cfg s.tapping_key s)

/-- The loop over the events that Chordal Hold settles as held. -/
def process_held : List keyrecord_t → Tapping → Tapping
  | [], s => s
  | record :: rest, s => process_held rest (popTail (process_record cfg record s))

def chordal_holds (s : Tapping) : List keyrecord_t :=
  match waiting_buffer_find_chordal_hold_tap cfg s s.tapping_key 0 s.waiting_buffer none with
  | some first_tap => s.waiting_buffer.take first_tap
  | none => []

def interfered_by_typing (key : keypos_t) (s : Tapping) : Tapping :=
  let s := process_tapping_key cfg s
  if cfg.CHORDAL_HOLD then
    let s := process_held cfg (chordal_holds cfg s) s
    reset (waiting_buffer_chordal_hold_taps_until cfg key s.waiting_buffer s)
  else reset s

/-- The tapping key after it was held: with Chordal Hold, the oldest event of the buffer
if its key is a tap key. -/
def next_tapping_key (s : Tapping) : Tapping :=
  match s.waiting_buffer with
  | record :: _ =>
    if is_tap_record cfg record s then popTail { s with tapping_key := record } else reset s
  | [] => reset s

def interfered_by_press (s : Tapping) : Tapping :=
  let s := process_tapping_key cfg s
  if cfg.CHORDAL_HOLD then
    let s := next_tapping_key cfg s
    waiting_buffer_process_regular cfg s.waiting_buffer s
  else reset s

def holds_chord (record : keyrecord_t) (s : Tapping) : Bool :=
  cfg.get_chordal_hold (cfg.get_record_keycode s.calls s.tapping_key) s.tapping_key
    (cfg.get_record_keycode s.calls record) record

def chord_is_tap (record : keyrecord_t) (s : Tapping) : Bool :=
  cfg.CHORDAL_HOLD && is_mt_or_lt (cfg.get_record_keycode s.calls s.tapping_key) &&
    !holds_chord cfg record s

def settle_interrupted (record : keyrecord_t) (s : Tapping) : Tapping :=
  if chord_is_tap cfg record s then
    let s := { s with tapping_key := s.tapping_key.setInterrupted false }
    if !is_tap_record cfg record s then chord_considered_tap cfg s else s
  else if cfg.HOLD_ON_OTHER_KEY_PRESS then interfered_by_press cfg s
  else s

/-- Another key is pressed while the tapping key waits. -/
def interrupt (record : keyrecord_t) (s : Tapping) : Tapping :=
  settle_interrupted cfg record { s with tapping_key := s.tapping_key.setInterrupted true }

def process_unsettled (keyp : Slot) (s : Tapping) : Bool × Tapping :=
  let record := s.read keyp
  let event := record.event
  if IS_TAPPING_RECORD record s && !event.pressed then (false, first_tap cfg keyp s)
  else if !event.pressed && waiting_buffer_typed event s && chord_is_tap cfg record s then
    let s := chord_considered_tap cfg s
    (false, waiting_buffer_chordal_hold_taps_until cfg event.key s.waiting_buffer s)
  else if !event.pressed && waiting_buffer_typed event s && cfg.PERMISSIVE_HOLD then
    (false, interfered_by_typing cfg event.key s)
  else if !event.pressed && !waiting_buffer_typed event s then
    if is_retained (cfg.layer_switch_get_action s.calls event.key) record then (false, s)
    else (true, process_record cfg record s)
  else (false, if event.pressed then interrupt cfg record s else s)

def multi_tap_release (time : UInt16) (tapping_key : keyrecord_t) : keyrecord_t :=
  { tap := tapping_key.tap
    event :=
      { key := tapping_key.event.key
        time := time
        type := tapping_key.event.type
        pressed := false
        serial := 0 } }

/-- The tapping key is pressed and settled as a tap. After the tapping term
only its release differs. -/
def process_settled (after_term : Bool) (keyp : Slot) (s : Tapping) : Tapping :=
  let record := s.read keyp
  if IS_TAPPING_RECORD record s && !record.event.pressed then
    let record := { record with tap := s.tapping_key.tap }
    let s := process_record cfg record s
    if after_term then reset s else { s with tapping_key := record }
  else if is_tap_record cfg record s && record.event.pressed then
    let s := if 1 < s.tapping_key.tap.count then
        process_record cfg (multi_tap_release record.event.time s.tapping_key) s
      else s
    waiting_buffer_scan_tap cfg { s with tapping_key := record }
  else process_record cfg record s

def process_released (keyp : Slot) (s : Tapping) : Tapping :=
  let record := s.read keyp
  if record.event.pressed then
    if IS_TAPPING_RECORD record s then
      if WITHIN_QUICK_TAP_TERM cfg record.event s && !s.tapping_key.tap.interrupted &&
          0 < s.tapping_key.tap.count then
        let count := s.tapping_key.tap.count
        let record := { record with tap :=
          { s.tapping_key.tap with count := if count < 15 then count + 1 else count } }
        { process_record cfg record s with tapping_key := record }
      else { s with tapping_key := record }
    else if is_tap_record cfg record s then
      if cfg.FLOW_TAP_TERM && flow_tap_key_within cfg record s.flow_tap_prev_time s then
        reset (flow_tap_key_if_within_term cfg record s.flow_tap_prev_time s).2
      else waiting_buffer_scan_tap cfg { s with tapping_key := record }
    else
      process_record cfg record { s with tapping_key := s.tapping_key.setInterrupted true }
  else process_record cfg record s

def take_registered_tap (keyp : Slot) (s : Tapping) : Tapping :=
  let record := s.read keyp
  if (cfg.CHORDAL_HOLD || cfg.FLOW_TAP_TERM) && !record.event.pressed then
    match registered_tap_find record.event.key s with
    | some i => registered_taps_del_index i (s.write (record.setCount 1) keyp)
    | none => s
  else s

/-- True when the event is processed or consumed. -/
def process_tapping (keyp : Slot) (s : Tapping) : Bool × Tapping :=
  let event := (s.read keyp).event
  let s := take_registered_tap cfg keyp s
  if IS_NOEVENT s.tapping_key.event then (true, process_none cfg keyp s)
  else if s.tapping_key.event.pressed then
    if WITHIN_TAPPING_TERM cfg event s then
      if IS_NOEVENT event then (true, s)
      else if s.tapping_key.tap.count = 0 then process_unsettled cfg keyp s
      else (true, process_settled cfg false keyp s)
    else if s.tapping_key.tap.count = 0 then (false, reset (process_tapping_key cfg s))
    else if IS_NOEVENT event then (true, s)
    else (true, process_settled cfg true keyp s)
  else if WITHIN_TAPPING_TERM cfg event s then
    if IS_NOEVENT event then (true, s) else (true, process_released cfg keyp s)
  else (false, reset s)

/-- The loop over the buffer. Each turn but the last takes one event from it, so
its length bounds the turns. -/
def process_waiting_buffer : Nat → Tapping → Tapping
  | 0, s => s
  | turns + 1, s =>
    if s.waiting_buffer = [] then s
    else match process_tapping cfg .tail s with
      | (true, s) => process_waiting_buffer turns (popTail s)
      | (false, s) => s

/-- The new event, before the loop over the buffer. -/
def process_arrival (record : keyrecord_t) (s : Tapping) : Tapping :=
  match process_tapping cfg .record { s with record := record } with
  | (true, s) => s
  | (false, s) =>
    match waiting_buffer_enq s.record s with
    | some s => s
    | none => reset (waiting_buffer_clear (clear_keyboard s))

def action_tapping_process (record : keyrecord_t) (s : Tapping) : Tapping :=
  let s := process_arrival cfg record s
  let s := process_waiting_buffer cfg s.waiting_buffer.length s
  if !IS_EVENT record.event && cfg.FLOW_TAP_TERM && !s.flow_tap_expired &&
      32767 / 2 ≤ TIMER_DIFF_16 record.event.time s.flow_tap_prev_time then
    { s with flow_tap_expired := true }
  else s

end

end keychron_qmk.action_tapping
