-- The Repeat Key and the Alternate Repeat Key, after `repeat_key.c` and
-- `process_repeat_key.c`: each generates a record of its own, which goes back
-- through `process_record`.
import KeychronQMK.Lib.Runs
import Mathlib.Logic.Function.Basic

namespace keychron_qmk.repeats

open runs

/-! ## Keycodes -/

def KC_NO : UInt16 := 0x0000

def QK_REPEAT_KEY : UInt16 := 0x7C79

def QK_ALT_REPEAT_KEY : UInt16 := 0x7C7A

/-- The keycodes of a `case a ... b`. -/
def between (a b keycode : UInt16) : Bool := a ≤ keycode ∧ keycode ≤ b

def IS_QK_BASIC : UInt16 → Bool := between 0x0000 0x00FF

def IS_QK_MODS : UInt16 → Bool := between 0x0100 0x1FFF

def IS_QK_MOD_TAP : UInt16 → Bool := between 0x2000 0x3FFF

def IS_QK_LAYER_TAP : UInt16 → Bool := between 0x4000 0x4FFF

def IS_QK_SWAP_HANDS : UInt16 → Bool := between 0x5600 0x56FF

def IS_SWAP_HANDS_KEYCODE : UInt16 → Bool := between 0x56F0 0x56F6

structure Config where
  NO_ACTION_TAPPING : Bool
  NO_ACTION_LAYER : Bool
  NO_ACTION_ONESHOT : Bool
  TRI_LAYER_ENABLE : Bool
  LAYER_LOCK_ENABLE : Bool
  SWAP_HANDS_ENABLE : Bool
  EXTRAKEY_ENABLE : Bool
  MOUSEKEY_ENABLE : Bool

/-! ## Records -/

/-- An event of the matrix, with the keycode that `get_event_keycode` finds
for it. -/
structure keyevent_t where
  keycode : UInt16
  pressed : Bool
  deriving DecidableEq

/-- A record. `keycode` is `KC_NO` where the event decides. -/
structure keyrecord_t where
  event : keyevent_t
  tap_count : UInt8
  keycode : UInt16
  deriving DecidableEq

def get_record_keycode (record : keyrecord_t) : UInt16 :=
  if record.keycode ≠ KC_NO then record.keycode else record.event.keycode

/-- The keys that are remembered. Layer keys, modifiers, one-shot keys and
holds are not, nor are the two keys of this file. -/
def remember_last_key (cfg : Config) (keycode : UInt16) (record : keyrecord_t) : Bool :=
  if between 0x5220 0x523F keycode || between 0x5200 0x521F keycode ||
      between 0x5260 0x527F keycode || between 0x52C0 0x52DF keycode ||
      between 0x00E0 0x00E7 keycode || keycode = 0x0F00 || keycode = 0x0700 then false
  else if !cfg.NO_ACTION_ONESHOT &&
      (between 0x5280 0x529F keycode || between 0x52A0 0x52BF keycode) then false
  else if cfg.TRI_LAYER_ENABLE && (keycode = 0x7C77 || keycode = 0x7C78) then false
  else if cfg.LAYER_LOCK_ENABLE && keycode = 0x7C7B then false
  else if !cfg.NO_ACTION_TAPPING &&
      (IS_QK_MOD_TAP keycode || (!cfg.NO_ACTION_LAYER && IS_QK_LAYER_TAP keycode)) then
    record.tap_count ≠ 0
  else if cfg.SWAP_HANDS_ENABLE && IS_QK_SWAP_HANDS keycode then
    !(IS_SWAP_HANDS_KEYCODE keycode || record.tap_count = 0)
  else keycode ≠ QK_REPEAT_KEY ∧ keycode ≠ QK_ALT_REPEAT_KEY

/-! ## Alternate keycodes -/

def find_alt_keycode (table : List (UInt16 × UInt16)) (target : UInt16) : UInt16 :=
  match table.find? fun pair => pair.1 = target ∨ pair.2 = target with
  | none => KC_NO
  | some pair => if pair.1 = target then pair.2 else pair.1

/-- F and B, D and U, N and P, A and E, O and I. -/
def mod_pairs : List (UInt16 × UInt16) :=
  [(0x09, 0x05), (0x07, 0x18), (0x11, 0x13), (0x04, 0x08), (0x12, 0x0C)]

/-- J and K, H and L, W and B, E and B. -/
def shift_pairs : List (UInt16 × UInt16) :=
  [(0x0D, 0x0E), (0x0B, 0x0F), (0x1A, 0x05), (0x08, 0x05)]

/-- The arrows, Home and End, the pages, Backspace and Delete, the brackets;
then the media keys and those of the mouse. -/
def pairs (cfg : Config) : List (UInt16 × UInt16) :=
  [(0x50, 0x4F), (0x52, 0x51), (0x4A, 0x4D), (0x4B, 0x4E), (0x2A, 0x4C), (0x2F, 0x30)] ++
    (if cfg.EXTRAKEY_ENABLE then
      [(0xB6, 0xB7), (0xAB, 0xAC), (0xBB, 0xBC), (0xA9, 0xAA), (0xBD, 0xBE)] else []) ++
    (if cfg.MOUSEKEY_ENABLE then
      [(0xCF, 0xD0), (0xCD, 0xCE), (0xDB, 0xDC), (0xD9, 0xDA)] else [])

def five_bit_mods (mods : UInt8) : UInt16 :=
  let right : UInt8 := if mods &&& 0xF0 ≠ 0 then 0x10 else 0
  (right ||| ((mods >>> 4 ||| mods) &&& 0xF)).toUInt16

/-- The basic keycode in the last one, and the modifiers; none for a key of
the hands. -/
def basic_keycode (cfg : Config) (keycode mods : UInt16) : Option (UInt16 × UInt16) :=
  if IS_QK_MODS keycode then some (keycode &&& 0xFF, mods ||| (keycode >>> 8 &&& 0x1F))
  else if !cfg.NO_ACTION_TAPPING && (IS_QK_MOD_TAP keycode ||
      (!cfg.NO_ACTION_LAYER && IS_QK_LAYER_TAP keycode)) then some (keycode &&& 0xFF, mods)
  else if cfg.SWAP_HANDS_ENABLE && IS_QK_SWAP_HANDS keycode then
    if IS_SWAP_HANDS_KEYCODE keycode then none else some (keycode &&& 0xFF, mods)
  else some (keycode, mods)

def get_alt_repeat_key_keycode (cfg : Config) (last_keycode : UInt16) (last_mods : UInt8) :
    UInt16 :=
  match basic_keycode cfg last_keycode (five_bit_mods last_mods) with
  | none => KC_NO
  | some (keycode, mods) =>
    if IS_QK_BASIC keycode then
      let alt_keycode :=
        -- control, alt and gui of either hand
        if mods &&& 0x0D ≠ 0 then find_alt_keycode mod_pairs keycode
        else find_alt_keycode shift_pairs keycode
      let alt_keycode :=
        if alt_keycode = KC_NO then find_alt_keycode (pairs cfg) keycode else alt_keycode
      if alt_keycode ≠ KC_NO then mods <<< 8 ||| alt_keycode else KC_NO
    else KC_NO

/-! ## The two keys -/

/-- The key that generates a record. -/
inductive Source
  | repeat_key
  | alt_repeat_key
  deriving DecidableEq

/-- The static variables of an invoke. -/
structure Registered where
  record : keyrecord_t
  repeat_count : Int
  deriving DecidableEq

inductive Call
  | register_weak_mods (mods : UInt8)
  | unregister_weak_mods (mods : UInt8)
  | process_record (source : Source) (record : keyrecord_t)
  deriving DecidableEq

/-- The last key, the static variables of the two invokes, and the calls that
they made. The counts are of type `int8_t`, and none leaves -127 to 127. -/
structure RepeatKey where
  last_record : keyrecord_t
  last_mods : UInt8
  last_repeat_count : Int
  processing_repeat_count : Int
  registered : Source → Registered
  calls : List Call

def keyrecord_t.zero : keyrecord_t := ⟨⟨0, false⟩, 0, 0⟩

namespace RepeatKey

def boot : RepeatKey := ⟨.zero, 0, 0, 0, fun _ => ⟨.zero, 0⟩, []⟩

variable (cfg : Config) (s : RepeatKey)

def set_last_record (keycode : UInt16) (record : keyrecord_t) : RepeatKey :=
  { s with last_record := { record with keycode }, last_repeat_count := 0 }

def update_last_repeat_count (dir : Int) : RepeatKey :=
  if dir * s.last_repeat_count < 0 then { s with last_repeat_count := dir }
  else if dir * s.last_repeat_count < 127 then
    { s with last_repeat_count := s.last_repeat_count + dir }
  else s

/-- `mods` are the modifiers in force, one-shot ones too. -/
def process_last_key (mods : UInt8) (keycode : UInt16) (record : keyrecord_t) : RepeatKey :=
  if s.processing_repeat_count ≠ 0 then s
  else if record.event.pressed ∧ remember_last_key cfg keycode record then
    { s.set_last_record keycode record with last_mods := mods }
  else s

def generate (process : keyrecord_t → RepeatKey → Option RepeatKey) (source : Source)
    (event : keyevent_t) : Option RepeatKey :=
  let reg := s.registered source
  let record := { reg.record with event }
  let s :=
    { s with
      registered := Function.update s.registered source { reg with record }
      processing_repeat_count := reg.repeat_count
      calls := s.calls ++ [.process_record source record] }
  (process record s).map fun s => { s with processing_repeat_count := 0 }

def repeat_key_press : RepeatKey :=
  let s := s.update_last_repeat_count 1
  let reg : Registered := ⟨s.last_record, s.last_repeat_count⟩
  { s with
    registered := Function.update s.registered .repeat_key reg
    calls := s.calls ++ [.register_weak_mods s.last_mods] }

def repeat_key_invoke (process : keyrecord_t → RepeatKey → Option RepeatKey)
    (event : keyevent_t) : Option RepeatKey :=
  if s.processing_repeat_count ≠ 0 ∨ s.last_record.keycode = KC_NO then some s
  else if event.pressed then s.repeat_key_press.generate process .repeat_key event
  else (s.generate process .repeat_key event).map fun s =>
    { s with calls := s.calls ++ [.unregister_weak_mods s.last_mods] }

/-- The alternate keycode is taken; the count is still the one of before. -/
def alt_repeat_key_press : RepeatKey :=
  let keycode := get_alt_repeat_key_keycode cfg s.last_record.keycode s.last_mods
  let reg : Registered :=
    ⟨⟨keyrecord_t.zero.event, 0, keycode⟩, (s.registered .alt_repeat_key).repeat_count⟩
  { s with registered := Function.update s.registered .alt_repeat_key reg }

def alt_repeat_key_count : RepeatKey :=
  let s := s.update_last_repeat_count (-1)
  let reg : Registered := ⟨(s.registered .alt_repeat_key).record, s.last_repeat_count⟩
  { s with registered := Function.update s.registered .alt_repeat_key reg }

def alt_repeat_key_invoke (process : keyrecord_t → RepeatKey → Option RepeatKey)
    (event : keyevent_t) : Option RepeatKey :=
  if s.processing_repeat_count ≠ 0 then some s
  else
    let s := if event.pressed then s.alt_repeat_key_press cfg else s
    if (s.registered .alt_repeat_key).record.keycode = KC_NO then some s
    else if event.pressed then s.alt_repeat_key_count.generate process .alt_repeat_key event
    else s.generate process .alt_repeat_key event

def process_repeat_key (process : keyrecord_t → RepeatKey → Option RepeatKey)
    (keycode : UInt16) (record : keyrecord_t) : Option RepeatKey :=
  if s.processing_repeat_count ≠ 0 then some s
  else if keycode = QK_REPEAT_KEY then s.repeat_key_invoke process record.event
  else if keycode = QK_ALT_REPEAT_KEY then s.alt_repeat_key_invoke cfg process record.event
  else some s

/-- `process_record`, as far as the two keys take part. It is none when more
than `fuel` calls are nested. -/
def process_record (cfg : Config) (mods : UInt8) :
    Nat → keyrecord_t → RepeatKey → Option RepeatKey
  | 0, _, _ => none
  | fuel + 1, record, s =>
    let keycode := get_record_keycode record
    (s.process_last_key cfg mods keycode record).process_repeat_key cfg
      (process_record cfg mods fuel) keycode record

end RepeatKey

/-! ## The run -/

/-- An event of the matrix, with the taps of its key and the modifiers in
force. -/
structure Event where
  event : keyevent_t
  tap_count : UInt8
  mods : UInt8

def Event.source? (e : Event) : Option Source :=
  if e.event.keycode = QK_REPEAT_KEY then some .repeat_key
  else if e.event.keycode = QK_ALT_REPEAT_KEY then some .alt_repeat_key
  else none

def generated (source : Source) (calls : List Call) : List (UInt16 × Bool) :=
  calls.filterMap fun
    | .process_record src record =>
      if src = source then some (get_record_keycode record, record.event.pressed) else none
    | _ => none

/-- The keyboard, and for each of the two keys whether it is held and the
keycode that it generated a press of. `found` is whether the last press of the
Repeat Key found a last key, and the keyboard is `lost` once the calls nest
without end. -/
structure Watched where
  keys : RepeatKey
  lost : Bool
  held : Source → Bool
  down : Source → Option UInt16
  found : Bool

/-- The keycode that is down after records of its key. -/
def follow (down : Option UInt16) (records : List (UInt16 × Bool)) : Option UInt16 :=
  records.foldl (fun _ record => if record.2 then some record.1 else none) down

/-- What a key may generate. At a press it is at most one press, where none is
down; at a release it is the release of what is down; it is nothing at the
event of another key. -/
def Answers (pressed : Option Bool) (down : Option UInt16) (records : List (UInt16 × Bool)) :
    Prop :=
  match pressed with
  | none => records = []
  | some true => down = none ∧ (records = [] ∨ ∃ keycode, records = [(keycode, true)])
  | some false => records = (down.map (·, false)).toList

namespace Watched

def boot : Watched := ⟨.boot, false, fun _ => false, fun _ => none, false⟩

variable (cfg : Config) (fuel : Nat) (w : Watched) (e : Event)

/-- The keyboard before an event, with no calls yet. -/
def start : RepeatKey := { w.keys with calls := [] }

/-- `process_record` of an event, with two nested calls or more. -/
def turn : Option RepeatKey :=
  RepeatKey.process_record cfg e.mods (fuel + 2) ⟨e.event, e.tap_count, KC_NO⟩ w.start

def step : Watched :=
  if w.lost then w
  else
    match w.turn cfg fuel e with
    | none => { w with lost := true }
    | some keys =>
      { keys
        lost := false
        held := match e.source? with
          | none => w.held
          | some source => Function.update w.held source e.event.pressed
        down := fun source => follow (w.down source) (generated source keys.calls)
        found := if e.source? = some .repeat_key ∧ e.event.pressed then
            w.keys.last_record.keycode ≠ KC_NO
          else w.found }

/-- The presses and releases of each of the two keys take turns. -/
def WellFormed : Prop :=
  ∀ source, e.source? = some source → e.event.pressed = !w.held source

def Paired : Prop :=
  (w.step cfg fuel e).lost = false ∧ ∀ source,
    Answers (if e.source? = some source then some e.event.pressed else none) (w.down source)
      (generated source (w.step cfg fuel e).keys.calls)

/-- The release of the Repeat Key finds a last key exactly if its press did. -/
def Settled : Prop :=
  e.source? = some .repeat_key → e.event.pressed = false →
    (w.found = true ↔ w.keys.last_record.keycode ≠ KC_NO)

end Watched

/-! ## Records that come back -/

namespace RepeatKey

variable {cfg : Config} {mods : UInt8} {fuel : Nat} {s : RepeatKey} {source : Source}
  {event : keyevent_t} {record : keyrecord_t}

theorem alt_ne_repeat : QK_ALT_REPEAT_KEY ≠ QK_REPEAT_KEY := by decide

@[simp] theorem remember_repeat_key : remember_last_key cfg QK_REPEAT_KEY record = false := by
  simp [remember_last_key, QK_REPEAT_KEY, between, IS_QK_MOD_TAP, IS_QK_LAYER_TAP,
    IS_QK_SWAP_HANDS]

@[simp] theorem remember_alt_repeat_key :
    remember_last_key cfg QK_ALT_REPEAT_KEY record = false := by
  simp [remember_last_key, QK_ALT_REPEAT_KEY, between, IS_QK_MOD_TAP, IS_QK_LAYER_TAP,
    IS_QK_SWAP_HANDS]

theorem update_last_repeat_count_ne_zero {dir : Int} (h : dir = 1 ∨ dir = -1) :
    (s.update_last_repeat_count dir).last_repeat_count ≠ 0 := by
  unfold update_last_repeat_count
  rcases h with rfl | rfl
  all_goals
    split_ifs
    all_goals
      simp only [ne_eq]
      omega

section

variable {dir : Int}

@[simp] theorem update_last_repeat_count_calls :
    (s.update_last_repeat_count dir).calls = s.calls := by
  unfold update_last_repeat_count
  split_ifs <;> rfl

@[simp] theorem update_last_repeat_count_last_record :
    (s.update_last_repeat_count dir).last_record = s.last_record := by
  unfold update_last_repeat_count
  split_ifs <;> rfl

@[simp] theorem update_last_repeat_count_registered :
    (s.update_last_repeat_count dir).registered = s.registered := by
  unfold update_last_repeat_count
  split_ifs <;> rfl

end

@[simp] theorem repeat_key_press_calls : s.repeat_key_press.calls =
    s.calls ++ [.register_weak_mods (s.update_last_repeat_count 1).last_mods] := by
  simp [repeat_key_press]

@[simp] theorem repeat_key_press_registered : s.repeat_key_press.registered =
    Function.update s.registered .repeat_key
      ⟨s.last_record, (s.update_last_repeat_count 1).last_repeat_count⟩ := by
  simp [repeat_key_press]

@[simp] theorem alt_repeat_key_press_calls : (s.alt_repeat_key_press cfg).calls = s.calls := rfl

@[simp] theorem alt_repeat_key_press_idle :
    (s.alt_repeat_key_press cfg).processing_repeat_count = s.processing_repeat_count := rfl

theorem alt_repeat_key_press_registered_of_ne (h : source ≠ .alt_repeat_key) :
    (s.alt_repeat_key_press cfg).registered source = s.registered source :=
  Function.update_of_ne h _ _

@[simp] theorem alt_repeat_key_count_calls : s.alt_repeat_key_count.calls = s.calls := by
  simp [alt_repeat_key_count]

@[simp] theorem alt_repeat_key_count_registered : s.alt_repeat_key_count.registered =
    Function.update s.registered .alt_repeat_key ⟨(s.registered .alt_repeat_key).record,
      (s.update_last_repeat_count (-1)).last_repeat_count⟩ := by
  simp [alt_repeat_key_count]

theorem process_record_guarded (h : s.processing_repeat_count ≠ 0) :
    process_record cfg mods (fuel + 1) record s = some s := by
  simp [process_record, process_last_key, process_repeat_key, h]

theorem process_record_repeat_key (h : s.processing_repeat_count = 0)
    (hkey : get_record_keycode record = QK_REPEAT_KEY) :
    process_record cfg mods (fuel + 1) record s =
      s.repeat_key_invoke (process_record cfg mods fuel) record.event := by
  simp [process_record, process_last_key, process_repeat_key, h, hkey]

theorem process_record_alt_repeat_key (h : s.processing_repeat_count = 0)
    (hkey : get_record_keycode record = QK_ALT_REPEAT_KEY) :
    process_record cfg mods (fuel + 1) record s =
      s.alt_repeat_key_invoke cfg (process_record cfg mods fuel) record.event := by
  simp [process_record, process_last_key, process_repeat_key, h, hkey, alt_ne_repeat]

theorem process_record_other_key (h : s.processing_repeat_count = 0)
    (hrepeat : get_record_keycode record ≠ QK_REPEAT_KEY)
    (halt : get_record_keycode record ≠ QK_ALT_REPEAT_KEY) :
    process_record cfg mods (fuel + 1) record s =
      some (s.process_last_key cfg mods (get_record_keycode record) record) := by
  have hlast : ∀ keycode,
      (s.process_last_key cfg mods keycode record).processing_repeat_count = 0 := by
    intro keycode
    unfold process_last_key set_last_record
    split_ifs <;> exact h
  simp [process_record, process_repeat_key, hlast, hrepeat, halt]

/-- What a guarded record leaves. -/
def after (s : RepeatKey) (source : Source) (event : keyevent_t) : RepeatKey :=
  let reg := s.registered source
  let record := { reg.record with event }
  { s with
    registered := Function.update s.registered source { reg with record }
    processing_repeat_count := 0
    calls := s.calls ++ [.process_record source record] }

@[simp] theorem after_calls : (s.after source event).calls =
    s.calls ++ [.process_record source { (s.registered source).record with event }] := rfl

@[simp] theorem after_registered : (s.after source event).registered =
    Function.update s.registered source
      { s.registered source with record := { (s.registered source).record with event } } := rfl

@[simp] theorem after_idle : (s.after source event).processing_repeat_count = 0 := rfl

theorem generate_guarded (h : (s.registered source).repeat_count ≠ 0) :
    s.generate (process_record cfg mods (fuel + 1)) source event = some (s.after source event) := by
  simp only [generate, process_record_guarded (s := { s with
    processing_repeat_count := (s.registered source).repeat_count, registered := _, calls := _ }) h]
  rfl

/-- A release with a last key, but no record to release, comes back as itself
without end. -/
theorem process_record_endless (hidle : s.processing_repeat_count = 0)
    (hlast : s.last_record.keycode ≠ KC_NO)
    (hrecord : (s.registered .repeat_key).record.keycode = KC_NO)
    (hcount : (s.registered .repeat_key).repeat_count = 0)
    (hkey : get_record_keycode record = QK_REPEAT_KEY)
    (hevent : record.event.keycode = QK_REPEAT_KEY) (hpressed : record.event.pressed = false) :
    process_record cfg mods fuel record s = none := by
  induction fuel generalizing s record with
  | zero => rfl
  | succ fuel ih =>
    rw [process_record_repeat_key hidle hkey, repeat_key_invoke,
      if_neg (by simp [hidle, hlast]), if_neg (by simp [hpressed])]
    simp only [generate, Option.map_map, Option.map_eq_none_iff]
    apply ih
    · exact hcount
    · exact hlast
    · simpa using hrecord
    · simpa using hcount
    · simpa [get_record_keycode, hrecord] using hevent
    · exact hevent
    · exact hpressed

theorem repeat_key_invoke_of_no_last_key (hlast : s.last_record.keycode = KC_NO) :
    s.repeat_key_invoke (process_record cfg mods fuel) event = some s := by
  simp [repeat_key_invoke, hlast]

theorem repeat_key_invoke_of_press (hidle : s.processing_repeat_count = 0)
    (hlast : s.last_record.keycode ≠ KC_NO) (hpressed : event.pressed = true) :
    s.repeat_key_invoke (process_record cfg mods (fuel + 1)) event =
      some (s.repeat_key_press.after .repeat_key event) := by
  have hcount : (s.repeat_key_press.registered .repeat_key).repeat_count ≠ 0 := by
    simpa [repeat_key_press] using update_last_repeat_count_ne_zero (.inl rfl)
  simp [repeat_key_invoke, hidle, hlast, hpressed, generate_guarded hcount]

theorem repeat_key_invoke_of_release (hidle : s.processing_repeat_count = 0)
    (hlast : s.last_record.keycode ≠ KC_NO) (hpressed : event.pressed = false)
    (hcount : (s.registered .repeat_key).repeat_count ≠ 0) :
    s.repeat_key_invoke (process_record cfg mods (fuel + 1)) event =
      some { s.after .repeat_key event with
        calls := (s.after .repeat_key event).calls ++
          [.unregister_weak_mods (s.after .repeat_key event).last_mods] } := by
  simp [repeat_key_invoke, hidle, hlast, hpressed, generate_guarded hcount]

theorem alt_repeat_key_invoke_of_press (hidle : s.processing_repeat_count = 0)
    (hpressed : event.pressed = true) :
    let t := s.alt_repeat_key_press cfg
    s.alt_repeat_key_invoke cfg (process_record cfg mods (fuel + 1)) event =
      if (t.registered .alt_repeat_key).record.keycode = KC_NO then some t
      else some (t.alt_repeat_key_count.after .alt_repeat_key event) := by
  intro t
  have hcount : (t.alt_repeat_key_count.registered .alt_repeat_key).repeat_count ≠ 0 := by
    simpa [alt_repeat_key_count] using update_last_repeat_count_ne_zero (.inr rfl)
  simp [alt_repeat_key_invoke, hidle, hpressed, generate_guarded hcount, t]

theorem alt_repeat_key_invoke_of_release (hidle : s.processing_repeat_count = 0)
    (hpressed : event.pressed = false)
    (hcount : (s.registered .alt_repeat_key).record.keycode ≠ KC_NO →
      (s.registered .alt_repeat_key).repeat_count ≠ 0) :
    s.alt_repeat_key_invoke cfg (process_record cfg mods (fuel + 1)) event =
      if (s.registered .alt_repeat_key).record.keycode = KC_NO then some s
      else some (s.after .alt_repeat_key event) := by
  by_cases hkeycode : (s.registered .alt_repeat_key).record.keycode = KC_NO
  · simp [alt_repeat_key_invoke, hidle, hpressed, hkeycode]
  · simp [alt_repeat_key_invoke, hidle, hpressed, hkeycode, generate_guarded (hcount hkeycode)]

end RepeatKey

/-! ## Every turn -/

namespace Watched

variable {cfg : Config} {fuel : Nat} {w : Watched} {e : Event}

/-- What the Repeat Key keeps between two events: it has something down
exactly while it is held and found a last key, a record to release has a
count, and none has none. -/
structure RepeatKept (found held : Bool) (down : Option UInt16) (reg : Registered) : Prop where
  released : held = false → down = none
  down_eq : held = true → down = if found then some reg.record.keycode else none
  found : held = true → found = true → reg.record.keycode ≠ KC_NO
  zero : reg.record.keycode = KC_NO → reg.repeat_count = 0
  guarded : reg.record.keycode ≠ KC_NO → reg.repeat_count ≠ 0

/-- What the Alternate Repeat Key keeps. -/
structure AltKept (held : Bool) (down : Option UInt16) (reg : Registered) : Prop where
  released : held = false → down = none
  down_eq : held = true →
    down = if reg.record.keycode = KC_NO then none else some reg.record.keycode
  guarded : reg.record.keycode ≠ KC_NO → reg.repeat_count ≠ 0

/-- Between two events no record is processed. -/
structure Kept (w : Watched) : Prop where
  running : w.lost = false
  idle : w.keys.processing_repeat_count = 0
  repeat_key : RepeatKept w.found (w.held .repeat_key) (w.down .repeat_key)
    (w.keys.registered .repeat_key)
  alt_repeat_key : AltKept (w.held .alt_repeat_key) (w.down .alt_repeat_key)
    (w.keys.registered .alt_repeat_key)

theorem Kept.boot : Kept .boot where
  running := rfl
  idle := rfl
  repeat_key := ⟨fun _ => rfl, fun h => by simp [Watched.boot] at h,
    fun h => by simp [Watched.boot] at h, fun _ => rfl, fun h => absurd rfl h⟩
  alt_repeat_key := ⟨fun _ => rfl, fun h => by simp [Watched.boot] at h, fun h => absurd rfl h⟩

/-- What an event may come to. -/
inductive Outcome (cfg : Config) (w : Watched) (e : Event) : Option RepeatKey → Prop
  | other {keys : RepeatKey} (source : e.source? = none)
      (same : keys.registered = w.start.registered) (idle : keys.processing_repeat_count = 0)
      (calls : keys.calls = []) : Outcome cfg w e (some keys)
  | no_last_key (source : e.source? = some .repeat_key)
      (last : w.start.last_record.keycode = KC_NO) :
      Outcome cfg w e (some w.start)
  | repeat_press (source : e.source? = some .repeat_key)
      (last : w.start.last_record.keycode ≠ KC_NO) (pressed : e.event.pressed = true) :
      Outcome cfg w e
        (some (RepeatKey.after w.start.repeat_key_press .repeat_key e.event))
  | repeat_release (source : e.source? = some .repeat_key)
      (last : w.start.last_record.keycode ≠ KC_NO) (pressed : e.event.pressed = false)
      (record : (w.start.registered .repeat_key).record.keycode ≠ KC_NO) {keys : RepeatKey}
      (keys_eq : keys = RepeatKey.after w.start .repeat_key e.event) :
      Outcome cfg w e (some { keys with
        calls := keys.calls ++ [.unregister_weak_mods keys.last_mods] })
  | endless (source : e.source? = some .repeat_key)
      (last : w.start.last_record.keycode ≠ KC_NO) (pressed : e.event.pressed = false)
      (record : (w.start.registered .repeat_key).record.keycode = KC_NO) :
      Outcome cfg w e none
  | no_alternate (source : e.source? = some .alt_repeat_key) (pressed : e.event.pressed = true)
      {keys : RepeatKey}
      (keys_eq : keys = RepeatKey.alt_repeat_key_press cfg w.start)
      (record : (keys.registered .alt_repeat_key).record.keycode = KC_NO) :
      Outcome cfg w e (some keys)
  | alt_press (source : e.source? = some .alt_repeat_key) (pressed : e.event.pressed = true)
      {keys : RepeatKey}
      (keys_eq : keys = RepeatKey.alt_repeat_key_press cfg w.start)
      (record : (keys.registered .alt_repeat_key).record.keycode ≠ KC_NO) :
      Outcome cfg w e (some (keys.alt_repeat_key_count.after .alt_repeat_key e.event))
  | no_release (source : e.source? = some .alt_repeat_key) (pressed : e.event.pressed = false)
      (record : (w.start.registered .alt_repeat_key).record.keycode = KC_NO) :
      Outcome cfg w e (some w.start)
  | alt_release (source : e.source? = some .alt_repeat_key) (pressed : e.event.pressed = false)
      (record : (w.start.registered .alt_repeat_key).record.keycode ≠ KC_NO) :
      Outcome cfg w e
        (some (RepeatKey.after w.start .alt_repeat_key e.event))

theorem source_repeat_key (h : e.event.keycode = QK_REPEAT_KEY) :
    e.source? = some .repeat_key := by
  simp [Event.source?, h]

theorem source_alt_repeat_key (h : e.event.keycode = QK_ALT_REPEAT_KEY) :
    e.source? = some .alt_repeat_key := by
  simp [Event.source?, h, RepeatKey.alt_ne_repeat]

open RepeatKey in
theorem Kept.outcome (h : Kept w) (fuel : Nat) (e : Event) :
    Outcome cfg w e (w.turn cfg fuel e) := by
  have hidle : w.start.processing_repeat_count = 0 := h.idle
  unfold turn
  by_cases hrepeat : e.event.keycode = QK_REPEAT_KEY
  · have hsource := source_repeat_key hrepeat
    rw [process_record_repeat_key hidle (by simpa [get_record_keycode] using hrepeat)]
    by_cases hlast : w.start.last_record.keycode = KC_NO
    · rw [repeat_key_invoke_of_no_last_key hlast]
      exact .no_last_key hsource hlast
    · rcases hpressed : e.event.pressed with _ | _
      · by_cases hrecord : (w.start.registered .repeat_key).record.keycode = KC_NO
        · have hnone : process_record cfg e.mods (fuel + 2) ⟨e.event, e.tap_count, KC_NO⟩ w.start =
              none := process_record_endless hidle hlast hrecord (h.repeat_key.zero hrecord)
                (by simpa [get_record_keycode] using hrepeat) hrepeat hpressed
          rw [process_record_repeat_key hidle (by simpa [get_record_keycode] using hrepeat)]
            at hnone
          rw [hnone]
          exact .endless hsource hlast hpressed hrecord
        · rw [repeat_key_invoke_of_release hidle hlast hpressed (h.repeat_key.guarded hrecord)]
          exact .repeat_release hsource hlast hpressed hrecord rfl
      · rw [repeat_key_invoke_of_press hidle hlast hpressed]
        exact .repeat_press hsource hlast hpressed
  · by_cases halt : e.event.keycode = QK_ALT_REPEAT_KEY
    · have hsource := source_alt_repeat_key halt
      rw [process_record_alt_repeat_key hidle (by simpa [get_record_keycode] using halt)]
      rcases hpressed : e.event.pressed with _ | _
      · rw [alt_repeat_key_invoke_of_release hidle hpressed h.alt_repeat_key.guarded]
        split
        · rename_i hrecord
          exact .no_release hsource hpressed hrecord
        · rename_i hrecord
          exact .alt_release hsource hpressed hrecord
      · rw [alt_repeat_key_invoke_of_press hidle hpressed]
        split
        · rename_i hrecord
          exact .no_alternate hsource hpressed rfl hrecord
        · rename_i hrecord
          exact .alt_press hsource hpressed rfl hrecord
    · rw [process_record_other_key hidle (by simpa [get_record_keycode] using hrepeat)
        (by simpa [get_record_keycode] using halt)]
      have hlast : ∀ keycode record,
          (w.start.process_last_key cfg e.mods keycode record).registered = w.start.registered ∧
            (w.start.process_last_key cfg e.mods keycode record).processing_repeat_count = 0 ∧
              (w.start.process_last_key cfg e.mods keycode record).calls = [] := by
        intro keycode record
        unfold process_last_key set_last_record
        split_ifs <;> exact ⟨rfl, hidle, rfl⟩
      obtain ⟨hsame, hcount, hcalls⟩ := hlast e.event.keycode ⟨e.event, e.tap_count, KC_NO⟩
      exact .other (by simp [Event.source?, hrepeat, halt]) hsame hcount hcalls

@[simp] theorem generated_nil (source : Source) : generated source [] = [] := rfl

@[simp] theorem generated_register (source : Source) (mods : UInt8) (calls : List Call) :
    generated source (.register_weak_mods mods :: calls) = generated source calls := rfl

@[simp] theorem generated_unregister (source : Source) (mods : UInt8) (calls : List Call) :
    generated source (.unregister_weak_mods mods :: calls) = generated source calls := rfl

@[simp] theorem generated_record (source : Source) (record : keyrecord_t) (calls : List Call) :
    generated source (.process_record source record :: calls) =
      (get_record_keycode record, record.event.pressed) :: generated source calls := by
  simp [generated]

@[simp] theorem generated_record_of_ne {source src : Source} (h : src ≠ source)
    (record : keyrecord_t) (calls : List Call) :
    generated source (.process_record src record :: calls) = generated source calls := by
  simp [generated, h]

@[simp] theorem start_calls : w.start.calls = [] := rfl

@[simp] theorem start_registered : w.start.registered = w.keys.registered := rfl

@[simp] theorem start_last_record : w.start.last_record = w.keys.last_record := rfl

variable {keys : RepeatKey}

theorem paired_of_turn (hlost : w.lost = false) (ht : w.turn cfg fuel e = some keys) :
    w.Paired cfg fuel e ↔ ∀ source,
      Answers (if e.source? = some source then some e.event.pressed else none) (w.down source)
        (generated source keys.calls) := by
  simp [Paired, step, hlost, ht]

theorem not_paired_of_endless (hlost : w.lost = false) (ht : w.turn cfg fuel e = none) :
    ¬ w.Paired cfg fuel e := by
  simp [Paired, step, hlost, ht]

theorem forall_answers_iff {source : Source} (other : Source) (hne : source ≠ other) {pressed : Bool}
    {down : Source → Option UInt16} {records : Source → List (UInt16 × Bool)}
    (hother : records other = []) :
    (∀ src, Answers (if some source = some src then some pressed else none) (down src)
      (records src)) ↔ Answers (some pressed) (down source) (records source) := by
  constructor
  · intro h
    simpa using h source
  · intro h src
    by_cases hsrc : source = src
    · subst hsrc
      simpa using h
    · have : src = other := by
        cases source <;> cases other <;> cases src <;> simp_all
      subst this
      simpa [hsrc, Answers] using hother

/-- An event has the two keys generate what they may exactly when a release of
the Repeat Key finds what its press found. -/
theorem Kept.paired_iff (h : Kept w) (hwf : w.WellFormed e) (fuel : Nat) :
    w.Settled e ↔ w.Paired cfg fuel e := by
  have hout : Outcome cfg w e (w.turn cfg fuel e) := h.outcome fuel e
  generalize ht : w.turn cfg fuel e = turn at hout
  unfold Settled
  cases hout with
  | other source same idle calls =>
    rw [paired_of_turn h.running ht]
    simp [source, calls, Answers]
  | no_last_key source last =>
    rw [start_last_record] at last
    rw [paired_of_turn h.running ht, source,
      forall_answers_iff .alt_repeat_key (by simp) rfl]
    rcases hpressed : e.event.pressed with _ | _
    · have hdown := h.repeat_key.down_eq (by simpa [hpressed] using hwf _ source)
      simp [Answers, hdown, last]
    · have hdown := h.repeat_key.released (by simpa [hpressed] using hwf _ source)
      simp [Answers, hdown]
  | repeat_press source last pressed =>
    have hdown := h.repeat_key.released (by simpa [pressed] using hwf _ source)
    rw [paired_of_turn h.running ht, source,
      forall_answers_iff .alt_repeat_key (by simp) (by simp)]
    simp [pressed, Answers, hdown]
  | repeat_release source last pressed record keys_eq =>
    have hdown := h.repeat_key.down_eq (by simpa [pressed] using hwf _ source)
    simp only [start_last_record, start_registered] at last record
    subst keys_eq
    rw [paired_of_turn h.running ht, source,
      forall_answers_iff .alt_repeat_key (by simp) (by simp)]
    rcases hfound : w.found with _ | _
    · simp [pressed, last, hdown, hfound, Answers]
    · simp [pressed, last, hdown, hfound, Answers, get_record_keycode, record]
  | endless source last pressed record =>
    simp only [start_last_record, start_registered] at last record
    have hfound : w.found = true → False := fun hfound =>
      h.repeat_key.found (by simpa [pressed] using hwf _ source) hfound record
    simpa [source, pressed, last, not_paired_of_endless h.running ht] using hfound
  | no_alternate source pressed keys_eq record =>
    have hdown := h.alt_repeat_key.released (by simpa [pressed] using hwf _ source)
    subst keys_eq
    rw [paired_of_turn h.running ht, source,
      forall_answers_iff .repeat_key (by simp) rfl]
    simp [pressed, Answers, hdown]
  | alt_press source pressed keys_eq record =>
    have hdown := h.alt_repeat_key.released (by simpa [pressed] using hwf _ source)
    subst keys_eq
    rw [paired_of_turn h.running ht, source,
      forall_answers_iff .repeat_key (by simp) (by simp)]
    simp [pressed, Answers, hdown]
  | no_release source pressed record =>
    have hdown := h.alt_repeat_key.down_eq (by simpa [pressed] using hwf _ source)
    rw [start_registered] at record
    rw [paired_of_turn h.running ht, source,
      forall_answers_iff .repeat_key (by simp) rfl]
    simp [pressed, Answers, hdown, record]
  | alt_release source pressed record =>
    have hdown := h.alt_repeat_key.down_eq (by simpa [pressed] using hwf _ source)
    rw [start_registered] at record
    rw [paired_of_turn h.running ht, source,
      forall_answers_iff .repeat_key (by simp) (by simp)]
    simp [pressed, Answers, hdown, record, get_record_keycode]

theorem step_of_turn (hlost : w.lost = false) (ht : w.turn cfg fuel e = some keys) :
    w.step cfg fuel e =
      { keys
        lost := false
        held := match e.source? with
          | none => w.held
          | some source => Function.update w.held source e.event.pressed
        down := fun source => follow (w.down source) (generated source keys.calls)
        found := if e.source? = some .repeat_key ∧ e.event.pressed then
            w.keys.last_record.keycode ≠ KC_NO
          else w.found } := by
  simp [step, hlost, ht]

@[simp] theorem follow_nil (down : Option UInt16) : follow down [] = down := rfl

@[simp] theorem follow_press (down : Option UInt16) (keycode : UInt16) :
    follow down [(keycode, true)] = some keycode := rfl

@[simp] theorem follow_release (down : Option UInt16) (keycode : UInt16) :
    follow down [(keycode, false)] = none := rfl

variable {down : Option UInt16} {reg : Registered}

theorem RepeatKept.nothing_down {found held : Bool} (h : RepeatKept found held down reg)
    (found' held' : Bool) (event : keyevent_t) (hnone : held' = true → found' = false) :
    RepeatKept found' held' none { reg with record := { reg.record with event } } where
  released _ := rfl
  down_eq hheld := by simp [hnone hheld]
  found hheld hfound := by simp [hnone hheld] at hfound
  zero := h.zero
  guarded := h.guarded

theorem AltKept.nothing_down {held : Bool} (h : AltKept held down reg) (event : keyevent_t) :
    AltKept false none { reg with record := { reg.record with event } } where
  released _ := rfl
  down_eq hheld := by simp at hheld
  guarded := h.guarded

/-- An event that leaves each key what it may keeps the two keys. -/
theorem Kept.step (h : Kept w) (hwf : w.WellFormed e) (hpaired : w.Paired cfg fuel e) :
    Kept (w.step cfg fuel e) := by
  have hsettled := (h.paired_iff hwf fuel).mpr hpaired
  have hout : Outcome cfg w e (w.turn cfg fuel e) := h.outcome fuel e
  generalize ht : w.turn cfg fuel e = turn at hout
  cases hout with
  | other source same idle calls =>
    rw [step_of_turn h.running ht]
    refine ⟨rfl, idle, ?_, ?_⟩
    · simpa [source, same, calls] using h.repeat_key
    · simpa [source, same, calls] using h.alt_repeat_key
  | no_last_key source last =>
    rw [start_last_record] at last
    rw [step_of_turn h.running ht]
    refine ⟨rfl, h.idle, ?_, ?_⟩
    · rcases hpressed : e.event.pressed with _ | _
      · have hdown := h.repeat_key.down_eq (by simpa [hpressed] using hwf _ source)
        have hnone : w.down .repeat_key = none := by
          simpa [last, hdown] using hsettled source hpressed
        simpa [source, hpressed, hnone] using
          h.repeat_key.nothing_down w.found false _ (by simp)
      · have hdown := h.repeat_key.released (by simpa [hpressed] using hwf _ source)
        simpa [source, hpressed, hdown, last] using
          h.repeat_key.nothing_down false true _ (by simp)
    · simpa [source] using h.alt_repeat_key
  | repeat_press source last pressed =>
    rw [step_of_turn h.running ht]
    refine ⟨rfl, rfl, ?_, ?_⟩
    · rw [start_last_record] at last
      have hcount := RepeatKey.update_last_repeat_count_ne_zero (s := w.start) (.inl rfl)
      constructor <;> simp [source, pressed, last, get_record_keycode, hcount]
    · simpa [source] using h.alt_repeat_key
  | repeat_release source last pressed record keys_eq =>
    subst keys_eq
    rw [step_of_turn h.running ht]
    refine ⟨rfl, rfl, ?_, ?_⟩
    · simpa [source, pressed] using
        h.repeat_key.nothing_down w.found false e.event (by simp)
    · simpa [source] using h.alt_repeat_key
  | endless source last pressed record =>
    exact absurd hpaired (not_paired_of_endless h.running ht)
  | no_alternate source pressed keys_eq record =>
    have hdown := h.alt_repeat_key.released (by simpa [pressed] using hwf _ source)
    subst keys_eq
    rw [step_of_turn h.running ht]
    refine ⟨rfl, h.idle, ?_, ?_⟩
    · simpa [source, RepeatKey.alt_repeat_key_press_registered_of_ne] using h.repeat_key
    · constructor <;> simp [source, pressed, hdown]
      · simp [record]
      · exact fun hne => absurd record hne
  | alt_press source pressed keys_eq record =>
    subst keys_eq
    rw [step_of_turn h.running ht]
    refine ⟨rfl, rfl, ?_, ?_⟩
    · simpa [source, RepeatKey.alt_repeat_key_press_registered_of_ne] using h.repeat_key
    · have hcount := RepeatKey.update_last_repeat_count_ne_zero
        (s := RepeatKey.alt_repeat_key_press cfg w.start) (.inr rfl)
      constructor <;> simp [source, pressed, record, get_record_keycode, hcount]
  | no_release source pressed record =>
    have hdown := h.alt_repeat_key.down_eq (by simpa [pressed] using hwf _ source)
    rw [start_registered] at record
    rw [step_of_turn h.running ht]
    refine ⟨rfl, h.idle, ?_, ?_⟩
    · simpa [source] using h.repeat_key
    · constructor <;> simp [source, pressed, hdown, record]
  | alt_release source pressed record =>
    rw [step_of_turn h.running ht]
    refine ⟨rfl, rfl, ?_, ?_⟩
    · simpa [source] using h.repeat_key
    · simpa [source, pressed] using h.alt_repeat_key.nothing_down e.event

/-- In every run from the boot, whatever number of calls may nest beyond two,
all events have the two keys release what they pressed exactly when each
release of the Repeat Key finds what its press found. -/
theorem the_keys_release_what_they_pressed_iff (cfg : Config) (fuel : Nat)
    (events : List Event) (h : Along (step cfg fuel) WellFormed boot events) :
    Along (step cfg fuel) (Paired cfg fuel) boot events ↔
      Along (step cfg fuel) Settled boot events :=
  Along.iff_of_along (I := Kept) (fun _ _ hkept hwf => hkept.paired_iff hwf fuel)
    (fun _ _ hkept hwf hpaired => hkept.step hwf hpaired) Kept.boot h

def plain : Config := ⟨false, false, false, false, false, false, false, false⟩

def KC_A : UInt16 := 0x0004

def press (keycode : UInt16) : Event := ⟨⟨keycode, true⟩, 0, 0⟩

def release (keycode : UInt16) : Event := ⟨⟨keycode, false⟩, 0, 0⟩

/-- A is typed and repeated. -/
theorem a_tap_is_repeated :
    Along (step plain 0) WellFormed boot
      [press KC_A, release KC_A, press QK_REPEAT_KEY, release QK_REPEAT_KEY] ∧
    Along (step plain 0) (Paired plain 0) boot
      [press KC_A, release KC_A, press QK_REPEAT_KEY, release QK_REPEAT_KEY] := by
  have hwf : Along (step plain 0) WellFormed boot
      [press KC_A, release KC_A, press QK_REPEAT_KEY, release QK_REPEAT_KEY] := by
    refine ⟨?_, ?_, ?_, ?_, trivial⟩ <;> intro source <;> cases source <;> decide
  refine ⟨hwf, (the_keys_release_what_they_pressed_iff plain 0 _ hwf).mpr ?_⟩
  refine ⟨?_, ?_, ?_, ?_, trivial⟩ <;> intro hsource <;> revert hsource <;> decide

/-- The Repeat Key is pressed after the boot, A while it is held, and its
release calls `process_record` for itself without end. -/
theorem a_release_never_returns :
    (∀ fuel, Along (step plain fuel) WellFormed boot
      [press QK_REPEAT_KEY, press KC_A, release QK_REPEAT_KEY]) ∧
    ∀ fuel, ¬ Along (step plain fuel) (Paired plain fuel) boot
      [press QK_REPEAT_KEY, press KC_A, release QK_REPEAT_KEY] := by
  constructor
  · intro fuel
    refine ⟨?_, ?_, ?_, trivial⟩ <;> intro source hsource <;> cases source
    all_goals first | rfl | cases hsource
  · rintro fuel ⟨-, -, hpaired, -⟩
    refine not_paired_of_endless rfl (RepeatKey.process_record_endless rfl ?_ rfl rfl rfl rfl rfl)
      hpaired
    intro hlast
    cases hlast

end Watched

end keychron_qmk.repeats
