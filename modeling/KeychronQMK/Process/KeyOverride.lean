-- Key overrides, after `process_key_override.c`: a trigger key under some
-- modifiers stands for another key. One override is active at a time, and a
-- registration may be deferred.
import KeychronQMK.Lib.Runs
import KeychronQMK.Process.Keyboard

namespace keychron_qmk.key_override

open runs
open repeats (KC_NO between IS_QK_BASIC IS_QK_MODS)
open keyboard

/-! ## Keycodes -/

def QK_KEY_OVERRIDE_TOGGLE : UInt16 := 0x7C5D

def QK_KEY_OVERRIDE_ON : UInt16 := 0x7C5E

def QK_KEY_OVERRIDE_OFF : UInt16 := 0x7C5F

/-- The custom keycodes of a keyboard are from here on. -/
def SAFE_RANGE : UInt16 := 0x7E40

def is_modifier : UInt16 → Bool := between 0x00E0 0x00E7

def is_basic : UInt16 → Bool := between 0x0004 0x00A4

def clear_mods_from (keycode : UInt16) : UInt16 :=
  if IS_QK_MODS keycode then keycode &&& ~~~0x1F00 else keycode

def extract_mod_bits (code : UInt16) : UInt8 :=
  if IS_QK_MODS code then mods_of (code >>> 8).toUInt8 else 0

def register_code16 (code : UInt16) (s : Keyboard) : Keyboard :=
  let mods := extract_mod_bits code
  (if is_modifier code || code = KC_NO then s.add_mods mods else s.add_weak_mods mods).register_code
    code.toUInt8

/-! ## Overrides -/

def ko_option_activation_trigger_down : UInt8 := 0x01

def ko_option_activation_required_mod_down : UInt8 := 0x02

def ko_option_activation_negative_mod_up : UInt8 := 0x04

def ko_options_all_activations : UInt8 := 0x07

def ko_option_one_mod : UInt8 := 0x08

def ko_option_no_reregister_trigger : UInt8 := 0x10

def ko_option_no_unregister_on_other_key_down : UInt8 := 0x20

/-- An override. `enabled` points to a flag, which another part of the program
may change, and a custom action answers whether the replacement is to be
registered, or unregistered. The trigger is no modifier. -/
structure key_override_t where
  trigger : UInt16
  trigger_mods : UInt8
  layers : UInt32
  negative_mod_mask : UInt8
  suppressed_mods : UInt8
  replacement : UInt16
  options : UInt8
  custom_action : Option (Bool → Bool)
  enabled : Option Nat
  trigger_is_key : is_modifier trigger = false

namespace key_override_t

variable (o : key_override_t)

def custom (activated : Bool) : Bool := o.custom_action.all (· activated)

def registers_replacement : Bool :=
  clear_mods_from o.replacement ≠ KC_NO && clear_mods_from o.replacement < SAFE_RANGE &&
    o.custom true

/-- The replacement without its modifiers, in the `uint8_t` of
`clear_active_override`. -/
def mod_free_replacement : UInt8 := (clear_mods_from o.replacement).toUInt8

def unregisters_replacement : Bool :=
  o.mod_free_replacement ≠ 0 && o.mod_free_replacement.toUInt16 < SAFE_RANGE && o.custom false

def one_sided (mods : UInt8) : UInt8 := (mods &&& (0xF : UInt8)) ||| mods >>> (4 : UInt8)

def key_override_matches_active_modifiers (mods : UInt8) : Bool :=
  if o.negative_mod_mask &&& mods ≠ 0 then false
  else if o.trigger_mods = 0 then true
  else if o.options &&& ko_option_one_mod ≠ 0 then o.trigger_mods &&& mods ≠ 0
  else one_sided (o.trigger_mods &&& mods) = one_sided o.trigger_mods

def check_activation_event (key_down is_mod : Bool) : Bool :=
  let options :=
    if o.options &&& ko_options_all_activations = 0 then ko_options_all_activations else o.options
  if is_mod then
    if key_down then options &&& ko_option_activation_required_mod_down ≠ 0
    else options &&& ko_option_activation_negative_mod_up ≠ 0
  else key_down && options &&& ko_option_activation_trigger_down ≠ 0

end key_override_t

/-- The array of the overrides, and the override that a pointer points to. -/
structure Config where
  key_overrides : List Nat
  override : Nat → key_override_t

/-! ## The keyboard -/

def KEY_OVERRIDE_REPEAT_DELAY : UInt32 := 500

/-- The modifiers and the keys of the reports, and the static variables. -/
structure KeyOverride extends Keyboard where
  suppressed_mods : UInt8
  weak_override_mods : UInt8
  active_override : Option Nat
  active_override_trigger_is_down : Bool
  last_key_down : UInt16
  last_key_down_time : UInt32
  defer_reference_time : UInt32
  defer_delay : UInt32
  deferred_register : UInt16
  enabled : Bool

/-- An event as `process_key_override` sees it: a key with its layer, the time,
the modifiers with the event in them, and the flags of the overrides. -/
structure Seen where
  keycode : UInt16
  key_down : Bool
  layer : UInt8
  now : UInt32
  mods : UInt8
  flags : Nat → Bool

def Seen.is_mod (e : Seen) : Bool := is_modifier e.keycode

namespace KeyOverride

def boot : KeyOverride := ⟨.boot, 0, 0, none, false, 0, 0, 0, 0, 0, true⟩

variable (cfg : Config) (s : KeyOverride)

def schedule_deferred_register (keycode : UInt16) (now : UInt32) : KeyOverride :=
  if now - s.last_key_down_time < KEY_OVERRIDE_REPEAT_DELAY then
    { s with
      defer_reference_time := s.last_key_down_time
      defer_delay := KEY_OVERRIDE_REPEAT_DELAY
      deferred_register := keycode }
  else
    { s with defer_reference_time := now, defer_delay := 50, deferred_register := keycode }

def drop_replacement (o : key_override_t) : Keyboard :=
  if o.unregisters_replacement then
    if IS_BASIC_KEYCODE o.mod_free_replacement then s.del_key o.mod_free_replacement
    else s.unregister_code o.mod_free_replacement
  else s.toKeyboard

/-- The trigger is to be registered again. -/
def reregisters (o : key_override_t) (allow_reregister : Bool) : Bool :=
  allow_reregister && o.options &&& ko_option_no_reregister_trigger = 0 &&
    s.active_override_trigger_is_down && o.trigger ≠ KC_NO && o.trigger < SAFE_RANGE

def clear_active_override (allow_reregister : Bool) (now : UInt32) : KeyOverride :=
  match s.active_override with
  | none => s
  | some p =>
    let o := cfg.override p
    let s :=
      { s with
        toKeyboard := s.drop_replacement o
        deferred_register := 0
        suppressed_mods := 0
        weak_override_mods := 0 }
    let s :=
      if s.reregisters o allow_reregister then s.schedule_deferred_register o.trigger now else s
    { s with active_override := none, active_override_trigger_is_down := false }

/-- A trigger that was held before leaves the reports. -/
def drop_trigger (o : key_override_t) (trigger_down : Bool) : Keyboard :=
  if !trigger_down && o.trigger ≠ KC_NO then
    if is_basic o.trigger then s.del_key o.trigger.toUInt8 else s.unregister_code o.trigger.toUInt8
  else s.toKeyboard

def add_replacement (o : key_override_t) (e : Seen) : KeyOverride :=
  let mod_free_replacement := clear_mods_from o.replacement
  if o.registers_replacement then
    let s := { s with weak_override_mods := extract_mod_bits o.replacement }
    if e.is_mod then s.schedule_deferred_register mod_free_replacement e.now
    else if is_basic mod_free_replacement then
      { s with toKeyboard := s.add_key mod_free_replacement.toUInt8 }
    else { s with toKeyboard := s.register_code mod_free_replacement.toUInt8 }
  else s

def trigger_down (o : key_override_t) (e : Seen) : Bool := o.trigger = e.keycode && e.key_down

def should_activate (p : Nat) (e : Seen) : Bool :=
  let o := cfg.override p
  !(e.mods = 0 && o.trigger_mods ≠ 0) &&
    o.layers &&& 1 <<< e.layer.toUInt32 ≠ 0 &&
    o.check_activation_event e.key_down e.is_mod &&
    !(o.trigger = e.keycode && !e.key_down) &&
    s.active_override ≠ some p &&
    o.enabled.all e.flags &&
    o.key_override_matches_active_modifiers e.mods &&
    (o.trigger = KC_NO || trigger_down o e || s.last_key_down = o.trigger)

def activate (p : Nat) (e : Seen) : KeyOverride :=
  let o := cfg.override p
  let s := s.clear_active_override cfg false e.now
  let s :=
    { s with
      active_override := some p
      active_override_trigger_is_down := true
      suppressed_mods := o.suppressed_mods }
  { s with toKeyboard := s.drop_trigger o (trigger_down o e) }.add_replacement o e

/-- Whether the key is sent, whether an override was activated, and the
state. -/
def try_activating_override (e : Seen) : List Nat → Bool × Bool × KeyOverride
  | [] => (true, false, s)
  | p :: overrides =>
    if s.should_activate cfg p e then
      (!trigger_down (cfg.override p) e, true, s.activate cfg p e)
    else try_activating_override e overrides

def key_override_task (now : UInt32) : KeyOverride :=
  if s.deferred_register = 0 then s
  else if s.defer_delay ≤ now - s.defer_reference_time then
    { s with
      toKeyboard := register_code16 s.deferred_register s.toKeyboard
      deferred_register := 0
      defer_reference_time := 0
      defer_delay := 0 }
  else s

def key_override_on : KeyOverride := { s with enabled := true }

def key_override_off (now : UInt32) : KeyOverride :=
  { s with enabled := false }.clear_active_override cfg false now

def key_override_toggle (now : UInt32) : KeyOverride :=
  if s.enabled then s.key_override_off cfg now else s.key_override_on

/-- The last key that was pressed is kept. No deferred registration outlives the
next press, or the release of that key. -/
def note_key (e : Seen) : KeyOverride :=
  if e.is_mod then s
  else if e.key_down then
    { s with last_key_down := e.keycode, last_key_down_time := e.now, deferred_register := 0 }
  else if e.keycode = s.last_key_down then
    { s with last_key_down := 0, last_key_down_time := 0, deferred_register := 0 }
  else s

/-- The active override may end with the event. -/
def deactivate (e : Seen) : KeyOverride :=
  match s.active_override with
  | none => s
  | some p =>
    let o := cfg.override p
    if e.is_mod then
      if !o.key_override_matches_active_modifiers e.mods then s.clear_active_override cfg true e.now
      else s
    else
      let lifted := e.keycode = o.trigger && !e.key_down
      let s :=
        if lifted then { s with active_override_trigger_is_down := false } else s
      if lifted ||
          e.key_down && o.options &&& ko_option_no_unregister_on_other_key_down = 0 then
        s.clear_active_override cfg false e.now
      else s

def process_seen (e : Seen) : Bool × KeyOverride :=
  let s := s.note_key e
  let (send_key_action, activated, s) :=
    if e.is_mod || e.key_down then s.try_activating_override cfg e cfg.key_overrides
    else (true, false, s)
  (send_key_action, if activated then s else s.deactivate cfg e)

/-- The modifiers that count for an event: a modifier key is in them when it is
pressed, and not when it is released. -/
def effective_mods (keycode : UInt16) (key_down : Bool) (oneshot_mods : UInt8) : UInt8 :=
  let mods := s.real_mods ||| oneshot_mods
  if is_modifier keycode then
    if key_down then mods ||| mod_bit keycode.toUInt8 else mods &&& ~~~mod_bit keycode.toUInt8
  else mods

/-- Whether the key is to be processed further, and the state. -/
def process_key_override (keycode : UInt16) (key_down : Bool) (layer : UInt8) (now : UInt32)
    (oneshot_mods : UInt8) (flags : Nat → Bool) : Bool × KeyOverride :=
  if key_down ∧ keycode = QK_KEY_OVERRIDE_TOGGLE then (false, s.key_override_toggle cfg now)
  else if key_down ∧ keycode = QK_KEY_OVERRIDE_ON then (false, s.key_override_on)
  else if key_down ∧ keycode = QK_KEY_OVERRIDE_OFF then (false, s.key_override_off cfg now)
  else if !s.enabled then (true, s)
  else
    s.process_seen cfg
      ⟨keycode, key_down, layer, now, s.effective_mods keycode key_down oneshot_mods, flags⟩

end KeyOverride

/-! ## The run -/

/-- A press or a release of a key, with the one-shot modifiers and the flags in
force, or a call of `key_override_task`. -/
inductive Event
  | key (k : Key) (pressed : Bool) (layer : UInt8) (now : UInt32) (oneshot_mods : UInt8)
    (flags : Nat → Bool)
  | task (now : UInt32)

/-- The keyboard, and the keys that are held. -/
structure Watched where
  keys : KeyOverride
  held : Finset Key

namespace Watched

def boot : Watched := ⟨.boot, ∅⟩

def step (cfg : Config) (w : Watched) : Event → Watched
  | .key k pressed layer now oneshot_mods flags =>
    let (further, keys) :=
      w.keys.process_key_override cfg k.keycode pressed layer now oneshot_mods flags
    { keys :=
        if further then { keys with toKeyboard := keys.toKeyboard.process_action k pressed }
        else keys
      held := if pressed then insert k w.held else w.held.erase k }
  | .task now => { w with keys := w.keys.key_override_task now }

end Watched

end keychron_qmk.key_override
