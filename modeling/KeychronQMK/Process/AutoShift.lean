-- Auto Shift, after `process_auto_shift.c`: a key is registered once it is
-- known whether its press was a long one. Shifts that the user holds are taken
-- away meanwhile, and given back later.
import KeychronQMK.Lib.Runs
import KeychronQMK.Process.Keyboard
import Mathlib.Data.Fintype.Defs

namespace keychron_qmk.auto_shift

open runs
open repeats (KC_NO between IS_QK_MOD_TAP IS_QK_LAYER_TAP)
open keyboard

/-! ## Keycodes -/

def KC_TAB : UInt16 := 0x002B

def KC_NONUS_BACKSLASH : UInt16 := 0x0064

def KC_LSFT : UInt16 := 0x00E1

def KC_RSFT : UInt16 := 0x00E5

def AS_DOWN : UInt16 := 0x7C10

def AS_UP : UInt16 := 0x7C11

def AS_ON : UInt16 := 0x7C13

def AS_OFF : UInt16 := 0x7C14

def AS_TOGG : UInt16 := 0x7C15

def IS_RETRO (keycode : UInt16) : Bool := IS_QK_MOD_TAP keycode || IS_QK_LAYER_TAP keycode

/-- The letters, the numbers, Tab and the symbols. -/
def get_auto_shifted_key (keycode : UInt16) : Bool :=
  between 0x0004 0x001D keycode || between 0x001E 0x0027 keycode || keycode = KC_TAB ||
    between 0x002D 0x0038 keycode || keycode = KC_NONUS_BACKSLASH

/-! ## Shifts -/

inductive Shift
  | lshift
  | rshift
  deriving DecidableEq

instance : Fintype Shift := ⟨{.lshift, .rshift}, fun side => by cases side <;> simp⟩

def Shift.bit : Shift → UInt8
  | lshift => 0x02
  | rshift => 0x20

def Shift.keycode : Shift → UInt16
  | lshift => KC_LSFT
  | rshift => KC_RSFT

def Shift.isIn (side : Shift) (mods : UInt8) : Bool := mods &&& side.bit ≠ 0

/-! ## The keyboard and Auto Shift -/

/-- `GET_TAPPING_TERM` may look at the key. -/
structure Config where
  AUTO_SHIFT_REPEAT : Bool
  tapping_term : UInt16 → UInt16

/-- The modifiers and the keys of the report, the flags and the variables of
Auto Shift, and the keycodes that `autoshift_press_user` was called with. -/
structure AutoShift extends Keyboard where
  oneshot_mods : UInt8
  enabled : Bool
  lastshifted : Bool
  in_progress : Bool
  holding_shift : Bool
  cancelling : Shift → Bool
  autoshift_time : UInt16
  autoshift_timeout : UInt16
  autoshift_lastkey : UInt16
  autoshift_shift_states : UInt8 → Bool
  sent : List UInt16

namespace AutoShift

/-- With `AUTO_SHIFT_TIMEOUT`, and enabled at startup. -/
def boot : AutoShift :=
  ⟨.boot, 0, true, false, false, false, fun _ => false, 0, 175, KC_NO, fun _ => false, []⟩

variable (cfg : Config) (s : AutoShift)

def process_action (k : Key) (pressed : Bool) : AutoShift :=
  { s with toKeyboard := s.toKeyboard.process_action k pressed }

def set_autoshift_shift_state (keycode : UInt16) (shifted : Bool) : AutoShift :=
  { s with
    autoshift_shift_states := Function.update s.autoshift_shift_states keycode.toUInt8 shifted }

def autoshift_press_user (keycode : UInt16) (shifted : Bool) : AutoShift :=
  let keys := if shifted then s.add_weak_mods Shift.lshift.bit else s.toKeyboard
  { s with toKeyboard := keys.register_code keycode.toUInt8, sent := s.sent ++ [keycode] }

def autoshift_release_user (keycode : UInt16) (_shifted : Bool) : AutoShift :=
  { s with toKeyboard := s.unregister_code keycode.toUInt8 }

/-- A shift in the modifiers is taken away, and remembered. -/
def cancel_shift (side : Shift) : AutoShift :=
  if side.isIn s.real_mods then
    { s with
      toKeyboard := s.del_mods side.bit
      cancelling := Function.update s.cancelling side true }
  else s

def cancel_shifts : AutoShift := (s.cancel_shift .lshift).cancel_shift .rshift

/-- A shift that was taken away is given back. -/
def restore_shift (side : Shift) : AutoShift :=
  if s.cancelling side then
    { s with
      toKeyboard := s.add_mods side.bit
      cancelling := Function.update s.cancelling side false }
  else s

def autoshift_flush_shift : AutoShift :=
  let s := { s with toKeyboard := s.del_weak_mods Shift.lshift.bit, holding_shift := false }
  (s.restore_shift .lshift).restore_shift .rshift

def repeats_last (keycode now : UInt16) : Bool :=
  cfg.AUTO_SHIFT_REPEAT && keycode = s.autoshift_lastkey &&
    now - s.autoshift_time < cfg.tapping_term s.autoshift_lastkey

def autoshift_press (keycode now : UInt16) : AutoShift :=
  let mods := s.real_mods ||| s.oneshot_mods
  let oneshot_mods := s.oneshot_mods &&& ~~~Shift.lshift.bit
  if mods &&& ~~~Shift.lshift.bit ≠ 0 then
    let s := { s with autoshift_lastkey := KC_NO }
    let s := (s.set_autoshift_shift_state keycode false).autoshift_press_user keycode false
    { s with oneshot_mods }
  else if s.repeats_last cfg keycode now then
    s.cancel_shifts.autoshift_press_user s.autoshift_lastkey s.lastshifted
  else
    { s with
      lastshifted := Shift.lshift.isIn mods
      oneshot_mods
      autoshift_lastkey := keycode
      autoshift_time := now
      in_progress := true }

/-- The timeout is over. -/
def timed_out (now : UInt16) : Bool := s.autoshift_timeout ≤ now - s.autoshift_time

def autoshift_register (now : UInt16) : AutoShift :=
  let s := { s with in_progress := false, lastshifted := s.lastshifted || s.timed_out now }
  (s.set_autoshift_shift_state s.autoshift_lastkey s.lastshifted).cancel_shifts.autoshift_press_user
    s.autoshift_lastkey s.lastshifted

def autoshift_end (keycode now : UInt16) (matrix_trigger : Bool) : AutoShift :=
  if s.in_progress ∧ (keycode = s.autoshift_lastkey ∨ keycode = KC_NO) then
    let s := s.autoshift_register now
    if cfg.AUTO_SHIFT_REPEAT ∧ matrix_trigger then s
    else
      let s := s.autoshift_release_user s.autoshift_lastkey s.lastshifted
      { s.autoshift_flush_shift with autoshift_time := now }
  else
    let s := s.autoshift_release_user keycode (s.autoshift_shift_states keycode.toUInt8)
    let s := if keycode = s.autoshift_lastkey then s.autoshift_flush_shift else s
    { s with autoshift_time := now }

def autoshift_matrix_scan (now : UInt16) : AutoShift :=
  if s.in_progress ∧ s.timed_out now then s.autoshift_end cfg s.autoshift_lastkey now true else s

def autoshift_toggle : AutoShift := { s with enabled := !s.enabled }.autoshift_flush_shift

def autoshift_enable : AutoShift := { s with enabled := true }

def autoshift_disable : AutoShift := { s with enabled := false }.autoshift_flush_shift

/-- The keys of Auto Shift itself; that of the report sends a string. -/
def command (keycode : UInt16) : AutoShift :=
  if keycode = AS_TOGG then s.autoshift_toggle
  else if keycode = AS_ON then s.autoshift_enable
  else if keycode = AS_OFF then s.autoshift_disable
  else if keycode = AS_UP then { s with autoshift_timeout := s.autoshift_timeout + 5 }
  else if keycode = AS_DOWN then { s with autoshift_timeout := s.autoshift_timeout - 5 }
  else s

def evaluate (now : UInt16) : AutoShift :=
  if s.in_progress then s.autoshift_end cfg KC_NO now false else s

def shift_released (keycode : UInt16) : AutoShift :=
  if keycode = KC_LSFT then { s with cancelling := Function.update s.cancelling .lshift false }
  else if keycode = KC_RSFT then { s with cancelling := Function.update s.cancelling .rshift false }
  else s

/-- Whether the key is to be processed further, and the state. -/
def process_auto_shift (keycode now : UInt16) (pressed : Bool) : Bool × AutoShift :=
  let s := if pressed then (s.evaluate cfg now).command keycode else s.shift_released keycode
  if IS_RETRO keycode then (true, if pressed then { s with autoshift_lastkey := KC_NO } else s)
  else if !s.enabled then (true, s)
  else if get_auto_shifted_key keycode then
    (false, if pressed then s.autoshift_press cfg keycode now
      else s.autoshift_end cfg keycode now false)
  else (true, if pressed then { s with autoshift_lastkey := KC_NO } else s)

end AutoShift

/-! ## The run -/

/-- A press or a release of a key, with the one-shot modifiers in force, or a
scan of the matrix. -/
inductive Event
  | key (k : Key) (pressed : Bool) (now : UInt16) (oneshot_mods : UInt8)
  | scan (now : UInt16)

/-- The keyboard with the keys that are held, and the presses that Auto Shift
was asked to register. -/
structure Watched where
  keys : AutoShift
  held : Finset Key
  asked : List UInt16

namespace Watched

def boot : Watched := ⟨.boot, ∅, []⟩

def step (cfg : Config) (w : Watched) : Event → Watched
  | .key k pressed now oneshot_mods =>
    let (further, keys) :=
      { w.keys with oneshot_mods }.process_auto_shift cfg k.keycode now pressed
    { keys := if further then keys.process_action k pressed else keys
      held := if pressed then insert k w.held else w.held.erase k
      asked := if pressed && w.keys.enabled && get_auto_shifted_key k.keycode then
          w.asked ++ [k.keycode]
        else w.asked }
  | .scan now => { w with keys := w.keys.autoshift_matrix_scan cfg now }

end Watched

end keychron_qmk.auto_shift
