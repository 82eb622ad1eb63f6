-- Tap dances, after `process_tap_dance.c`. What a callback does to the dances is
-- chosen by the run: nothing, `state->finished = true`, or a call of
-- `reset_tap_dance(state)`.
import KeychronQMK.Lib.Runs
import Mathlib.Logic.Function.Basic

namespace keychron_qmk.tap_dance

def QK_TAP_DANCE : UInt16 := 0x5700

def QK_TAP_DANCE_MAX : UInt16 := 0x57FF

def QK_TAP_DANCE_GET_INDEX (keycode : UInt16) : Nat := (keycode &&& 0xFF).toNat

structure Config where
  tap_dance_count : Nat
  GET_TAPPING_TERM : UInt16 → UInt16

structure tap_dance_state_t where
  interrupting_keycode : UInt16
  count : UInt8
  weak_mods : UInt8
  oneshot_mods : UInt8
  pressed : Bool
  finished : Bool
  interrupted : Bool
  deriving DecidableEq

def tap_dance_state_t.zero : tap_dance_state_t := ⟨0, 0, 0, 0, false, false, false⟩

/-- What happens to a dance: its key, and the calls of its callbacks. -/
inductive Call
  | pressed
  | released
  | on_each_tap (count : UInt8)
  | on_each_release
  | on_dance_finished (count : UInt8)
  | on_reset (count : UInt8)
  deriving DecidableEq

/-- What a callback does. -/
inductive Effect
  | nothing
  | finishes
  | resets
  deriving DecidableEq

/-- The static variables and the states of the dances. The calls of each dance so
far are ghosts. -/
structure State where
  active_td : UInt16
  last_tap_time : UInt16
  actions : Nat → tap_dance_state_t
  calls : Nat → List Call

def State.boot : State := ⟨0, 0, fun _ => .zero, fun _ => []⟩

section

variable (cfg : Config) (s : State) (i : Nat)

def State.put (state : tap_dance_state_t) : State :=
  { s with actions := Function.update s.actions i state }

def State.call (c : Call) : State :=
  { s with calls := Function.update s.calls i (s.calls i ++ [c]) }

/-! ## Actions -/

def process_tap_dance_action_on_reset : State :=
  (s.call i (.on_reset (s.actions i).count)).put i .zero

def State.deactivate : State := { s with active_td := 0 }

def reset_tap_dance : State := process_tap_dance_action_on_reset s.deactivate i

def Effect.apply : Effect → State
  | .nothing => s
  | .finishes => s.put i { s.actions i with finished := true }
  | .resets => reset_tap_dance s i

/-- `mods` are the real and the weak ones. -/
def process_tap_dance_action_on_each_tap (mods oneshot_mods : UInt8) (e : Effect) : State :=
  let state := { s.actions i with
    count := (s.actions i).count + 1, weak_mods := mods, oneshot_mods := oneshot_mods }
  e.apply ((s.put i state).call i (.on_each_tap state.count)) i

def process_tap_dance_action_on_each_release (e : Effect) : State :=
  e.apply (s.call i .on_each_release) i

def finish (e : Effect) : State :=
  if !(s.actions i).finished then
    let state := { s.actions i with finished := true }
    e.apply ((s.put i state).call i (.on_dance_finished state.count)) i
  else s

def process_tap_dance_action_on_dance_finished (e : Effect) : State :=
  let s := (finish s i e).deactivate
  if !(s.actions i).pressed then process_tap_dance_action_on_reset s i else s

/-! ## Keys and ticks -/

def preprocess_tap_dance (keycode : UInt16) (e : Effect) : Bool × State :=
  if s.active_td = 0 ∨ keycode = s.active_td then (false, s)
  else
    let i := QK_TAP_DANCE_GET_INDEX s.active_td
    let s := s.put i { s.actions i with interrupted := true, interrupting_keycode := keycode }
    (true, process_tap_dance_action_on_dance_finished s i e)

def dance? (keycode : UInt16) : Option Nat :=
  if QK_TAP_DANCE ≤ keycode ∧ keycode ≤ QK_TAP_DANCE_MAX ∧
      QK_TAP_DANCE_GET_INDEX keycode < cfg.tap_dance_count then
    some (QK_TAP_DANCE_GET_INDEX keycode)
  else none

def process_press (now keycode : UInt16) (mods oneshot_mods : UInt8) (e : Effect) : State :=
  match dance? cfg keycode with
  | none => s
  | some i =>
    let s := (s.put i { s.actions i with pressed := true }).call i .pressed
    let s := process_tap_dance_action_on_each_tap { s with last_tap_time := now } i mods oneshot_mods e
    { s with active_td := if (s.actions i).finished then 0 else keycode }

def process_release (keycode : UInt16) (e : Effect) : State :=
  match dance? cfg keycode with
  | none => s
  | some i =>
    let s := (s.put i { s.actions i with pressed := false }).call i .released
    let s := process_tap_dance_action_on_each_release s i e
    if (s.actions i).finished then
      let s := process_tap_dance_action_on_reset s i
      if s.active_td = keycode then s.deactivate else s
    else s

/-- Whether a tick finishes the active dance. -/
def times_out (now : UInt16) : Bool :=
  s.active_td ≠ 0 && now - s.last_tap_time > cfg.GET_TAPPING_TERM s.active_td &&
    !(s.actions (QK_TAP_DANCE_GET_INDEX s.active_td)).interrupted

def tap_dance_task (now : UInt16) (e : Effect) : State :=
  if times_out cfg s now then
    process_tap_dance_action_on_dance_finished s (QK_TAP_DANCE_GET_INDEX s.active_td) e
  else s

/-! ## Runs -/

/-- A press is looked up again when it has interrupted a dance. -/
inductive Event
  | press (now keycode keycode_again : UInt16) (mods oneshot_mods : UInt8)
    (on_dance_finished on_each_tap : Effect)
  | release (keycode : UInt16) (on_each_release : Effect)
  | tick (now : UInt16) (on_dance_finished : Effect)

/-- The keycode of a press after `preprocess_tap_dance`. -/
def looked_up (keycode keycode_again : UInt16) : UInt16 :=
  if s.active_td = 0 ∨ keycode = s.active_td then keycode else keycode_again

def step (e : Event) : State :=
  match e with
  | .press now keycode keycode_again mods oneshot_mods on_dance_finished on_each_tap =>
    process_press cfg (preprocess_tap_dance s keycode on_dance_finished).2 now
      (looked_up s keycode keycode_again) mods oneshot_mods on_each_tap
  | .release keycode on_each_release => process_release cfg s keycode on_each_release
  | .tick now on_dance_finished => tap_dance_task cfg s now on_dance_finished

end

end keychron_qmk.tap_dance
