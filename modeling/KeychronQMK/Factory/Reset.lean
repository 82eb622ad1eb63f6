-- The factory reset of `factory_test.c`: Fn, J and Z that are held together, seen in
-- key events and in the analog matrix, with one mask and one timer that the test
-- of the backlight shares.
import KeychronQMK.Lib.Bitmap
import KeychronQMK.Lib.HeldSince
import KeychronQMK.Lib.Runs

namespace keychron_qmk.factory_test

open bitmap held runs

/-! ## Keys -/

/-- The bits of the mask. -/
inductive KEY_PRESS
  | FN
  | J
  | Z
  | BL_KEY1
  | BL_KEY2
  deriving DecidableEq

namespace KEY_PRESS

def index : KEY_PRESS → UInt8
  | FN => 0
  | J => 1
  | Z => 2
  | BL_KEY1 => 3
  | BL_KEY2 => 4

def bit (key : KEY_PRESS) : UInt8 := bitOf key.index

def isIn (key : KEY_PRESS) (mask : UInt8) : Bool := mask &&& key.bit ≠ 0

end KEY_PRESS

def KEY_PRESS_FACTORY_RESET : UInt8 := 0x07

def KEY_PRESS_BACKLIGTH_TEST : UInt8 := 0x19

def KC_J : UInt16 := 0x000D

def KC_Z : UInt16 := 0x001D

def QK_BACKLIGHT_ON : UInt16 := 0x7800

def RGB_MODE_TWINKLE : UInt16 := 0x7834

def BACKLIGHT_TEST_OFF : UInt8 := 0

def BACKLIGHT_TEST_WHITE : UInt8 := 1

def BACKLIGHT_TEST_MAX : UInt8 := 5

/-- The keycodes of each case, and whether the matrix is an analog one. -/
structure Config where
  ANANLOG_MATRIX : Bool
  keys : KEY_PRESS → List UInt16

namespace Config

variable (cfg : Config)

def case_of (keycode : UInt16) : Option KEY_PRESS :=
  if keycode ∈ cfg.keys .FN then some .FN
  else if keycode ∈ cfg.keys .J then some .J
  else if keycode ∈ cfg.keys .Z then some .Z
  else if keycode ∈ cfg.keys .BL_KEY1 then some .BL_KEY1
  else if keycode ∈ cfg.keys .BL_KEY2 then some .BL_KEY2
  else none

end Config

/-! ## The static variables -/

structure Factory where
  factory_reset_timer : UInt32
  factory_reset_state : UInt8
  backlight_test_mode : UInt8
  keys_released : UInt8

namespace Factory

def boot : Factory := ⟨0, 0, BACKLIGHT_TEST_OFF, 0⟩

variable (s : Factory) (now : UInt32)

def factory_timer_start : Factory := { s with factory_reset_timer := now }

def press (key : KEY_PRESS) : Factory :=
  { s with factory_reset_state := s.factory_reset_state ||| key.bit }

def release (key : KEY_PRESS) : Factory :=
  { s with
    factory_reset_state := s.factory_reset_state &&& ~~~key.bit
    factory_reset_timer := 0 }

def start_at (mask : UInt8) : Factory :=
  if s.factory_reset_state = mask then s.factory_timer_start now else s

def process_reset_key (key : KEY_PRESS) (plain keycode : UInt16) (pressed : Bool) :
    Factory × Bool :=
  if pressed then
    let s := (s.press key).start_at now KEY_PRESS_FACTORY_RESET
    (s, !(KEY_PRESS.FN.isIn s.factory_reset_state && keycode = plain))
  else
    let s := s.release key
    if key.isIn s.keys_released then
      ({ s with keys_released := s.keys_released &&& ~~~key.bit },
        !(QK_BACKLIGHT_ON ≤ keycode ∧ keycode ≤ RGB_MODE_TWINKLE : Bool))
    else (s, true)

def process_backlight_key (key : KEY_PRESS) (testing : UInt8 → UInt8) (pressed : Bool) : Factory :=
  if pressed then
    if s.backlight_test_mode ≠ 0 then
      { s with backlight_test_mode := testing s.backlight_test_mode }
    else (s.press key).start_at now KEY_PRESS_BACKLIGTH_TEST
  else s.release key

def next_mode (mode : UInt8) : UInt8 :=
  if BACKLIGHT_TEST_MAX ≤ mode + 1 then BACKLIGHT_TEST_WHITE else mode + 1

def process_record_factory_test (cfg : Config) (keycode : UInt16) (pressed : Bool) :
    Factory × Bool :=
  match cfg.case_of keycode with
  | some .FN => (if pressed then s.press .FN else s.release .FN, true)
  | some .J => s.process_reset_key now .J KC_J keycode pressed
  | some .Z => s.process_reset_key now .Z KC_Z keycode pressed
  | some .BL_KEY1 => (s.process_backlight_key now .BL_KEY1 next_mode pressed, true)
  | some .BL_KEY2 =>
    (s.process_backlight_key now .BL_KEY2 (fun _ => BACKLIGHT_TEST_OFF) pressed, true)
  | none => (s, true)

def factory_timer_check : Factory × Bool :=
  if 3000 < now - s.factory_reset_timer then
    let s := { s with factory_reset_timer := 0 }
    if s.factory_reset_state = KEY_PRESS_FACTORY_RESET then
      ({ s with
        keys_released := KEY_PRESS.J.bit ||| KEY_PRESS.Z.bit
        backlight_test_mode := BACKLIGHT_TEST_OFF
        factory_reset_state := 0 }, true)
    else if s.factory_reset_state = KEY_PRESS_BACKLIGTH_TEST then
      ({ s with backlight_test_mode := BACKLIGHT_TEST_WHITE, factory_reset_state := 0 }, false)
    else ({ s with factory_reset_state := 0 }, false)
  else (s, false)

/-- What the matrix says of J or of Z. -/
def read_key (key : KEY_PRESS) (closed : Bool) : Factory :=
  if !key.isIn s.factory_reset_state && closed then s.press key
  else if key.isIn s.factory_reset_state && !closed then s.release key
  else s

def analog_matrix_factory_reset (j z : Bool) : Factory :=
  if KEY_PRESS.FN.isIn s.factory_reset_state then
    let s := (s.read_key .J j).read_key .Z z
    if s.factory_reset_state = KEY_PRESS_FACTORY_RESET ∧ s.factory_reset_timer = 0 then
      s.factory_timer_start now
    else s
  else s

def factory_test_check : Factory × Bool :=
  if s.factory_reset_timer ≠ 0 then s.factory_timer_check now else (s, false)

/-- The matrix says whether the keys J and Z are pressed. -/
def factory_test_task (cfg : Config) (j z : Bool) : Factory × Bool :=
  let (s, reset) := s.factory_test_check now
  (if cfg.ANANLOG_MATRIX then s.analog_matrix_factory_reset now j z else s, reset)

end Factory

/-! ## What is seen of the keys -/

/-- The static variables with the milliseconds since the start, and since when each key has
been seen held and not released. -/
structure Watched where
  state : Factory
  now : Nat
  since : Since KEY_PRESS

/-- A key event or a call of the task, some milliseconds after the last one. -/
inductive Input
  | key (wait : Nat) (keycode : UInt16) (pressed : Bool)
  | task (wait : Nat) (j z : Bool)

namespace Watched

def boot : Watched := ⟨.boot, 0, fun _ => none⟩

def looks (cfg : Config) (s : Factory) : Bool :=
  cfg.ANANLOG_MATRIX && KEY_PRESS.FN.isIn s.factory_reset_state

def step (cfg : Config) (w : Watched) : Input → Watched
  | .key wait keycode pressed =>
    let now := w.now + wait
    { state := (w.state.process_record_factory_test (timer_read32 now) cfg keycode pressed).1
      now
      since := (cfg.case_of keycode).elim w.since fun key => w.since.see now key pressed }
  | .task wait j z =>
    let now := w.now + wait
    { state := (w.state.factory_test_task (timer_read32 now) cfg j z).1
      now
      since := if looks cfg (w.state.factory_test_check (timer_read32 now)).1 then
          (w.since.see now .J j).see now .Z z
        else w.since }

def resets (cfg : Config) (w : Watched) : Input → Bool
  | .key .. => false
  | .task wait j z => (w.state.factory_test_task (timer_read32 (w.now + wait)) cfg j z).2

/-- Fn, J and Z have been seen held, and none of them released, for more than 3000 ms. -/
def Deliberate (w : Watched) : Input → Prop
  | .key .. => False
  | .task wait _ _ => ∀ key, key = .FN ∨ key = .J ∨ key = .Z →
    w.since.HeldFor key 3000 (w.now + wait)

end Watched

/-! ## The bits of the mask -/

namespace KEY_PRESS

theorem isIn_eq (key : KEY_PRESS) (mask : UInt8) :
    key.isIn mask = mask.toNat.testBit (key.index.toNat % 8) := by
  have hbit := and_bitOf_eq_zero mask key.index
  unfold isIn bit
  cases htest : mask.toNat.testBit (key.index.toNat % 8) <;> simp_all

@[simp]
theorem isIn_or_bit (key other : KEY_PRESS) (mask : UInt8) :
    key.isIn (mask ||| other.bit) = (key.isIn mask || decide (key = other)) := by
  rw [isIn_eq, isIn_eq, bit, testBit_or_bitOf]
  congr 1
  cases key <;> cases other <;> rfl

@[simp]
theorem isIn_and_not_bit (key other : KEY_PRESS) (mask : UInt8) :
    key.isIn (mask &&& ~~~other.bit) = (key.isIn mask && !decide (key = other)) := by
  rw [isIn_eq, isIn_eq, bit, testBit_and_not_bitOf]
  congr 2
  cases key <;> cases other <;> rfl

@[simp]
theorem isIn_zero (key : KEY_PRESS) : key.isIn 0 = false := by
  cases key <;> rfl

end KEY_PRESS

/-! ## What holds of every state -/

/-- The keys of the factory reset are in the mask, and have been held since `t` at least. -/
def Whole (s : Factory) (since : Since KEY_PRESS) (t : Nat) : Prop :=
  ∀ key, key = .FN ∨ key = .J ∨ key = .Z →
    key.isIn s.factory_reset_state ∧ ∃ u, since key = some u ∧ u ≤ t

/-- A key in the mask is held, and a timer that runs was started when the mask was whole, as
it is still, or for the test of the backlight. -/
structure Linked (s : Factory) (since : Since KEY_PRESS) (now : Nat) : Prop where
  past : since.Past now
  seen : ∀ key : KEY_PRESS, key.isIn s.factory_reset_state → ∃ t, since key = some t
  running : s.factory_reset_timer ≠ 0 → ∃ t ≤ now, s.factory_reset_timer = timer_read32 t ∧
    (Whole s since t ∨ KEY_PRESS.BL_KEY1.isIn s.factory_reset_state)

section Laws

variable {s s' : Factory} {since : Since KEY_PRESS} {now : Nat} {key : KEY_PRESS}

theorem Linked.boot : Linked .boot (fun _ => none) 0 where
  past _ _ h := by cases h
  seen key h := by simp [Factory.boot] at h
  running h := absurd rfl h

theorem Linked.later {later : Nat} (h : Linked s since now) (hle : now ≤ later) :
    Linked s since later where
  past := h.past.later hle
  seen := h.seen
  running hrun := by
    obtain ⟨t, ht, hstart⟩ := h.running hrun
    exact ⟨t, ht.trans hle, hstart⟩

theorem Linked.of_same (h : Linked s since now)
    (htimer : s'.factory_reset_timer = s.factory_reset_timer)
    (hstate : s'.factory_reset_state = s.factory_reset_state) : Linked s' since now where
  past := h.past
  seen := by
    rw [hstate]
    exact h.seen
  running := by
    unfold Whole
    rw [htimer, hstate]
    exact h.running

theorem Linked.see_held (h : Linked s since now) (key : KEY_PRESS) :
    Linked s (since.see now key true) now where
  past := h.past.see key true
  seen other hin := by
    obtain ⟨u, hu⟩ := h.seen other hin
    exact ⟨u, Since.see_of_some hu⟩
  running hrun := by
    obtain ⟨t, ht, hstart, hwhole⟩ := h.running hrun
    refine ⟨t, ht, hstart, hwhole.imp_left fun hwhole other hin => ?_⟩
    obtain ⟨hbit, u, hu, hle⟩ := hwhole other hin
    exact ⟨hbit, u, Since.see_of_some hu, hle⟩

theorem Linked.press (h : Linked s since now) (hkey : ∃ t, since key = some t) :
    Linked (s.press key) since now where
  past := h.past
  seen other hin := by
    simp only [Factory.press, KEY_PRESS.isIn_or_bit, Bool.or_eq_true, decide_eq_true_eq] at hin
    rcases hin with hin | rfl
    · exact h.seen other hin
    · exact hkey
  running hrun := by
    obtain ⟨t, ht, hstart, hwhole⟩ := h.running hrun
    refine ⟨t, ht, hstart, hwhole.imp (fun hwhole other hin => ?_) fun htest => ?_⟩
    · obtain ⟨hbit, hsince⟩ := hwhole other hin
      exact ⟨by simp [Factory.press, hbit], hsince⟩
    · simp [Factory.press, htest]

theorem Linked.see_released (h : Linked s since now)
    (hkey : key.isIn s.factory_reset_state = false) : Linked s (since.see now key false) now := by
  have hother : ∀ other : KEY_PRESS, other.isIn s.factory_reset_state →
      since.see now key false other = since other := by
    intro other hin
    refine Since.see_of_ne false ?_
    rintro rfl
    exact absurd (hkey.symm.trans hin) (by decide)
  refine ⟨h.past.see key false, fun other hin => ?_, fun hrun => ?_⟩
  · rw [hother other hin]
    exact h.seen other hin
  · obtain ⟨t, ht, hstart, hwhole⟩ := h.running hrun
    refine ⟨t, ht, hstart, hwhole.imp_left fun hwhole other hin => ?_⟩
    obtain ⟨hbit, hsince⟩ := hwhole other hin
    exact ⟨hbit, by rwa [hother other hbit]⟩

theorem Linked.release (h : Linked s since now) (key : KEY_PRESS) :
    Linked (s.release key) (since.see now key false) now := by
  have hreleased : Linked (s.release key) since now := by
    refine ⟨h.past, fun other hin => ?_, fun hrun => absurd rfl hrun⟩
    simp only [Factory.release, KEY_PRESS.isIn_and_not_bit, Bool.and_eq_true] at hin
    exact h.seen other hin.1
  exact hreleased.see_released (by simp [Factory.release])

theorem Linked.start_whole (h : Linked s since now) :
    Linked (s.start_at (timer_read32 now) KEY_PRESS_FACTORY_RESET) since now := by
  unfold Factory.start_at
  split_ifs with hmask
  · refine ⟨h.past, h.seen, fun _ => ⟨now, le_rfl, rfl, .inl fun key hkey => ?_⟩⟩
    have hin : key.isIn s.factory_reset_state := by
      rw [hmask]
      rcases hkey with rfl | rfl | rfl <;> rfl
    obtain ⟨u, hu⟩ := h.seen key hin
    exact ⟨hin, u, hu, h.past key u hu⟩
  · exact h

theorem Linked.start_test (h : Linked s since now) :
    Linked (s.start_at (timer_read32 now) KEY_PRESS_BACKLIGTH_TEST) since now := by
  unfold Factory.start_at
  split_ifs with hmask
  · refine ⟨h.past, h.seen, fun _ => ⟨now, le_rfl, rfl, .inr ?_⟩⟩
    change KEY_PRESS.isIn _ s.factory_reset_state
    rw [hmask]
    rfl
  · exact h

theorem Linked.process_reset_key (h : Linked s since now) (key : KEY_PRESS)
    (plain keycode : UInt16) (pressed : Bool) :
    Linked (s.process_reset_key (timer_read32 now) key plain keycode pressed).1
      (since.see now key pressed) now := by
  unfold Factory.process_reset_key
  cases pressed with
  | true =>
    exact ((h.see_held key).press Since.see_held).start_whole
  | false =>
    have hreleased := h.release key
    simp only [Bool.false_eq_true, ↓reduceIte]
    split
    · exact hreleased.of_same rfl rfl
    · exact hreleased

theorem Linked.process_backlight_key (h : Linked s since now) (key : KEY_PRESS)
    (testing : UInt8 → UInt8) (pressed : Bool) :
    Linked (s.process_backlight_key (timer_read32 now) key testing pressed)
      (since.see now key pressed) now := by
  unfold Factory.process_backlight_key
  cases pressed with
  | true =>
    simp only [↓reduceIte]
    split
    · exact (h.see_held key).of_same rfl rfl
    · exact ((h.see_held key).press Since.see_held).start_test
  | false => exact h.release key

theorem Linked.process_record {cfg : Config} (h : Linked s since now) (keycode : UInt16)
    (pressed : Bool) :
    Linked (s.process_record_factory_test (timer_read32 now) cfg keycode pressed).1
      ((cfg.case_of keycode).elim since fun key => since.see now key pressed) now := by
  unfold Factory.process_record_factory_test
  cases cfg.case_of keycode with
  | none => exact h
  | some key =>
    cases key with
    | FN =>
      cases pressed with
      | true => exact (h.see_held .FN).press Since.see_held
      | false => exact h.release .FN
    | J => exact h.process_reset_key .J KC_J keycode pressed
    | Z => exact h.process_reset_key .Z KC_Z keycode pressed
    | BL_KEY1 => exact h.process_backlight_key .BL_KEY1 Factory.next_mode pressed
    | BL_KEY2 => exact h.process_backlight_key .BL_KEY2 (fun _ => BACKLIGHT_TEST_OFF) pressed

theorem Linked.read_key (h : Linked s since now) (key : KEY_PRESS) (closed : Bool) :
    Linked (s.read_key key closed) (since.see now key closed) now := by
  unfold Factory.read_key
  cases hin : key.isIn s.factory_reset_state <;> cases closed
  · exact h.see_released hin
  · exact (h.see_held key).press Since.see_held
  · exact h.release key
  · exact h.see_held key

theorem Linked.analog_matrix (h : Linked s since now) (j z : Bool) :
    Linked (s.analog_matrix_factory_reset (timer_read32 now) j z)
      (if KEY_PRESS.FN.isIn s.factory_reset_state then (since.see now .J j).see now .Z z
        else since) now := by
  unfold Factory.analog_matrix_factory_reset
  split
  · have hread := (h.read_key .J j).read_key .Z z
    have hstart := hread.start_whole
    unfold Factory.start_at at hstart
    dsimp only
    split_ifs with hmask
    · rwa [if_pos hmask.1] at hstart
    · exact hread
  · exact h

/-- When `factory_reset` runs, the keys have been held for as long as the timer says. -/
theorem Linked.check (h : Linked s since now) :
    Linked (s.factory_test_check (timer_read32 now)).1 since now ∧
      ((s.factory_test_check (timer_read32 now)).2 →
        ∀ key, key = .FN ∨ key = .J ∨ key = .Z → since.HeldFor key 3000 now) := by
  have hcleared : ∀ s' : Factory, s'.factory_reset_timer = 0 → s'.factory_reset_state = 0 →
      Linked s' since now := by
    intro s' htimer hstate
    exact ⟨h.past, fun key hin => by simp [hstate] at hin, fun hrun => absurd htimer hrun⟩
  unfold Factory.factory_test_check Factory.factory_timer_check
  split_ifs with hrun helapsed
  · dsimp only
    split_ifs with hreset htest
    · refine ⟨hcleared _ rfl rfl, fun _ key hkey => ?_⟩
      obtain ⟨t, ht, hstart, hwhole | htest⟩ := h.running hrun
      · obtain ⟨-, u, hu, hle⟩ := hwhole key hkey
        have hlong := UInt32.lt_iff_toNat_lt.mp (hstart ▸ helapsed)
        have hpassed := elapsed_le ht
        simp only [UInt32.reduceToNat] at hlong
        exact ⟨u, hu, by omega⟩
      · rw [hreset] at htest
        exact absurd htest (by decide)
    · exact ⟨hcleared _ rfl rfl, fun hfalse => absurd hfalse (by decide)⟩
    · exact ⟨hcleared _ rfl rfl, fun hfalse => absurd hfalse (by decide)⟩
  · exact ⟨h, fun hfalse => absurd hfalse (by decide)⟩
  · exact ⟨h, fun hfalse => absurd hfalse (by decide)⟩

theorem Linked.task {cfg : Config} (h : Linked s since now) (j z : Bool) :
    Linked (s.factory_test_task (timer_read32 now) cfg j z).1
      (if Watched.looks cfg (s.factory_test_check (timer_read32 now)).1 then
        (since.see now .J j).see now .Z z
      else since) now := by
  have hcheck := h.check.1
  unfold Factory.factory_test_task Watched.looks
  cases cfg.ANANLOG_MATRIX with
  | false => exact hcheck
  | true => exact hcheck.analog_matrix j z

end Laws

namespace Watched

variable {w : Watched}

theorem linked_step (cfg : Config) (h : Linked w.state w.since w.now) (x : Input) :
    Linked (w.step cfg x).state (w.step cfg x).since (w.step cfg x).now ∧
      (w.resets cfg x → w.Deliberate x) := by
  cases x with
  | key wait keycode pressed =>
    have hlater := h.later (Nat.le_add_right w.now wait)
    exact ⟨hlater.process_record keycode pressed, fun hreset => by simp [resets] at hreset⟩
  | task wait j z =>
    have hlater := h.later (Nat.le_add_right w.now wait)
    refine ⟨hlater.task j z, fun hreset => hlater.check.2 ?_⟩
    simpa [resets, Factory.factory_test_task] using hreset

/-- In every run, `factory_reset` runs only after Fn, J and Z were held for more than
3000 ms. -/
theorem factory_reset_is_deliberate (cfg : Config) (xs : List Input) :
    Along (step cfg) (fun w x => w.resets cfg x → w.Deliberate x) boot xs := by
  refine Along.imp (I := fun w => Linked w.state w.since w.now) (C := fun _ _ => True)
    (fun w x h _ => ?_) Linked.boot (Along.of_forall (fun _ _ => trivial) boot xs)
  obtain ⟨hlinked, hreset⟩ := linked_step cfg h x
  exact ⟨hreset, hlinked⟩

/-! ## A run -/

def plainBoard : Config where
  ANANLOG_MATRIX := false
  keys
    | .FN => [0x5221]
    | .J => [KC_J]
    | .Z => [KC_Z]
    | .BL_KEY1 => [0x004F]
    | .BL_KEY2 => [0x004A]

/-- The keys are held, and the task is called after more than three seconds. -/
example : (([.key 1 0x5221 true, .key 10 KC_J true, .key 10 KC_Z true].foldl (step plainBoard)
    boot).resets plainBoard (.task 3001 false false)) = true := by
  decide

end Watched

end keychron_qmk.factory_test
