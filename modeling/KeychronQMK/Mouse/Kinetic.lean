-- Mouse keys with kinetic speed (`quantum/mousekey.c` with MK_KINETIC_SPEED and the
-- default parameters): the reports while a cursor key is held, and where the square of
-- the time no longer fits into 16 bits.
import KeychronQMK.Lib.Runs
import Mathlib.Algebra.Ring.Nat
import Mathlib.Data.Int.Notation
import Mathlib.Data.List.Pairwise

namespace keychron_qmk.mouse

open runs

/-! ## The code -/

def MOUSEKEY_MOVE_MAX : Nat := 127
def MOUSEKEY_MOVE_DELTA : Nat := 16
def MOUSEKEY_WHEEL_INITIAL_MOVEMENTS : Nat := 16
def MOUSEKEY_WHEEL_BASE_MOVEMENTS : Nat := 32
def MOUSEKEY_WHEEL_ACCELERATED_MOVEMENTS : Nat := 48
def MOUSEKEY_WHEEL_DECELERATED_MOVEMENTS : Nat := 8
def mk_delay : Nat := 5 / 10
def mk_interval : Nat := 10
def mk_wheel_delay : Nat := 10 / 10
def mk_initial_speed : Nat := 100
def mk_base_speed : Nat := 5000
def mk_decelerated_speed : Nat := 400
def mk_accelerated_speed : Nat := 3000

structure report_mouse_t where
  buttons : Nat
  x : Int
  y : Int
  v : Int
  h : Int
  deriving DecidableEq

/-- The variables of the file. Timers have 16 bits. -/
structure mousekey_t where
  mouse_report : report_mouse_t
  mousekey_accel : Nat
  mousekey_repeat : Nat
  mousekey_wheel_repeat : Nat
  mouse_timer : UInt16
  last_timer_c : UInt16
  last_timer_w : UInt16
  mk_wheel_interval : Nat

inductive mouse_keycode where
  | QK_MOUSE_CURSOR_UP
  | QK_MOUSE_CURSOR_DOWN
  | QK_MOUSE_CURSOR_LEFT
  | QK_MOUSE_CURSOR_RIGHT
  | QK_MOUSE_BUTTON (n : Fin 8)
  | QK_MOUSE_WHEEL_UP
  | QK_MOUSE_WHEEL_DOWN
  | QK_MOUSE_WHEEL_LEFT
  | QK_MOUSE_WHEEL_RIGHT
  | QK_MOUSE_ACCELERATION (n : Fin 3)
  deriving DecidableEq

/-- The time since a moment, in the 16 bits of the timer. -/
def timer_elapsed (timer last : UInt16) : Nat := (timer - last).toNat

/-- The speed after a time, which is computed in 32 bits. -/
def kinetic_sum (time_elapsed : Nat) : Nat :=
  mk_initial_speed + MOUSEKEY_MOVE_DELTA * time_elapsed +
    MOUSEKEY_MOVE_DELTA * time_elapsed * time_elapsed / 2

def kinetic_speed (time_elapsed : Nat) : Nat := kinetic_sum time_elapsed % 2 ^ 16

/-- From pixels per second to pixels per report. -/
def usb_speed (speed : Nat) : Nat :=
  let speed := speed / (1000 / mk_interval) % 2 ^ 8
  if MOUSEKEY_MOVE_MAX < speed then MOUSEKEY_MOVE_MAX else if speed < 1 then 1 else speed

def move_unit (s : mousekey_t) (timer : UInt16) : Nat :=
  usb_speed (
    if s.mousekey_accel.testBit 0 then mk_decelerated_speed
    else if s.mousekey_accel.testBit 2 then mk_accelerated_speed
    else if s.mousekey_repeat ≠ 0 ∧ s.mouse_timer ≠ 0 then
      let speed := kinetic_speed (timer_elapsed timer s.mouse_timer / 50)
      if mk_base_speed < speed then mk_base_speed else speed
    else mk_initial_speed)

def wheel_unit (s : mousekey_t) (timer : UInt16) : Nat × mousekey_t :=
  let speed :=
    if s.mousekey_accel.testBit 0 then MOUSEKEY_WHEEL_DECELERATED_MOVEMENTS
    else if s.mousekey_accel.testBit 2 then MOUSEKEY_WHEEL_ACCELERATED_MOVEMENTS
    else if s.mousekey_wheel_repeat ≠ 0 ∧ s.mouse_timer ≠ 0 then
      let time_elapsed := timer_elapsed timer s.mouse_timer / 50
      let speed :=
        if s.mk_wheel_interval ≠ MOUSEKEY_WHEEL_BASE_MOVEMENTS then
          (MOUSEKEY_WHEEL_INITIAL_MOVEMENTS + time_elapsed + time_elapsed * time_elapsed / 2) %
            2 ^ 16
        else MOUSEKEY_WHEEL_INITIAL_MOVEMENTS
      if MOUSEKEY_WHEEL_BASE_MOVEMENTS < speed then MOUSEKEY_WHEEL_BASE_MOVEMENTS else speed
    else MOUSEKEY_WHEEL_INITIAL_MOVEMENTS
  (1, { s with mk_wheel_interval := 1000 / speed })

def times_inv_sqrt2 (x : Int) : Int :=
  let n := x * 181
  if n < 0 then (n - 128).tdiv 256 else (n + 128).tdiv 256

/-- Both axes of a diagonal movement, none of which is lost. -/
def diagonal (p : Int × Int) : Int × Int :=
  let shorten (x : Int) : Int := if times_inv_sqrt2 x = 0 then 1 else times_inv_sqrt2 x
  if p.1 ≠ 0 ∧ p.2 ≠ 0 then (shorten p.1, shorten p.2) else p

/-- A unit in the direction of a held axis. -/
def signed (unit : Nat) (held : Int) : Int :=
  if held = 0 then 0 else if 0 < held then unit else -unit

def has_mouse_report_changed (new_report old_report : report_mouse_t) : Bool :=
  new_report.buttons ≠ old_report.buttons || (new_report.x ≠ 0 && new_report.x ≠ old_report.x) ||
    (new_report.y ≠ 0 && new_report.y ≠ old_report.y) ||
    (new_report.h ≠ 0 && new_report.h ≠ old_report.h) ||
    (new_report.v ≠ 0 && new_report.v ≠ old_report.v)

def should_mousekey_report_send (r : report_mouse_t) : Bool :=
  r.x ≠ 0 || r.y ≠ 0 || r.v ≠ 0 || r.h ≠ 0

/-- The report is sent, and the timers of what it moves are set. -/
def mousekey_send (s : mousekey_t) (timer : UInt16) : mousekey_t × report_mouse_t :=
  let r := s.mouse_report
  ({ s with
      last_timer_c := if r.x ≠ 0 ∨ r.y ≠ 0 then timer else s.last_timer_c
      last_timer_w := if r.v ≠ 0 ∨ r.h ≠ 0 then timer else s.last_timer_w }, r)

/-- The next movement of the cursor is due. -/
abbrev Due (s : mousekey_t) (tmpmr : report_mouse_t) (timer : UInt16) : Prop :=
  (tmpmr.x ≠ 0 ∨ tmpmr.y ≠ 0) ∧
    (if s.mousekey_repeat ≠ 0 then mk_interval else mk_delay * 10) <
      timer_elapsed timer s.last_timer_c

def cursor_task (s : mousekey_t) (tmpmr : report_mouse_t) (timer : UInt16) : mousekey_t :=
  if Due s tmpmr timer then
    let s := { s with mousekey_repeat := min (s.mousekey_repeat + 1) 255 }
    let unit := move_unit s timer
    let p := diagonal (signed unit tmpmr.x, signed unit tmpmr.y)
    { s with mouse_report := { s.mouse_report with x := p.1, y := p.2 } }
  else s

def wheel_task (s : mousekey_t) (tmpmr : report_mouse_t) (timer : UInt16) : mousekey_t :=
  if (tmpmr.v ≠ 0 ∨ tmpmr.h ≠ 0) ∧
      (if s.mousekey_wheel_repeat ≠ 0 then s.mk_wheel_interval else mk_wheel_delay * 10) <
        timer_elapsed timer s.last_timer_w then
    let s := { s with mousekey_wheel_repeat := min (s.mousekey_wheel_repeat + 1) 255 }
    -- Each axis that is held calls wheel_unit, which changes the interval.
    let s := if tmpmr.v ≠ 0 then (wheel_unit s timer).2 else s
    let s := if tmpmr.h ≠ 0 then (wheel_unit s timer).2 else s
    let p := diagonal (signed 1 tmpmr.v, signed 1 tmpmr.h)
    { s with mouse_report := { s.mouse_report with v := p.1, h := p.2 } }
  else s

/-- The report without its movements. -/
def still (s : mousekey_t) : mousekey_t :=
  { s with mouse_report := { s.mouse_report with x := 0, y := 0, v := 0, h := 0 } }

/-- The report that is sent, if one is. What is held stays in `mouse_report`. -/
def mousekey_task (s : mousekey_t) (timer : UInt16) : mousekey_t × Option report_mouse_t :=
  let tmpmr := s.mouse_report
  let s := wheel_task (cursor_task (still s) tmpmr timer) tmpmr timer
  if has_mouse_report_changed s.mouse_report tmpmr ||
      should_mousekey_report_send s.mouse_report then
    let (s, r) := mousekey_send s timer
    ({ s with mouse_report := tmpmr }, some r)
  else ({ s with mouse_report := tmpmr }, none)

def mousekey_on (s : mousekey_t) (code : mouse_keycode) (timer : UInt16) : mousekey_t :=
  let s := if s.mouse_timer = 0 then { s with mouse_timer := timer } else s
  let r := s.mouse_report
  let wheel (set : Int → report_mouse_t) (sign : Int) : mousekey_t :=
    let (unit, s) := wheel_unit s timer
    { s with mouse_report := set (unit * sign) }
  match code with
  | .QK_MOUSE_CURSOR_UP => { s with mouse_report := { r with y := move_unit s timer * -1 } }
  | .QK_MOUSE_CURSOR_DOWN => { s with mouse_report := { r with y := move_unit s timer } }
  | .QK_MOUSE_CURSOR_LEFT => { s with mouse_report := { r with x := move_unit s timer * -1 } }
  | .QK_MOUSE_CURSOR_RIGHT => { s with mouse_report := { r with x := move_unit s timer } }
  | .QK_MOUSE_WHEEL_UP => wheel (fun v => { r with v }) 1
  | .QK_MOUSE_WHEEL_DOWN => wheel (fun v => { r with v }) (-1)
  | .QK_MOUSE_WHEEL_LEFT => wheel (fun h => { r with h }) (-1)
  | .QK_MOUSE_WHEEL_RIGHT => wheel (fun h => { r with h }) 1
  | .QK_MOUSE_BUTTON n => { s with mouse_report := { r with buttons := r.buttons ||| 1 <<< n.val } }
  | .QK_MOUSE_ACCELERATION n => { s with mousekey_accel := s.mousekey_accel ||| 1 <<< n.val }

def mousekey_off (s : mousekey_t) (code : mouse_keycode) : mousekey_t :=
  let r := s.mouse_report
  let s := match code with
    | .QK_MOUSE_CURSOR_UP => { s with mouse_report := { r with y := if r.y < 0 then 0 else r.y } }
    | .QK_MOUSE_CURSOR_DOWN => { s with mouse_report := { r with y := if 0 < r.y then 0 else r.y } }
    | .QK_MOUSE_CURSOR_LEFT => { s with mouse_report := { r with x := if r.x < 0 then 0 else r.x } }
    | .QK_MOUSE_CURSOR_RIGHT =>
      { s with mouse_report := { r with x := if 0 < r.x then 0 else r.x } }
    | .QK_MOUSE_WHEEL_UP => { s with mouse_report := { r with v := if 0 < r.v then 0 else r.v } }
    | .QK_MOUSE_WHEEL_DOWN => { s with mouse_report := { r with v := if r.v < 0 then 0 else r.v } }
    | .QK_MOUSE_WHEEL_LEFT => { s with mouse_report := { r with h := if r.h < 0 then 0 else r.h } }
    | .QK_MOUSE_WHEEL_RIGHT => { s with mouse_report := { r with h := if 0 < r.h then 0 else r.h } }
    | .QK_MOUSE_BUTTON n =>
      { s with mouse_report := { r with buttons := r.buttons &&& (255 - 1 <<< n.val) } }
    | .QK_MOUSE_ACCELERATION n =>
      { s with mousekey_accel := s.mousekey_accel &&& (255 - 1 <<< n.val) }
  let s := if s.mouse_report.x = 0 ∧ s.mouse_report.y = 0 then
    { s with mousekey_repeat := 0, mouse_timer := 0 } else s
  if s.mouse_report.v = 0 ∧ s.mouse_report.h = 0 then { s with mousekey_wheel_repeat := 0 } else s

def register_mouse (s : mousekey_t) (code : mouse_keycode) (timer : UInt16) :
    mousekey_t × report_mouse_t :=
  mousekey_send (mousekey_on s code timer) timer

/-! ## A held key -/

def task (s : mousekey_t) (now : Nat) : mousekey_t := (mousekey_task s (.ofNat now)).1

def task_reports : mousekey_t → List Nat → List report_mouse_t
  | _, [] => []
  | s, now :: times =>
    (mousekey_task s (.ofNat now)).2.toList ++ task_reports (task s now) times

def held_reports (s : mousekey_t) (code : mouse_keycode) (now : Nat) (times : List Nat) :
    List report_mouse_t :=
  (register_mouse s code (.ofNat now)).2 ::
    task_reports (register_mouse s code (.ofNat now)).1 times

def magnitude (r : report_mouse_t) : Nat := max r.x.natAbs r.y.natAbs

/-- No key is held that moves the pointer or the wheel or changes the speed. -/
structure Idle (s : mousekey_t) : Prop where
  x : s.mouse_report.x = 0
  y : s.mouse_report.y = 0
  v : s.mouse_report.v = 0
  h : s.mouse_report.h = 0
  accel : s.mousekey_accel = 0
  again : s.mousekey_repeat = 0

def Moves (code : mouse_keycode) (r : report_mouse_t) : Prop :=
  match code with
  | .QK_MOUSE_CURSOR_UP => r.x = 0 ∧ r.y < 0
  | .QK_MOUSE_CURSOR_DOWN => r.x = 0 ∧ 0 < r.y
  | .QK_MOUSE_CURSOR_LEFT => r.x < 0 ∧ r.y = 0
  | .QK_MOUSE_CURSOR_RIGHT => 0 < r.x ∧ r.y = 0
  | _ => False

/-- One cursor key is held, with the timer since the movement started. -/
structure Holding (code : mouse_keycode) (mouse_timer : UInt16) (s : mousekey_t) : Prop where
  moves : Moves code s.mouse_report
  v : s.mouse_report.v = 0
  h : s.mouse_report.h = 0
  accel : s.mousekey_accel = 0
  timer : s.mouse_timer = mouse_timer

def IsCursor (code : mouse_keycode) : Prop :=
  code = .QK_MOUSE_CURSOR_UP ∨ code = .QK_MOUSE_CURSOR_DOWN ∨ code = .QK_MOUSE_CURSOR_LEFT ∨
    code = .QK_MOUSE_CURSOR_RIGHT

def held_unit (mouse_timer timer : UInt16) : Nat :=
  usb_speed (
    if mouse_timer ≠ 0 then
      min (kinetic_speed (timer_elapsed timer mouse_timer / 50)) mk_base_speed
    else mk_initial_speed)

theorem usb_speed_pos (speed : Nat) : 0 < usb_speed speed := by
  unfold usb_speed MOUSEKEY_MOVE_MAX
  dsimp only
  split
  · omega
  · split <;> omega

theorem held_unit_pos (mouse_timer timer : UInt16) : 0 < held_unit mouse_timer timer :=
  usb_speed_pos _

variable {s : mousekey_t} {code : mouse_keycode} {mouse_timer timer : UInt16}

theorem move_unit_held (haccel : s.mousekey_accel = 0) (hagain : s.mousekey_repeat ≠ 0) :
    move_unit s timer = held_unit s.mouse_timer timer := by
  unfold move_unit held_unit
  rw [haccel, if_neg (by simp), if_neg (by simp)]
  congr 1
  by_cases htimer : s.mouse_timer = 0
  · rw [if_neg fun h => h.2 htimer, if_neg fun h => h htimer]
  · rw [if_pos ⟨hagain, htimer⟩, if_pos htimer]
    dsimp only
    split <;> omega

theorem move_unit_first (haccel : s.mousekey_accel = 0) (hagain : s.mousekey_repeat = 0) :
    move_unit s timer = 1 := by
  unfold move_unit
  rw [haccel, if_neg (by simp), if_neg (by simp), if_neg fun h => h.1 hagain]
  rfl

theorem signed_zero (unit : Nat) : signed unit 0 = 0 := if_pos rfl

theorem signed_natAbs (unit : Nat) {held : Int} (hheld : held ≠ 0) :
    (signed unit held).natAbs = unit := by
  unfold signed
  rw [if_neg hheld]
  split
  · exact Int.natAbs_natCast unit
  · rw [Int.natAbs_neg, Int.natAbs_natCast]

theorem diagonal_axis {p : Int × Int} (haxis : p.1 = 0 ∨ p.2 = 0) : diagonal p = p :=
  if_neg fun h => haxis.elim h.1 h.2

variable {tmpmr : report_mouse_t}

theorem cursor_task_due (haccel : s.mousekey_accel = 0) (haxis : tmpmr.x = 0 ∨ tmpmr.y = 0)
    (hdue : Due s tmpmr timer) :
    cursor_task s tmpmr timer = { s with
      mousekey_repeat := min (s.mousekey_repeat + 1) 255
      mouse_report := { s.mouse_report with
        x := signed (held_unit s.mouse_timer timer) tmpmr.x
        y := signed (held_unit s.mouse_timer timer) tmpmr.y } } := by
  have hunit : move_unit { s with mousekey_repeat := min (s.mousekey_repeat + 1) 255 } timer =
      held_unit s.mouse_timer timer :=
    move_unit_held haccel (Nat.ne_of_gt (by dsimp only; omega))
  unfold cursor_task
  rw [if_pos hdue]
  dsimp only
  rw [hunit, diagonal_axis]
  rcases haxis with hx | hy
  · exact .inl (by rw [hx, signed_zero])
  · exact .inr (by rw [hy, signed_zero])

theorem wheel_task_still (hv : tmpmr.v = 0) (hh : tmpmr.h = 0) : wheel_task s tmpmr timer = s :=
  if_neg fun hdue => hdue.1.elim (fun h => h hv) fun h => h hh

theorem Moves.axis {r : report_mouse_t} (h : Moves code r) :
    r.x ≠ 0 ∧ r.y = 0 ∨ r.x = 0 ∧ r.y ≠ 0 := by
  unfold Moves at h
  split at h
  · omega
  · omega
  · omega
  · omega
  · exact h.elim

theorem signed_report {r : report_mouse_t} {unit : Nat}
    (haxis : r.x ≠ 0 ∧ r.y = 0 ∨ r.x = 0 ∧ r.y ≠ 0) (hunit : 0 < unit) :
    let moved : report_mouse_t := { r with
      x := signed unit r.x, y := signed unit r.y, v := 0, h := 0 }
    should_mousekey_report_send moved = true ∧ magnitude moved = unit := by
  unfold should_mousekey_report_send magnitude
  rcases haxis with ⟨hx, hy⟩ | ⟨hx, hy⟩
  · have hmoves : signed unit r.x ≠ 0 := by
      rw [← Int.natAbs_pos, signed_natAbs unit hx]
      exact hunit
    simp [hy, signed_zero, hmoves, signed_natAbs unit hx]
  · have hmoves : signed unit r.y ≠ 0 := by
      rw [← Int.natAbs_pos, signed_natAbs unit hy]
      exact hunit
    simp [hx, signed_zero, hmoves, signed_natAbs unit hy]

/-- What a call of the task does while the key is held: nothing before the next movement is
due, and then a report that the time since the press alone decides. -/
theorem task_held (timer : UInt16) (h : Holding code mouse_timer s) :
    Holding code mouse_timer (mousekey_task s timer).1 ∧
      ((mousekey_task s timer).2 = none ∨ Due s s.mouse_report timer ∧
        ∃ r, (mousekey_task s timer).2 = some r ∧ magnitude r = held_unit mouse_timer timer) := by
  obtain ⟨hmoves, hv, hh, haccel, rfl⟩ := h
  have haxis := hmoves.axis
  unfold mousekey_task
  dsimp only
  rw [wheel_task_still hv hh]
  by_cases hdue : Due (still s) s.mouse_report timer
  · have hone : s.mouse_report.x = 0 ∨ s.mouse_report.y = 0 :=
      haxis.elim (fun h => .inr h.2) fun h => .inl h.1
    obtain ⟨hsend, hmagnitude⟩ := signed_report haxis (held_unit_pos s.mouse_timer timer)
    rw [cursor_task_due (s := still s) haccel hone hdue]
    dsimp only [still]
    simp only [hsend, Bool.or_true, if_true]
    exact ⟨⟨hmoves, hv, hh, haccel, rfl⟩, .inr ⟨hdue, _, rfl, hmagnitude⟩⟩
  · have hnone : (has_mouse_report_changed (still s).mouse_report s.mouse_report ||
        should_mousekey_report_send (still s).mouse_report) = false := by
      simp [has_mouse_report_changed, should_mousekey_report_send, still]
    rw [cursor_task, if_neg hdue]
    simp only [hnone, Bool.false_eq_true, if_false]
    exact ⟨⟨hmoves, hv, hh, haccel, rfl⟩, .inl trivial⟩

theorem press_held (timer : UInt16) (h : Idle s) (hcursor : IsCursor code) :
    Holding code (mousekey_on s code timer).mouse_timer (register_mouse s code timer).1 ∧
      magnitude (register_mouse s code timer).2 = 1 := by
  obtain ⟨hx, hy, hv, hh, haccel, hagain⟩ := h
  have hunit : move_unit (if s.mouse_timer = 0 then { s with mouse_timer := timer } else s) timer =
      1 := by
    split
    · exact move_unit_first haccel hagain
    · exact move_unit_first haccel hagain
  unfold register_mouse mousekey_send mousekey_on
  rcases hcursor with rfl | rfl | rfl | rfl
  all_goals
    dsimp only
    rw [hunit]
    split
  all_goals
    refine ⟨⟨?_, hv, hh, haccel, rfl⟩, ?_⟩
    · simp [Moves, hx, hy]
    · simp [magnitude, hx, hy]

/-! ## The speed of the times -/

/-- The sum fits into 16 bits, or is at least the base speed all the same. -/
def Unwrapped (elapsed : Nat) : Prop :=
  elapsed < 4500 ∨ mk_base_speed ≤ kinetic_speed (elapsed % 2 ^ 16 / 50)

/-- The units of a movement that the formula gives without a wrap. -/
def kinetic_unit (elapsed : Nat) : Nat :=
  usb_speed (min (kinetic_sum (elapsed / 50)) mk_base_speed)

theorem usb_speed_eq {speed : Nat} (h : speed ≤ mk_base_speed) :
    usb_speed speed = max (speed / 100) 1 := by
  unfold usb_speed MOUSEKEY_MOVE_MAX mk_interval mk_base_speed at *
  dsimp only
  split
  · omega
  · split <;> omega

variable {t u start now : Nat}

theorem kinetic_sum_mono (htu : t ≤ u) : kinetic_sum t ≤ kinetic_sum u :=
  Nat.add_le_add (Nat.add_le_add_left (Nat.mul_le_mul_left _ htu) _)
    (Nat.div_le_div_right (Nat.mul_le_mul (Nat.mul_le_mul_left _ htu) htu))

theorem kinetic_unit_mono {e f : Nat} (hef : e ≤ f) : kinetic_unit e ≤ kinetic_unit f := by
  have hsum := kinetic_sum_mono (Nat.div_le_div_right hef : e / 50 ≤ f / 50)
  unfold kinetic_unit
  rw [usb_speed_eq (Nat.min_le_right _ _), usb_speed_eq (Nat.min_le_right _ _)]
  omega

theorem held_unit_eq (hstart : start ≤ now) (hmouse_timer : UInt16.ofNat start ≠ 0)
    (h : Unwrapped (now - start)) :
    held_unit (.ofNat start) (.ofNat now) = kinetic_unit (now - start) := by
  have helapsed : timer_elapsed (.ofNat now) (.ofNat start) = (now - start) % 2 ^ 16 := by
    unfold timer_elapsed
    rw [UInt16.toNat_sub, UInt16.toNat_ofNat', UInt16.toNat_ofNat']
    omega
  unfold held_unit kinetic_unit
  rw [if_pos hmouse_timer, helapsed]
  congr 1
  rcases h with hsoon | hfast
  · -- The sum is less than 2^16 up to the 89th step of 50 ms.
    have hsum : kinetic_sum ((now - start) / 50) ≤ kinetic_sum 89 := kinetic_sum_mono (by omega)
    rw [Nat.mod_eq_of_lt (by omega), kinetic_speed, Nat.mod_eq_of_lt]
    exact Nat.lt_of_le_of_lt hsum (by decide)
  · have hstored : kinetic_speed ((now - start) % 2 ^ 16 / 50) ≤ kinetic_sum ((now - start) / 50) :=
      (Nat.mod_le _ _).trans (kinetic_sum_mono (Nat.div_le_div_right (Nat.mod_le _ _)))
    rw [Nat.min_eq_right hfast, Nat.min_eq_right (hfast.trans hstored)]

/-! ## Runs -/

/-- What a later report may be after an earlier one. -/
def Grows (earlier later : Nat) : Prop :=
  earlier ≤ later ∧ (earlier = usb_speed mk_base_speed → later = usb_speed mk_base_speed)

def run_unit (start now : Nat) : Nat :=
  if UInt16.ofNat start ≠ 0 then kinetic_unit (now - start) else 1

theorem run_unit_grows (htu : t ≤ u) : Grows (run_unit start t) (run_unit start u) := by
  unfold run_unit
  split
  · have hmono := kinetic_unit_mono (Nat.sub_le_sub_right htu start)
    have hbase : kinetic_unit (u - start) ≤ usb_speed mk_base_speed := by
      unfold kinetic_unit
      rw [usb_speed_eq (Nat.min_le_right _ _), usb_speed_eq (Nat.le_refl _)]
      omega
    exact ⟨hmono, fun h => Nat.le_antisymm hbase (h ▸ hmono)⟩
  · exact ⟨Nat.le_refl 1, id⟩

theorem one_grows (start t : Nat) : Grows 1 (run_unit start t) := by
  refine ⟨?_, fun h => absurd h (by decide)⟩
  unfold run_unit
  split
  · exact usb_speed_pos _
  · exact Nat.le_refl 1

/-- The condition on a call of the task: if a movement is due and the timer runs, the sum of
its time has not wrapped below the base speed. -/
def Fair (start : Nat) (s : mousekey_t) (now : Nat) : Prop :=
  Due s s.mouse_report (.ofNat now) → s.mouse_timer ≠ 0 → Unwrapped (now - start)

theorem held_run_unit (hstart : start ≤ now)
    (h : UInt16.ofNat start ≠ 0 → Unwrapped (now - start)) :
    held_unit (.ofNat start) (.ofNat now) = run_unit start now := by
  unfold run_unit
  split
  · rename_i htimer
    exact held_unit_eq hstart htimer (h htimer)
  · rename_i hzero
    unfold held_unit
    rw [if_neg hzero]
    rfl

theorem task_reports_magnitudes {times : List Nat} (h : Holding code (.ofNat start) s)
    (htimes : ∀ now ∈ times, start ≤ now) (hrun : Along task (Fair start) s times) :
    ∃ sent, List.Sublist sent times ∧
      (task_reports s times).map magnitude = sent.map (run_unit start) := by
  induction times generalizing s with
  | nil => exact ⟨[], List.Sublist.refl _, rfl⟩
  | cons now times ih =>
    obtain ⟨hfair, hrest⟩ := hrun
    obtain ⟨hnow, htimes'⟩ := List.forall_mem_cons.mp htimes
    obtain ⟨hnext, hreport⟩ := task_held (.ofNat now) h
    obtain ⟨sent, hsub, hmap⟩ := ih (s := task s now) hnext htimes' hrest
    rcases hreport with hnone | ⟨hdue, r, hsome, hmagnitude⟩
    · refine ⟨sent, hsub.cons _, ?_⟩
      rw [task_reports, hnone, Option.toList_none, List.nil_append, hmap]
    · refine ⟨now :: sent, hsub.cons_cons _, ?_⟩
      rw [task_reports, hsome, Option.toList_some, List.singleton_append, List.map_cons,
        List.map_cons, hmap, hmagnitude, held_run_unit hnow (h.timer ▸ hfair hdue)]

/-- In every run of the task while one cursor key is held, without a movement at a time at
which the sum has wrapped below the base speed, the reports never get slower, and stay at
the base speed once they have it. -/
theorem reports_grow_while_unwrapped {start now : Nat} {times : List Nat} (h : Idle s)
    (hcursor : IsCursor code) (hstart : start ≤ now)
    (htimer : (mousekey_on s code (.ofNat now)).mouse_timer = .ofNat start)
    (htimes : (now :: times).Pairwise (· ≤ ·))
    (hrun : Along task (Fair start) (register_mouse s code (.ofNat now)).1 times) :
    ((held_reports s code now times).map magnitude).Pairwise Grows := by
  obtain ⟨hholding, hfirst⟩ := press_held (.ofNat now) h hcursor
  rw [htimer] at hholding
  obtain ⟨hlater, hsorted⟩ := List.pairwise_cons.mp htimes
  obtain ⟨sent, hsub, hmap⟩ :=
    task_reports_magnitudes hholding (fun t ht => hstart.trans (hlater t ht)) hrun
  rw [held_reports, List.map_cons, hfirst, hmap, List.pairwise_cons]
  constructor
  · intro m hm
    obtain ⟨t, -, rfl⟩ := List.mem_map.mp hm
    exact one_grows start t
  · exact List.Pairwise.map _ (fun _ _ => run_unit_grows) (hsorted.sublist hsub)

/-- A mouse key that was never used. -/
def unused : mousekey_t := ⟨⟨0, 0, 0, 0, 0⟩, 0, 0, 0, 0, 0, 0, 62⟩

theorem a_second_of_holding_grows :
    ((held_reports unused .QK_MOUSE_CURSOR_LEFT 1 [2, 400, 1300]).map magnitude).Pairwise Grows :=
  reports_grow_while_unwrapped ⟨rfl, rfl, rfl, rfl, rfl, rfl⟩ (.inr (.inr (.inl rfl)))
    (Nat.le_refl 1) rfl (by decide)
    ⟨fun _ _ => .inl (by decide), fun _ _ => .inl (by decide), fun _ _ => .inl (by decide), trivial⟩

/-- After four seconds and a half the sum wraps, and the pointer gets slower. -/
theorem the_pointer_gets_slower :
    (held_reports unused .QK_MOUSE_CURSOR_RIGHT 1 [2, 4400, 4501]).map magnitude = [1, 1, 50, 8] ∧
      ¬ [1, 1, 50, 8].Pairwise Grows := by
  refine ⟨by decide, fun h => ?_⟩
  unfold Grows at h
  revert h
  decide

/-! ## Every report -/

inductive Call where
  | mousekey_on (code : mouse_keycode) (timer : UInt16)
  | mousekey_off (code : mouse_keycode) (timer : UInt16)
  | mousekey_task (timer : UInt16)

def call (s : mousekey_t) : Call → mousekey_t × Option report_mouse_t
  | .mousekey_on code timer => (register_mouse s code timer).map id some
  | .mousekey_off code timer => (mousekey_send (mousekey_off s code) timer).map id some
  | .mousekey_task timer => mousekey_task s timer

def reports : mousekey_t → List Call → List report_mouse_t
  | _, [] => []
  | s, x :: xs => (call s x).2.toList ++ reports (call s x).1 xs

/-- A report whose axes are bytes with a sign, and whose wheels turn by one notch. -/
structure Fits (r : report_mouse_t) : Prop where
  x : r.x.natAbs ≤ MOUSEKEY_MOVE_MAX
  y : r.y.natAbs ≤ MOUSEKEY_MOVE_MAX
  v : r.v.natAbs ≤ 1
  h : r.h.natAbs ≤ 1

theorem move_unit_le (s : mousekey_t) (timer : UInt16) : move_unit s timer ≤ MOUSEKEY_MOVE_MAX := by
  have hspeed (speed : Nat) : usb_speed speed ≤ MOUSEKEY_MOVE_MAX := by
    unfold usb_speed MOUSEKEY_MOVE_MAX
    dsimp only
    split
    · exact Nat.le_refl _
    · split <;> omega
  exact hspeed _

theorem diagonal_le {unit bound : Nat} (held held' : Int) (hunit : unit ≤ bound) :
    (diagonal (signed unit held, signed unit held')).1.natAbs ≤ bound ∧
      (diagonal (signed unit held, signed unit held')).2.natAbs ≤ bound := by
  have hsigned (held : Int) : (signed unit held).natAbs ≤ bound := by
    by_cases hheld : held = 0
    · rw [hheld, signed_zero]
      exact Nat.zero_le _
    · rwa [signed_natAbs unit hheld]
  have hshort {x : Int} (hx : x ≠ 0) (hle : x.natAbs ≤ bound) :
      (if times_inv_sqrt2 x = 0 then 1 else times_inv_sqrt2 x).natAbs ≤ bound := by
    have hshorter : (times_inv_sqrt2 x).natAbs ≤ x.natAbs := by
      unfold times_inv_sqrt2
      dsimp only
      split
      all_goals
        rw [Int.natAbs_tdiv]
        change _ / 256 ≤ _
        omega
    split <;> omega
  unfold diagonal
  dsimp only
  split
  · rename_i hboth
    exact ⟨hshort hboth.1 (hsigned held), hshort hboth.2 (hsigned held')⟩
  · exact ⟨hsigned held, hsigned held'⟩

theorem mousekey_on_fits (hs : Fits s.mouse_report) (code : mouse_keycode) (timer : UInt16) :
    Fits (mousekey_on s code timer).mouse_report := by
  unfold mousekey_on
  dsimp only
  have hreport : (if s.mouse_timer = 0 then { s with mouse_timer := timer } else s).mouse_report =
      s.mouse_report := by
    split <;> rfl
  generalize (if s.mouse_timer = 0 then { s with mouse_timer := timer } else s) = t at hreport ⊢
  have hunit := move_unit_le t timer
  obtain ⟨hx, hy, hv, hh⟩ := hs
  rw [← hreport] at hx hy hv hh
  cases code
  case QK_MOUSE_CURSOR_UP => exact ⟨hx, by dsimp only; omega, hv, hh⟩
  case QK_MOUSE_CURSOR_DOWN => exact ⟨hx, by dsimp only; omega, hv, hh⟩
  case QK_MOUSE_CURSOR_LEFT => exact ⟨by dsimp only; omega, hy, hv, hh⟩
  case QK_MOUSE_CURSOR_RIGHT => exact ⟨by dsimp only; omega, hy, hv, hh⟩
  case QK_MOUSE_WHEEL_UP | QK_MOUSE_WHEEL_DOWN => exact ⟨hx, hy, Nat.le_refl 1, hh⟩
  case QK_MOUSE_WHEEL_LEFT | QK_MOUSE_WHEEL_RIGHT => exact ⟨hx, hy, hv, Nat.le_refl 1⟩
  all_goals exact ⟨hx, hy, hv, hh⟩

theorem mousekey_off_fits (hs : Fits s.mouse_report) (code : mouse_keycode) :
    Fits (mousekey_off s code).mouse_report := by
  obtain ⟨hx, hy, hv, hh⟩ := hs
  have hstopped {p : Prop} [Decidable p] {x : Int} {bound : Nat} (hle : x.natAbs ≤ bound) :
      (if p then 0 else x).natAbs ≤ bound := by
    split
    · exact Nat.zero_le _
    · exact hle
  unfold mousekey_off
  dsimp only
  generalize hreleased : (match code with
    | .QK_MOUSE_CURSOR_UP => _ | .QK_MOUSE_CURSOR_DOWN => _ | .QK_MOUSE_CURSOR_LEFT => _
    | .QK_MOUSE_CURSOR_RIGHT => _ | .QK_MOUSE_WHEEL_UP => _ | .QK_MOUSE_WHEEL_DOWN => _
    | .QK_MOUSE_WHEEL_LEFT => _ | .QK_MOUSE_WHEEL_RIGHT => _ | .QK_MOUSE_BUTTON n => _
    | .QK_MOUSE_ACCELERATION n => _ : mousekey_t) = t
  have ht : Fits t.mouse_report := by
    rw [← hreleased]
    cases code
    case QK_MOUSE_CURSOR_UP | QK_MOUSE_CURSOR_DOWN => exact ⟨hx, hstopped hy, hv, hh⟩
    case QK_MOUSE_CURSOR_LEFT | QK_MOUSE_CURSOR_RIGHT => exact ⟨hstopped hx, hy, hv, hh⟩
    case QK_MOUSE_WHEEL_UP | QK_MOUSE_WHEEL_DOWN => exact ⟨hx, hy, hstopped hv, hh⟩
    case QK_MOUSE_WHEEL_LEFT | QK_MOUSE_WHEEL_RIGHT => exact ⟨hx, hy, hv, hstopped hh⟩
    all_goals exact ⟨hx, hy, hv, hh⟩
  split <;> split <;> exact ht

theorem mousekey_task_fits (s : mousekey_t) (timer : UInt16) :
    (mousekey_task s timer).1.mouse_report = s.mouse_report ∧
      ∀ r ∈ (mousekey_task s timer).2, Fits r := by
  have hstill : Fits (still s).mouse_report :=
    ⟨Nat.zero_le _, Nat.zero_le _, Nat.zero_le _, Nat.zero_le _⟩
  have hcursor : Fits (cursor_task (still s) s.mouse_report timer).mouse_report := by
    unfold cursor_task
    split
    · obtain ⟨hx, hy⟩ := diagonal_le s.mouse_report.x s.mouse_report.y (move_unit_le
        { still s with mousekey_repeat := min ((still s).mousekey_repeat + 1) 255 } timer)
      exact ⟨hx, hy, hstill.v, hstill.h⟩
    · exact hstill
  have hwheel : Fits (wheel_task (cursor_task (still s) s.mouse_report timer) s.mouse_report
      timer).mouse_report := by
    generalize cursor_task (still s) s.mouse_report timer = t at hcursor
    unfold wheel_task
    dsimp only
    generalize (if t.mousekey_wheel_repeat ≠ 0 then t.mk_wheel_interval else _) = wait
    split
    · obtain ⟨hv, hh⟩ := diagonal_le s.mouse_report.v s.mouse_report.h (Nat.le_refl 1)
      refine ⟨?_, ?_, hv, hh⟩
      · split <;> split <;> exact hcursor.x
      · split <;> split <;> exact hcursor.y
    · exact hcursor
  unfold mousekey_task
  dsimp only
  split
  · exact ⟨rfl, fun r hr => by cases hr; exact hwheel⟩
  · exact ⟨rfl, fun r hr => by cases hr⟩

end keychron_qmk.mouse
