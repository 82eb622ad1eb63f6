-- The calibration of `analog_matrix.c`: the manual one that the host steers
-- (`set_calibrate`, `calibrate`), the one at power-on, and the automatic one
-- that follows the samples of a key (`auto_caliration_check`).
import KeychronQMK.AnalogMatrix.Actions

namespace keychron_qmk.analog_matrix

variable {R C : Nat}

/-! ## Constants -/

def CAL_SAMPL_CNT : Nat := 8
def ZERO_TRAVEL_DEAD_ZONE : Nat := 20
def BOTTOM_JITTER : Nat := 80

def AUTO_CALIB_FULL_TRAVEL_THRESHOLD_VALUE : Nat :=
  DEFAULT_ZERO_TRAVEL_VALUE - DEFAULT_FULL_RANGE + 100
def AUTO_CALIB_ZERO_TRAVEL_JITTER_VALUE : Nat := 50
def AUTO_CALIB_FULL_TRAVEL_JITTER_VALUE : Nat := 100
def AUTO_CALIB_ZERO_TRAVEL_THRESHOLD_VALUE : Nat :=
  DEFAULT_FULL_RANGE - AUTO_CALIB_FULL_TRAVEL_JITTER_VALUE
def AUTO_CALIB_VALID_RELASING_TIME : UInt32 := 1000

def CALI_ZERO_TRAVEL : UInt8 := 1
def CALI_FULL_TRAVEL : UInt8 := 2

inductive CaliState
  | CALIB_OFF
  | CALIB_ZERO_TRAVEL_POWER_ON
  | CALIB_ZERO_TRAVEL_MANUAL
  | CALIB_FULL_TRAVEL_MANUAL
  | CALIB_SAVE_AND_EXIT
  deriving DecidableEq

/-- The states of the automatic calibration of one key. -/
inductive AutoState
  | AUTO_CALIB_OFF
  | AUTO_CALIB_NEXT_LOOP
  | AUTO_CALIB_ZERO_TRAVEL
  | AUTO_CALIB_FULL_TRAVEL
  | AUTO_CALIB_FINISHED
  deriving DecidableEq

/-! ## Data -/

/-- The automatic calibration of one key, without the two fields that
nothing reads. -/
structure calibration_t where
  calibrated : Bool
  pressed : Bool
  state : AutoState
  confidence : UInt8
  value : calibrated_value_t
  full_travel_time : UInt32
  cycle : Nat
  deriving DecidableEq

def calibration_t.zero : calibration_t := ⟨false, false, .AUTO_CALIB_OFF, 0, .zero, 0, 0⟩

/-- A board, and the variables of its calibrations. -/
structure Calibrator (R C : Nat) where
  board : Board R C
  calib_values : Fin R → Fin C → calibrated_value_t
  -- The samples of the manual calibration and of the automatic one.
  calibrate_values : Fin R → Fin C → Nat → UInt16
  auto_calib : Fin R → Fin C → calibration_t
  cali_state : CaliState
  last_cali_state : CaliState
  cur_calib : Nat
  calib_timer : UInt32

/-- The distance of two numbers of the source, `abs(x - y)`. -/
def dist (x y : Nat) : Nat := ((x : Int) - y).natAbs

def sample_sum (samples : Nat → UInt16) : Nat :=
  ((List.range CAL_SAMPL_CNT).map fun i => (samples i).toNat).sum

def sample_average (samples : Nat → UInt16) : Nat := sample_sum samples / CAL_SAMPL_CNT

/-! ## The manual calibration of one key -/

/-- The sum over the samples in the calibration of the full travel: each turn
of its loop reads the sample at `cur_calib`. -/
def full_travel_sum (samples : Nat → UInt16) (cur_calib : Nat) : Nat :=
  if VALID_ANALOG_RAW_VALUE_MIN < (samples cur_calib).toNat then
    CAL_SAMPL_CNT * (samples cur_calib).toNat
  else 0

def takes_full_travel (v : calibrated_value_t) (avg : Nat) : Prop :=
  (v.full_travel = 0 ∧ (avg : Int) < v.zero_travel.toNat - DEFAULT_FULL_RANGE + 100) ∨
    (v.full_travel ≠ 0 ∧ avg + BOTTOM_JITTER < v.full_travel.toNat)

instance (v : calibrated_value_t) (avg : Nat) : Decidable (takes_full_travel v avg) :=
  inferInstanceAs (Decidable (_ ∨ _))

/-- The live and the saved value of a key after a turn of `calibrate` in
`CALIB_FULL_TRAVEL_MANUAL`. -/
def full_travel_key (samples : Nat → UInt16) (cur_calib : Nat) (live saved : calibrated_value_t) :
    calibrated_value_t × calibrated_value_t :=
  let sum := full_travel_sum samples cur_calib
  let avg := sum / CAL_SAMPL_CNT
  if sum ≠ 0 ∧ takes_full_travel live avg then
    let full := .ofNat 12 (avg + BOTTOM_JITTER)
    (⟨live.zero_travel, full⟩, ⟨live.zero_travel, full⟩)
  else (live, saved)

/-- The average is that of a key that is not pressed. -/
def valid_zero (avg : Nat) : Prop :=
  ¬ (VALID_ANALOG_RAW_VALUE_MAX < avg ∨ avg < DEFAULT_ZERO_TRAVEL_VALUE - DEFAULT_FULL_RANGE / 5)

instance : DecidablePred valid_zero := fun _ => inferInstanceAs (Decidable (¬ _))

def zero_travel_key (power_on : Bool) (avg : Nat) (live : calibrated_value_t) :
    calibrated_value_t :=
  if valid_zero avg then
    let avg := avg - ZERO_TRAVEL_DEAD_ZONE
    if 30 < dist avg live.zero_travel.toNat then
      ⟨.ofNat 12 avg, if power_on then .ofNat 12 (avg - DEFAULT_FULL_RANGE) else live.full_travel⟩
    else live
  else live

/-! ## The automatic calibration of one key -/

/-- What a sample leaves of the automatic calibration of its key. -/
structure AutoStep where
  auto : calibration_t
  samples : Nat → UInt16
  live : calibrated_value_t
  outcome : AutoCalibration

def range_confidence (calibrated : Bool) (range : UInt32) : UInt8 :=
  if 1100 < range then if calibrated then 12 else 6
  else if 1000 < range then if calibrated then 4 else 3
  else if 900 < range then if calibrated then 3 else 2
  else 0

def average_zero_travel (p : calibration_t) (samples : Nat → UInt16) : calibration_t :=
  let avg_val : UInt32 := .ofNat (sample_average samples) - .ofNat ZERO_TRAVEL_DEAD_ZONE
  let range := avg_val - .ofNat p.value.full_travel.toNat
  { p with
    value := { p.value with zero_travel := .ofNat 12 avg_val.toNat }
    confidence := p.confidence + range_confidence p.calibrated range }

def releasing (p : calibration_t) (samples : Nat → UInt16) (value : UInt16) (now : UInt32) :
    calibration_t × (Nat → UInt16) :=
  if p.value.zero_travel.toNat < value.toNat then
    ({ p with value := { p.value with zero_travel := .ofNat 12 value.toNat }, cycle := 0 }, samples)
  else if dist p.value.zero_travel.toNat value.toNat ≤ AUTO_CALIB_ZERO_TRAVEL_JITTER_VALUE then
    let samples := Function.update samples p.cycle value
    let p := { p with cycle := p.cycle + 1 }
    if CAL_SAMPL_CNT ≤ p.cycle then
      let p := if now - p.full_travel_time < AUTO_CALIB_VALID_RELASING_TIME then
        average_zero_travel p samples else p
      ({ p with state := .AUTO_CALIB_NEXT_LOOP }, samples)
    else (p, samples)
  else ({ p with state := .AUTO_CALIB_NEXT_LOOP }, samples)

def finish (found live saved : calibrated_value_t) : calibrated_value_t × AutoCalibration :=
  let full := found.full_travel.toNat + BOTTOM_JITTER
  if 10 < dist found.zero_travel.toNat live.zero_travel.toNat ∨
      30 < dist full live.full_travel.toNat then
    let live : calibrated_value_t := ⟨found.zero_travel, .ofNat 12 full⟩
    if 15 < dist saved.zero_travel.toNat live.zero_travel.toNat ∨
        50 < dist saved.full_travel.toNat live.full_travel.toNat then
      (live, .saved live)
    else
      ({ live with full_travel := found.full_travel - .ofNat 12 15 }, .adjusted)
  else (live, .unfinished)

def auto_check (p : calibration_t) (samples : Nat → UInt16) (live saved : calibrated_value_t)
    (value : UInt16) (now : UInt32) : AutoStep :=
  match p.state with
  | .AUTO_CALIB_OFF =>
    if p.pressed ∧ value.toNat ≤ DEFAULT_ZERO_TRAVEL_VALUE - DEFAULT_FULL_RANGE / 5 then
      ⟨p, samples, live, .unfinished⟩
    else
      let p := { p with pressed := false, state := .AUTO_CALIB_NEXT_LOOP, confidence := 0 }
      ⟨p, samples, live, .unfinished⟩
  | .AUTO_CALIB_NEXT_LOOP =>
    if value.toNat < AUTO_CALIB_FULL_TRAVEL_THRESHOLD_VALUE then
      let p := { p with
        value := { p.value with full_travel := .ofNat 12 value.toNat }
        state := .AUTO_CALIB_FULL_TRAVEL
        full_travel_time := now }
      ⟨p, samples, live, .unfinished⟩
    else ⟨p, samples, live, .unfinished⟩
  | .AUTO_CALIB_ZERO_TRAVEL =>
    let (p, samples) := releasing p samples value now
    if 12 ≤ p.confidence then
      let (live, outcome) := finish p.value live saved
      ⟨{ p with state := .AUTO_CALIB_FINISHED }, samples, live, outcome⟩
    else ⟨p, samples, live, .unfinished⟩
  | .AUTO_CALIB_FULL_TRAVEL =>
    let full := p.value.full_travel.toNat
    if value.toNat < full then
      let p := { p with
        value := { p.value with full_travel := .ofNat 12 value.toNat }
        full_travel_time := now }
      ⟨p, samples, live, .unfinished⟩
    else if value.toNat - full ≤ AUTO_CALIB_FULL_TRAVEL_JITTER_VALUE then
      ⟨{ p with full_travel_time := now }, samples, live, .unfinished⟩
    else if AUTO_CALIB_ZERO_TRAVEL_THRESHOLD_VALUE < value.toNat - full then
      let p := { p with
        value := { p.value with zero_travel := .ofNat 12 value.toNat }
        state := .AUTO_CALIB_ZERO_TRAVEL
        cycle := 0 }
      ⟨p, samples, live, .unfinished⟩
    else ⟨p, samples, live, .unfinished⟩
  | .AUTO_CALIB_FINISHED =>
    if p.value.zero_travel.toNat + 50 < value.toNat then
      ⟨{ p with state := .AUTO_CALIB_OFF }, samples, live, .unfinished⟩
    else ⟨p, samples, live, .unfinished⟩

namespace Calibrator

variable (cfg : Config R C) (k : Calibrator R C)

/-! ## The tasks -/

def save (mark : UInt8) : Calibrator R C :=
  let board := { k.board with calibrated := k.board.calibrated ||| mark }
  { k with board := save_calibration_values cfg board }

/-- The turn of all keys in `CALIB_FULL_TRAVEL_MANUAL`. The source visits one
key after the other, and none reads what belongs to another. -/
def full_travel_keys : Calibrator R C :=
  let turn r c := full_travel_key (k.calibrate_values r c) k.cur_calib (k.calib_values r c)
    (k.board.saved_calib_values r c)
  { k with
    calib_values := fun r c => if cfg.hasKey r c then (turn r c).1 else k.calib_values r c
    board := { k.board with
      saved_calib_values := fun r c =>
        if cfg.hasKey r c then (turn r c).2 else k.board.saved_calib_values r c } }

def full_travels_done : Prop :=
  ∀ r c, cfg.hasKey r c = true → (k.calib_values r c).full_travel ≠ 0

instance : Decidable (k.full_travels_done cfg) :=
  inferInstanceAs (Decidable (∀ r c, cfg.hasKey r c = true → (k.calib_values r c).full_travel ≠ 0))

/-- The calibration of the full travel exits 3 seconds after the timer was set. -/
def timed_out (calib_timer now : UInt32) : Prop := calib_timer ≠ 0 ∧ 3000 < now - calib_timer

instance (calib_timer now : UInt32) : Decidable (timed_out calib_timer now) :=
  inferInstanceAs (Decidable (_ ∧ _))

def calibrate_full_travel (now : UInt32) : Calibrator R C :=
  let k := k.full_travel_keys cfg
  let k := { k with cur_calib := if CAL_SAMPL_CNT ≤ k.cur_calib + 1 then 0 else k.cur_calib + 1 }
  let k :=
    if k.full_travels_done cfg ∧ k.calib_timer = 0 then { k with calib_timer := now } else k
  if timed_out k.calib_timer now then
    { { k with calib_timer := 0 }.save cfg CALI_FULL_TRAVEL with cali_state := .CALIB_OFF }
  else k

def zero_travel_keys (power_on : Bool) : Calibrator R C :=
  let average r c := sample_average (k.calibrate_values r c)
  { k with
    calib_values := fun r c =>
      if cfg.hasKey r c then zero_travel_key power_on (average r c) (k.calib_values r c)
      else k.calib_values r c
    auto_calib := fun r c =>
      let p := k.auto_calib r c
      -- A key that is down at power-on.
      if cfg.hasKey r c ∧ power_on ∧
          average r c < DEFAULT_ZERO_TRAVEL_VALUE - DEFAULT_FULL_RANGE / 5 then
        { p with pressed := true }
      else p }

def zero_travels_valid : Prop :=
  ∀ r c, cfg.hasKey r c = true → valid_zero (sample_average (k.calibrate_values r c))

instance : Decidable (k.zero_travels_valid cfg) :=
  inferInstanceAs (Decidable (∀ r c, cfg.hasKey r c = true →
    valid_zero (sample_average (k.calibrate_values r c))))

def take_zero_travels : Calibrator R C :=
  { k with
    board := { k.board with
      saved_calib_values := fun r c =>
        ⟨(k.calib_values r c).zero_travel, (k.board.saved_calib_values r c).full_travel⟩ } }

def calibrate_power_on : Calibrator R C :=
  if k.cur_calib + 1 < CAL_SAMPL_CNT then { k with cur_calib := k.cur_calib + 1 }
  else
    let k' := k.zero_travel_keys cfg true
    if k.zero_travels_valid cfg ∧ k.board.calibrated &&& CALI_ZERO_TRAVEL = 0 then
      { k'.take_zero_travels.save cfg CALI_ZERO_TRAVEL with cali_state := .CALIB_OFF }
    else { k' with cali_state := .CALIB_OFF }

def calibrate_zero_travel : Calibrator R C :=
  if k.cur_calib + 1 < CAL_SAMPL_CNT then { k with cur_calib := k.cur_calib + 1 }
  else
    let k := k.zero_travel_keys cfg false
    { k with
      cali_state := .CALIB_FULL_TRAVEL_MANUAL
      board := { k.board with calibrated := k.board.calibrated ||| CALI_ZERO_TRAVEL } }

def calibrate_save_and_exit : Calibrator R C :=
  let k' := { k with cali_state := .CALIB_OFF }
  if k.last_cali_state = .CALIB_FULL_TRAVEL_MANUAL then
    let live r c :=
      let v := k.calib_values r c
      if cfg.hasKey r c ∧ v.full_travel = 0 then
        { v with full_travel := (k.board.saved_calib_values r c).full_travel }
      else v
    { k' with calib_values := live }.save cfg 0
  else k'

/-- The two readings of the timer in one call are one. -/
def calibrate (now : UInt32) : Calibrator R C :=
  match k.cali_state with
  | .CALIB_OFF => k
  | .CALIB_FULL_TRAVEL_MANUAL => k.calibrate_full_travel cfg now
  | .CALIB_ZERO_TRAVEL_POWER_ON => k.calibrate_power_on cfg
  | .CALIB_ZERO_TRAVEL_MANUAL => k.calibrate_zero_travel cfg
  | .CALIB_SAVE_AND_EXIT => k.calibrate_save_and_exit cfg

/-! ## Commands, samples and the power -/

def set_calibrate (new_cali_state : UInt8) : Calibrator R C :=
  if new_cali_state = 2 then
    { k with
      cali_state := .CALIB_ZERO_TRAVEL_MANUAL
      cur_calib := 0
      calibrate_values := fun _ _ _ => 0
      calib_values := fun _ _ => .zero }
  else if new_cali_state = 4 then
    if k.cali_state = .CALIB_ZERO_TRAVEL_MANUAL ∨ k.cali_state = .CALIB_FULL_TRAVEL_MANUAL then
      { k with last_cali_state := k.cali_state, cali_state := .CALIB_SAVE_AND_EXIT }
    else k
  else k

def auto_caliration_check (row : Fin R) (col : Fin C) (value : UInt16) (now : UInt32) : AutoStep :=
  auto_check (k.auto_calib row col) (k.calibrate_values row col) (k.calib_values row col)
    (k.board.saved_calib_values row col) value now

def update_raw_value (row : Fin R) (col : Fin C) (value : UInt16) (travel : UInt8) (now : UInt32) :
    Calibrator R C :=
  let calibrating : Bool := k.cali_state ≠ .CALIB_OFF
  let a := k.auto_caliration_check row col value now
  let board :=
    (analog_matrix.update_raw_value cfg k.board row col ⟨value, travel, calibrating, a.outcome⟩).2
  if value.toNat < VALID_ANALOG_RAW_VALUE_MIN ∨ VALID_ANALOG_RAW_VALUE_MAX < value.toNat then k
  else if calibrating then
    { k with
      board
      calibrate_values := fun r c =>
        if r = row ∧ c = col then Function.update (k.calibrate_values r c) k.cur_calib value
        else k.calibrate_values r c }
  else
    { k with
      board
      auto_calib := fun r c => if r = row ∧ c = col then a.auto else k.auto_calib r c
      calibrate_values := fun r c =>
        if r = row ∧ c = col then a.samples else k.calibrate_values r c
      calib_values := fun r c => if r = row ∧ c = col then a.live else k.calib_values r c }

def power_up (b : Board R C) : Calibrator R C :=
  let board := power_cycle cfg b
  { board
    calib_values := board.saved_calib_values
    calibrate_values := fun _ _ _ => 0
    auto_calib := fun _ _ => .zero
    cali_state := .CALIB_ZERO_TRAVEL_POWER_ON
    last_cali_state := .CALIB_OFF
    cur_calib := 0
    calib_timer := 0 }

/-- What can happen to the calibrations. -/
inductive Input (R C : Nat)
  | sample (row : Fin R) (col : Fin C) (value : UInt16) (travel : UInt8) (now : UInt32)
  | task (now : UInt32)
  /-- The host sends AMC_CALIBRATE. -/
  | command (new_cali_state : UInt8)
  | power_cycle

def step (k : Calibrator R C) : Input R C → Calibrator R C
  | .sample row col value travel now => k.update_raw_value cfg row col value travel now
  | .task now => k.calibrate cfg now
  | .command new_cali_state => k.set_calibrate new_cali_state
  | .power_cycle => power_up cfg k.board

end Calibrator

end keychron_qmk.analog_matrix
