-- Quadrature decoding, after `drivers/encoder/encoder_quadrature.c`: the
-- pin changes of one encoder are seen by an interrupt or by a poll, and the
-- events together with the pulses left over count the quarter steps.
import KeychronQMK.Encoder.Queue
import KeychronQMK.Lib.Runs
import Mathlib.Tactic.IntervalCases
import Mathlib.Tactic.Ring
import Mathlib.Tactic.Linarith

namespace keychron_qmk.encoder

open runs

structure Pins where
  pin_a_state : Bool
  pin_b_state : Bool
  deriving DecidableEq

namespace Pins

def state (p : Pins) : UInt8 :=
  (if p.pin_a_state then (1 : UInt8) else 0) ||| (if p.pin_b_state then (1 : UInt8) else 0) <<< 1

/-- The place of the pins in one turn of the code disc. -/
def phase (p : Pins) : Nat :=
  match p.pin_a_state, p.pin_b_state with
  | false, false => 0
  | false, true => 1
  | true, true => 2
  | true, false => 3

/-- The signed quarter step from one state of the pins to another. Two pins
that change at once have no direction. -/
def quarter_step (p q : Pins) : Int :=
  if q.phase = (p.phase + 1) % 4 then 1 else if p.phase = (q.phase + 1) % 4 then -1 else 0

end Pins

/-! ## The driver -/

def encoder_LUT : List Int := [0, -1, 1, 0, 1, 0, 0, -1, -1, 0, 0, 1, 0, 1, -1, 0]

def lut (state : UInt8) : Int := encoder_LUT.getD (state &&& 0xF).toNat 0

def int8 (x : Int) : Int := x.bmod 256

/-- What the build sets for one encoder: its number, its resolution, and
`ENCODER_DIRECTION_FLIP`. -/
structure Config where
  index : UInt8
  resolution : UInt8
  flip : Bool

def Config.ENCODER_CLOCKWISE (cfg : Config) : Bool := !cfg.flip

def Config.ENCODER_COUNTER_CLOCKWISE (cfg : Config) : Bool := cfg.flip

/-- The variables of one encoder and the queue. `emitted` holds the events
that were queued, `pins` the pins as they were last, `net` the signed quarter
steps since boot. -/
structure Encoder (n : Nat) where
  encoder_state : UInt8
  encoder_pulses : Int
  encoder_interrupt_update : Bool
  events : encoder_events_t n
  emitted : List Bool
  pins : Pins
  net : Int

variable {n : Nat}

namespace Encoder

/-- `encoder_quadrature_post_init` at the first state of the pins. -/
def initial (pins : Pins) : Encoder n := ⟨pins.state, 0, false, .zero, [], pins, 0⟩

variable (cfg : Config) (s : Encoder n)

def encoder_queue_event (clockwise : Bool) : Encoder n :=
  let (queued, events) := s.events.encoder_queue_event_advanced cfg.index clockwise
  { s with events := events, emitted := if queued then clockwise :: s.emitted else s.emitted }

def encoder_handle_state_change (state : UInt8) : Encoder n :=
  let resolution : Int := cfg.resolution.toNat
  let s := { s with encoder_pulses := int8 (s.encoder_pulses + lut state) }
  let s := if s.encoder_pulses ≥ resolution then
      s.encoder_queue_event cfg cfg.ENCODER_COUNTER_CLOCKWISE
    else s
  let s := if s.encoder_pulses ≤ -resolution then
      s.encoder_queue_event cfg cfg.ENCODER_CLOCKWISE
    else s
  { s with encoder_pulses := int8 (s.encoder_pulses.tmod resolution) }

def encoder_quadrature_handle_read (pins : Pins) : Encoder n :=
  if s.encoder_state &&& 0x3 ≠ pins.state ∨ s.encoder_interrupt_update = true then
    let state := s.encoder_state <<< 2 ||| pins.state
    let s := encoder_handle_state_change cfg { s with encoder_state := state } state
    { s with encoder_interrupt_update := false }
  else s

def encoder_quadrature_handle_inerrupt_read (pins : Pins) : Encoder n :=
  let state := s.encoder_state <<< 2 ||| pins.state
  { s with
    encoder_state := state
    encoder_pulses := int8 (s.encoder_pulses + lut state)
    encoder_interrupt_update := true }

end Encoder

/-- The pins move on and an interrupt or a poll sees them, or the queued
events are handled. -/
inductive Sample
  | interrupt (pins : Pins)
  | poll (pins : Pins)
  | handle

namespace Encoder

variable (cfg : Config) (s : Encoder n)

def turn (pins : Pins) : Encoder n :=
  { s with pins := pins, net := s.net + s.pins.quarter_step pins }

def step : Sample → Encoder n
  | .interrupt pins => (s.turn pins).encoder_quadrature_handle_inerrupt_read pins
  | .poll pins => (s.turn pins).encoder_quadrature_handle_read cfg pins
  | .handle => { s with events := s.events.encoder_queue_drain }

def counted : Int :=
  s.emitted.count cfg.ENCODER_COUNTER_CLOCKWISE - s.emitted.count cfg.ENCODER_CLOCKWISE

/-- The events and the pulses left over make up the quarter steps. -/
def Balanced : Prop := s.counted cfg * cfg.resolution.toNat + s.encoder_pulses = s.net

def Roomy : Sample → Prop
  | .poll _ => ¬ s.events.encoder_queue_full_advanced
  | _ => True

def pulses (pins : Pins) : Int := s.encoder_pulses + s.pins.quarter_step pins

/-- The sum fits the counter, and a poll that looks at it finds less than two
detents. -/
def Keeps : Sample → Prop
  | .interrupt pins => -128 ≤ s.pulses pins ∧ s.pulses pins < 128
  | .poll pins => s.pins ≠ pins ∨ s.encoder_interrupt_update = true →
    -128 ≤ s.pulses pins ∧ s.pulses pins < 128 ∧
    -(2 * cfg.resolution.toNat : Int) < s.pulses pins ∧ s.pulses pins < 2 * cfg.resolution.toNat
  | .handle => True

/-- A poll that looks at the pulses divides by the resolution. -/
def Counts : Sample → Prop
  | .poll pins => (s.pins ≠ pins ∨ s.encoder_interrupt_update = true → cfg.resolution ≠ 0) ∧
    (s.step cfg (.poll pins)).Balanced cfg
  | x => (s.step cfg x).Balanced cfg

end Encoder

/-! ## The table -/

theorem low_nibble (state : UInt8) (q : Pins) :
    (state <<< 2 ||| q.state) &&& (0xF : UInt8) = (state &&& (0x3 : UInt8)) <<< 2 ||| q.state := by
  apply UInt8.toBitVec_inj.mp
  apply BitVec.eq_of_getLsbD_eq
  intro i hi
  obtain ⟨a, b⟩ := q
  cases a <;> cases b <;> interval_cases i <;> simp [Pins.state]

theorem low_pins (state : UInt8) (q : Pins) :
    (state <<< 2 ||| q.state) &&& (0x3 : UInt8) = q.state := by
  apply UInt8.toBitVec_inj.mp
  apply BitVec.eq_of_getLsbD_eq
  intro i hi
  obtain ⟨a, b⟩ := q
  cases a <;> cases b <;> interval_cases i <;> simp [Pins.state]

theorem lut_eq_quarter_step {state : UInt8} {p : Pins} (h : state &&& (0x3 : UInt8) = p.state) (q : Pins) :
    lut (state <<< 2 ||| q.state) = p.quarter_step q := by
  unfold lut
  rw [low_nibble, h]
  obtain ⟨a, b⟩ := p
  obtain ⟨c, d⟩ := q
  cases a <;> cases b <;> cases c <;> cases d <;> rfl

theorem state_injective {p q : Pins} : p.state = q.state ↔ p = q := by
  obtain ⟨a, b⟩ := p
  obtain ⟨c, d⟩ := q
  cases a <;> cases b <;> cases c <;> cases d <;> decide

theorem quarter_step_self (p : Pins) : p.quarter_step p = 0 := by
  obtain ⟨a, b⟩ := p
  cases a <;> cases b <;> rfl

theorem quarter_step_bounds (p q : Pins) : -1 ≤ p.quarter_step q ∧ p.quarter_step q ≤ 1 := by
  unfold Pins.quarter_step
  split
  · simp
  · split
    · simp
    · simp

/-! ## Detents -/

theorem int8_eq_iff (x : Int) : int8 x = x ↔ -128 ≤ x ∧ x < 128 := by
  unfold int8
  rw [Int.bmod_def]
  split <;> omega

theorem int8_fits (x : Int) : -128 ≤ int8 x ∧ int8 x < 128 := by
  unfold int8
  rw [Int.bmod_def]
  split <;> omega

theorem int8_tmod (r : Int) {p : Int} (hp : -128 ≤ p ∧ p < 128) : int8 (p.tmod r) = p.tmod r := by
  rw [int8_eq_iff]
  have habs : (p.tmod r).natAbs ≤ p.natAbs := by
    rw [Int.natAbs_tmod]
    exact Nat.mod_le _ _
  rcases le_total 0 p with hsign | hsign
  · have hnonneg := Int.tmod_nonneg r hsign
    omega
  · have hnonpos := Int.tmod_nonneg r (Int.neg_nonneg_of_nonpos hsign)
    rw [Int.neg_tmod] at hnonpos
    omega

/-- The events that a value of the pulses makes: counter-clockwise minus clockwise. -/
def detents (r p : Int) : Int := (if p ≥ r then 1 else 0) - (if p ≤ -r then 1 else 0)

theorem detents_neg (r p : Int) : detents r (-p) = -detents r p := by
  unfold detents
  split_ifs <;> omega

section

variable {r p : Int}

theorem detents_of_nonneg (hr : 0 < r) (hp : 0 ≤ p) :
    detents r p * r + p.tmod r = p ↔ p < 2 * r := by
  have hsmall : ¬ p ≤ -r := by omega
  have hmod := Int.emod_lt_of_pos p hr
  rw [Int.tmod_eq_emod_of_nonneg hp]
  unfold detents
  split
  · rename_i hge
    constructor
    · intro h
      omega
    · intro h
      have hrest : p % r = p - r := by
        rw [← Int.sub_emod_right p r]
        exact Int.emod_eq_of_lt (by omega) (by omega)
      omega
  · rename_i hlt
    have hrest : p % r = p := Int.emod_eq_of_lt hp (by omega)
    omega

theorem detents_exact_iff (hr : 0 < r) :
    detents r p * r + p.tmod r = p ↔ -(2 * r) < p ∧ p < 2 * r := by
  rcases le_total 0 p with hp | hp
  · rw [detents_of_nonneg hr hp]
    constructor
    · intro h
      omega
    · exact And.right
  · have hneg := detents_of_nonneg hr (Int.neg_nonneg_of_nonpos hp)
    rw [detents_neg, Int.neg_tmod] at hneg
    have hsum : -detents r p * r + -p.tmod r = -(detents r p * r + p.tmod r) := by ring
    omega

theorem counted_nonneg (hr : 0 < r) (hp : 0 ≤ p) : 0 ≤ detents r p * r + p.tmod r := by
  have hmod : 0 ≤ p.tmod r := Int.tmod_nonneg r hp
  have hsmall : ¬ p ≤ -r := by omega
  unfold detents
  split <;> omega

theorem counted_nonpos (hr : 0 < r) (hp : p ≤ 0) : detents r p * r + p.tmod r ≤ 0 := by
  have hneg := counted_nonneg hr (Int.neg_nonneg_of_nonpos hp)
  rw [detents_neg, Int.neg_tmod] at hneg
  have hsum : -detents r p * r + -p.tmod r = -(detents r p * r + p.tmod r) := by ring
  omega

/-- A counter of eight bits counts right exactly while the sum fits it and is
less than two detents. -/
theorem detents_int8_iff (hr : 0 < r) (hlow : -129 ≤ p) (hhigh : p ≤ 128) :
    detents r (int8 p) * r + (int8 p).tmod r = p ↔
      -128 ≤ p ∧ p < 128 ∧ -(2 * r) < p ∧ p < 2 * r := by
  by_cases hfits : int8 p = p
  · obtain ⟨hlow', hhigh'⟩ := (int8_eq_iff p).mp hfits
    rw [hfits, detents_exact_iff hr]
    exact ⟨fun h => ⟨hlow', hhigh', h⟩, fun h => h.2.2⟩
  · have hout := mt (int8_eq_iff p).mpr hfits
    have hends : p = 128 ∨ p = -129 := by omega
    rcases hends with rfl | rfl
    · have hle := counted_nonpos (p := int8 128) hr (by decide)
      omega
    · have hge := counted_nonneg (p := int8 (-129)) hr (by decide)
      omega

end

namespace Encoder

variable (cfg : Config) (s : Encoder n)

theorem counted_queue_event (clockwise : Bool) (h : ¬ s.events.encoder_queue_full_advanced) :
    (s.encoder_queue_event cfg clockwise).counted cfg =
      s.counted cfg + if clockwise = cfg.ENCODER_COUNTER_CLOCKWISE then 1 else -1 := by
  have hqueued := (encoder_events_t.queue_event cfg.index clockwise h).1
  unfold encoder_queue_event counted
  simp only [hqueued, if_true, List.count_cons]
  unfold Config.ENCODER_COUNTER_CLOCKWISE Config.ENCODER_CLOCKWISE
  cases clockwise <;> cases cfg.flip <;> simp <;> omega

@[simp] theorem pulses_queue_event (clockwise : Bool) :
    (s.encoder_queue_event cfg clockwise).encoder_pulses = s.encoder_pulses := rfl

/-- What the handling of a state leaves, with room in the queue. -/
theorem handle_state_change (state : UInt8) (hr : 0 < cfg.resolution.toNat)
    (h : ¬ s.events.encoder_queue_full_advanced) :
    (s.encoder_handle_state_change cfg state).counted cfg = s.counted cfg +
      detents cfg.resolution.toNat (int8 (s.encoder_pulses + lut state)) ∧
    (s.encoder_handle_state_change cfg state).encoder_pulses =
      int8 ((int8 (s.encoder_pulses + lut state)).tmod cfg.resolution.toNat) := by
  unfold encoder_handle_state_change detents
  generalize int8 (s.encoder_pulses + lut state) = p
  have hccw := counted_queue_event cfg { s with encoder_pulses := p }
    cfg.ENCODER_COUNTER_CLOCKWISE h
  have hcw := counted_queue_event cfg { s with encoder_pulses := p } cfg.ENCODER_CLOCKWISE h
  rw [if_pos rfl] at hccw
  have hne : ¬ cfg.ENCODER_CLOCKWISE = cfg.ENCODER_COUNTER_CLOCKWISE := Bool.not_ne_self cfg.flip
  rw [if_neg hne] at hcw
  by_cases hge : p ≥ cfg.resolution.toNat
  · have hlt : ¬ p ≤ -(cfg.resolution.toNat : Int) := by omega
    simp only [hge, hlt, if_true, if_false, pulses_queue_event]
    exact ⟨hccw, trivial⟩
  · by_cases hle : p ≤ -(cfg.resolution.toNat : Int)
    · simp only [hge, hle, if_true, if_false, pulses_queue_event]
      exact ⟨hcw, trivial⟩
    · simp only [hge, hle, if_false]
      exact ⟨(add_zero _).symm, trivial⟩

/-- The low bits of the state are the pins, the pulses fit their counter, and
nothing is lost. -/
structure Tracks (s : Encoder n) : Prop where
  low : s.encoder_state &&& (0x3 : UInt8) = s.pins.state
  fits : -128 ≤ s.encoder_pulses ∧ s.encoder_pulses < 128
  balanced : s.Balanced cfg

theorem tracks_initial (pins : Pins) : (initial pins : Encoder n).Tracks cfg where
  low := by
    change pins.state &&& (0x3 : UInt8) = pins.state
    obtain ⟨a, b⟩ := pins
    cases a <;> cases b <;> decide
  fits := by simp [initial]
  balanced := by simp [Balanced, counted, initial]

variable {cfg s} (h : s.Tracks cfg)
include h

theorem Tracks.lut_turn (pins : Pins) :
    lut (s.encoder_state <<< 2 ||| pins.state) = s.pins.quarter_step pins :=
  lut_eq_quarter_step h.low pins

theorem Tracks.pulses_bounds (pins : Pins) : -129 ≤ s.pulses pins ∧ s.pulses pins ≤ 128 := by
  have hfits := h.fits
  have hstep := quarter_step_bounds s.pins pins
  unfold pulses
  omega

theorem Tracks.interrupt_iff (pins : Pins) :
    s.Keeps cfg (.interrupt pins) ↔ s.Counts cfg (.interrupt pins) := by
  have hbalanced := h.balanced
  have hpulses : (s.step cfg (.interrupt pins)).encoder_pulses = int8 (s.pulses pins) := by
    simp only [step, turn, encoder_quadrature_handle_inerrupt_read, h.lut_turn]
    rfl
  simp only [Keeps, Counts]
  rw [← int8_eq_iff]
  unfold Balanced at hbalanced ⊢
  have hcounted : (s.step cfg (.interrupt pins)).counted cfg = s.counted cfg := rfl
  have hnet : (s.step cfg (.interrupt pins)).net = s.net + s.pins.quarter_step pins := rfl
  rw [hpulses, hcounted, hnet]
  unfold pulses
  omega

/-- A poll looks at the pulses when the pins changed, or when an interrupt
came before it. -/
theorem Tracks.looks_iff (pins : Pins) :
    ((s.turn pins).encoder_state &&& (0x3 : UInt8) ≠ pins.state ∨
      (s.turn pins).encoder_interrupt_update = true) ↔
    (s.pins ≠ pins ∨ s.encoder_interrupt_update = true) := by
  have hlow : (s.turn pins).encoder_state &&& (0x3 : UInt8) = s.pins.state := h.low
  rw [hlow, ne_eq, state_injective]
  rfl

theorem Tracks.poll_looks (pins : Pins)
    (hlooks : s.pins ≠ pins ∨ s.encoder_interrupt_update = true)
    (hr : 0 < cfg.resolution.toNat) (hroom : ¬ s.events.encoder_queue_full_advanced) :
    (s.step cfg (.poll pins)).counted cfg =
      s.counted cfg + detents cfg.resolution.toNat (int8 (s.pulses pins)) ∧
    (s.step cfg (.poll pins)).encoder_pulses =
      int8 ((int8 (s.pulses pins)).tmod cfg.resolution.toNat) ∧
    (s.step cfg (.poll pins)).net = s.net + s.pins.quarter_step pins := by
  have hhandled := handle_state_change cfg
    { s.turn pins with encoder_state := s.encoder_state <<< 2 ||| pins.state }
    (s.encoder_state <<< 2 ||| pins.state) hr hroom
  rw [h.lut_turn] at hhandled
  have hnet : (encoder_handle_state_change cfg
      { s.turn pins with encoder_state := s.encoder_state <<< 2 ||| pins.state }
      (s.encoder_state <<< 2 ||| pins.state)).net = s.net + s.pins.quarter_step pins := by
    unfold encoder_handle_state_change
    simp only
    split <;> split <;> rfl
  simp only [step, encoder_quadrature_handle_read, h.looks_iff pins, hlooks, if_true]
  exact ⟨hhandled.1, hhandled.2, hnet⟩

theorem Tracks.poll_iff (pins : Pins) (hroom : ¬ s.events.encoder_queue_full_advanced) :
    s.Keeps cfg (.poll pins) ↔ s.Counts cfg (.poll pins) := by
  have hbalanced := h.balanced
  simp only [Keeps, Counts]
  by_cases hlooks : s.pins ≠ pins ∨ s.encoder_interrupt_update = true
  · simp only [hlooks, true_imp_iff]
    by_cases hr : 0 < cfg.resolution.toNat
    · have hne : cfg.resolution ≠ 0 := by
        rintro hzero
        rw [hzero] at hr
        exact absurd hr (by decide)
      obtain ⟨hcounted, hpulses, hnet⟩ := h.poll_looks pins hlooks hr hroom
      obtain ⟨hlow, hhigh⟩ := h.pulses_bounds pins
      have hr' : (0 : Int) < cfg.resolution.toNat := by omega
      rw [← detents_int8_iff hr' hlow hhigh]
      unfold Balanced
      rw [hcounted, hpulses, hnet, int8_tmod _ (int8_fits _), add_mul, ← hbalanced]
      unfold pulses
      refine ⟨fun hcount => ⟨hne, by omega⟩, fun hcount => by omega⟩
    · have hzero : cfg.resolution = 0 := by
        apply UInt8.toNat_inj.mp
        simp only [UInt8.toNat_zero]
        omega
      constructor
      · rintro ⟨-, -, hlow, hhigh⟩
        omega
      · exact fun hcount => absurd hzero hcount.1
  · have hpins : s.pins = pins := not_not.mp (not_or.mp hlooks).1
    simp only [hlooks, false_imp_iff, true_and, true_iff]
    simp only [step, encoder_quadrature_handle_read, h.looks_iff pins, hlooks, if_false]
    simp only [turn, hpins, quarter_step_self, add_zero]
    exact hbalanced

omit h in
@[simp] theorem state_queue_event (clockwise : Bool) :
    (s.encoder_queue_event cfg clockwise).encoder_state = s.encoder_state := rfl

omit h in
@[simp] theorem state_handle (state : UInt8) :
    (s.encoder_handle_state_change cfg state).encoder_state = s.encoder_state := by
  unfold encoder_handle_state_change
  simp only
  split <;> split <;> rfl

omit h in
@[simp] theorem pins_handle (state : UInt8) :
    (s.encoder_handle_state_change cfg state).pins = s.pins := by
  unfold encoder_handle_state_change
  simp only
  split <;> split <;> rfl

theorem Tracks.step (x : Sample) (hx : s.Counts cfg x) : (s.step cfg x).Tracks cfg := by
  cases x with
  | interrupt pins => exact ⟨low_pins s.encoder_state pins, int8_fits _, hx⟩
  | poll pins =>
    refine ⟨?_, ?_, hx.2⟩
    · by_cases hlooks : s.pins ≠ pins ∨ s.encoder_interrupt_update = true
      · simp only [Encoder.step, encoder_quadrature_handle_read, h.looks_iff pins, hlooks, if_true,
          state_handle, pins_handle]
        exact low_pins s.encoder_state pins
      · have hpins : s.pins = pins := not_not.mp (not_or.mp hlooks).1
        simp only [Encoder.step, encoder_quadrature_handle_read, h.looks_iff pins, hlooks, if_false]
        simp only [turn, ← hpins]
        exact h.low
    · simp only [Encoder.step]
      unfold encoder_quadrature_handle_read
      split
      · exact int8_fits _
      · exact h.fits
  | handle => exact ⟨h.low, h.fits, hx⟩

theorem Tracks.keeps_iff (x : Sample) (hroom : s.Roomy x) : s.Keeps cfg x ↔ s.Counts cfg x := by
  cases x with
  | interrupt pins => exact h.interrupt_iff pins
  | poll pins => exact h.poll_iff pins hroom
  | handle => exact ⟨fun _ => h.balanced, fun _ => trivial⟩

end Encoder

namespace Encoder

instance (s : Encoder n) : ∀ x, Decidable (s.Roomy x)
  | .interrupt _ => .isTrue trivial
  | .poll _ => inferInstanceAs (Decidable (¬ _))
  | .handle => .isTrue trivial

instance (cfg : Config) (s : Encoder n) : ∀ x, Decidable (s.Keeps cfg x)
  | .interrupt _ => inferInstanceAs (Decidable (_ ∧ _))
  | .poll _ => inferInstanceAs (Decidable (_ ∨ _ → _ ∧ _ ∧ _ ∧ _))
  | .handle => .isTrue trivial

instance (cfg : Config) (s : Encoder n) : Decidable (s.Balanced cfg) :=
  inferInstanceAs (Decidable (_ = _))

instance (cfg : Config) (s : Encoder n) : ∀ x, Decidable (s.Counts cfg x)
  | .interrupt _ => inferInstanceAs (Decidable (Balanced _ _))
  | .poll _ => inferInstanceAs (Decidable ((_ ∨ _ → _) ∧ Balanced _ _))
  | .handle => inferInstanceAs (Decidable (Balanced _ _))

/-- In a run whose queue does not fill, the events and the pulses left over
make up the quarter steps all the time exactly when each sum of pulses fits
the counter and each poll finds less than two detents. -/
theorem quarter_steps_are_counted_iff (cfg : Config) (pins : Pins) (xs : List Sample)
    (h : Along (step cfg) Roomy (initial pins : Encoder n) xs) :
    Along (step cfg) (Counts cfg) (initial pins : Encoder n) xs ↔
      Along (step cfg) (Keeps cfg) (initial pins : Encoder n) xs :=
  Along.iff_of_along (I := Tracks cfg) (fun _ x htracks hroom => htracks.keeps_iff x hroom)
    (fun _ x htracks _ hx => htracks.step x hx) (tracks_initial cfg pins) h

/-- One detent, seen by turns. -/
theorem a_detent_is_counted :
    Along (step ⟨0, 4, false⟩) (Counts ⟨0, 4, false⟩) (initial ⟨false, false⟩ : Encoder 3)
      [.interrupt ⟨false, true⟩, .poll ⟨true, true⟩, .interrupt ⟨true, false⟩,
        .poll ⟨false, false⟩] :=
  (quarter_steps_are_counted_iff ⟨0, 4, false⟩ ⟨false, false⟩
    [.interrupt ⟨false, true⟩, .poll ⟨true, true⟩, .interrupt ⟨true, false⟩, .poll ⟨false, false⟩]
    (by decide)).mpr (by decide)

/-- Two detents between two polls: the interrupts see all eight quarter
steps, and the poll makes one event and keeps no pulse. -/
theorem two_detents_make_one_event :
    ¬ Along (step ⟨0, 4, false⟩) (Counts ⟨0, 4, false⟩) (initial ⟨false, false⟩ : Encoder 3)
      [.interrupt ⟨false, true⟩, .interrupt ⟨true, true⟩, .interrupt ⟨true, false⟩,
        .interrupt ⟨false, false⟩, .interrupt ⟨false, true⟩, .interrupt ⟨true, true⟩,
        .interrupt ⟨true, false⟩, .interrupt ⟨false, false⟩, .poll ⟨false, false⟩] := by
  decide

end Encoder

end keychron_qmk.encoder
