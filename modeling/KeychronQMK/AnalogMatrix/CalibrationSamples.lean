-- The samples that the calibrations average: the automatic one takes those of one release,
-- far above the full travel of the key, and the manual one of the full travel should take
-- the last ones of its mode.
import KeychronQMK.AnalogMatrix.Calibrated

namespace keychron_qmk.analog_matrix

open runs

variable {R C : Nat}

/-! ## The automatic calibration -/

/-- The sample goes into the buffer of the release. -/
def Buffers (p : calibration_t) (value : UInt16) : Prop :=
  p.state = .AUTO_CALIB_ZERO_TRAVEL ∧ value.toNat ≤ p.value.zero_travel.toNat ∧
    dist p.value.zero_travel.toNat value.toNat ≤ AUTO_CALIB_ZERO_TRAVEL_JITTER_VALUE

def Averages (p : calibration_t) (value : UInt16) (now : UInt32) : Prop :=
  Buffers p value ∧ CAL_SAMPL_CNT ≤ p.cycle + 1 ∧
    now - p.full_travel_time < AUTO_CALIB_VALID_RELASING_TIME

def release_average (p : calibration_t) (samples : Nat → UInt16) (value : UInt16) : Nat :=
  sample_average (Function.update samples p.cycle value)

/-- What is promised of one sample: it is buffered in bounds, no confidence comes from a
difference that wraps, and the values are replaced only with the confidence of a release
of more than 900. -/
structure SafeCheck (p : calibration_t) (samples : Nat → UInt16) (live saved : calibrated_value_t)
    (value : UInt16) (now : UInt32) : Prop where
  index : Buffers p value → p.cycle < CAL_SAMPL_CNT
  written : ∀ i, (auto_check p samples live saved value now).samples i ≠ samples i →
    i < CAL_SAMPL_CNT
  averaged : Averages p value now →
    p.value.full_travel.toNat + ZERO_TRAVEL_DEAD_ZONE ≤ release_average p samples value
  raised : p.confidence < (auto_check p samples live saved value now).auto.confidence →
    Averages p value now
  replaced : (auto_check p samples live saved value now).live ≠ live ∨
      (auto_check p samples live saved value now).outcome ≠ .unfinished →
    12 ≤ (auto_check p samples live saved value now).auto.confidence ∧ Averages p value now ∧
      p.value.full_travel.toNat + ZERO_TRAVEL_DEAD_ZONE + 900 < release_average p samples value

/-- While a key is released, its highest sample is far above its full travel, and the
buffered samples are near the highest one. -/
structure Tracks (p : calibration_t) (samples : Nat → UInt16) : Prop extends AutoGood p where
  above : p.state = .AUTO_CALIB_ZERO_TRAVEL →
    p.value.full_travel.toNat + AUTO_CALIB_ZERO_TRAVEL_THRESHOLD_VALUE <
      p.value.zero_travel.toNat
  near : p.state = .AUTO_CALIB_ZERO_TRAVEL → ∀ i < p.cycle,
    p.value.zero_travel.toNat ≤ (samples i).toNat + AUTO_CALIB_ZERO_TRAVEL_JITTER_VALUE
  bounded : ∀ i, (samples i).toNat ≤ 3500

section Check

variable {p : calibration_t} {samples : Nat → UInt16} {live saved : calibrated_value_t}
  {value : UInt16} {now : UInt32}

theorem sample_average_ge_all (samples : Nat → UInt16) (lo : Nat)
    (h : ∀ i < CAL_SAMPL_CNT, lo ≤ (samples i).toNat) : lo ≤ sample_average samples := by
  have h0 := h 0 (by decide)
  have h1 := h 1 (by decide)
  have h2 := h 2 (by decide)
  have h3 := h 3 (by decide)
  have h4 := h 4 (by decide)
  have h5 := h 5 (by decide)
  have h6 := h 6 (by decide)
  have h7 := h 7 (by decide)
  simp only [sample_average, sample_sum_eq, CAL_SAMPL_CNT]
  omega

theorem Buffers.near (h : Buffers p value) :
    p.value.zero_travel.toNat ≤ value.toNat + AUTO_CALIB_ZERO_TRAVEL_JITTER_VALUE := by
  have hnear := h.2.2
  unfold dist at hnear
  omega

theorem Tracks.near_update (h : Tracks p samples) (hb : Buffers p value) {i : Nat}
    (hi : i < p.cycle + 1) : p.value.zero_travel.toNat ≤
      (Function.update samples p.cycle value i).toNat + AUTO_CALIB_ZERO_TRAVEL_JITTER_VALUE := by
  rcases Nat.lt_succ_iff_lt_or_eq.mp hi with hlt | rfl
  · rw [Function.update_of_ne (Nat.ne_of_lt hlt)]
    exact h.near hb.1 i hlt
  · rw [Function.update_self]
    exact hb.near

theorem Tracks.average (h : Tracks p samples) (ha : Averages p value now) :
    p.value.full_travel.toNat + ZERO_TRAVEL_DEAD_ZONE ≤ release_average p samples value := by
  obtain ⟨hb, hlast, -⟩ := ha
  have hlow := sample_average_ge_all (Function.update samples p.cycle value)
    (p.value.zero_travel.toNat - AUTO_CALIB_ZERO_TRAVEL_JITTER_VALUE) fun i hi => by
      have hnear := h.near_update hb (lt_of_lt_of_le hi hlast)
      omega
  have habove := h.above hb.1
  unfold release_average
  simp only [AUTO_CALIB_ZERO_TRAVEL_THRESHOLD_VALUE, AUTO_CALIB_ZERO_TRAVEL_JITTER_VALUE,
    AUTO_CALIB_FULL_TRAVEL_JITTER_VALUE, DEFAULT_FULL_RANGE, ZERO_TRAVEL_DEAD_ZONE] at *
  omega

/-- A sample of a release: higher than all, buffered, averaged, too late, or below. -/
theorem releasing_eq (p : calibration_t) (samples : Nat → UInt16) (value : UInt16) (now : UInt32)
    (hs : p.state = .AUTO_CALIB_ZERO_TRAVEL) :
    (¬ Buffers p value ∧ p.value.zero_travel.toNat < value.toNat ∧
      releasing p samples value now =
        ({ p with value := { p.value with zero_travel := .ofNat 12 value.toNat }, cycle := 0 },
          samples)) ∨
    (Buffers p value ∧ p.cycle + 1 < CAL_SAMPL_CNT ∧ releasing p samples value now =
      ({ p with cycle := p.cycle + 1 }, Function.update samples p.cycle value)) ∨
    (Averages p value now ∧ releasing p samples value now =
      ({ average_zero_travel { p with cycle := p.cycle + 1 }
          (Function.update samples p.cycle value) with state := .AUTO_CALIB_NEXT_LOOP },
        Function.update samples p.cycle value)) ∨
    (Buffers p value ∧ ¬ Averages p value now ∧ releasing p samples value now =
      ({ p with cycle := p.cycle + 1, state := .AUTO_CALIB_NEXT_LOOP },
        Function.update samples p.cycle value)) ∨
    (¬ Buffers p value ∧ releasing p samples value now =
      ({ p with state := .AUTO_CALIB_NEXT_LOOP }, samples)) := by
  unfold releasing
  by_cases habove : p.value.zero_travel.toNat < value.toNat
  · rw [if_pos habove]
    exact .inl ⟨fun hb => absurd hb.2.1 (not_le.mpr habove), habove, rfl⟩
  rw [if_neg habove]
  by_cases hnear : dist p.value.zero_travel.toNat value.toNat ≤
      AUTO_CALIB_ZERO_TRAVEL_JITTER_VALUE
  · rw [if_pos hnear]
    have hb : Buffers p value := ⟨hs, not_lt.mp habove, hnear⟩
    by_cases hlast : CAL_SAMPL_CNT ≤ p.cycle + 1
    · rw [if_pos hlast]
      by_cases htime : now - p.full_travel_time < AUTO_CALIB_VALID_RELASING_TIME
      · rw [if_pos htime]
        exact .inr (.inr (.inl ⟨⟨hb, hlast, htime⟩, rfl⟩))
      · rw [if_neg htime]
        exact .inr (.inr (.inr (.inl ⟨hb, fun ha => htime ha.2.2, rfl⟩)))
    · rw [if_neg hlast]
      exact .inr (.inl ⟨hb, not_le.mp hlast, rfl⟩)
  · rw [if_neg hnear]
    exact .inr (.inr (.inr (.inr ⟨fun hb => hnear hb.2.2, rfl⟩)))

theorem auto_check_idle (samples : Nat → UInt16) (live saved : calibrated_value_t)
    (value : UInt16) (now : UInt32) (hs : p.state ≠ .AUTO_CALIB_ZERO_TRAVEL) :
    (auto_check p samples live saved value now).live = live ∧
      (auto_check p samples live saved value now).outcome = .unfinished ∧
      (auto_check p samples live saved value now).samples = samples ∧
      (auto_check p samples live saved value now).auto.confidence ≤ p.confidence := by
  have hsame : p.confidence ≤ p.confidence := UInt8.le_refl _
  have hzero : 0 ≤ p.confidence := UInt8.le_iff_toNat_le.mpr (Nat.zero_le _)
  unfold auto_check
  split
  · split
    · exact ⟨rfl, rfl, rfl, hsame⟩
    · exact ⟨rfl, rfl, rfl, hzero⟩
  · split <;> exact ⟨rfl, rfl, rfl, hsame⟩
  · exact absurd ‹_› hs
  · dsimp only
    split
    · exact ⟨rfl, rfl, rfl, hsame⟩
    split
    · exact ⟨rfl, rfl, rfl, hsame⟩
    split <;> exact ⟨rfl, rfl, rfl, hsame⟩
  · split <;> exact ⟨rfl, rfl, rfl, hsame⟩

theorem auto_check_release (hs : p.state = .AUTO_CALIB_ZERO_TRAVEL) :
    auto_check p samples live saved value now =
      if 12 ≤ (releasing p samples value now).1.confidence then
        ⟨{ (releasing p samples value now).1 with state := .AUTO_CALIB_FINISHED },
          (releasing p samples value now).2,
          (finish (releasing p samples value now).1.value live saved).1,
          (finish (releasing p samples value now).1.value live saved).2⟩
      else ⟨(releasing p samples value now).1, (releasing p samples value now).2, live,
        .unfinished⟩ := by
  unfold auto_check
  rw [hs]

theorem auto_check_unconfident (live saved : calibrated_value_t) (h : AutoGood p)
    (hs : p.state = .AUTO_CALIB_ZERO_TRAVEL)
    (hsame : (releasing p samples value now).1.confidence = p.confidence) :
    auto_check p samples live saved value now =
      ⟨(releasing p samples value now).1, (releasing p samples value now).2, live,
        .unfinished⟩ := by
  have hconf : p.confidence.toNat < 12 := h.confidence (by rw [hs]; nofun) (by rw [hs]; nofun)
  rw [auto_check_release hs, if_neg]
  rw [hsame]
  exact fun hle => absurd (UInt8.le_iff_toNat_le.mp hle) (not_le.mpr hconf)

theorem update_ne {samples : Nat → UInt16} {j : Nat} {value : UInt16} {i : Nat}
    (h : Function.update samples j value i ≠ samples i) : i = j := by
  by_contra hij
  exact h (Function.update_of_ne hij _ _)

theorem Tracks.safe (h : Tracks p samples) (hlo : 1200 ≤ value.toNat) (hhi : value.toNat ≤ 3500)
    (live saved : calibrated_value_t) (now : UInt32) :
    SafeCheck p samples live saved value now := by
  have hindex : Buffers p value → p.cycle < CAL_SAMPL_CNT := fun hb => h.cycle hb.1
  by_cases hs : p.state = .AUTO_CALIB_ZERO_TRAVEL
  swap
  · obtain ⟨hlive, hout, hsamples, hconf⟩ :=
      auto_check_idle samples live saved value now hs
    refine ⟨hindex, fun i hi => absurd (congrFun hsamples i) hi, h.average, fun hr => ?_, ?_⟩
    · exact absurd hconf (UInt8.not_le.mpr hr)
    · rintro (hne | hne)
      · exact absurd hlive hne
      · exact absurd hout hne
  -- Only a release that is averaged adds confidence.
  have hquiet : (releasing p samples value now).1.confidence = p.confidence →
      (∀ i, (releasing p samples value now).2 i ≠ samples i → i < CAL_SAMPL_CNT) →
      SafeCheck p samples live saved value now := by
    intro hsame hwritten
    have heq := auto_check_unconfident live saved h.toAutoGood hs hsame
    refine ⟨hindex, ?_, h.average, ?_, ?_⟩
    · rw [heq]
      exact hwritten
    · rw [heq]
      intro hr
      rw [hsame] at hr
      exact absurd hr (UInt8.lt_irrefl _)
    · rw [heq]
      rintro (hne | hne)
      · exact absurd rfl hne
      · exact absurd rfl hne
  have hbuffered : Buffers p value →
      ∀ i, Function.update samples p.cycle value i ≠ samples i → i < CAL_SAMPL_CNT :=
    fun hb i hi => update_ne hi ▸ hindex hb
  rcases releasing_eq p samples value now hs with ⟨-, -, heq⟩ | ⟨hb, -, heq⟩ | ⟨ha, heq⟩ |
    ⟨hb, -, heq⟩ | ⟨-, heq⟩
  · exact hquiet (by rw [heq]) (by rw [heq]; exact fun i hi => absurd rfl hi)
  · exact hquiet (by rw [heq]) (by rw [heq]; exact hbuffered hb)
  · have haverage := h.average ha
    obtain ⟨hge, hle⟩ := averaged h.toAutoGood hs h.bounded hlo hhi
    obtain ⟨-, honly, -⟩ := average_confidence h.toAutoGood hs (p.cycle + 1) hge hle
    refine ⟨hindex, ?_, h.average, fun _ => ha, ?_⟩
    · rw [auto_check_release hs, heq]
      split <;> exact hbuffered ha.1
    · rw [auto_check_release hs, heq]
      split
      · rename_i hconf
        intro _
        refine ⟨hconf, ha, ?_⟩
        unfold release_average ZERO_TRAVEL_DEAD_ZONE at *
        have hgap := (honly hconf).resolve_right fun hwrap => by omega
        omega
      · rintro (hne | hne)
        · exact absurd rfl hne
        · exact absurd rfl hne
  · exact hquiet (by rw [heq]) (by rw [heq]; exact hbuffered hb)
  · exact hquiet (by rw [heq]) (by rw [heq]; exact fun i hi => absurd rfl hi)

theorem Tracks.of_other {p : calibration_t} (h : AutoGood p) (hs : p.state ≠ .AUTO_CALIB_ZERO_TRAVEL)
    (hb : ∀ i, (samples i).toNat ≤ 3500) : Tracks p samples :=
  ⟨h, fun hz => absurd hz hs, fun hz => absurd hz hs, hb⟩

theorem value_field (hhi : value.toNat ≤ 3500) :
    (BitVec.ofNat 12 value.toNat).toNat = value.toNat := by
  simp only [BitVec.toNat_ofNat]
  omega

/-- Every sample keeps the buffer near the highest sample of the release. -/
theorem Tracks.check (h : Tracks p samples) (hlo : 1200 ≤ value.toNat) (hhi : value.toNat ≤ 3500)
    (live saved : calibrated_value_t) (now : UInt32) :
    Tracks (auto_check p samples live saved value now).auto
      (auto_check p samples live saved value now).samples := by
  obtain ⟨hgood, hbounded⟩ := auto_check_good h.toAutoGood h.bounded hlo hhi live saved now
  rcases hs : p.state with _ | _ | _ | _ | _
  case AUTO_CALIB_ZERO_TRAVEL =>
    rcases releasing_eq p samples value now hs with ⟨-, hlt, heq⟩ | ⟨hb, -, heq⟩ | ⟨-, heq⟩ |
      ⟨-, -, heq⟩ | ⟨-, heq⟩
    · have hcheck := auto_check_unconfident live saved h.toAutoGood hs
        (by rw [heq])
      rw [hcheck, heq] at hgood hbounded ⊢
      refine ⟨hgood, fun _ => ?_, fun _ i hi => absurd hi (Nat.not_lt_zero i), hbounded⟩
      have habove := h.above hs
      dsimp only
      rw [value_field hhi]
      omega
    · have hcheck := auto_check_unconfident live saved h.toAutoGood hs
        (by rw [heq])
      rw [hcheck, heq] at hgood hbounded ⊢
      exact ⟨hgood, fun _ => h.above hs, fun _ i hi => h.near_update hb hi, hbounded⟩
    all_goals
      refine .of_other hgood ?_ hbounded
      rw [auto_check_release hs, heq]
      split <;> nofun
  case AUTO_CALIB_FULL_TRAVEL =>
    unfold auto_check at hgood hbounded ⊢
    rw [hs] at hgood hbounded ⊢
    dsimp only at hgood hbounded ⊢
    split
    · rename_i hlt
      rw [if_pos hlt] at hgood hbounded
      exact .of_other hgood nofun hbounded
    rename_i hge
    rw [if_neg hge] at hgood hbounded
    split
    · rename_i hnear
      rw [if_pos hnear] at hgood hbounded
      exact .of_other hgood nofun hbounded
    rename_i hfar
    rw [if_neg hfar] at hgood hbounded
    split
    · rename_i hup
      rw [if_pos hup] at hgood hbounded
      refine ⟨hgood, fun _ => ?_, fun _ i hi => absurd hi (Nat.not_lt_zero i), hbounded⟩
      dsimp only
      rw [value_field hhi]
      omega
    · exact .of_other h.toAutoGood (by rw [hs]; nofun) h.bounded
  all_goals
    refine .of_other hgood ?_ hbounded
    unfold auto_check
    rw [hs]
    dsimp only
    split <;> simp [hs]

end Check

namespace Calibrator

/-- What reaches the calibrations without a command of the host. -/
inductive Reading (R C : Nat)
  | sample (row : Fin R) (col : Fin C) (value : UInt16) (travel : UInt8) (now : UInt32)
  | task (now : UInt32)
  | power_cycle

def Reading.input : Reading R C → Input R C
  | .sample row col value travel now => .sample row col value travel now
  | .task now => .task now
  | .power_cycle => .power_cycle

def read (cfg : Config R C) (k : Calibrator R C) (x : Reading R C) : Calibrator R C :=
  k.step cfg x.input

/-- Each key tracks its release, and no automatic calibration starts before the one at
power-on is over. -/
structure Following (k : Calibrator R C) : Prop where
  tracks : ∀ r c, Tracks (k.auto_calib r c) (k.calibrate_values r c)
  mode : k.cali_state = .CALIB_OFF ∨
    k.cali_state = .CALIB_ZERO_TRAVEL_POWER_ON ∧ ∀ r c, (k.auto_calib r c).state = .AUTO_CALIB_OFF

section Steps

variable {cfg : Config R C} {k : Calibrator R C}

theorem autoGood_zero : AutoGood .zero :=
  ⟨rfl, fun hne => absurd rfl hne, nofun, nofun⟩

theorem power_up_following (cfg : Config R C) (b : Board R C) : (power_up cfg b).Following :=
  ⟨fun _ _ => .of_other autoGood_zero nofun fun _ => Nat.zero_le _, .inr ⟨rfl, fun _ _ => rfl⟩⟩

theorem Following.sample (h : k.Following) (row : Fin R) (col : Fin C) (value : UInt16)
    (travel : UInt8) (now : UInt32) : (k.update_raw_value cfg row col value travel now).Following := by
  by_cases hv : InRange value
  swap
  · have hstep : k.update_raw_value cfg row col value travel now = k := if_pos (not_not.mp hv)
    rw [hstep]
    exact h
  obtain ⟨hlo, hhi⟩ := inRange_bounds hv
  unfold Calibrator.update_raw_value
  rw [if_neg hv]
  split
  · rename_i hs
    obtain ⟨hon, hoff⟩ := h.mode.resolve_left (by simpa using hs)
    refine ⟨fun r c => .of_other (h.tracks r c).toAutoGood ?_ fun i => ?_, .inr ⟨hon, hoff⟩⟩
    · dsimp only
      rw [hoff r c]
      nofun
    · dsimp only
      split
      · exact update_samples_le (h.tracks r c).bounded hhi _ i
      · exact (h.tracks r c).bounded i
  · rename_i hs
    refine ⟨fun r c => ?_, .inl (by simpa using hs)⟩
    dsimp only
    split
    · exact (h.tracks row col).check hlo hhi _ _ now
    · exact h.tracks r c

theorem Following.power_on_keys (h : k.Following)
    (hoff : ∀ r c, (k.auto_calib r c).state = .AUTO_CALIB_OFF) (r : Fin R) (c : Fin C) :
    Tracks ((k.zero_travel_keys cfg true).auto_calib r c) (k.calibrate_values r c) := by
  have hidle : (k.auto_calib r c).state ≠ .AUTO_CALIB_ZERO_TRAVEL := by
    rw [hoff r c]
    nofun
  unfold zero_travel_keys
  dsimp only
  split
  · obtain ⟨hcal, hconf, hfull, hcycle⟩ := (h.tracks r c).toAutoGood
    exact .of_other ⟨hcal, hconf, hfull, hcycle⟩ hidle (h.tracks r c).bounded
  · exact h.tracks r c

theorem Following.task (h : k.Following) (now : UInt32) : (k.calibrate cfg now).Following := by
  rcases h.mode with hs | ⟨hs, hoff⟩
  · unfold calibrate
    rw [hs]
    exact h
  · unfold calibrate
    rw [hs]
    dsimp only
    unfold calibrate_power_on
    split
    · exact ⟨h.tracks, .inr ⟨hs, hoff⟩⟩
    · dsimp only
      split
      · exact ⟨h.power_on_keys hoff, .inl rfl⟩
      · exact ⟨h.power_on_keys hoff, .inl rfl⟩

theorem Following.read (h : k.Following) (x : Reading R C) : (k.read cfg x).Following := by
  cases x with
  | sample row col value travel now => exact h.sample row col value travel now
  | task now => exact h.task now
  | power_cycle => exact power_up_following cfg k.board

end Steps

/-- The automatic calibration is safe on the sample that it is given. -/
def ChecksSafely (k : Calibrator R C) : Reading R C → Prop
  | .sample row col value _ now => InRange value → k.cali_state = .CALIB_OFF →
    SafeCheck (k.auto_calib row col) (k.calibrate_values row col) (k.calib_values row col)
      (k.board.saved_calib_values row col) value now
  | .task _ | .power_cycle => True

/-- For any samples of any keys at any times the automatic calibration writes inside its
buffer, gains no confidence from a wrapped difference, and replaces values only after a
release of more than 900. -/
theorem automatic_calibrations_are_safe (cfg : Config R C) (b : Board R C)
    (readings : List (Reading R C)) :
    Along (read cfg) ChecksSafely (power_up cfg b) readings := by
  refine Along.imp (I := Following) (C := fun _ _ => True) (fun k x h _ => ⟨?_, h.read x⟩)
    (power_up_following cfg b) (Along.of_forall (fun _ _ => trivial) _ _)
  cases x with
  | sample row col value travel now =>
    intro hv _
    obtain ⟨hlo, hhi⟩ := inRange_bounds hv
    exact (h.tracks row col).safe hlo hhi _ _ now
  | task now => trivial
  | power_cycle => trivial

end Calibrator

/-! ## The manual calibration of the full travel -/

/-- The calibrations, and the samples of each key since the mode was entered that measures
the full travel by hand, the last one first. -/
structure Sampled (R C : Nat) where
  calibrator : Calibrator R C
  recent : Fin R → Fin C → List UInt16

def recent_average (recent : List UInt16) : Nat :=
  ((recent.take CAL_SAMPL_CNT).map UInt16.toNat).sum / CAL_SAMPL_CNT

def AllValid (recent : List UInt16) : Prop :=
  CAL_SAMPL_CNT ≤ recent.length ∧
    ∀ x ∈ recent.take CAL_SAMPL_CNT, VALID_ANALOG_RAW_VALUE_MIN < x.toNat

namespace Sampled

open Calibrator

def note (recent : Fin R → Fin C → List UInt16) : Calibrator.Input R C → Fin R → Fin C → List UInt16
  | .sample row col value _ _ => fun r c =>
    if r = row ∧ c = col then value :: recent r c else recent r c
  | .task _ | .command _ | .power_cycle => recent

def step (cfg : Config R C) (s : Sampled R C) (x : Calibrator.Input R C) : Sampled R C :=
  let k := s.calibrator.step cfg x
  ⟨k,
    if s.calibrator.cali_state ≠ .CALIB_FULL_TRAVEL_MANUAL ∧
        k.cali_state = .CALIB_FULL_TRAVEL_MANUAL then fun _ _ => []
    else note s.recent x⟩

/-- A full travel that a turn of the mode sets is the average of the last samples of its
key, all valid and taken in the mode. -/
def SetsAverage (cfg : Config R C) (s : Sampled R C) : Calibrator.Input R C → Prop
  | .task now => s.calibrator.cali_state = .CALIB_FULL_TRAVEL_MANUAL → ∀ r c,
    let full := ((s.calibrator.calibrate cfg now).calib_values r c).full_travel
    full ≠ (s.calibrator.calib_values r c).full_travel →
      AllValid (s.recent r c) ∧ full.toNat = recent_average (s.recent r c) + BOTTOM_JITTER
  | .sample .. | .command _ | .power_cycle => True

def SampleIsAverage (cfg : Config R C) (s : Sampled R C) : Calibrator.Input R C → Prop
  | .task _ => s.calibrator.cali_state = .CALIB_FULL_TRAVEL_MANUAL → ∀ r c,
    cfg.hasKey r c = true →
      Pressed (s.calibrator.calib_values r c)
        (s.calibrator.calibrate_values r c s.calibrator.cur_calib) →
      AllValid (s.recent r c) ∧
        (s.calibrator.calibrate_values r c s.calibrator.cur_calib).toNat =
          recent_average (s.recent r c)
  | .sample .. | .command _ | .power_cycle => True

/-! ### The buffered samples are in range -/

def InBuffer (k : Calibrator R C) : Prop := ∀ r c i, (k.calibrate_values r c i).toNat ≤ 3500

section Steps

variable {cfg : Config R C} {k : Calibrator R C}

theorem auto_check_samples (p : calibration_t) (samples : Nat → UInt16)
    (live saved : calibrated_value_t) (value : UInt16) (now : UInt32) (i : Nat) :
    (auto_check p samples live saved value now).samples i = samples i ∨
      (auto_check p samples live saved value now).samples i = value := by
  by_cases hs : p.state = .AUTO_CALIB_ZERO_TRAVEL
  · have hupd : Function.update samples p.cycle value i = samples i ∨
        Function.update samples p.cycle value i = value := by
      by_cases hi : i = p.cycle
      · rw [hi, Function.update_self]
        exact .inr rfl
      · rw [Function.update_of_ne hi]
        exact .inl rfl
    have hrelease : (auto_check p samples live saved value now).samples =
        (releasing p samples value now).2 := by
      rw [auto_check_release hs]
      split <;> rfl
    rw [hrelease]
    rcases releasing_eq p samples value now hs with ⟨-, -, heq⟩ | ⟨-, -, heq⟩ | ⟨-, heq⟩ |
      ⟨-, -, heq⟩ | ⟨-, heq⟩
    · exact .inl (by rw [heq])
    · rw [heq]; exact hupd
    · rw [heq]; exact hupd
    · rw [heq]; exact hupd
    · exact .inl (by rw [heq])
  · exact .inl (congrFun (auto_check_idle _ _ _ _ _ hs).2.2.1 i)

theorem inBuffer_sample (h : InBuffer k) (row : Fin R) (col : Fin C) (value : UInt16)
    (travel : UInt8) (now : UInt32) :
    InBuffer (k.update_raw_value cfg row col value travel now) := by
  intro r c i
  unfold Calibrator.update_raw_value
  dsimp only
  split
  · exact h r c i
  rename_i hv
  have hhi : value.toNat ≤ 3500 := (inRange_bounds hv).2
  split
  · dsimp only
    split
    · exact update_samples_le (h r c) hhi _ i
    · exact h r c i
  · dsimp only
    split
    · unfold Calibrator.auto_caliration_check
      rcases auto_check_samples (k.auto_calib row col) (k.calibrate_values row col)
        (k.calib_values row col) (k.board.saved_calib_values row col) value now i with heq | heq
      · rw [heq]
        exact h row col i
      · rw [heq]
        exact hhi
    · exact h r c i

theorem calibrate_values_task (cfg : Config R C) (k : Calibrator R C) (now : UInt32) :
    (k.calibrate cfg now).calibrate_values = k.calibrate_values := by
  unfold calibrate
  split
  · rfl
  · obtain ⟨cur_calib, timer, ⟨-, heq⟩ | ⟨-, heq⟩⟩ := calibrate_full_travel_cases cfg k now
    · rw [heq]
      rfl
    · rw [heq]
      rfl
  · unfold calibrate_power_on
    split
    · rfl
    · dsimp only
      split <;> rfl
  · unfold calibrate_zero_travel
    split <;> rfl
  · unfold calibrate_save_and_exit
    split <;> rfl

theorem inBuffer_step (h : InBuffer k) (x : Calibrator.Input R C) : InBuffer (k.step cfg x) := by
  cases x with
  | sample row col value travel now => exact inBuffer_sample h row col value travel now
  | task now =>
    intro r c i
    change ((k.calibrate cfg now).calibrate_values r c i).toNat ≤ 3500
    rw [calibrate_values_task]
    exact h r c i
  | command x =>
    intro r c i
    change ((k.set_calibrate x).calibrate_values r c i).toNat ≤ 3500
    unfold set_calibrate
    split
    · exact Nat.zero_le _
    split
    · split <;> exact h r c i
    · exact h r c i
  | power_cycle => exact fun _ _ _ => Nat.zero_le _

/-! ### One turn of the mode -/

theorem full_travel_live (hs : k.cali_state = .CALIB_FULL_TRAVEL_MANUAL) (now : UInt32)
    (r : Fin R) (c : Fin C) : (k.calibrate cfg now).calib_values r c =
      if cfg.hasKey r c then (full_travel_key (k.calibrate_values r c) k.cur_calib
        (k.calib_values r c) (k.board.saved_calib_values r c)).1
      else k.calib_values r c := by
  unfold calibrate
  rw [hs]
  obtain ⟨cur_calib, timer, ⟨-, heq⟩ | ⟨-, heq⟩⟩ := calibrate_full_travel_cases cfg k now
  · dsimp only
    rw [heq]
    unfold full_travel_keys
    dsimp only
  · dsimp only
    rw [heq]
    unfold full_travel_keys save
    dsimp only

theorem sets_average_iff (h : InBuffer k) (hs : k.cali_state = .CALIB_FULL_TRAVEL_MANUAL)
    (now : UInt32) (r : Fin R) (c : Fin C) (recent : List UInt16) :
    (((k.calibrate cfg now).calib_values r c).full_travel ≠ (k.calib_values r c).full_travel →
      AllValid recent ∧ ((k.calibrate cfg now).calib_values r c).full_travel.toNat =
        recent_average recent + BOTTOM_JITTER) ↔
    (cfg.hasKey r c = true → Pressed (k.calib_values r c) (k.calibrate_values r c k.cur_calib) →
      AllValid recent ∧ (k.calibrate_values r c k.cur_calib).toNat = recent_average recent) := by
  rw [full_travel_live hs]
  have hle := h r c k.cur_calib
  by_cases hkey : cfg.hasKey r c = true
  swap
  · rw [if_neg hkey]
    exact iff_of_true (fun hne => absurd rfl hne) fun hk => absurd hk hkey
  rw [if_pos hkey]
  rcases full_travel_key_cases (k.calibrate_values r c) k.cur_calib (k.calib_values r c)
    (k.board.saved_calib_values r c) with ⟨hnot, heq⟩ | ⟨hp, v, rfl, heq⟩
  · rw [heq]
    exact iff_of_true (fun hne => absurd rfl hne) fun _ hp => absurd hp hnot
  · rw [heq]
    generalize k.calibrate_values r c k.cur_calib = sample at *
    have hfull : (BitVec.ofNat 12 (sample.toNat + BOTTOM_JITTER)).toNat =
        sample.toNat + BOTTOM_JITTER := by
      simp only [BitVec.toNat_ofNat, BOTTOM_JITTER]
      omega
    have hne : BitVec.ofNat 12 (sample.toNat + BOTTOM_JITTER) ≠ (k.calib_values r c).full_travel := by
      intro hsame
      rw [hsame] at hfull
      rcases hp.2 with ⟨hzero, -⟩ | ⟨-, hlt⟩
      · rw [hzero] at hfull
        unfold BOTTOM_JITTER at hfull
        simp at hfull
      · omega
    rw [hfull, Nat.add_right_cancel_iff]
    exact ⟨fun hset _ _ => hset hne, fun hset _ => hset hkey hp⟩

end Steps

/-- In any run the full travels that the manual calibration sets are averages of the last
valid samples, if and only if each sample that sets one equals that average. -/
theorem full_travels_are_averages_iff (cfg : Config R C) (b : Board R C)
    (inputs : List (Calibrator.Input R C)) :
    Along (step cfg) (SetsAverage cfg) ⟨power_up cfg b, fun _ _ => []⟩ inputs ↔
      Along (step cfg) (SampleIsAverage cfg) ⟨power_up cfg b, fun _ _ => []⟩ inputs := by
  refine Along.iff (I := fun s => InBuffer s.calibrator) (fun s x h => ?_)
    (fun s x h _ => inBuffer_step h x) fun _ _ _ => Nat.zero_le _
  cases x with
  | task now =>
    refine forall_congr' fun hs => forall_congr' fun r => forall_congr' fun c => ?_
    exact (sets_average_iff h hs now r c (s.recent r c)).symm
  | sample row col value travel now => exact Iff.rfl
  | command x => exact Iff.rfl
  | power_cycle => exact Iff.rfl

def at_rest : List (Calibrator.Input 6 15) :=
  (List.replicate CAL_SAMPL_CNT [.sample 0 0 2950 0 0, .task 0]).flatten

/-- The first sample after the zero travel was measured, 1500, sets the full travel alone. -/
theorem one_sample_sets_the_full_travel : ¬ ∀ inputs : List (Calibrator.Input 6 15),
    Along (step sixRows) (SetsAverage sixRows)
      ⟨power_up sixRows (erasedBoard 6 15), fun _ _ => []⟩ inputs := by
  intro h
  have hrun := h (.command 2 :: at_rest ++ [.sample 0 0 1500 0 0, .task 0])
  rw [List.cons_append, Along, Along.append] at hrun
  obtain ⟨-, -, -, hset, -⟩ := hrun
  obtain ⟨⟨hlength, -⟩, -⟩ := hset (by decide +kernel) 0 0 (by decide +kernel)
  revert hlength
  decide +kernel

end Sampled

end keychron_qmk.analog_matrix
