-- What the calibrations do to one key: the manual one measures a usable
-- value, and the automatic one finds one exactly when the samples that it
-- averages are those of a release.
import KeychronQMK.AnalogMatrix.Calibration

namespace keychron_qmk.analog_matrix

/-- A value from which a travel can be computed. -/
structure Usable (v : calibrated_value_t) : Prop where
  pos : 0 < v.full_travel.toNat
  lt : v.full_travel.toNat < v.zero_travel.toNat

instance (v : calibrated_value_t) : Decidable (Usable v) :=
  decidable_of_iff (0 < v.full_travel.toNat ∧ v.full_travel.toNat < v.zero_travel.toNat)
    ⟨fun h => ⟨h.1, h.2⟩, fun h => ⟨h.pos, h.lt⟩⟩

/-- A saved value: its full travel is below every zero travel that the manual
calibration accepts. -/
structure Sound (v : calibrated_value_t) : Prop extends Usable v where
  full : v.full_travel.toNat ≤ 2760

/-- A live value of the manual calibration, which starts from zeros. -/
def Measured (v : calibrated_value_t) : Prop :=
  v = .zero ∨ (2800 ≤ v.zero_travel.toNat ∧ v.zero_travel.toNat ≤ 3480 ∧ v.full_travel.toNat ≤ 2760)

/-! ## The manual calibration -/

section Manual

variable {live saved : calibrated_value_t}

theorem full_travel_average (samples : Nat → UInt16) (cur_calib : Nat) :
    full_travel_sum samples cur_calib / CAL_SAMPL_CNT =
      if VALID_ANALOG_RAW_VALUE_MIN < (samples cur_calib).toNat then (samples cur_calib).toNat
      else 0 := by
  unfold full_travel_sum
  split
  · exact Nat.mul_div_cancel_left _ (by decide)
  · rfl

/-- The sample at `cur_calib` gives the key a full travel. -/
def Pressed (live : calibrated_value_t) (sample : UInt16) : Prop :=
  VALID_ANALOG_RAW_VALUE_MIN < sample.toNat ∧ takes_full_travel live sample.toNat

theorem full_travel_key_cases (samples : Nat → UInt16) (cur_calib : Nat)
    (live saved : calibrated_value_t) :
    (¬ Pressed live (samples cur_calib) ∧
      full_travel_key samples cur_calib live saved = (live, saved)) ∨
    (Pressed live (samples cur_calib) ∧ ∃ v : calibrated_value_t,
      v = ⟨live.zero_travel, .ofNat 12 ((samples cur_calib).toNat + BOTTOM_JITTER)⟩ ∧
      full_travel_key samples cur_calib live saved = (v, v)) := by
  have havg := full_travel_average samples cur_calib
  unfold full_travel_key Pressed
  simp only [havg]
  by_cases hv : VALID_ANALOG_RAW_VALUE_MIN < (samples cur_calib).toNat
  · have hsum : full_travel_sum samples cur_calib ≠ 0 := by
      simp only [full_travel_sum, if_pos hv, CAL_SAMPL_CNT]
      omega
    simp only [if_pos hv]
    by_cases ht : takes_full_travel live (samples cur_calib).toNat
    · right
      rw [if_pos ⟨hsum, ht⟩]
      exact ⟨⟨hv, ht⟩, _, rfl, rfl⟩
    · left
      rw [if_neg fun hc => ht hc.2]
      exact ⟨fun hc => ht hc.2, rfl⟩
  · left
    have hsum : full_travel_sum samples cur_calib = 0 := if_neg hv
    rw [if_neg fun hc => hc.1 hsum]
    exact ⟨fun hc => hv hc.1, rfl⟩

theorem pressed_sound (h : Measured live) {sample : UInt16} (hp : Pressed live sample) :
    Measured ⟨live.zero_travel, .ofNat 12 (sample.toNat + BOTTOM_JITTER)⟩ ∧
      Sound ⟨live.zero_travel, .ofNat 12 (sample.toNat + BOTTOM_JITTER)⟩ := by
  obtain ⟨hmin, htake⟩ := hp
  have hfull : (BitVec.ofNat 12 (sample.toNat + BOTTOM_JITTER)).toNat =
      (sample.toNat + BOTTOM_JITTER) % 4096 := BitVec.toNat_ofNat _ _
  simp only [VALID_ANALOG_RAW_VALUE_MIN, BOTTOM_JITTER] at hmin hfull
  rcases h with rfl | ⟨hlo, hhi, hle⟩
  · -- A key without a zero travel takes no full travel.
    rcases htake with ⟨-, hlt⟩ | ⟨hne, -⟩
    · exact absurd hlt (by simp [calibrated_value_t.zero, DEFAULT_FULL_RANGE])
    · exact absurd rfl hne
  · have hbound : sample.toNat + 80 ≤ 2760 := by
      rcases htake with ⟨-, hlt⟩ | ⟨-, hlt⟩
      · simp only [DEFAULT_FULL_RANGE] at hlt
        omega
      · simp only [BOTTOM_JITTER] at hlt
        omega
    refine ⟨.inr ⟨hlo, hhi, ?_⟩, ⟨⟨?_, ?_⟩, ?_⟩⟩
    all_goals simp only [BOTTOM_JITTER, hfull]; omega

theorem zero_travel_key_cases (power_on : Bool) (avg : Nat) (live : calibrated_value_t) :
    (zero_travel_key power_on avg live = live ∧
      (valid_zero avg → dist (avg - ZERO_TRAVEL_DEAD_ZONE) live.zero_travel.toNat ≤ 30)) ∨
    (valid_zero avg ∧ zero_travel_key power_on avg live =
      ⟨.ofNat 12 (avg - ZERO_TRAVEL_DEAD_ZONE),
        if power_on then .ofNat 12 (avg - ZERO_TRAVEL_DEAD_ZONE - DEFAULT_FULL_RANGE)
        else live.full_travel⟩) := by
  unfold zero_travel_key
  split
  · rename_i hv
    simp only
    split
    · exact .inr ⟨hv, rfl⟩
    · exact .inl ⟨rfl, fun _ => by omega⟩
  · rename_i hv
    exact .inl ⟨rfl, fun hc => absurd hc hv⟩

theorem valid_zero_bounds {avg : Nat} (h : valid_zero avg) : 2820 ≤ avg ∧ avg ≤ 3500 := by
  unfold valid_zero VALID_ANALOG_RAW_VALUE_MAX DEFAULT_ZERO_TRAVEL_VALUE DEFAULT_FULL_RANGE at h
  omega

theorem zero_travel_toNat {avg : Nat} (h : valid_zero avg) :
    (BitVec.ofNat 12 (avg - ZERO_TRAVEL_DEAD_ZONE)).toNat = avg - 20 := by
  have hb := valid_zero_bounds h
  simp only [BitVec.toNat_ofNat, ZERO_TRAVEL_DEAD_ZONE]
  omega

theorem zero_travel_key_measured (avg : Nat) : Measured (zero_travel_key false avg .zero) := by
  rcases zero_travel_key_cases false avg .zero with ⟨heq, -⟩ | ⟨hv, heq⟩
  · rw [heq]
    exact .inl rfl
  · have hb := valid_zero_bounds hv
    have hz := zero_travel_toNat hv
    rw [heq]
    refine .inr ⟨?_, ?_, ?_⟩
    · simp only [hz]; omega
    · simp only [hz]; omega
    · simp [calibrated_value_t.zero]

/-- What the live value is before the calibration at power-on, and after it. -/
structure PoweredOn (live : calibrated_value_t) : Prop extends Usable live where
  zero : 2700 ≤ live.zero_travel.toNat

theorem zero_travel_key_powered (h : PoweredOn live) (avg : Nat) :
    PoweredOn (zero_travel_key true avg live) := by
  rcases zero_travel_key_cases true avg live with ⟨heq, -⟩ | ⟨hv, heq⟩
  · rw [heq]
    exact h
  · have hb := valid_zero_bounds hv
    have hz := zero_travel_toNat hv
    have hf : (BitVec.ofNat 12 (avg - ZERO_TRAVEL_DEAD_ZONE - DEFAULT_FULL_RANGE)).toNat =
        avg - 920 := by
      simp only [BitVec.toNat_ofNat, ZERO_TRAVEL_DEAD_ZONE, DEFAULT_FULL_RANGE]
      omega
    rw [heq]
    refine ⟨⟨?_, ?_⟩, ?_⟩
    · simp only [ite_true, hf]; omega
    · simp only [ite_true, hf, hz]; omega
    · simp only [hz]; omega

end Manual

/-! ## The automatic calibration -/

/-- The automatic calibration of a key, which is confident only when it is over. -/
structure AutoGood (p : calibration_t) : Prop where
  calibrated : p.calibrated = false
  confidence : p.state ≠ .AUTO_CALIB_OFF → p.state ≠ .AUTO_CALIB_FINISHED → p.confidence.toNat < 12
  full : p.state = .AUTO_CALIB_FULL_TRAVEL ∨ p.state = .AUTO_CALIB_ZERO_TRAVEL →
    1200 ≤ p.value.full_travel.toNat ∧ p.value.full_travel.toNat < 2200
  cycle : p.state = .AUTO_CALIB_ZERO_TRAVEL → p.cycle < CAL_SAMPL_CNT

/-- The sample is the last that a confident calibration needs. -/
structure Completes (p : calibration_t) (value : UInt16) (now : UInt32) : Prop where
  state : p.state = .AUTO_CALIB_ZERO_TRAVEL
  below : value.toNat ≤ p.value.zero_travel.toNat
  near : p.value.zero_travel.toNat ≤ value.toNat + AUTO_CALIB_ZERO_TRAVEL_JITTER_VALUE
  cycle : CAL_SAMPL_CNT ≤ p.cycle + 1
  time : now - p.full_travel_time < AUTO_CALIB_VALID_RELASING_TIME
  confident : 6 ≤ p.confidence.toNat

def ReleasedAbove (p : calibration_t) (samples : Nat → UInt16) (value : UInt16) : Prop :=
  p.value.full_travel.toNat + ZERO_TRAVEL_DEAD_ZONE ≤
    sample_average (Function.update samples p.cycle value)

section Auto

variable {p : calibration_t} {samples : Nat → UInt16} {live saved : calibrated_value_t}
  {value : UInt16} {now : UInt32}

theorem sample_sum_eq (samples : Nat → UInt16) : sample_sum samples =
    (samples 0).toNat + (samples 1).toNat + (samples 2).toNat + (samples 3).toNat +
      (samples 4).toNat + (samples 5).toNat + (samples 6).toNat + (samples 7).toNat := by
  simp [sample_sum, CAL_SAMPL_CNT, List.range_succ]
  omega

theorem sample_average_le (h : ∀ i, (samples i).toNat ≤ 3500) : sample_average samples ≤ 3500 := by
  have := h 0; have := h 1; have := h 2; have := h 3
  have := h 4; have := h 5; have := h 6; have := h 7
  simp only [sample_average, sample_sum_eq, CAL_SAMPL_CNT]
  omega

variable (samples) in
theorem sample_average_ge {i : Nat} (hi : i < CAL_SAMPL_CNT) (h : 1200 ≤ (samples i).toNat) :
    150 ≤ sample_average samples := by
  simp only [CAL_SAMPL_CNT] at hi
  simp only [sample_average, sample_sum_eq, CAL_SAMPL_CNT]
  obtain rfl | rfl | rfl | rfl | rfl | rfl | rfl | rfl :
      i = 0 ∨ i = 1 ∨ i = 2 ∨ i = 3 ∨ i = 4 ∨ i = 5 ∨ i = 6 ∨ i = 7 := by omega
  all_goals omega

theorem update_samples_le (h : ∀ i, (samples i).toNat ≤ 3500) (hv : value.toNat ≤ 3500) (j : Nat) :
    ∀ i, (Function.update samples j value i).toNat ≤ 3500 := by
  intro i
  by_cases hij : i = j
  · rw [hij, Function.update_self]
    exact hv
  · rw [Function.update_of_ne hij]
    exact h i

theorem range_toNat {avg full : Nat} (ha : 20 ≤ avg) (ha' : avg ≤ 3500) (hf : full < 2200) :
    ((.ofNat avg - .ofNat ZERO_TRAVEL_DEAD_ZONE - .ofNat full : UInt32)).toNat =
      if full + 20 ≤ avg then avg - 20 - full else 2 ^ 32 - (full + 20 - avg) := by
  simp only [UInt32.toNat_sub, UInt32.toNat_ofNat', ZERO_TRAVEL_DEAD_ZONE]
  split
  · omega
  · omega

theorem averaged_zero_toNat {avg : Nat} (ha : 20 ≤ avg) (ha' : avg ≤ 3500) :
    (BitVec.ofNat 12 (.ofNat avg - .ofNat ZERO_TRAVEL_DEAD_ZONE : UInt32).toNat).toNat =
      avg - 20 := by
  simp only [BitVec.toNat_ofNat, UInt32.toNat_sub, UInt32.toNat_ofNat', ZERO_TRAVEL_DEAD_ZONE]
  omega

theorem range_confidence_le (range : UInt32) : (range_confidence false range).toNat ≤ 6 := by
  unfold range_confidence
  split
  · decide
  split
  · decide
  split
  · decide
  · decide

theorem range_confidence_pos {range : UInt32} (h : range_confidence false range ≠ 0) :
    900 < range.toNat := by
  unfold range_confidence at h
  split at h
  · rename_i hlt
    exact lt_trans (by decide) (UInt32.lt_iff_toNat_lt.mp hlt)
  split at h
  · rename_i hlt
    exact lt_trans (by decide) (UInt32.lt_iff_toNat_lt.mp hlt)
  split at h
  · rename_i hlt
    exact UInt32.lt_iff_toNat_lt.mp hlt
  · exact absurd rfl h

theorem range_confidence_wrapped (range : UInt32) (h : 1100 < range.toNat) :
    range_confidence false range = 6 := by
  have hlt : 1100 < range := UInt32.lt_iff_toNat_lt.mpr h
  unfold range_confidence
  rw [if_pos hlt]
  rfl

/-- A sample of a key that is being released is one of many, and adds no
confidence, or it is the last one, and the average counts. -/
theorem releasing_cases (h : AutoGood p) (hs : p.state = .AUTO_CALIB_ZERO_TRAVEL)
    (samples : Nat → UInt16) (value : UInt16) (now : UInt32) :
    (¬ Completes p value now ∧ AutoGood (releasing p samples value now).1 ∧
      (releasing p samples value now).1.confidence = p.confidence ∧
      (∀ i, (releasing p samples value now).2 i = samples i ∨
        (releasing p samples value now).2 i = value)) ∨
    (value.toNat ≤ p.value.zero_travel.toNat ∧
      p.value.zero_travel.toNat ≤ value.toNat + AUTO_CALIB_ZERO_TRAVEL_JITTER_VALUE ∧
      CAL_SAMPL_CNT ≤ p.cycle + 1 ∧
      now - p.full_travel_time < AUTO_CALIB_VALID_RELASING_TIME ∧
      releasing p samples value now =
        ({ average_zero_travel { p with cycle := p.cycle + 1 }
            (Function.update samples p.cycle value) with state := .AUTO_CALIB_NEXT_LOOP },
          Function.update samples p.cycle value)) := by
  obtain ⟨hcal, hconf, hfull, hcyc⟩ := h
  have hconf' : p.confidence.toNat < 12 := hconf (by rw [hs]; nofun) (by rw [hs]; nofun)
  have hfull' := hfull (.inr hs)
  have hupd : ∀ i, Function.update samples p.cycle value i = samples i ∨
      Function.update samples p.cycle value i = value := by
    intro i
    by_cases hi : i = p.cycle
    · rw [hi, Function.update_self]
      exact .inr rfl
    · rw [Function.update_of_ne hi]
      exact .inl rfl
  unfold releasing
  by_cases habove : p.value.zero_travel.toNat < value.toNat
  · rw [if_pos habove]
    refine .inl ⟨fun hc => ?_, ⟨hcal, fun _ _ => hconf', fun _ => hfull', fun _ => Nat.succ_pos 7⟩,
      rfl, fun i => .inl rfl⟩
    exact absurd hc.below (not_le.mpr habove)
  rw [if_neg habove]
  by_cases hnear : dist p.value.zero_travel.toNat value.toNat ≤ AUTO_CALIB_ZERO_TRAVEL_JITTER_VALUE
  · rw [if_pos hnear]
    by_cases hlast : CAL_SAMPL_CNT ≤ p.cycle + 1
    · rw [if_pos hlast]
      by_cases htime : now - p.full_travel_time < AUTO_CALIB_VALID_RELASING_TIME
      · right
        rw [if_pos htime]
        refine ⟨by omega, ?_, hlast, htime, rfl⟩
        unfold dist at hnear
        omega
      · left
        rw [if_neg htime]
        exact ⟨fun hc => htime hc.time, ⟨hcal, fun _ _ => hconf', nofun, nofun⟩, rfl, hupd⟩
    · left
      rw [if_neg hlast]
      refine ⟨fun hc => hlast hc.cycle, ⟨hcal, fun _ _ => hconf', fun _ => hfull', fun _ => ?_⟩,
        rfl, hupd⟩
      exact not_le.mp hlast
  · left
    rw [if_neg hnear]
    refine ⟨fun hc => hnear ?_, ⟨hcal, fun _ _ => hconf', nofun, nofun⟩, rfl, fun i => .inl rfl⟩
    have hle := hc.near
    unfold dist
    omega

/-- What a finished calibration leaves is usable exactly when it found the
zero travel above the full travel. -/
theorem finish_usable {found : calibrated_value_t} (hl : Usable live) (hv : Sound saved)
    (hlo : 1200 ≤ found.full_travel.toNat) (hhi : found.full_travel.toNat < 2200)
    (hgap : found.full_travel.toNat + BOTTOM_JITTER < found.zero_travel.toNat) :
    Usable (finish found live saved).1 ∧
      ∀ v, (finish found live saved).2 = .saved v → Sound v := by
  have hfull : (BitVec.ofNat 12 (found.full_travel.toNat + BOTTOM_JITTER)).toNat =
      found.full_travel.toNat + 80 := by
    simp only [BitVec.toNat_ofNat, BOTTOM_JITTER]
    omega
  have hadj : (found.full_travel - .ofNat 12 15).toNat = found.full_travel.toNat - 15 := by
    simp only [BitVec.toNat_sub, BitVec.toNat_ofNat]
    omega
  have hv1 := hv.lt
  unfold finish BOTTOM_JITTER at *
  simp only [hfull]
  split
  · split
    · refine ⟨⟨?_, ?_⟩, ?_⟩
      · simp only [hfull]; omega
      · simp only [hfull]; omega
      · intro v heq
        cases heq
        refine ⟨⟨?_, ?_⟩, ?_⟩
        all_goals simp only [hfull]; omega
    · refine ⟨⟨?_, ?_⟩, nofun⟩
      · simp only [hadj]; omega
      · simp only [hadj]; omega
  · exact ⟨hl, nofun⟩

theorem finish_unusable (found : calibrated_value_t) (hl : Usable live) (hv : Sound saved)
    (hhi : found.full_travel.toNat < 2200)
    (hbelow : found.zero_travel.toNat < found.full_travel.toNat) :
    ¬ Usable (finish found live saved).1 := by
  have hfull : (BitVec.ofNat 12 (found.full_travel.toNat + BOTTOM_JITTER)).toNat =
      found.full_travel.toNat + 80 := by
    simp only [BitVec.toNat_ofNat, BOTTOM_JITTER]
    omega
  have hl1 := hl.lt
  have hv1 := hv.lt
  unfold finish BOTTOM_JITTER at *
  simp only [hfull]
  rw [if_pos, if_pos]
  · rintro ⟨-, hlt⟩
    simp only [hfull] at hlt
    omega
  · unfold dist
    omega
  · unfold dist
    omega

theorem averaged (h : AutoGood p) (hs : p.state = .AUTO_CALIB_ZERO_TRAVEL)
    (hsamples : ∀ i, (samples i).toNat ≤ 3500) (hlo : 1200 ≤ value.toNat)
    (hhi : value.toNat ≤ 3500) :
    20 ≤ sample_average (Function.update samples p.cycle value) ∧
      sample_average (Function.update samples p.cycle value) ≤ 3500 := by
  have hge := sample_average_ge (Function.update samples p.cycle value) (h.cycle hs)
    (by rw [Function.update_self]; exact hlo)
  exact ⟨by omega, sample_average_le (update_samples_le hsamples hhi _)⟩

/-- Every sample leaves the automatic calibration in order. -/
theorem auto_check_good (h : AutoGood p) (hsamples : ∀ i, (samples i).toNat ≤ 3500)
    (hlo : 1200 ≤ value.toNat) (hhi : value.toNat ≤ 3500) (live saved : calibrated_value_t)
    (now : UInt32) :
    AutoGood (auto_check p samples live saved value now).auto ∧
      ∀ i, ((auto_check p samples live saved value now).samples i).toNat ≤ 3500 := by
  have hvalue : (BitVec.ofNat 12 value.toNat).toNat = value.toNat := by
    simp only [BitVec.toNat_ofNat]
    omega
  unfold auto_check
  split
  · rename_i hs
    split
    · exact ⟨h, hsamples⟩
    · exact ⟨⟨h.calibrated, fun _ _ => Nat.succ_pos 11, nofun, nofun⟩, hsamples⟩
  · rename_i hs
    have hconf := h.confidence (by rw [hs]; nofun) (by rw [hs]; nofun)
    split
    · rename_i hlt
      refine ⟨⟨h.calibrated, fun _ _ => hconf, fun _ => ?_, nofun⟩, hsamples⟩
      simp only [hvalue]
      exact ⟨hlo, hlt⟩
    · exact ⟨h, hsamples⟩
  · rename_i hs
    rcases releasing_cases h hs samples value now with ⟨-, hg, -, hold⟩ | ⟨-, -, -, -, heq⟩
    · have hle : ∀ i, ((releasing p samples value now).2 i).toNat ≤ 3500 := by
        intro i
        rcases hold i with hi | hi
        · rw [hi]; exact hsamples i
        · rw [hi]; exact hhi
      simp only
      split
      · exact ⟨⟨hg.calibrated, fun _ hne => absurd rfl hne, nofun, nofun⟩, hle⟩
      · exact ⟨hg, hle⟩
    · rw [heq]
      simp only
      split
      · refine ⟨⟨h.calibrated, fun _ hne => absurd rfl hne, nofun, nofun⟩, ?_⟩
        exact update_samples_le hsamples hhi _
      · rename_i hconf
        refine ⟨⟨h.calibrated, fun _ _ => ?_, nofun, nofun⟩, update_samples_le hsamples hhi _⟩
        exact not_le.mp fun hle => hconf (UInt8.le_iff_toNat_le.mpr hle)
  · rename_i hs
    have hconf := h.confidence (by rw [hs]; nofun) (by rw [hs]; nofun)
    have hfull := h.full (.inl hs)
    simp only
    split
    · refine ⟨⟨h.calibrated, fun _ _ => hconf, fun _ => ?_, fun hc => absurd (hs ▸ hc) nofun⟩,
        hsamples⟩
      simp only [hvalue]
      omega
    split
    · exact ⟨⟨h.calibrated, fun _ _ => hconf, fun _ => hfull, fun hc => absurd (hs ▸ hc) nofun⟩,
        hsamples⟩
    split
    · exact ⟨⟨h.calibrated, fun _ _ => hconf, fun _ => hfull, fun _ => Nat.succ_pos 7⟩, hsamples⟩
    · exact ⟨h, hsamples⟩
  · rename_i hs
    split
    · exact ⟨⟨h.calibrated, fun hne => absurd rfl hne, nofun, nofun⟩, hsamples⟩
    · exact ⟨h, hsamples⟩

/-- The confidence after the last sample of a release. -/
theorem average_confidence (h : AutoGood p) (hs : p.state = .AUTO_CALIB_ZERO_TRAVEL)
    {samples' : Nat → UInt16} (cycle : Nat) (ha : 20 ≤ sample_average samples')
    (ha' : sample_average samples' ≤ 3500) :
    let q := average_zero_travel { p with cycle := cycle } samples'
    q.value.zero_travel.toNat = sample_average samples' - 20 ∧
      (12 ≤ q.confidence → (p.value.full_travel.toNat + 920 < sample_average samples' ∨
        (sample_average samples' < p.value.full_travel.toNat + 20 ∧ 6 ≤ p.confidence.toNat))) ∧
      (sample_average samples' < p.value.full_travel.toNat + 20 → 6 ≤ p.confidence.toNat →
        12 ≤ q.confidence) := by
  have hconf : p.confidence.toNat < 12 := h.confidence (by rw [hs]; nofun) (by rw [hs]; nofun)
  have hfull := h.full (.inr hs)
  have hrange := range_toNat ha ha' hfull.2
  simp only [average_zero_travel, h.calibrated]
  generalize (.ofNat (sample_average samples') - .ofNat ZERO_TRAVEL_DEAD_ZONE -
    .ofNat p.value.full_travel.toNat : UInt32) = range at hrange ⊢
  have hadd : (p.confidence + range_confidence false range).toNat =
      p.confidence.toNat + (range_confidence false range).toNat := by
    have hle := range_confidence_le range
    rw [UInt8.toNat_add]
    omega
  refine ⟨averaged_zero_toNat ha ha', fun hle => ?_, fun hbelow hsix => ?_⟩
  · have hle' := UInt8.le_iff_toNat_le.mp hle
    rw [hadd] at hle'
    change 12 ≤ _ at hle'
    by_cases hbelow : p.value.full_travel.toNat + 20 ≤ sample_average samples'
    · left
      rw [if_pos hbelow] at hrange
      have hne : range_confidence false range ≠ 0 := fun hz => by
        rw [hz] at hle'
        change 12 ≤ _ + 0 at hle'
        omega
      have hpos := range_confidence_pos hne
      omega
    · right
      have hmax := range_confidence_le range
      exact ⟨by omega, by omega⟩
  · rw [if_neg (by omega)] at hrange
    have hwrap := range_confidence_wrapped range (by omega)
    apply UInt8.le_iff_toNat_le.mpr
    rw [hadd, hwrap]
    change 12 ≤ p.confidence.toNat + 6
    omega

/-- A sample leaves usable values exactly when a release that completes the
calibration averages above the full travel. -/
theorem auto_check_usable (h : AutoGood p) (hl : Usable live) (hv : Sound saved)
    (hsamples : ∀ i, (samples i).toNat ≤ 3500) (hlo : 1200 ≤ value.toNat)
    (hhi : value.toNat ≤ 3500) (now : UInt32) :
    ((Completes p value now → ReleasedAbove p samples value) →
      Usable (auto_check p samples live saved value now).live ∧
        ∀ v, (auto_check p samples live saved value now).outcome = .saved v → Sound v) ∧
    (Usable (auto_check p samples live saved value now).live →
      Completes p value now → ReleasedAbove p samples value) := by
  have hidle : ∀ r : AutoStep, r.live = live → r.outcome = .unfinished →
      p.state ≠ .AUTO_CALIB_ZERO_TRAVEL →
      ((Completes p value now → ReleasedAbove p samples value) →
        Usable r.live ∧ ∀ v, r.outcome = .saved v → Sound v) ∧
      (Usable r.live → Completes p value now → ReleasedAbove p samples value) := by
    intro r hlive hout hne
    refine ⟨fun _ => ⟨hlive ▸ hl, fun v hc => ?_⟩, fun _ hc => absurd hc.state hne⟩
    rw [hout] at hc
    cases hc
  unfold auto_check
  split
  · rename_i hs
    split
    · exact hidle _ rfl rfl (by rw [hs]; nofun)
    · exact hidle _ rfl rfl (by rw [hs]; nofun)
  · rename_i hs
    split
    · exact hidle _ rfl rfl (by rw [hs]; nofun)
    · exact hidle _ rfl rfl (by rw [hs]; nofun)
  · rename_i hs
    have hconf : p.confidence.toNat < 12 := h.confidence (by rw [hs]; nofun) (by rw [hs]; nofun)
    have hfull := h.full (.inr hs)
    have hquiet : ¬ (12 : UInt8) ≤ p.confidence := fun hle =>
      absurd (UInt8.le_iff_toNat_le.mp hle) (not_le.mpr hconf)
    rcases releasing_cases h hs samples value now with
      ⟨hnot, -, hsame, -⟩ | ⟨hbelow, hnear, hlast, htime, heq⟩
    · simp only [hsame, if_neg hquiet]
      exact ⟨fun _ => ⟨hl, nofun⟩, fun _ hc => absurd hc hnot⟩
    · obtain ⟨ha, ha'⟩ := averaged h hs hsamples hlo hhi
      obtain ⟨hzero, honly, hover⟩ := average_confidence h hs (p.cycle + 1) ha ha'
      rw [heq]
      simp only
      have hf : (average_zero_travel { p with cycle := p.cycle + 1 }
          (Function.update samples p.cycle value)).value.full_travel = p.value.full_travel := rfl
      generalize average_zero_travel { p with cycle := p.cycle + 1 }
        (Function.update samples p.cycle value) = q at hzero honly hover hf ⊢
      rw [← hf] at hfull honly hover
      unfold ReleasedAbove ZERO_TRAVEL_DEAD_ZONE
      rw [← hf]
      by_cases hdone : 12 ≤ q.confidence
      · rw [if_pos hdone]
        rcases honly hdone with hgap | ⟨hwrap, hsix⟩
        · have hgap' : q.value.full_travel.toNat + BOTTOM_JITTER < q.value.zero_travel.toNat := by
            unfold BOTTOM_JITTER
            omega
          exact ⟨fun _ => finish_usable hl hv hfull.1 hfull.2 hgap', fun _ _ => by omega⟩
        · have hun := finish_unusable q.value hl hv hfull.2 (by omega)
          refine ⟨fun hc => ?_, fun hc => absurd hc hun⟩
          have habove := hc ⟨hs, hbelow, hnear, hlast, htime, hsix⟩
          omega
      · rw [if_neg hdone]
        refine ⟨fun _ => ⟨hl, nofun⟩, fun _ hc => ?_⟩
        by_contra hnot
        exact hdone (hover (by omega) hc.confident)
  · rename_i hs
    simp only
    split
    · exact hidle _ rfl rfl (by rw [hs]; nofun)
    split
    · exact hidle _ rfl rfl (by rw [hs]; nofun)
    split
    · exact hidle _ rfl rfl (by rw [hs]; nofun)
    · exact hidle _ rfl rfl (by rw [hs]; nofun)
  · rename_i hs
    split
    · exact hidle _ rfl rfl (by rw [hs]; nofun)
    · exact hidle _ rfl rfl (by rw [hs]; nofun)

end Auto

end keychron_qmk.analog_matrix
