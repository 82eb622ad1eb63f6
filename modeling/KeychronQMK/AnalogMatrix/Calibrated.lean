-- The calibrations of a board in whole runs: every step keeps the live and
-- the saved value of each key usable, but for a calibration that ends before
-- the key was measured, and for samples that two calibrations share.
import KeychronQMK.AnalogMatrix.CalibrationSaves

namespace keychron_qmk.analog_matrix

open runs

variable {R C : Nat}

/-! ## The invariant -/

namespace Calibrator

def LiveFits (state : CaliState) (live saved : calibrated_value_t) : Prop :=
  match state with
  | .CALIB_OFF => Usable live
  | .CALIB_ZERO_TRAVEL_POWER_ON => PoweredOn live ∧ saved.full_travel.toNat ≤ 2600
  | .CALIB_ZERO_TRAVEL_MANUAL => live = .zero
  | .CALIB_FULL_TRAVEL_MANUAL | .CALIB_SAVE_AND_EXIT => Measured live

structure Good (cfg : Config R C) (k : Calibrator R C) : Prop where
  saved : ∀ r c, cfg.hasKey r c = true → Sound (k.board.saved_calib_values r c)
  live : ∀ r c, cfg.hasKey r c = true →
    LiveFits k.cali_state (k.calib_values r c) (k.board.saved_calib_values r c)
  left : k.cali_state = .CALIB_SAVE_AND_EXIT → k.last_cali_state = .CALIB_FULL_TRAVEL_MANUAL ∨
    ∀ r c, cfg.hasKey r c = true → k.calib_values r c = .zero
  auto : ∀ r c, AutoGood (k.auto_calib r c)
  samples : ∀ r c i, (k.calibrate_values r c i).toNat ≤ 3500

/-- Every key has a usable live value where the calibration is over, and a
usable saved value. -/
structure EndsUsable (cfg : Config R C) (k : Calibrator R C) : Prop where
  live : k.cali_state = .CALIB_OFF → ∀ r c, cfg.hasKey r c = true → Usable (k.calib_values r c)
  saved : ∀ r c, cfg.hasKey r c = true → Usable (k.board.saved_calib_values r c)

/-- What the input may do to the values in the EEPROMs. -/
def Stores (cfg : Config R C) (b b' : Board R C) : Input R C → Prop
  | .power_cycle => Carries b b'
  | .sample .. | .task _ | .command _ => SavesUsable cfg b b'

/-- The input leaves and saves usable values. -/
structure Calibrates (cfg : Config R C) (k : Calibrator R C) (x : Input R C) : Prop where
  ends : EndsUsable cfg (k.step cfg x)
  stores : Stores cfg k.board (k.step cfg x).board x

/-- The calibration ends on no key that was not measured, and an automatic
calibration on no samples but those of a release. -/
def Measures (cfg : Config R C) (k : Calibrator R C) : Input R C → Prop
  | .sample row col value _ now =>
    k.cali_state = .CALIB_OFF → InRange value → cfg.hasKey row col = true →
      Completes (k.auto_calib row col) value now →
        ReleasedAbove (k.auto_calib row col) (k.calibrate_values row col) value
  | .task now =>
    (k.cali_state = .CALIB_SAVE_AND_EXIT →
      ∀ r c, cfg.hasKey r c = true → (k.calib_values r c).zero_travel ≠ 0) ∧
    (k.cali_state = .CALIB_FULL_TRAVEL_MANUAL → timed_out k.calib_timer now →
      ∀ r c, cfg.hasKey r c = true → (k.calib_values r c).full_travel ≠ 0 ∨
        Pressed (k.calib_values r c) (k.calibrate_values r c k.cur_calib))
  | .command _ | .power_cycle => True

section Steps

variable {cfg : Config R C} {k : Calibrator R C}

theorem Good.endsUsable (h : Good cfg k) : EndsUsable cfg k := by
  refine ⟨fun hs r c hkey => ?_, fun r c hkey => (h.saved r c hkey).toUsable⟩
  have hlive := h.live r c hkey
  rw [hs] at hlive
  exact hlive

/-- The input does what the property says exactly under the condition, and
then keeps the invariant. -/
structure Stepped (cfg : Config R C) (k : Calibrator R C) (x : Input R C) : Prop where
  iff : Measures cfg k x ↔ Calibrates cfg k x
  good : Calibrates cfg k x → Good cfg (k.step cfg x)

theorem Stepped.of_good {x : Input R C} (hm : Measures cfg k x) (hg : Good cfg (k.step cfg x))
    (hs : Stores cfg k.board (k.step cfg x).board x) : Stepped cfg k x :=
  ⟨iff_of_true hm ⟨hg.endsUsable, hs⟩, fun _ => hg⟩

theorem Stepped.of_bad {x : Input R C} (hm : ¬ Measures cfg k x)
    (hp : ¬ EndsUsable cfg (k.step cfg x)) : Stepped cfg k x :=
  ⟨iff_of_false hm fun hc => hp hc.ends, fun hc => absurd hc.ends hp⟩

/-! ## Commands, the power and samples -/

theorem set_calibrate_stepped (h : Good cfg k) (x : UInt8) : Stepped cfg k (.command x) := by
  refine .of_good trivial ?_ ?_
  · change Good cfg (k.set_calibrate x)
    unfold set_calibrate
    split
    · exact ⟨h.saved, fun r c _ => rfl, nofun, h.auto, fun r c i => Nat.zero_le _⟩
    split
    · split
      · rename_i hs
        refine ⟨h.saved, fun r c hkey => ?_, fun _ => ?_, h.auto, h.samples⟩
        · have hlive := h.live r c hkey
          rcases hs with hs | hs
          · rw [hs] at hlive
            exact .inl hlive
          · rw [hs] at hlive
            exact hlive
        · rcases hs with hs | hs
          · right
            intro r c hkey
            have hlive := h.live r c hkey
            rw [hs] at hlive
            exact hlive
          · exact .inl hs
      · exact h
    · exact h
  · change SavesUsable cfg k.board (k.set_calibrate x).board
    have hboard : (k.set_calibrate x).board = k.board := by
      unfold set_calibrate
      split
      · rfl
      split
      · split <;> rfl
      · rfl
    rw [hboard]
    exact .of_eeproms cfg rfl rfl

theorem power_up_good (cfg : Config R C) (b : Board R C) : Good cfg (power_up cfg b) where
  saved r c hkey := by
    obtain ⟨hp, hle⟩ := power_cycle_value cfg b hkey
    exact ⟨hp.toUsable, le_trans hle (by decide)⟩
  live r c hkey := power_cycle_value cfg b hkey
  left := nofun
  auto r c := ⟨rfl, fun hne => absurd rfl hne, nofun, nofun⟩
  samples r c i := Nat.zero_le _

theorem power_cycle_stepped : Stepped cfg k .power_cycle :=
  .of_good trivial (power_up_good cfg k.board) (power_cycle_carries cfg k.board)

theorem inRange_bounds {value : UInt16} (h : InRange value) :
    1200 ≤ value.toNat ∧ value.toNat ≤ 3500 := by
  unfold InRange VALID_ANALOG_RAW_VALUE_MIN VALID_ANALOG_RAW_VALUE_MAX at h
  omega

theorem buffered_good (h : Good cfg k) (hs : k.cali_state ≠ .CALIB_OFF) (row : Fin R) (col : Fin C)
    {value : UInt16} (hv : InRange value) (travel : UInt8) (now : UInt32) :
    Good cfg (k.update_raw_value cfg row col value travel now) ∧
      SavesUsable cfg k.board (k.update_raw_value cfg row col value travel now).board := by
  have hsame := update_raw_value_idle cfg k.board row col
    (s := ⟨value, travel, true, (k.auto_caliration_check row col value now).outcome⟩) (.inr rfl)
  have hhi := (inRange_bounds hv).2
  unfold Calibrator.update_raw_value
  simp only [ne_eq, hs, not_false_eq_true, decide_true, ite_true]
  rw [if_neg hv]
  refine ⟨⟨?_, ?_, h.left, h.auto, fun r c i => ?_⟩, .of_eeproms cfg hsame.eeprom hsame.he_eeprom⟩
  · simp only [hsame.saved]
    exact h.saved
  · simp only [hsame.saved]
    exact h.live
  · simp only
    split
    · exact update_samples_le (h.samples r c) hhi _ i
    · exact h.samples r c i

/-- A sample of a key in use goes to its automatic calibration. -/
theorem followed_stepped (h : Good cfg k) (hs : k.cali_state = .CALIB_OFF) (row : Fin R)
    (col : Fin C) {value : UInt16} (hv : InRange value) (travel : UInt8) (now : UInt32) :
    Stepped cfg k (.sample row col value travel now) := by
  obtain ⟨hlo, hhi⟩ := inRange_bounds hv
  obtain ⟨hauto, hsamples⟩ := auto_check_good (h.auto row col) (h.samples row col) hlo hhi
    (k.calib_values row col) (k.board.saved_calib_values row col) now
  have husable := fun hkey => auto_check_usable (h.auto row col) (h.endsUsable.live hs row col hkey)
    (h.saved row col hkey) (h.samples row col) hlo hhi now
  have hframe := update_raw_value_auto cfg k.board row col
    (s := ⟨value, travel, false, (k.auto_caliration_check row col value now).outcome⟩) hv rfl
  have hstep : k.step cfg (.sample row col value travel now) = { k with
      board := (analog_matrix.update_raw_value cfg k.board row col
        ⟨value, travel, false, (k.auto_caliration_check row col value now).outcome⟩).2
      auto_calib := fun r c =>
        if r = row ∧ c = col then (k.auto_caliration_check row col value now).auto
        else k.auto_calib r c
      calibrate_values := fun r c =>
        if r = row ∧ c = col then (k.auto_caliration_check row col value now).samples
        else k.calibrate_values r c
      calib_values := fun r c =>
        if r = row ∧ c = col then (k.auto_caliration_check row col value now).live
        else k.calib_values r c } := by
    change k.update_raw_value cfg row col value travel now = _
    unfold Calibrator.update_raw_value
    simp only [ne_eq, hs, not_true, decide_false, Bool.false_eq_true, ite_false]
    rw [if_neg hv]
  change AutoGood (k.auto_caliration_check row col value now).auto at hauto
  change ∀ i, ((k.auto_caliration_check row col value now).samples i).toNat ≤ 3500 at hsamples
  change ∀ hkey, ((Completes (k.auto_calib row col) value now → _) →
    Usable (k.auto_caliration_check row col value now).live ∧
      ∀ v, (k.auto_caliration_check row col value now).outcome = .saved v → Sound v) ∧
    (Usable (k.auto_caliration_check row col value now).live → _) at husable
  generalize k.auto_caliration_check row col value now = a at *
  by_cases hm : Measures cfg k (.sample row col value travel now)
  · have hfound := fun hkey => (husable hkey).1 (hm hs hv hkey)
    obtain ⟨hstores, hsaved⟩ := auto_caliration_check_usable cfg h.saved
      row col a.outcome fun hkey => (hfound hkey).2
    refine .of_good hm ?_ ?_
    · rw [hstep]
      refine ⟨fun r c hkey => ?_, fun r c hkey => ?_, ?_, fun r c => ?_, fun r c i => ?_⟩
      · simp only [hframe.saved]
        exact hsaved r c hkey
      · simp only [hs]
        split
        · rename_i hrc
          obtain ⟨rfl, rfl⟩ := hrc
          exact (hfound hkey).1
        · exact h.endsUsable.live hs r c hkey
      · simp only [hs]
        exact nofun
      · simp only
        split
        · exact hauto
        · exact h.auto r c
      · simp only
        split
        · exact hsamples i
        · exact h.samples r c i
    · rw [hstep]
      refine ⟨fun r c hkey => ?_, fun r c hkey => ?_⟩
      · have hc := hstores.emulated r c hkey
        unfold emulated_value at hc ⊢
        rwa [hframe.eeprom]
      · have hc := hstores.external r c hkey
        unfold external_value at hc ⊢
        rwa [hframe.he_eeprom]
  · refine .of_bad hm fun hends => hm fun _ _ hkey => (husable hkey).2 ?_
    have hlive := hends.live (by rw [hstep]; exact hs) row col hkey
    rw [hstep] at hlive
    simpa using hlive

theorem sample_stepped (h : Good cfg k) (row : Fin R) (col : Fin C) (value : UInt16)
    (travel : UInt8) (now : UInt32) : Stepped cfg k (.sample row col value travel now) := by
  by_cases hv : InRange value
  · by_cases hs : k.cali_state = .CALIB_OFF
    · exact followed_stepped h hs row col hv travel now
    · obtain ⟨hg, hstores⟩ := buffered_good h hs row col hv travel now
      exact .of_good (fun hc => absurd hc hs) hg hstores
  · have hstep : k.step cfg (.sample row col value travel now) = k := by
      exact if_pos (not_not.mp hv)
    refine .of_good (fun _ hc => absurd hc hv) (hstep.symm ▸ h) ?_
    rw [hstep]
    exact SavesUsable.of_eeproms cfg rfl rfl

/-! ## The task -/

variable (cfg) in
theorem save_frame (h : ∀ r c, cfg.hasKey r c = true → Sound (k.board.saved_calib_values r c))
    (mark : UInt8) : SavesUsable cfg k.board (k.save cfg mark).board ∧
      ∀ r c, cfg.hasKey r c = true →
        (k.save cfg mark).board.saved_calib_values r c = k.board.saved_calib_values r c := by
  have hsave := save_calibration_values_usable cfg
    (b := { k.board with calibrated := k.board.calibrated ||| mark })
    fun r c hkey => (h r c hkey).toUsable
  refine ⟨⟨hsave.emulated, hsave.external⟩, fun r c hkey => ?_⟩
  exact save_calibration_values_kept (b := { k.board with calibrated := k.board.calibrated ||| mark })
    (h r c hkey).toUsable

theorem off_good (hsaved : ∀ r c, cfg.hasKey r c = true → Sound (k.board.saved_calib_values r c))
    (hlive : ∀ r c, cfg.hasKey r c = true → Usable (k.calib_values r c))
    (hauto : ∀ r c, AutoGood (k.auto_calib r c))
    (hsamples : ∀ r c i, (k.calibrate_values r c i).toNat ≤ 3500) :
    Good cfg { k with cali_state := .CALIB_OFF } := ⟨hsaved, hlive, nofun, hauto, hsamples⟩

theorem save_off_good (hsaved : ∀ r c, cfg.hasKey r c = true → Sound (k.board.saved_calib_values r c))
    (hlive : ∀ r c, cfg.hasKey r c = true → Usable (k.calib_values r c))
    (hauto : ∀ r c, AutoGood (k.auto_calib r c))
    (hsamples : ∀ r c i, (k.calibrate_values r c i).toNat ≤ 3500) (mark : UInt8) :
    Good cfg { k.save cfg mark with cali_state := .CALIB_OFF } := by
  have hkept := (save_frame cfg (k := k) hsaved mark).2
  refine off_good (k := k.save cfg mark) (fun r c hkey => ?_) hlive hauto hsamples
  rw [hkept r c hkey]
  exact hsaved r c hkey

theorem zero_travel_keys_auto (h : ∀ r c, AutoGood (k.auto_calib r c)) (power_on : Bool) (r : Fin R)
    (c : Fin C) : AutoGood ((k.zero_travel_keys cfg power_on).auto_calib r c) := by
  simp only [zero_travel_keys]
  split
  · exact ⟨(h r c).calibrated, (h r c).confidence, (h r c).full, (h r c).cycle⟩
  · exact h r c

theorem zero_travel_keys_live {r : Fin R} {c : Fin C} (hkey : cfg.hasKey r c = true)
    (power_on : Bool) : (k.zero_travel_keys cfg power_on).calib_values r c =
      zero_travel_key power_on (sample_average (k.calibrate_values r c)) (k.calib_values r c) :=
  if_pos hkey

theorem power_on_step (h : Good cfg k) (hs : k.cali_state = .CALIB_ZERO_TRAVEL_POWER_ON) :
    Good cfg (k.calibrate_power_on cfg) ∧
      SavesUsable cfg k.board (k.calibrate_power_on cfg).board := by
  have hlive : ∀ r c, cfg.hasKey r c = true →
      PoweredOn ((k.zero_travel_keys cfg true).calib_values r c) ∧
        (k.board.saved_calib_values r c).full_travel.toNat ≤ 2600 := by
    intro r c hkey
    have hl := h.live r c hkey
    rw [hs] at hl
    rw [zero_travel_keys_live hkey]
    exact ⟨zero_travel_key_powered hl.1 _, hl.2⟩
  have hoff : Good cfg { k.zero_travel_keys cfg true with cali_state := .CALIB_OFF } :=
    off_good h.saved (fun r c hkey => (hlive r c hkey).1.toUsable)
      (zero_travel_keys_auto h.auto true) h.samples
  unfold calibrate_power_on
  split
  · exact ⟨⟨h.saved, h.live, h.left, h.auto, h.samples⟩, .of_eeproms cfg rfl rfl⟩
  split
  · -- The zero travels are saved, over the full travels that were loaded.
    have hsound : ∀ r c, cfg.hasKey r c = true →
        Sound ((k.zero_travel_keys cfg true).take_zero_travels.board.saved_calib_values r c) := by
      intro r c hkey
      obtain ⟨hp, hle⟩ := hlive r c hkey
      refine ⟨⟨(h.saved r c hkey).pos, ?_⟩, le_trans hle (by decide)⟩
      exact lt_of_le_of_lt hle (lt_of_lt_of_le (by decide) hp.zero)
    have hsaves := (save_frame cfg hsound CALI_ZERO_TRAVEL).1
    refine ⟨save_off_good hsound (fun r c hkey => (hlive r c hkey).1.toUsable)
      (zero_travel_keys_auto h.auto true) h.samples _, ⟨hsaves.emulated, hsaves.external⟩⟩
  · exact ⟨hoff, .of_eeproms cfg rfl rfl⟩

theorem zero_travel_step (h : Good cfg k) (hs : k.cali_state = .CALIB_ZERO_TRAVEL_MANUAL) :
    Good cfg (k.calibrate_zero_travel cfg) ∧
      SavesUsable cfg k.board (k.calibrate_zero_travel cfg).board := by
  unfold calibrate_zero_travel
  split
  · exact ⟨⟨h.saved, h.live, h.left, h.auto, h.samples⟩, .of_eeproms cfg rfl rfl⟩
  · refine ⟨⟨h.saved, fun r c hkey => ?_, nofun, zero_travel_keys_auto h.auto false, h.samples⟩,
      .of_eeproms cfg rfl rfl⟩
    have hl := h.live r c hkey
    rw [hs] at hl
    rw [zero_travel_keys_live hkey, show k.calib_values r c = .zero from hl]
    exact zero_travel_key_measured _

theorem measured_usable_iff {v : calibrated_value_t} (h : Measured v) :
    Usable v ↔ v.full_travel ≠ 0 := by
  constructor
  · intro hu hz
    have hpos := hu.pos
    rw [hz] at hpos
    exact absurd hpos (by decide)
  · intro hne
    rcases h with rfl | ⟨hlo, -, hle⟩
    · exact absurd rfl hne
    · have hpos : 0 < v.full_travel.toNat := by
        refine Nat.pos_of_ne_zero fun hz => hne (BitVec.eq_of_toNat_eq ?_)
        rw [hz]
        rfl
      exact ⟨hpos, by omega⟩

theorem full_travel_keys_good (h : Good cfg k) (hs : k.cali_state = .CALIB_FULL_TRAVEL_MANUAL) :
    Good cfg (k.full_travel_keys cfg) ∧ ∀ r c, cfg.hasKey r c = true →
      (((k.full_travel_keys cfg).calib_values r c).full_travel ≠ 0 ↔
        (k.calib_values r c).full_travel ≠ 0 ∨
          Pressed (k.calib_values r c) (k.calibrate_values r c k.cur_calib)) := by
  have hkeys : ∀ r c, cfg.hasKey r c = true →
      Measured ((k.full_travel_keys cfg).calib_values r c) ∧
      Sound ((k.full_travel_keys cfg).board.saved_calib_values r c) ∧
      (((k.full_travel_keys cfg).calib_values r c).full_travel ≠ 0 ↔
        (k.calib_values r c).full_travel ≠ 0 ∨
          Pressed (k.calib_values r c) (k.calibrate_values r c k.cur_calib)) := by
    intro r c hkey
    have hl : Measured (k.calib_values r c) := by
      have hl := h.live r c hkey
      rw [hs] at hl
      exact hl
    simp only [full_travel_keys, if_pos hkey]
    rcases full_travel_key_cases (k.calibrate_values r c) k.cur_calib (k.calib_values r c)
      (k.board.saved_calib_values r c) with ⟨hp, heq⟩ | ⟨hp, v, hv, heq⟩
    · rw [heq]
      exact ⟨hl, h.saved r c hkey, (or_iff_left hp).symm⟩
    · obtain ⟨hm, hsound⟩ := pressed_sound hl hp
      rw [← hv] at hm hsound
      rw [heq]
      exact ⟨hm, hsound, iff_of_true ((measured_usable_iff hm).mp hsound.toUsable) (.inr hp)⟩
  refine ⟨⟨fun r c hkey => (hkeys r c hkey).2.1, fun r c hkey => ?_, ?_, h.auto, h.samples⟩,
    fun r c hkey => (hkeys r c hkey).2.2⟩
  · have hm := (hkeys r c hkey).1
    change LiveFits k.cali_state _ _
    rw [hs]
    exact hm
  · change k.cali_state = _ → _
    rw [hs]
    exact nofun

theorem timed_out_now (now : UInt32) : ¬ timed_out now now := by
  rintro ⟨-, hlt⟩
  rw [UInt32.sub_self] at hlt
  exact absurd hlt (by decide)

theorem calibrate_full_travel_cases (cfg : Config R C) (k : Calibrator R C) (now : UInt32) :
    ∃ cur_calib timer, (¬ timed_out k.calib_timer now ∧ k.calibrate_full_travel cfg now =
        { k.full_travel_keys cfg with cur_calib := cur_calib, calib_timer := timer }) ∨
      (timed_out k.calib_timer now ∧ k.calibrate_full_travel cfg now =
        { { k.full_travel_keys cfg with cur_calib := cur_calib, calib_timer := 0 }.save cfg
          CALI_FULL_TRAVEL with cali_state := .CALIB_OFF }) := by
  unfold calibrate_full_travel
  simp only
  have htimer : (k.full_travel_keys cfg).calib_timer = k.calib_timer := rfl
  by_cases hset : ({ k.full_travel_keys cfg with
      cur_calib := if CAL_SAMPL_CNT ≤ (k.full_travel_keys cfg).cur_calib + 1 then 0
        else (k.full_travel_keys cfg).cur_calib + 1 } : Calibrator R C).full_travels_done cfg ∧
      (k.full_travel_keys cfg).calib_timer = 0
  · rw [if_pos hset, if_neg (timed_out_now now)]
    refine ⟨_, now, .inl ⟨fun hc => hc.1 (htimer.symm.trans hset.2), rfl⟩⟩
  · rw [if_neg hset]
    simp only [htimer]
    split
    · rename_i hout
      exact ⟨_, 0, .inr ⟨hout, rfl⟩⟩
    · rename_i hout
      exact ⟨_, _, .inl ⟨hout, rfl⟩⟩

theorem full_travel_stepped (h : Good cfg k) (hs : k.cali_state = .CALIB_FULL_TRAVEL_MANUAL)
    (now : UInt32) : Stepped cfg k (.task now) := by
  obtain ⟨hgood, hdone⟩ := full_travel_keys_good h hs
  have hstep : k.step cfg (.task now) = k.calibrate_full_travel cfg now := by
    change k.calibrate cfg now = _
    unfold calibrate
    rw [hs]
  have hnot : k.cali_state ≠ .CALIB_SAVE_AND_EXIT := by rw [hs]; nofun
  obtain ⟨cur_calib, timer, ⟨hout, heq⟩ | ⟨hout, heq⟩⟩ := calibrate_full_travel_cases cfg k now
  · refine .of_good ⟨fun hc => absurd hc hnot, fun _ hc => absurd hc hout⟩ ?_ ?_
    · rw [hstep, heq]
      exact ⟨hgood.saved, hgood.live, hgood.left, hgood.auto, hgood.samples⟩
    · rw [hstep, heq]
      exact SavesUsable.of_eeproms cfg rfl rfl
  have hmeasured : ∀ r c, cfg.hasKey r c = true →
      Measured ((k.full_travel_keys cfg).calib_values r c) := by
    intro r c hkey
    have hl := hgood.live r c hkey
    rw [show (k.full_travel_keys cfg).cali_state = _ from hs] at hl
    exact hl
  by_cases hm : Measures cfg k (.task now)
  · have hlive : ∀ r c, cfg.hasKey r c = true → Usable ((k.full_travel_keys cfg).calib_values r c) :=
      fun r c hkey => (measured_usable_iff (hmeasured r c hkey)).mpr
        ((hdone r c hkey).mpr (hm.2 hs hout r c hkey))
    refine .of_good hm ?_ ?_
    · rw [hstep, heq]
      exact save_off_good (k := { k.full_travel_keys cfg with
        cur_calib := cur_calib, calib_timer := 0 }) hgood.saved hlive hgood.auto hgood.samples _
    · rw [hstep, heq]
      have hsaves := (save_frame cfg (k := { k.full_travel_keys cfg with
        cur_calib := cur_calib, calib_timer := 0 }) hgood.saved CALI_FULL_TRAVEL).1
      exact SavesUsable.mk hsaves.emulated hsaves.external
  · refine .of_bad hm fun hends => hm ⟨fun hc => absurd hc hnot, fun _ _ r c hkey => ?_⟩
    have hlive := hends.live (by rw [hstep, heq]) r c hkey
    rw [hstep, heq] at hlive
    exact (hdone r c hkey).mp ((measured_usable_iff (hmeasured r c hkey)).mp hlive)

/-- The live values that an exit leaves. -/
theorem exit_live (h : Good cfg k) (hs : k.cali_state = .CALIB_SAVE_AND_EXIT) {r : Fin R}
    {c : Fin C} (hkey : cfg.hasKey r c = true) :
    Usable ((k.calibrate_save_and_exit cfg).calib_values r c) ↔
      (k.calib_values r c).zero_travel ≠ 0 := by
  have hl : Measured (k.calib_values r c) := by
    have hl := h.live r c hkey
    rw [hs] at hl
    exact hl
  have hsound := h.saved r c hkey
  have hzero : ∀ v : calibrated_value_t, v.zero_travel = 0 → ¬ Usable v := by
    intro v hz hu
    have hlt := hu.lt
    rw [hz] at hlt
    exact absurd hlt (Nat.not_lt_zero _)
  unfold calibrate_save_and_exit
  by_cases hlast : k.last_cali_state = .CALIB_FULL_TRAVEL_MANUAL
  · rw [if_pos hlast]
    simp only [save, hkey, true_and]
    split
    · constructor
      · intro hu hz
        refine hzero _ ?_ hu
        exact hz
      · intro hne
        rcases hl with heq | ⟨hlo, -, -⟩
        · exact absurd (congrArg calibrated_value_t.zero_travel heq) hne
        · refine ⟨hsound.pos, lt_of_le_of_lt hsound.full ?_⟩
          simp only
          omega
    · rename_i hfull
      refine iff_of_true ((measured_usable_iff hl).mpr hfull) fun hz => ?_
      exact hzero _ hz ((measured_usable_iff hl).mpr hfull)
  · rw [if_neg hlast]
    have hz := ((h.left hs).resolve_left hlast) r c hkey
    have hz' := congrArg calibrated_value_t.zero_travel hz
    exact iff_of_false (hzero _ hz') fun hne => hne hz'

theorem save_and_exit_cases (cfg : Config R C) (k : Calibrator R C) :
    ∃ live, (k.calibrate_save_and_exit cfg).calib_values = live ∧
      (k.calibrate_save_and_exit cfg =
          { { k with calib_values := live } with cali_state := .CALIB_OFF } ∨
        k.calibrate_save_and_exit cfg =
          { { k with calib_values := live }.save cfg 0 with cali_state := .CALIB_OFF }) := by
  unfold calibrate_save_and_exit
  split
  · exact ⟨_, rfl, .inr rfl⟩
  · exact ⟨_, rfl, .inl rfl⟩

theorem save_and_exit_stepped (h : Good cfg k) (hs : k.cali_state = .CALIB_SAVE_AND_EXIT)
    (now : UInt32) : Stepped cfg k (.task now) := by
  have hstep : k.step cfg (.task now) = k.calibrate_save_and_exit cfg := by
    change k.calibrate cfg now = _
    unfold calibrate
    rw [hs]
  have hnot : k.cali_state ≠ .CALIB_FULL_TRAVEL_MANUAL := by rw [hs]; nofun
  have hexit : (k.calibrate_save_and_exit cfg).cali_state = .CALIB_OFF := by
    unfold calibrate_save_and_exit
    split <;> rfl
  by_cases hm : Measures cfg k (.task now)
  · have hlive := fun r c hkey => (exit_live h hs hkey).mpr (hm.1 hs r c hkey)
    obtain ⟨live, hvalues, heq⟩ := save_and_exit_cases cfg k
    rw [hvalues] at hlive
    rcases heq with heq | heq
    · refine .of_good hm ?_ ?_
      · rw [hstep, heq]
        exact off_good (k := { k with calib_values := live }) h.saved hlive h.auto h.samples
      · rw [hstep, heq]
        exact SavesUsable.of_eeproms cfg rfl rfl
    · refine .of_good hm ?_ ?_
      · rw [hstep, heq]
        exact save_off_good (k := { k with calib_values := live }) h.saved hlive h.auto h.samples 0
      · rw [hstep, heq]
        have hsaves := (save_frame cfg (k := { k with calib_values := live }) h.saved 0).1
        exact SavesUsable.mk hsaves.emulated hsaves.external
  · refine .of_bad hm fun hends => hm ⟨fun _ r c hkey => ?_, fun hc => absurd hc hnot⟩
    have hlive := hends.live (by rw [hstep]; exact hexit) r c hkey
    rw [hstep] at hlive
    exact (exit_live h hs hkey).mp hlive

theorem task_stepped (h : Good cfg k) (now : UInt32) : Stepped cfg k (.task now) := by
  have hstep : k.step cfg (.task now) = k.calibrate cfg now := rfl
  rcases hs : k.cali_state with _ | _ | _ | _ | _
  · have heq : k.calibrate cfg now = k := by
      unfold calibrate
      rw [hs]
    refine .of_good ⟨fun hc => ?_, fun hc => ?_⟩ ?_ ?_
    · rw [hs] at hc; cases hc
    · rw [hs] at hc; cases hc
    · rw [hstep, heq]
      exact h
    · rw [hstep, heq]
      exact SavesUsable.of_eeproms cfg rfl rfl
  · obtain ⟨hg, hsaves⟩ := power_on_step h hs
    have heq : k.calibrate cfg now = k.calibrate_power_on cfg := by
      unfold calibrate
      rw [hs]
    rw [← heq] at hg hsaves
    refine .of_good ⟨fun hc => ?_, fun hc => ?_⟩ hg hsaves
    · rw [hs] at hc; cases hc
    · rw [hs] at hc; cases hc
  · obtain ⟨hg, hsaves⟩ := zero_travel_step h hs
    have heq : k.calibrate cfg now = k.calibrate_zero_travel cfg := by
      unfold calibrate
      rw [hs]
    rw [← heq] at hg hsaves
    refine .of_good ⟨fun hc => ?_, fun hc => ?_⟩ hg hsaves
    · rw [hs] at hc; cases hc
    · rw [hs] at hc; cases hc
  · exact full_travel_stepped h hs now
  · exact save_and_exit_stepped h hs now

theorem step_stepped (h : Good cfg k) (x : Input R C) : Stepped cfg k x := by
  cases x with
  | sample row col value travel now => exact sample_stepped h row col value travel now
  | task now => exact task_stepped h now
  | command new_cali_state => exact set_calibrate_stepped h new_cali_state
  | power_cycle => exact power_cycle_stepped

end Steps

/-! ## Runs -/

/-- In every run from a power-up, each step leaves and saves usable values
exactly when no calibration ends on a key that was not measured, or on
samples that are not those of a release. -/
theorem a_calibration_ends_usable_when_the_keys_were_measured (cfg : Config R C) (b : Board R C)
    (inputs : List (Input R C)) :
    Along (step cfg) (Calibrates cfg) (power_up cfg b) inputs ↔
      Along (step cfg) (Measures cfg) (power_up cfg b) inputs :=
  Along.iff (I := Good cfg) (fun _ x h => (step_stepped h x).iff)
    (fun _ x h hc => (step_stepped h x).good hc) (power_up_good cfg b)

/-- The host starts the calibration by hand, and ends it at once: the keys go
on without a zero travel. -/
theorem an_exit_at_once_leaves_zeros : ¬ ∀ inputs : List (Input 6 15),
    Along (step sixRows) (Calibrates sixRows) (power_up sixRows (erasedBoard 6 15)) inputs := by
  intro h
  obtain ⟨-, -, ⟨hends, -⟩, -⟩ := h [.command 2, .command 4, .task 1000]
  have husable := hends.live (by decide +kernel) 0 0 (by decide)
  revert husable
  decide +kernel

end Calibrator

end keychron_qmk.analog_matrix
