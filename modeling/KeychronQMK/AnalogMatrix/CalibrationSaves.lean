-- The calibrated values of the keys in both EEPROMs: what a save puts there,
-- what a sample leaves alone, and what a power cycle loads and copies.
import KeychronQMK.AnalogMatrix.KeyCalibration
import KeychronQMK.AnalogMatrix.Persistence

namespace keychron_qmk.analog_matrix

open layout

variable {R C : Nat}

/-! ## The values in the EEPROMs -/

def emulated_value (b : Board R C) (r : Fin R) (c : Fin C) : calibrated_value_t :=
  calibCodec.read b.eeprom (calib_offset r c)

def external_value (b : Board R C) (r : Fin R) (c : Fin C) : calibrated_value_t :=
  calibCodec.read b.he_eeprom (EXTERNAL_EEPROM_OFFSET + calib_offset r c)

structure SavesUsable (cfg : Config R C) (b b' : Board R C) : Prop where
  emulated : ∀ r c, cfg.hasKey r c = true →
    emulated_value b' r c = emulated_value b r c ∨ Usable (emulated_value b' r c)
  external : ∀ r c, cfg.hasKey r c = true →
    external_value b' r c = external_value b r c ∨ Usable (external_value b' r c)

/-- A power cycle copies or erases what the EEPROMs hold. -/
structure Carries (b b' : Board R C) : Prop where
  emulated : ∀ r c, emulated_value b' r c = emulated_value b r c ∨
    emulated_value b' r c = external_value b r c ∨ emulated_value b' r c = .zero
  external : ∀ a, EXTERNAL_EEPROM_OFFSET ≤ a →
    b'.he_eeprom a = b.he_eeprom a ∨ b'.he_eeprom a = 0

structure SameSaved (b b' : Board R C) : Prop where
  saved : b'.saved_calib_values = b.saved_calib_values
  eeprom : b'.eeprom = b.eeprom
  he_eeprom : b'.he_eeprom = b.he_eeprom

theorem SavesUsable.of_eeproms {b b' : Board R C} (cfg : Config R C) (he : b'.eeprom = b.eeprom)
    (hx : b'.he_eeprom = b.he_eeprom) : SavesUsable cfg b b' := by
  refine ⟨fun r c _ => .inl ?_, fun r c _ => .inl ?_⟩
  · unfold emulated_value
    rw [he]
  · unfold external_value
    rw [hx]

section Saves

variable {cfg : Config R C} {b : Board R C}

theorem default_travel_usable {v : calibrated_value_t} (h : Usable v) : default_travel v = v := by
  have hpos := h.pos
  have hlt := h.lt
  have hne : ∀ {x : BitVec 12}, 0 < x.toNat → x ≠ 0 := by
    rintro x hx rfl
    exact absurd hx (by decide)
  simp only [default_travel, if_neg (hne (hpos.trans hlt)), if_neg (hne hpos)]

variable {r : Fin R} {c : Fin C}

variable (cfg) in
theorem update_default_travel_usable (h : Usable (b.saved_calib_values r c)) :
    (b.update_default_travel cfg).saved_calib_values r c = b.saved_calib_values r c := by
  unfold Board.update_default_travel
  simp only
  split
  · exact default_travel_usable h
  · rfl

theorem calib_read_byte_write (m : Nat → UInt8) (x : UInt8) {a base : Nat} (h : base < a) :
    calibCodec.read (Codec.byte.write m base x) a = calibCodec.read m a :=
  Codec.read_write_of_disjoint _ _ _ _ (.inr h)

theorem calib_read_externalFlag (b : Board R C) (saved : UInt8) {a : Nat}
    (ha : EXTERNAL_EEPROM_OFFSET + OFFSET_CALIBRATION < a) :
    calibCodec.read (externalFlag b saved) a = calibCodec.read b.he_eeprom a := by
  unfold externalFlag
  split
  · exact calib_read_byte_write _ _ ha
  · rfl

variable (cfg) in
theorem save_calibration_values_usable
    (h : ∀ r c, cfg.hasKey r c = true → Usable (b.saved_calib_values r c)) :
    SavesUsable cfg b (save_calibration_values cfg b) := by
  have hs := save_calibration_values_saved cfg b
  refine ⟨fun r c hkey => .inr ?_, fun r c hkey => .inr ?_⟩
  · have hread := calibs_read_offset (save_calibration_values cfg b).eeprom r c
    rw [hs.eeprom, Codec.read_write, ← hs.eeprom] at hread
    unfold emulated_value
    rw [← hread]
    exact h r c hkey
  · have hread := calibs_read (save_calibration_values cfg b).he_eeprom
      (EXTERNAL_EEPROM_OFFSET + OFFSET_CALIBRATED_DATA_START) r c
    rw [hs.he_eeprom, Codec.read_write, ← hs.he_eeprom, Nat.add_assoc] at hread
    unfold external_value calib_offset
    rw [← hread]
    exact h r c hkey

theorem save_calibration_values_kept (h : Usable (b.saved_calib_values r c)) :
    (save_calibration_values cfg b).saved_calib_values r c = b.saved_calib_values r c := by
  unfold save_calibration_values
  simp only [Board.analog_matrix_eeprom_update, Board.he_eeprom_write_block,
    Board.check_data_version]
  split
  · exact update_default_travel_usable cfg h
  · exact update_default_travel_usable cfg h

variable (cfg) in
theorem save_calibration_value_usable (row : Fin R) (col : Fin C)
    (h : cfg.hasKey row col = true → Usable (b.saved_calib_values row col)) :
    SavesUsable cfg b (save_calibration_value b row col) := by
  have hs := save_calibration_value_saved b row col
  constructor
  · intro r c hkey
    have hpos := calib_offset_pos r c
    unfold emulated_value
    rw [hs.eeprom]
    by_cases hrc : r = row ∧ c = col
    · obtain ⟨rfl, rfl⟩ := hrc
      rw [Codec.read_write]
      exact .inr (h hkey)
    · left
      rw [Codec.read_write_of_disjoint _ _ _ _ (calib_offset_disjoint hrc)]
      exact calib_read_byte_write _ _ hpos
  · intro r c hkey
    have hpos := calib_offset_pos r c
    unfold external_value
    rw [hs.he_eeprom]
    by_cases hrc : r = row ∧ c = col
    · obtain ⟨rfl, rfl⟩ := hrc
      rw [Codec.read_write]
      exact .inr (h hkey)
    · left
      have hdis := calib_offset_disjoint hrc
      rw [Codec.read_write_of_disjoint _ _ _ _ (by omega)]
      exact calib_read_externalFlag _ _ (by simp only [OFFSET_CALIBRATION]; omega)

/-- The raw value is one that a sensor can give. -/
def InRange (value : UInt16) : Prop :=
  ¬ (value.toNat < VALID_ANALOG_RAW_VALUE_MIN ∨ VALID_ANALOG_RAW_VALUE_MAX < value.toNat)

instance : DecidablePred InRange := fun _ => inferInstanceAs (Decidable (¬ _))

theorem update_raw_value_idle (cfg : Config R C) (b : Board R C) (row : Fin R) (col : Fin C)
    {s : Sample} (h : ¬ InRange s.value ∨ s.calibrating = true) :
    SameSaved b (update_raw_value cfg b row col s).2 := by
  unfold update_raw_value
  split
  · exact ⟨rfl, rfl, rfl⟩
  split
  · exact ⟨rfl, rfl, rfl⟩
  · rename_i hv hc
    rcases h with h | h
    · exact absurd hv h
    · exact absurd h hc

theorem update_raw_value_auto (cfg : Config R C) (b : Board R C) (row : Fin R) (col : Fin C)
    {s : Sample} (hv : InRange s.value) (hc : s.calibrating = false) :
    SameSaved (auto_caliration_check cfg b row col s.auto) (update_raw_value cfg b row col s).2 := by
  unfold update_raw_value
  rw [if_neg hv, if_neg (by rw [hc]; exact Bool.false_ne_true)]
  simp only
  split
  · exact ⟨rfl, rfl, rfl⟩
  split
  · exact ⟨rfl, rfl, rfl⟩
  · exact ⟨rfl, rfl, rfl⟩

variable (cfg) in
/-- An automatic calibration that is over saves the value that it found. -/
theorem auto_caliration_check_usable
    (hb : ∀ r c, cfg.hasKey r c = true → Sound (b.saved_calib_values r c)) (row : Fin R)
    (col : Fin C) (auto : AutoCalibration)
    (h : cfg.hasKey row col = true → ∀ v, auto = .saved v → Sound v) :
    SavesUsable cfg b (auto_caliration_check cfg b row col auto) ∧
      ∀ r c, cfg.hasKey r c = true →
        Sound ((auto_caliration_check cfg b row col auto).saved_calib_values r c) := by
  cases auto with
  | unfinished => exact ⟨.of_eeproms cfg rfl rfl, hb⟩
  | adjusted =>
    refine ⟨.of_eeproms cfg rfl rfl, fun r c hkey => ?_⟩
    have hkept := update_default_travel_usable cfg (hb r c hkey).toUsable
    exact hkept ▸ hb r c hkey
  | saved v =>
    have hnew : ∀ r c, cfg.hasKey r c = true →
        Sound (if r = row ∧ c = col then v else b.saved_calib_values r c) := by
      intro r c hkey
      split
      · rename_i hrc
        obtain ⟨rfl, rfl⟩ := hrc
        exact h hkey v rfl
      · exact hb r c hkey
    have hsave := save_calibration_value_usable cfg row col
      (b := { b with
        saved_calib_values := fun r c =>
          if r = row ∧ c = col then v else b.saved_calib_values r c })
      fun hkey => (hnew row col hkey).toUsable
    refine ⟨⟨hsave.emulated, hsave.external⟩, fun r c hkey => ?_⟩
    have hsaved : (save_calibration_value { b with
        saved_calib_values := fun r c =>
          if r = row ∧ c = col then v else b.saved_calib_values r c }
        row col).saved_calib_values r c = if r = row ∧ c = col then v
          else b.saved_calib_values r c := by
      unfold save_calibration_value
      split
      · rfl
      · rfl
    have hkept := update_default_travel_usable cfg (hsaved ▸ (hnew r c hkey).toUsable)
    exact (hkept.trans hsaved) ▸ hnew r c hkey

theorem valid_value_powered (v : calibrated_value_t) :
    PoweredOn (valid_value v) ∧ (valid_value v).full_travel.toNat ≤ 2600 := by
  obtain ⟨zero, full⟩ := v
  have hzero := zero.isLt
  unfold valid_value DEFAULT_FULL_TRAVEL_VALUE VALID_ANALOG_RAW_VALUE_MAX
    VALID_ANALOG_RAW_VALUE_MIN DEFAULT_ZERO_TRAVEL_VALUE DEFAULT_FULL_RANGE
  simp only
  have hz : ∃ z : BitVec 12, z = (if 3500 < zero.toNat ∨ zero.toNat < 3000 - 300 then .ofNat 12 3000
      else zero) ∧ 2700 ≤ z.toNat ∧ z.toNat ≤ 3500 := by
    refine ⟨_, rfl, ?_⟩
    split
    · decide
    · omega
  obtain ⟨z, hz, hlo, hhi⟩ := hz
  rw [← hz]
  split
  · have hsub : (z - .ofNat 12 900).toNat = z.toNat - 900 := by
      simp only [BitVec.toNat_sub, BitVec.toNat_ofNat]
      omega
    refine ⟨⟨⟨?_, ?_⟩, hlo⟩, ?_⟩
    all_goals simp only [hsub]; omega
  · rename_i hf
    refine ⟨⟨⟨?_, ?_⟩, hlo⟩, ?_⟩
    · change 0 < full.toNat; omega
    · change full.toNat < z.toNat; omega
    · omega

theorem checked_value_powered (calibrated : UInt8) (hkey : cfg.hasKey r c = true)
    (v : calibrated_value_t) :
    PoweredOn (checked_value cfg calibrated r c v) ∧
      (checked_value cfg calibrated r c v).full_travel.toNat ≤ 2600 := by
  have hvalid := valid_value_powered v
  unfold checked_value
  rw [if_pos hkey]
  split
  · have hval : PoweredOn (calibration_validate (valid_value v)) ∧
        (calibration_validate (valid_value v)).full_travel.toNat ≤ 2600 := by
      unfold calibration_validate
      split
      · exact ⟨⟨⟨by decide, by decide⟩, by decide⟩, by decide⟩
      · exact hvalid
    rw [default_travel_usable hval.1.toUsable]
    exact hval
  · exact hvalid

theorem power_cycle_value (cfg : Config R C) (b : Board R C) (hkey : cfg.hasKey r c = true) :
    PoweredOn ((power_cycle cfg b).saved_calib_values r c) ∧
      ((power_cycle cfg b).saved_calib_values r c).full_travel.toNat ≤ 2600 :=
  checked_value_powered _ hkey _

theorem load_calibration_carries (cfg : Config R C) (b : Board R C) :
    Carries b (load_calibration cfg b) := by
  unfold load_calibration
  simp only
  split
  · exact ⟨fun r c => .inl rfl, fun a _ => .inl rfl⟩
  split
  · refine ⟨fun r c => .inl rfl, fun a ha => ?_⟩
    simp only [Board.he_eeprom_write_block]
    rw [Codec.write_of_ge uint32Codec _ _ (by change 0 + 4 ≤ a; exact ha)]
    simp only [Board.he_eeprom_driver_erase]
    split
    · exact .inr rfl
    · exact .inl rfl
  split
  · simp only [Board.analog_matrix_eeprom_update]
    refine ⟨fun r c => .inr (.inl ?_), fun a _ => .inl rfl⟩
    have hread := calibs_read_offset ((calibsCodec R C).write (Codec.byte.write b.eeprom
      OFFSET_CALIBRATION (b.he_eeprom (EXTERNAL_EEPROM_OFFSET + OFFSET_CALIBRATION)))
      OFFSET_CALIBRATED_DATA_START ((calibsCodec R C).read b.he_eeprom
        (EXTERNAL_EEPROM_OFFSET + OFFSET_CALIBRATED_DATA_START))) r c
    rw [Codec.read_write, calibs_read, Nat.add_assoc] at hread
    exact hread.symm
  · exact ⟨fun r c => .inl rfl, fun a _ => .inl rfl⟩

theorem profile_init_carries (cfg : Config R C) (b : Board R C) :
    let l := profile_init cfg (if b.eeconfig_enabled then unpowered b
      else eeconfig_init (unpowered b)) (!b.eeconfig_enabled)
    l.he_eeprom = b.he_eeprom ∧ ∀ r c,
      emulated_value l r c = emulated_value b r c ∨ emulated_value l r c = .zero := by
  unfold profile_init
  cases b.eeconfig_enabled with
  | true =>
    simp only [Bool.not_true, Bool.false_eq_true, ite_false, ite_true, emulated_value,
      load_profiles, unpowered, true_or, implies_true, and_self]
  | false =>
    have hmem := reset_profiles_memory cfg (eeconfig_init (unpowered b)) rfl
    refine ⟨(reset_profiles_frame cfg (eeconfig_init (unpowered b))).1, fun r c => .inr ?_⟩
    refine (hmem.value r c).trans ?_
    simp [Saved.stored, Saved.nothing]

theorem power_cycle_carries (cfg : Config R C) (b : Board R C) :
    Carries b (power_cycle cfg b) := by
  obtain ⟨hhe, hvalue⟩ := profile_init_carries cfg b
  have heq : ∃ l : Board R C, l.eeprom = (profile_init cfg (if b.eeconfig_enabled then unpowered b
        else eeconfig_init (unpowered b)) (!b.eeconfig_enabled)).eeprom ∧
      l.he_eeprom = b.he_eeprom ∧
      (power_cycle cfg b).eeprom = (load_calibration cfg l).eeprom ∧
      (power_cycle cfg b).he_eeprom = (load_calibration cfg l).he_eeprom :=
    ⟨load_game_controller _, rfl, hhe, rfl, rfl⟩
  obtain ⟨l, hl, hlhe, heeprom, hheeprom⟩ := heq
  have hload := load_calibration_carries cfg l
  have hext : ∀ r c, external_value l r c = external_value b r c := by
    intro r c
    unfold external_value
    rw [hlhe]
  have hemu : ∀ r c, emulated_value l r c = emulated_value b r c ∨ emulated_value l r c = .zero := by
    intro r c
    have h := hvalue r c
    unfold emulated_value at h ⊢
    rw [hl]
    exact h
  constructor
  · intro r c
    have h := hload.emulated r c
    rw [hext] at h
    have hread : emulated_value (power_cycle cfg b) r c =
        emulated_value (load_calibration cfg l) r c := by
      unfold emulated_value
      rw [heeprom]
    rw [hread]
    rcases h with h | h | h
    · rw [h]
      exact (hemu r c).elim .inl fun hz => .inr (.inr hz)
    · exact .inr (.inl h)
    · exact .inr (.inr h)
  · intro a ha
    have h := hload.external a ha
    rw [hheeprom]
    rwa [hlhe] at h

end Saves

end keychron_qmk.analog_matrix
