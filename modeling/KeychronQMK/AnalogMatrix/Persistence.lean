-- Saves and power cycles: after every run, the load gives each datum the
-- value saved last for it exactly when the byte of the profile index and the
-- calibration of the first key do not disagree.
import KeychronQMK.AnalogMatrix.Regions
import KeychronQMK.Lib.Runs

namespace keychron_qmk.analog_matrix

open layout memory runs

variable {R C : Nat}

/-! ## Operations -/

inductive Op (R C : Nat)
  /-- The commands of the host leave `p` in RAM as profile `i`. -/
  | edit_profile (i : Fin PROFILE_COUNT) (p : analog_matrix_profile_t R C)
  /-- The calibration finds `values`, and marks what it has calibrated. -/
  | calibrate (marks : UInt8) (values : Fin R → Fin C → calibrated_value_t)
  | profile_select (prof_idx : UInt8)
  | profile_save (prof_index : UInt8)
  | profile_reset (prof_index : UInt8)
  | save_calibration_value (row : Fin R) (col : Fin C)
  | save_calibration_values
  | game_controller_set_curve (pt : Fin CURVE_POINTS_COUNT → point_t)
  | game_controller_mode_set (mode : UInt8)
  | power_cycle

def perform (cfg : Config R C) (b : Board R C) : Op R C → Board R C
  | .edit_profile i p => b.set_profile i p
  | .calibrate marks values =>
    { b with calibrated := b.calibrated ||| marks, saved_calib_values := values }
  | .profile_select i => (profile_select b i).2
  | .profile_save i => (profile_save b i).2
  | .profile_reset i => (profile_reset cfg b i).2
  | .save_calibration_value row col => save_calibration_value b row col
  | .save_calibration_values => save_calibration_values cfg b
  | .game_controller_set_curve pt => (game_controller_set_curve b pt).2
  | .game_controller_mode_set mode => (game_controller_mode_set b mode).2
  | .power_cycle => power_cycle cfg b

def record (cfg : Config R C) (b : Board R C) (g : Saved R C) : Op R C → Saved R C
  | .edit_profile _ _ | .calibrate _ _ | .power_cycle => g
  | .profile_select i =>
    match profile_index i with
    | some i => if i ≠ b.current_profile_index then g.saveIndex i else g
    | none => g
  | .profile_save i => (profile_index i).elim g fun i => g.saveProfile i (b.profile i)
  | .profile_reset i => (profile_index i).elim g fun i => g.saveProfile i (default_profile cfg i)
  | .save_calibration_value row col =>
    (g.saveFlag b.calibrated).saveValue row col (b.saved_calib_values row col)
  | .save_calibration_values => (g.saveFlag b.calibrated).saveValues b.saved_calib_values
  | .game_controller_set_curve pt => if ordered_curve b.curve then g.saveCurve pt else g
  | .game_controller_mode_set mode => if b.game_controller_mode = mode then g else g.saveMode mode

/-- A board, and what was saved on it since its first power-up. -/
structure Run (R C : Nat) where
  board : Board R C
  saved : Saved R C

def Run.step (cfg : Config R C) (s : Run R C) (op : Op R C) : Run R C :=
  ⟨perform cfg s.board op, record cfg s.board s.saved op⟩

/-- A board that was never powered up. -/
structure Blank (cfg : Config R C) where
  board : Board R C
  not_enabled : board.eeconfig_enabled = false
  not_marked : uint32Codec.read board.he_eeprom 0 ≠ cfg.VENDOR_ID

def Run.start {cfg : Config R C} (blank : Blank cfg) : Run R C :=
  ⟨power_cycle cfg blank.board, .nothing R C⟩

/-! ## Every operation keeps the record right -/

structure BoardHolds (cfg : Config R C) (b : Board R C) (g : Saved R C) : Prop where
  enabled : b.eeconfig_enabled = true
  memory : MemoryHolds cfg b.eeprom g
  marked : uint32Codec.read b.he_eeprom 0 = cfg.VENDOR_ID
  external : b.he_eeprom (EXTERNAL_EEPROM_OFFSET + OFFSET_CALIBRATION) ≠ 0 →
    g.calibrated.getD 0 ≠ 0
  flagged : g.calibrated.getD 0 ≠ 0 → b.calibrated ≠ 0
  unsaved : g.writer = none →
    g.index = none ∧ ∀ r c, Saved.IsFirst r c → g.value r c = none

theorem profile_index_eq_some {x : UInt8} {i : Fin PROFILE_COUNT} (h : profile_index x = some i) :
    x = .ofNat i := by
  unfold profile_index at h
  split at h
  · cases h; simp
  · cases h

theorem BoardHolds.of_write {cfg : Config R C} {b b' : Board R C} {g g' : Saved R C}
    (h : BoardHolds cfg b g) (he : b'.eeconfig_enabled = b.eeconfig_enabled)
    (hm : MemoryHolds cfg b'.eeprom g') (hx : b'.he_eeprom = b.he_eeprom)
    (hc : b'.calibrated = b.calibrated) (hg : g'.calibrated = g.calibrated)
    (hu : g'.writer = none →
      g'.index = none ∧ ∀ r c, Saved.IsFirst r c → g'.value r c = none) :
    BoardHolds cfg b' g' where
  enabled := he.trans h.enabled
  memory := hm
  marked := hx ▸ h.marked
  external := by rw [hx, hg]; exact h.external
  flagged := by rw [hc, hg]; exact h.flagged
  unsaved := hu

section Step

variable {cfg : Config R C} {b : Board R C} {g : Saved R C}

theorem profile_select_holds (h : BoardHolds cfg b g) (x : UInt8) :
    BoardHolds cfg (perform cfg b (.profile_select x)) (record cfg b g (.profile_select x)) := by
  simp only [perform, record, profile_select]
  rcases hx : profile_index x with _ | i
  · exact h
  · simp only
    split
    · refine h.of_write rfl ?_ rfl rfl rfl nofun
      have hw := h.memory.write_index i
      rw [← profile_index_eq_some hx] at hw
      exact hw
    · exact h

theorem save_profile_holds (h : BoardHolds cfg b g) (i : Fin PROFILE_COUNT) (x : UInt8)
    (hx : profile_index x = some i) :
    BoardHolds cfg (profile_save b x).2 (g.saveProfile i (b.profile i)) := by
  simp only [profile_save, hx]
  exact h.of_write rfl (h.memory.write_profile i _) rfl rfl rfl h.unsaved

theorem profile_reset_holds (h : BoardHolds cfg b g) (i : Fin PROFILE_COUNT) (x : UInt8)
    (hx : profile_index x = some i) :
    BoardHolds cfg (profile_reset cfg b x).2 (g.saveProfile i (default_profile cfg i)) := by
  simp only [profile_reset, hx]
  have hset : BoardHolds cfg (b.set_profile i (default_profile cfg i)) g :=
    h.of_write rfl h.memory rfl rfl rfl h.unsaved
  have hsave := save_profile_holds hset i x hx
  rwa [show (b.set_profile i (default_profile cfg i)).profile i = default_profile cfg i from
    Function.update_self ..] at hsave

def externalFlag (b : Board R C) (saved : UInt8) : Nat → UInt8 :=
  if saved ≠ b.calibrated then
    Codec.byte.write b.he_eeprom (EXTERNAL_EEPROM_OFFSET + OFFSET_CALIBRATION) b.calibrated
  else b.he_eeprom

structure CalibrationSaved {α : Type} (b b' : Board R C) (c : Codec α) (x : α) (a : Nat)
    (saved : UInt8) : Prop where
  enabled : b'.eeconfig_enabled = b.eeconfig_enabled
  calibrated : b'.calibrated = b.calibrated
  eeprom : b'.eeprom = c.write (Codec.byte.write b.eeprom OFFSET_CALIBRATION b.calibrated) a x
  he_eeprom : b'.he_eeprom = c.write (externalFlag b saved) (EXTERNAL_EEPROM_OFFSET + a) x

theorem save_calibration_value_saved (b : Board R C) (row : Fin R) (col : Fin C) :
    CalibrationSaved b (save_calibration_value b row col) calibCodec
      (b.saved_calib_values row col) (calib_offset row col) b.eeprom_calibrated_key := by
  constructor
  all_goals
    simp only [save_calibration_value, Board.analog_matrix_eeprom_update,
      Board.he_eeprom_write_block, Board.check_data_version, externalFlag]
    split
  all_goals rfl

theorem save_calibration_values_saved (cfg : Config R C) (b : Board R C) :
    CalibrationSaved b (save_calibration_values cfg b) (calibsCodec R C) b.saved_calib_values
      OFFSET_CALIBRATED_DATA_START b.eeprom_calibrated_board := by
  constructor
  all_goals
    simp only [save_calibration_values, Board.analog_matrix_eeprom_update,
      Board.he_eeprom_write_block, Board.check_data_version, Board.update_default_travel,
      Board.update_travel_configs, Board.update_key_configs, Board.set_profile, externalFlag]
    split
  all_goals rfl

/-- The external EEPROM after a save of the calibration: the mark is still
there, and the flag in it is not ahead of the saved one. -/
theorem external_holds {α : Type} (h : BoardHolds cfg b g) (saved : UInt8) (codec : Codec α) (x : α)
    {a : Nat} (ha : EXTERNAL_EEPROM_OFFSET + OFFSET_CALIBRATION < a) :
    uint32Codec.read (codec.write (externalFlag b saved) a x) 0 = cfg.VENDOR_ID ∧
      (codec.write (externalFlag b saved) a x (EXTERNAL_EEPROM_OFFSET + OFFSET_CALIBRATION) ≠ 0 →
        b.calibrated ≠ 0) := by
  have hbyte : codec.write (externalFlag b saved) a x (EXTERNAL_EEPROM_OFFSET + OFFSET_CALIBRATION) =
      externalFlag b saved (EXTERNAL_EEPROM_OFFSET + OFFSET_CALIBRATION) := Codec.write_of_lt _ _ _ ha
  have hmark : uint32Codec.read (codec.write (externalFlag b saved) a x) 0 =
      uint32Codec.read (externalFlag b saved) 0 := by
    refine Codec.read_write_of_disjoint _ _ _ _ (.inl ?_)
    change 0 + 4 ≤ a
    change 4 + 0 < a at ha
    omega
  rw [hbyte, hmark]
  unfold externalFlag
  split
  · refine ⟨?_, ?_⟩
    · rw [Codec.read_write_of_disjoint _ _ _ _ (.inl (by decide))]
      exact h.marked
    · rw [Codec.byte_write, Function.update_self]
      exact id
  · exact ⟨h.marked, fun hne => h.flagged (h.external hne)⟩

theorem unsaved_saveValue (h : BoardHolds cfg b g) (x : UInt8) (row : Fin R) (col : Fin C)
    (v : calibrated_value_t) (hw : ((g.saveFlag x).saveValue row col v).writer = none) :
    g.index = none ∧
      ∀ r c, Saved.IsFirst r c → ((g.saveFlag x).saveValue row col v).value r c = none := by
  have hf : ¬ Saved.IsFirst row col := fun hf => by simp [Saved.saveValue, hf] at hw
  simp only [Saved.saveValue, if_neg hf] at hw ⊢
  refine ⟨(h.unsaved hw).1, fun r c hrc => ?_⟩
  rw [if_neg (by rintro ⟨rfl, rfl⟩; exact hf hrc)]
  exact (h.unsaved hw).2 r c hrc

theorem CalibrationSaved.holds {α : Type} {b' : Board R C} {c : Codec α} {x : α} {a : Nat}
    {saved : UInt8} (hs : CalibrationSaved b b' c x a saved) (h : BoardHolds cfg b g)
    (ha : 1 ≤ a) {g' : Saved R C} (hg : g'.calibrated = some b.calibrated)
    (hm : MemoryHolds cfg b'.eeprom g')
    (hu : g'.writer = none →
      g'.index = none ∧ ∀ r c, Saved.IsFirst r c → g'.value r c = none) :
    BoardHolds cfg b' g' := by
  obtain ⟨hmark, hflag⟩ := external_holds h saved c x (a := EXTERNAL_EEPROM_OFFSET + a)
    (by simp only [OFFSET_CALIBRATION]; omega)
  rw [← hs.he_eeprom] at hmark hflag
  refine ⟨hs.enabled.trans h.enabled, hm, hmark, ?_, ?_, hu⟩
  · rw [hg]; exact hflag
  · rw [hg, hs.calibrated]; exact id

theorem save_calibration_value_holds (h : BoardHolds cfg b g) (row : Fin R) (col : Fin C) :
    BoardHolds cfg (save_calibration_value b row col)
      ((g.saveFlag b.calibrated).saveValue row col (b.saved_calib_values row col)) := by
  have hs := save_calibration_value_saved b row col
  refine hs.holds h (calib_offset_pos row col) rfl ?_ (unsaved_saveValue h _ _ _ _)
  rw [hs.eeprom]
  exact (h.memory.write_flag b.calibrated).write_value row col _

theorem save_calibration_values_holds (h : BoardHolds cfg b g) :
    BoardHolds cfg (save_calibration_values cfg b)
      ((g.saveFlag b.calibrated).saveValues b.saved_calib_values) := by
  have hs := save_calibration_values_saved cfg b
  refine hs.holds h (by decide) rfl ?_ nofun
  rw [hs.eeprom]
  exact (h.memory.write_flag b.calibrated).write_values _

theorem set_curve_holds (h : BoardHolds cfg b g) (pt : Fin CURVE_POINTS_COUNT → point_t) :
    BoardHolds cfg (game_controller_set_curve b pt).2
      (if ordered_curve b.curve then g.saveCurve pt else g) := by
  unfold game_controller_set_curve
  split
  · exact h.of_write rfl (h.memory.write_curve pt) rfl rfl rfl h.unsaved
  · exact h

theorem mode_set_holds (h : BoardHolds cfg b g) (mode : UInt8) :
    BoardHolds cfg (game_controller_mode_set b mode).2
      (if b.game_controller_mode = mode then g else g.saveMode mode) := by
  unfold game_controller_mode_set
  split
  · exact h
  · exact h.of_write rfl (h.memory.write_mode mode) rfl rfl rfl h.unsaved

end Step

/-! ## What a power cycle loads -/

def default_value (cfg : Config R C) (r : Fin R) (c : Fin C) : calibrated_value_t :=
  if cfg.hasKey r c then ⟨.ofNat 12 DEFAULT_ZERO_TRAVEL_VALUE, .ofNat 12 DEFAULT_FULL_TRAVEL_VALUE⟩
  else .zero

/-- What the load makes of profile `i`: the global configuration is checked,
and in the current profile so are the advanced modes. -/
def loaded_profile (cfg : Config R C) (current i : Fin PROFILE_COUNT)
    (p : analog_matrix_profile_t R C) : analog_matrix_profile_t R C :=
  let p := checked_profile cfg i p
  if i = current then { p with key_config := fun r c => settled_config (p.key_config r c) } else p

theorem checked_value_zero (cfg : Config R C) (x : UInt8) (r : Fin R) (c : Fin C) :
    checked_value cfg x r c .zero = default_value cfg r c := by
  unfold checked_value default_value
  split
  · split <;> decide
  · rfl

theorem load_calibration_eq (cfg : Config R C) (b : Board R C)
    (hmark : uint32Codec.read b.he_eeprom 0 = cfg.VENDOR_ID)
    (hext : b.he_eeprom (EXTERNAL_EEPROM_OFFSET + OFFSET_CALIBRATION) ≠ 0 →
      b.eeprom OFFSET_CALIBRATION ≠ 0) :
    load_calibration cfg b = { b with
      calibrated := b.eeprom OFFSET_CALIBRATION
      saved_calib_values :=
        if b.eeprom OFFSET_CALIBRATION ≠ 0 then
          (calibsCodec R C).read b.eeprom OFFSET_CALIBRATED_DATA_START
        else fun _ _ => .zero } := by
  unfold load_calibration
  simp only
  split
  · rfl
  · rename_i hflag
    have hzero := not_not.mp (mt hext hflag)
    rw [if_neg (not_not.mpr hmark), hzero, if_neg (not_not.mpr rfl), not_not.mp hflag]

/-- What a power cycle leaves of a board whose record is right. -/
structure Loaded (cfg : Config R C) (b l : Board R C) : Prop where
  eeprom : l.eeprom = b.eeprom
  he_eeprom : l.he_eeprom = b.he_eeprom
  enabled : l.eeconfig_enabled = true
  calibrated : l.calibrated = b.eeprom OFFSET_CALIBRATION
  value : ∀ r c, l.saved_calib_values r c = checked_value cfg (b.eeprom OFFSET_CALIBRATION) r c
    (if b.eeprom OFFSET_CALIBRATION ≠ 0 then calibCodec.read b.eeprom (calib_offset r c) else .zero)
  index : l.current_profile_index = loaded_index (b.eeprom OFFSET_CURRENT_PROFILE)
  profile : ∀ i, l.profile i = loaded_profile cfg (loaded_index (b.eeprom OFFSET_CURRENT_PROFILE)) i
    ((profileCodec R C).read b.eeprom (profile_offset R C i))
  curve : l.curve = checked_curve (curveCodec.read b.eeprom (OFFSET_CURVE_PTS_START R C))
  mode : l.game_controller_mode = b.eeprom (OFFSET_GAME_CONTROLLER_MODE_START R C)

def loading (cfg : Config R C) (b : Board R C) : Board R C :=
  load_game_controller (load_profiles cfg (unpowered b))

theorem loading_eeprom (cfg : Config R C) (b : Board R C) : (loading cfg b).eeprom = b.eeprom := by
  simp only [loading, load_game_controller, load_profiles, unpowered]

theorem loading_he_eeprom (cfg : Config R C) (b : Board R C) :
    (loading cfg b).he_eeprom = b.he_eeprom := by
  simp only [loading, load_game_controller, load_profiles, unpowered]

theorem power_cycle_eq {cfg : Config R C} {b : Board R C} {g : Saved R C}
    (h : BoardHolds cfg b g) :
    power_cycle cfg b = (check_calibration cfg { loading cfg b with
      calibrated := b.eeprom OFFSET_CALIBRATION
      saved_calib_values :=
        if b.eeprom OFFSET_CALIBRATION ≠ 0 then
          (calibsCodec R C).read b.eeprom OFFSET_CALIBRATED_DATA_START
        else fun _ _ => .zero }).analog_matrix_clear.update_travel_configs := by
  have hflag := h.memory.flag
  rw [Codec.byte_read] at hflag
  have hload := load_calibration_eq cfg (loading cfg b)
    (by rw [loading_he_eeprom]; exact h.marked)
    (by rw [loading_he_eeprom, loading_eeprom, hflag]; exact h.external)
  have hen : (unpowered b).eeconfig_enabled = true := h.enabled
  unfold power_cycle analog_matrix_eeconfig_init
  simp only [hen, ite_true, Bool.not_true, profile_init, Bool.false_eq_true, ite_false]
  rw [loading] at hload
  rw [hload, ← loading, loading_eeprom]

theorem power_cycle_loaded {cfg : Config R C} {b : Board R C} {g : Saved R C}
    (h : BoardHolds cfg b g) : Loaded cfg b (power_cycle cfg b) := by
  have henabled : b.eeconfig_enabled = true := h.enabled
  rw [power_cycle_eq h]
  constructor
  case value =>
    intro r c
    simp only [Board.update_travel_configs, Board.update_key_configs, Board.set_profile,
      Board.analog_matrix_clear, check_calibration]
    split
    · rw [calibs_read_offset]
    · rfl
  case profile =>
    intro i
    rw [← profiles_read]
    simp only [Board.update_travel_configs, Board.update_key_configs, Board.set_profile,
      Board.analog_matrix_clear, Board.profile_get_current, check_calibration, loading,
      load_game_controller, load_profiles, unpowered, ite_true, loaded_profile]
    split
    · rename_i hi
      rw [← hi, Function.update_self]
    · rename_i hi
      rw [Function.update_of_ne hi]
  all_goals
    simp only [Board.update_travel_configs, Board.update_key_configs, Board.set_profile,
      Board.analog_matrix_clear, check_calibration, loading, load_game_controller, load_profiles,
      unpowered, henabled]

theorem power_cycle_holds {cfg : Config R C} {b : Board R C} {g : Saved R C}
    (h : BoardHolds cfg b g) : BoardHolds cfg (power_cycle cfg b) g := by
  have hl := power_cycle_loaded h
  have hflag := h.memory.flag
  rw [Codec.byte_read] at hflag
  refine ⟨hl.enabled, ?_, ?_, ?_, ?_, h.unsaved⟩
  · rw [hl.eeprom]; exact h.memory
  · rw [hl.he_eeprom]; exact h.marked
  · rw [hl.he_eeprom]; exact h.external
  · rw [hl.calibrated, hflag]; exact id

theorem step_holds {cfg : Config R C} {b : Board R C} {g : Saved R C} (h : BoardHolds cfg b g)
    (op : Op R C) : BoardHolds cfg (perform cfg b op) (record cfg b g op) := by
  cases op with
  | edit_profile i p => exact h.of_write rfl h.memory rfl rfl rfl h.unsaved
  | calibrate marks values =>
    refine ⟨h.enabled, h.memory, h.marked, h.external, fun hne => ?_, h.unsaved⟩
    have hcal := h.flagged hne
    simp only [perform]
    intro hzero
    rw [UInt8.or_eq_zero_iff] at hzero
    exact hcal hzero.1
  | profile_select x => exact profile_select_holds h x
  | profile_save x =>
    simp only [perform, record]
    rcases hx : profile_index x with _ | i
    · simp only [profile_save, hx]; exact h
    · exact save_profile_holds h i x hx
  | profile_reset x =>
    simp only [perform, record]
    rcases hx : profile_index x with _ | i
    · simp only [profile_reset, hx]; exact h
    · exact profile_reset_holds h i x hx
  | save_calibration_value row col => exact save_calibration_value_holds h row col
  | save_calibration_values => exact save_calibration_values_holds h
  | game_controller_set_curve pt => exact set_curve_holds h pt
  | game_controller_mode_set mode => exact mode_set_holds h mode
  | power_cycle => exact power_cycle_holds h

/-! ## The first power-up -/

theorem profile_index_ofNat (i : Fin PROFILE_COUNT) : profile_index (.ofNat i) = some i := by
  revert i
  decide

theorem profile_reset_memory {cfg : Config R C} {b : Board R C} {g : Saved R C}
    (h : MemoryHolds cfg b.eeprom g) (i : Fin PROFILE_COUNT) :
    MemoryHolds cfg (profile_reset cfg b (.ofNat i)).2.eeprom
      (g.saveProfile i (default_profile cfg i)) := by
  have heq : (profile_reset cfg b (.ofNat i)).2.eeprom =
      (profileCodec R C).write b.eeprom (profile_offset R C i) (default_profile cfg i) := by
    simp only [profile_reset, profile_save, profile_index_ofNat, Board.set_profile,
      Board.check_data_version, Board.analog_matrix_eeprom_update, Function.update_self,
      profile_offset]
  rw [heq]
  exact h.write_profile i _

theorem erased_holds (cfg : Config R C) : MemoryHolds cfg (fun _ => 0)
    { Saved.nothing R C with
      profile := fun i => some ((profileCodec R C).read (fun _ => 0) (profile_offset R C i)) } where
  flag := rfl
  value r c := by
    rw [calib_read_eq]
    simp only [Saved.stored, Saved.nothing, reduceCtorEq, and_false, ite_false, Option.getD_none]
    decide
  profile _ := rfl
  curve := by
    funext i
    rw [curveCodec, Codec.array_read]
    rfl
  mode := rfl

theorem reset_profiles_memory (cfg : Config R C) (b : Board R C) (h : b.eeprom = fun _ => 0) :
    MemoryHolds cfg (reset_profiles cfg b).eeprom (.nothing R C) := by
  have h0 : MemoryHolds cfg b.eeprom _ := h ▸ erased_holds cfg
  have h3 := profile_reset_memory (profile_reset_memory (profile_reset_memory h0 0) 1) 2
  refine ⟨h3.flag, h3.value, fun i => (h3.profile i).trans ?_, h3.curve, h3.mode⟩
  match i with
  | 0 | 1 | 2 => simp [Saved.saveProfile, Saved.nothing]

theorem reset_profiles_frame (cfg : Config R C) (b : Board R C) :
    (reset_profiles cfg b).he_eeprom = b.he_eeprom ∧
      (reset_profiles cfg b).eeconfig_enabled = b.eeconfig_enabled := by
  have hone : ∀ (b : Board R C) (x : UInt8), (profile_reset cfg b x).2.he_eeprom = b.he_eeprom ∧
      (profile_reset cfg b x).2.eeconfig_enabled = b.eeconfig_enabled := by
    intro b x
    rcases hx : profile_index x with _ | i
    · simp only [profile_reset, hx, and_self]
    · simp only [profile_reset, profile_save, hx, Board.set_profile, Board.check_data_version,
        Board.analog_matrix_eeprom_update, and_self]
  unfold reset_profiles
  generalize List.range PROFILE_COUNT = l
  induction l generalizing b with
  | nil => exact ⟨rfl, rfl⟩
  | cons i l ih =>
    have h1 := hone b (.ofNat i)
    exact ⟨(ih _).1.trans h1.1, (ih _).2.trans h1.2⟩

theorem load_calibration_unmarked {cfg : Config R C} {b : Board R C}
    (hflag : b.eeprom OFFSET_CALIBRATION = 0)
    (hmark : uint32Codec.read b.he_eeprom 0 ≠ cfg.VENDOR_ID) :
    load_calibration cfg b = { b with
      calibrated := 0
      saved_calib_values := fun _ _ => .zero
      he_eeprom := uint32Codec.write b.he_eeprom_driver_erase.he_eeprom 0 cfg.VENDOR_ID } := by
  unfold load_calibration
  simp only [hflag, Board.he_eeprom_driver_erase, Board.he_eeprom_write_block]
  rw [if_neg (not_not.mpr rfl), if_pos hmark]

theorem BoardHolds.finish {cfg : Config R C} {b : Board R C} {g : Saved R C}
    (h : BoardHolds cfg b g) :
    BoardHolds cfg (check_calibration cfg b).analog_matrix_clear.update_travel_configs g := by
  refine h.of_write ?_ ?_ ?_ ?_ rfl h.unsaved
  all_goals simp only [Board.update_travel_configs, Board.update_key_configs, Board.set_profile,
    Board.analog_matrix_clear, check_calibration]
  exact h.memory

theorem start_holds {cfg : Config R C} (blank : Blank cfg) :
    BoardHolds cfg (power_cycle cfg blank.board) (.nothing R C) := by
  have hen : (unpowered blank.board).eeconfig_enabled = false := blank.not_enabled
  obtain ⟨hhe, henabled⟩ := reset_profiles_frame cfg (eeconfig_init (unpowered blank.board))
  have hmem := reset_profiles_memory cfg (eeconfig_init (unpowered blank.board)) rfl
  unfold power_cycle analog_matrix_eeconfig_init
  simp only [hen, Bool.false_eq_true, ite_false, Bool.not_false, profile_init, ite_true]
  generalize reset_profiles cfg (eeconfig_init (unpowered blank.board)) = b at hhe henabled hmem
  have hflag : (load_game_controller b).eeprom OFFSET_CALIBRATION = 0 := by
    have h := hmem.flag
    exact h
  have hmark : uint32Codec.read (load_game_controller b).he_eeprom 0 ≠ cfg.VENDOR_ID := by
    simp only [load_game_controller, hhe]
    exact blank.not_marked
  rw [load_calibration_unmarked hflag hmark]
  apply BoardHolds.finish
  refine ⟨henabled, hmem, ?_, fun hne => absurd ?_ hne, id, fun _ => ⟨rfl, fun _ _ _ => rfl⟩⟩
  · dsimp only
    rw [Codec.read_write]
  · dsimp only [Board.he_eeprom_driver_erase]
    rw [Codec.write_of_ge _ _ _ (by decide)]
    exact if_pos (by decide)

/-! ## What is loaded -/

/-- The load gives each datum the value saved last, or its default when none
was saved. A value out of range is as the checks of the load leave it. -/
structure Loads (cfg : Config R C) (l : Board R C) (g : Saved R C) : Prop where
  calibrated : l.calibrated = g.calibrated.getD 0
  value : ∀ r c, l.saved_calib_values r c =
    (g.value r c).elim (default_value cfg r c) (checked_value cfg (g.calibrated.getD 0) r c)
  index : l.current_profile_index = g.index.getD 0
  profile : ∀ i, l.profile i =
    loaded_profile cfg (g.index.getD 0) i ((g.profile i).getD (default_profile cfg i))
  curve : l.curve = g.curve.elim default_curve checked_curve
  mode : l.game_controller_mode = g.mode.getD 0

/-- The profile index and the calibration of the first key can share their
byte, and no calibration was saved without the flag. -/
structure NotClobbered (cfg : Config R C) (g : Saved R C) : Prop where
  index : g.writer = some .calibration → ∀ r c, Saved.IsFirst r c →
    loaded_index (low ((g.value r c).getD .zero)) = g.index.getD 0
  value : g.writer = some .index → g.calibrated.getD 0 ≠ 0 → ∀ r c, Saved.IsFirst r c →
    checked_value cfg (g.calibrated.getD 0) r c (withLow ((g.value r c).getD .zero) g.indexByte) =
      checked_value cfg (g.calibrated.getD 0) r c ((g.value r c).getD .zero)
  flag : g.calibrated.getD 0 = 0 → ∀ r c v, g.value r c = some v →
    checked_value cfg 0 r c v = default_value cfg r c

/-! A value in range is loaded as it was saved. -/

theorem checked_curve_of_ne {pt : Fin CURVE_POINTS_COUNT → point_t} {i : Fin CURVE_POINTS_COUNT}
    (h : (pt i).y ≠ 0) : checked_curve pt = pt := if_neg fun hall => h (hall i)

theorem elim_checked_value (cfg : Config R C) (x : UInt8) (r : Fin R) (c : Fin C)
    (v : Option calibrated_value_t) :
    v.elim (default_value cfg r c) (checked_value cfg x r c) =
      checked_value cfg x r c (v.getD .zero) := by
  cases v with
  | none => exact (checked_value_zero cfg x r c).symm
  | some v => rfl

theorem index_byte {cfg : Config R C} {b : Board R C} {g : Saved R C} (h : BoardHolds cfg b g)
    {r : Fin R} {c : Fin C} (hf : Saved.IsFirst r c) :
    b.eeprom OFFSET_CURRENT_PROFILE = low (g.stored r c) := by
  rw [← h.memory.value, low_read, calib_offset_first.mpr hf]

theorem loaded_index_indexByte (g : Saved R C) : loaded_index g.indexByte = g.index.getD 0 := by
  unfold loaded_index Saved.indexByte
  rw [profile_index_ofNat, Option.getD_some]

theorem loads_iff {cfg : Config R C} {b : Board R C} {g : Saved R C} (h : BoardHolds cfg b g) :
    Loads cfg (power_cycle cfg b) g ↔ NotClobbered cfg g := by
  have hl := power_cycle_loaded h
  have hflag := h.memory.flag
  rw [Codec.byte_read] at hflag
  have hvalue : ∀ r c, (power_cycle cfg b).saved_calib_values r c =
      checked_value cfg (g.calibrated.getD 0) r c
        (if g.calibrated.getD 0 ≠ 0 then g.stored r c else .zero) := by
    intro r c
    rw [hl.value, hflag, h.memory.value]
  have hindex : ∀ r c, Saved.IsFirst r c →
      (power_cycle cfg b).current_profile_index = loaded_index (low (g.stored r c)) := by
    intro r c hf
    rw [hl.index, index_byte h hf]
  constructor
  · intro hload
    refine ⟨fun hw r c hf => ?_, fun hw hne r c hf => ?_, fun hzero r c v hv => ?_⟩
    · rw [← hload.index, hindex r c hf, Saved.stored, if_neg (by simp [hw])]
    · have heq := (hvalue r c).symm.trans (hload.value r c)
      rwa [if_pos hne, Saved.stored, if_pos ⟨hf, hw⟩, elim_checked_value] at heq
    · have heq := (hvalue r c).symm.trans (hload.value r c)
      rw [if_neg (not_not.mpr hzero), checked_value_zero, hv, hzero] at heq
      exact heq.symm
  · intro hok
    have hidx : (power_cycle cfg b).current_profile_index = g.index.getD 0 := by
      have hf : Saved.IsFirst (⟨0, cfg.rows_pos⟩ : Fin R) (⟨0, cfg.cols_pos⟩ : Fin C) := ⟨rfl, rfl⟩
      rw [hindex _ _ hf, Saved.stored]
      rcases hw : g.writer with _ | _ | _
      · obtain ⟨hnone, hval⟩ := h.unsaved hw
        rw [if_neg (by simp), hval _ _ hf, hnone]
        rfl
      · rw [if_pos ⟨hf, rfl⟩, low_withLow, loaded_index_indexByte]
      · rw [if_neg (by simp), hok.index hw _ _ hf]
    refine ⟨hl.calibrated.trans hflag, fun r c => ?_, hidx, fun i => ?_, ?_, ?_⟩
    · rw [hvalue, elim_checked_value]
      by_cases hzero : g.calibrated.getD 0 = 0
      · rw [if_neg (not_not.mpr hzero), hzero, checked_value_zero]
        rcases hv : g.value r c with _ | v
        · exact (checked_value_zero _ _ _ _).symm
        · exact (hok.flag hzero r c v hv).symm
      · rw [if_pos hzero, Saved.stored]
        split
        · rename_i hfw
          exact hok.value hfw.2 hzero r c hfw.1
        · rfl
    · rw [hl.profile, ← hl.index, hidx, h.memory.profile]
    · rw [hl.curve, h.memory.curve]
      cases g.curve <;> rfl
    · have hmode := h.memory.mode
      rw [Codec.byte_read] at hmode
      exact hl.mode.trans hmode

theorem Run.step_holds {cfg : Config R C} {s : Run R C} (h : BoardHolds cfg s.board s.saved)
    (op : Op R C) : BoardHolds cfg (s.step cfg op).board (s.step cfg op).saved := by
  exact analog_matrix.step_holds h op

def sixRows : Config 6 15 where
  profile_gobal_mode := ![AKM_REGULAR, AKM_RAPID, AKM_RAPID]
  default_profiles := fun _ _ _ => 0
  analog_matrix_mask := fun _ => 0x7FFF
  VENDOR_ID := 0x3434
  rows_pos := by decide
  cols_pos := by decide

def erasedBoard (R C : Nat) : Board R C where
  profile := fun _ => .zero R C
  current_profile_index := 0
  analog_key_matrix := fun _ _ => .zero
  calibrated := 0
  saved_calib_values := fun _ _ => .zero
  eeprom_calibrated_key := 0
  eeprom_calibrated_board := 0
  curve := fun _ => ⟨0, 0⟩
  game_controller_mode := 0
  eeprom := fun _ => 0
  eeconfig_keyboard := 0
  eeconfig_enabled := false
  he_eeprom := fun _ => 0

def sixRowsBlank : Blank sixRows := ⟨erasedBoard 6 15, rfl, by decide⟩

end keychron_qmk.analog_matrix
