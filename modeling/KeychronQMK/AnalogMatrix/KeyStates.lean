-- The states of the keys in whole runs: every input keeps each key in the
-- states of its mode, but for a new mode that does not know the state.
import KeychronQMK.AnalogMatrix.Strokes

namespace keychron_qmk.analog_matrix

open runs

variable {R C : Nat}

/-- What holds of a key in the states of its mode. -/
structure Lives (gc_mode : UInt8) (p : analog_matrix_profile_t R C) (key : analog_key_t) : Prop where
  fits : StateFits key
  moved : InReach p key →
    ∃ travel ≤ MAX_TRAVEL, (strike gc_mode p key travel).state ≠ key.state
  stroke : InReach p key → key.state = AKS_REGULAR_RELEASED → ∀ {down top up},
    Stroke p key down top up →
      edges (strike gc_mode p) pressed key ((down ++ [top]) ++ (up ++ [0])) = [true, false]

theorem lives_iff {gc_mode : UInt8} {p : analog_matrix_profile_t R C} {key : analog_key_t} :
    Lives gc_mode p key ↔ StateFits key :=
  ⟨Lives.fits, fun h => ⟨h, some_travel_moves_the_key h,
    fun hp hs => a_stroke_presses_once_and_releases_once gc_mode p hp hs⟩⟩

def KeysLive (b : Board R C) : Prop :=
  ∀ r c, Lives b.game_controller_mode b.profile_get_current (b.analog_key_matrix r c)

def KeysFit (b : Board R C) : Prop := ∀ r c, StateFits (b.analog_key_matrix r c)

theorem keysLive_iff {b : Board R C} : KeysLive b ↔ KeysFit b :=
  forall_congr' fun _ => forall_congr' fun _ => lives_iff

theorem keysFit_of_same {b b' : Board R C} (h : SameKeys b b') (hb : KeysFit b) : KeysFit b' := by
  unfold KeysFit
  rw [h.keys]
  exact hb

/-! ## Updates of the configuration -/

section Updates

variable {b : Board R C}

theorem update_fits_iff {sel : Fin R → Fin C → Bool} (r : Fin R) (c : Fin C) :
    StateFits ((b.update_key_configs sel).analog_key_matrix r c) ↔
      if sel r c then (b.analog_key_matrix r c).state <
        state_count (key_mode b.profile_get_current.global (b.profile_get_current.key_config r c))
      else StateFits (b.analog_key_matrix r c) := by
  rw [update_key_configs_keys]
  split
  · rfl
  · rfl

def Refits (b : Board R C) (p : analog_matrix_profile_t R C) : Prop :=
  ∀ r c, (b.analog_key_matrix r c).state < state_count (key_mode p.global (p.key_config r c))

theorem update_travel_configs_fits_iff :
    KeysFit b.update_travel_configs ↔ Refits b b.profile_get_current :=
  forall_congr' fun r => forall_congr' fun c => update_fits_iff r c

theorem refits_of_same {b' : Board R C} (h : SameKeys b b') :
    Refits b' b'.profile_get_current ↔ Refits b b.profile_get_current := by
  unfold Refits
  rw [h.global, h.key_config, h.keys]

theorem refits_of_released {p : analog_matrix_profile_t R C}
    (h : ∀ r c, (b.analog_key_matrix r c).state = 0) : Refits b p := by
  intro r c
  rw [h]
  unfold state_count
  split
  · decide
  · split <;> decide

end Updates

/-! ## The inputs -/

/-- The keys that a travel command names on the current profile know their
states in the mode that they get. -/
def TravalFits (b : Board R C) (prof_idx mode act_pt sens rls_sens : UInt8) (global : Bool)
    (row : Fin R → UInt32) : Prop :=
  profile_index prof_idx = some b.current_profile_index →
    ¬ (AKM_RAPID < mode ∨ 39 < act_pt ∨ (global = true ∧ mode = AKM_GLOBAL)) → global = false →
      ∀ (r : Fin R) (c : Fin C), (row r).toNat.testBit c = true → (b.analog_key_matrix r c).state <
        state_count (key_mode b.profile_get_current.global
          (set_traval (b.profile_get_current.key_config r c) mode act_pt sens rls_sens))

def AdvModeFits (b : Board R C) (data : Nat → UInt8) : Prop :=
  ∀ row col prof cfg, profile_index (data 0) = some b.current_profile_index →
    key_index R C (data 2) (data 3) = some (row, col) →
      set_adv_mode b.profile_get_current (b.profile_get_current.key_config row col) data =
          some (prof, cfg) →
        (b.analog_key_matrix row col).state < state_count (key_mode prof.global cfg)

def ResetFits (cfg : Config R C) (b : Board R C) (prof_index : UInt8) : Prop :=
  Refits b (if profile_index prof_index = some b.current_profile_index then
    default_profile cfg b.current_profile_index else b.profile_get_current)

/-- A calibration that ends on a sample updates all keys. -/
def SampleFits (b : Board R C) (s : Sample) : Prop :=
  ¬ (s.value.toNat < VALID_ANALOG_RAW_VALUE_MIN ∨ VALID_ANALOG_RAW_VALUE_MAX < s.value.toNat) →
    s.calibrating = false → s.auto ≠ .unfinished → Refits b b.profile_get_current

section Commands

variable {b : Board R C}

theorem profile_select_fits (h : KeysFit b) (x : UInt8) : KeysFit (profile_select b x).2 := by
  unfold profile_select
  rcases profile_index x with _ | i
  · exact h
  · simp only
    split
    · have hclear : KeysFit
          { b with current_profile_index := i }.analog_matrix_clear.update_travel_configs :=
        update_travel_configs_fits_iff.mpr (refits_of_released fun _ _ => rfl)
      exact hclear
    · exact h

theorem profile_set_traval_fits (h : KeysFit b) (x mode act_pt sens rls_sens : UInt8)
    (global : Bool) (row : Fin R → UInt32) :
    KeysFit (profile_set_traval b x mode act_pt sens rls_sens global row).2 ↔
      TravalFits b x mode act_pt sens rls_sens global row := by
  unfold profile_set_traval TravalFits
  rcases hx : profile_index x with _ | i
  · exact iff_of_true h nofun
  simp only
  split
  · rename_i hrej
    exact iff_of_true h fun _ hacc => absurd hrej hacc
  rename_i hacc
  cases global with
  | true => exact iff_of_true h fun _ _ hg => Bool.noConfusion hg
  | false =>
    rw [if_neg Bool.false_ne_true]
    by_cases hi : i = b.current_profile_index
    · subst hi
      rw [if_pos (by rfl)]
      have hall : ∀ p, KeysFit ((b.set_profile b.current_profile_index p).update_key_configs
          fun r c => (row r).toNat.testBit c) ↔ ∀ (r : Fin R) (c : Fin C), (row r).toNat.testBit c = true →
            (b.analog_key_matrix r c).state <
              state_count (key_mode p.global (p.key_config r c)) := fun p => by
        refine forall_congr' fun r => forall_congr' fun c => ?_
        rw [update_fits_iff, set_profile_current]
        split
        · rename_i hsel
          exact ⟨fun hf _ => hf, fun hf => hf hsel⟩
        · rename_i hsel
          exact iff_of_true (h r c) fun hs => absurd hs hsel
      rw [hall]
      refine ⟨fun hc _ _ _ r c hsel => ?_, fun hc r c hsel => ?_⟩
      · have hrow := hc r c hsel
        simp only [if_pos hsel] at hrow
        exact hrow
      · simp only [if_pos hsel]
        exact hc rfl hacc rfl r c hsel
    · rw [if_neg (by exact hi)]
      exact iff_of_true h fun hs => absurd (Option.some.inj hs) hi

theorem profile_set_adv_mode_fits (h : KeysFit b) (data : Nat → UInt8) :
    KeysFit (profile_set_adv_mode b data).2 ↔ AdvModeFits b data := by
  unfold profile_set_adv_mode AdvModeFits
  rcases hx : profile_index (data 0) with _ | i
  · exact iff_of_true h fun _ _ _ _ hs => nomatch hs
  rcases hk : key_index R C (data 2) (data 3) with _ | ⟨row, col⟩
  · exact iff_of_true h fun _ _ _ _ _ hs => nomatch hs
  simp only
  by_cases hi : i = b.current_profile_index
  · subst hi
    rcases hset : set_adv_mode (b.profile b.current_profile_index)
      ((b.profile b.current_profile_index).key_config row col) data with _ | ⟨prof, cfg⟩
    · refine iff_of_true h fun r c prof cfg _ hrc hs => ?_
      cases hrc
      exact nomatch hset.symm.trans hs
    simp only
    rw [if_pos (by rfl)]
    constructor
    · intro hc r c prof' cfg' _ hrc hs
      cases hrc
      cases hset.symm.trans hs
      have hrow := hc row col
      unfold Board.update_key_config at hrow
      rw [update_fits_iff, set_profile_current] at hrow
      simp only [and_self, ite_true] at hrow
      exact hrow
    · intro hc r c
      unfold Board.update_key_config
      rw [update_fits_iff, set_profile_current]
      split
      · rename_i hsel
        obtain ⟨rfl, rfl⟩ := of_decide_eq_true hsel
        simp only [and_self, ite_true]
        exact hc _ _ _ _ trivial rfl hset
      · exact h r c
  · rcases hset : set_adv_mode (b.profile i) ((b.profile i).key_config row col) data with
      _ | ⟨prof, cfg⟩
    · exact iff_of_true h fun _ _ _ _ hs => absurd (Option.some.inj hs) hi
    · simp only
      rw [if_neg (by exact hi)]
      exact iff_of_true h fun _ _ _ _ hs => absurd (Option.some.inj hs) hi

theorem profile_reset_fits (cfg : Config R C) (x : UInt8) :
    KeysFit (profile_reset cfg b x).2.update_travel_configs ↔ ResetFits cfg b x := by
  rw [update_travel_configs_fits_iff]
  unfold profile_reset ResetFits
  rcases hx : profile_index x with _ | i
  · rw [if_neg nofun]
  have hsave := refits_of_same (profile_save_same (b.set_profile i (default_profile cfg i)) x)
  rw [hsave]
  by_cases hi : i = b.current_profile_index
  · subst hi
    rw [set_profile_current, if_pos rfl]
    rfl
  · rw [if_neg fun hs => hi (Option.some.inj hs)]
    exact refits_of_same (set_profile_other _ hi)

/-- The commands that can bring a key into a mode that does not know its
state, each under its condition. -/
structure RxFits (cfg : Config R C) (b : Board R C) (data : Nat → UInt8) : Prop where
  traval : data 1 = AMC_SET_TRAVAL →
    TravalFits b (data 2) (data 3) (data 4) (data 5) (data 6) (data 7 ≠ 0) fun r =>
      if data 7 ≠ 0 then 0 else row_mask data r
  adv_mode : data 1 = AMC_SET_ADVANCE_MODE → AdvModeFits b fun i => data (2 + i)
  reset : data 1 = AMC_RESET_PROFILE → ResetFits cfg b (data 2)

theorem analog_matrix_rx_fits (h : KeysFit b) (cfg : Config R C) (data : Nat → UInt8) :
    KeysFit (analog_matrix_rx cfg b data).2 ↔ (data 0 = 0xA9 → RxFits cfg b data) := by
  unfold analog_matrix_rx
  by_cases hmark : data 0 = 0xA9
  swap
  · rw [if_pos hmark]
    exact iff_of_true h fun hm => absurd hm hmark
  rw [if_neg (not_not.mpr hmark)]
  have hnot : ∀ {x y : UInt8}, data 1 = x → x ≠ y → data 1 ≠ y :=
    fun hx hne hy => hne (hx.symm.trans hy)
  have hfree : ∀ {b' : Board R C}, KeysFit b' → data 1 ≠ AMC_SET_TRAVAL →
      data 1 ≠ AMC_SET_ADVANCE_MODE → data 1 ≠ AMC_RESET_PROFILE →
      (KeysFit b' ↔ (data 0 = 0xA9 → RxFits cfg b data)) :=
    fun hf h1 h2 h3 => iff_of_true hf fun _ => ⟨(absurd · h1), (absurd · h2), (absurd · h3)⟩
  split
  · rename_i hc
    exact hfree (keysFit_of_same (profile_set_name_same _ _ _ _) h) (hnot hc (by decide))
      (hnot hc (by decide)) (hnot hc (by decide))
  split
  · rename_i hc
    exact hfree (profile_select_fits h _) (hnot hc (by decide)) (hnot hc (by decide))
      (hnot hc (by decide))
  split
  · rename_i hc
    have hiff := profile_set_traval_fits h (data 2) (data 3) (data 4) (data 5) (data 6)
      (data 7 ≠ 0) fun r => if data 7 ≠ 0 then 0 else row_mask data r
    simp only [decide_eq_true_eq] at hiff ⊢
    rw [hiff]
    refine ⟨fun hk _ => ⟨fun _ => hk, ?_, ?_⟩, fun hk => (hk hmark).traval hc⟩
    all_goals exact (absurd · (hnot hc (by decide)))
  split
  · rename_i hc
    rw [profile_set_adv_mode_fits h]
    refine ⟨fun hk _ => ⟨?_, fun _ => hk, ?_⟩, fun hk => (hk hmark).adv_mode hc⟩
    all_goals exact (absurd · (hnot hc (by decide)))
  split
  · rename_i hc
    exact hfree (keysFit_of_same (profile_set_socd_same _ _) h) (hnot hc (by decide))
      (hnot hc (by decide)) (hnot hc (by decide))
  split
  · rename_i hc
    rw [profile_reset_fits]
    refine ⟨fun hk _ => ⟨?_, ?_, fun _ => hk⟩, fun hk => (hk hmark).reset hc⟩
    all_goals exact (absurd · (hnot hc (by decide)))
  rename_i h1 h2 h3 h4 h5 h6
  split
  · exact hfree (keysFit_of_same (profile_save_same _ _) h) h3 h4 h6
  split
  · exact hfree (keysFit_of_same (set_curve_same _ _) h) h3 h4 h6
  split
  · exact hfree (keysFit_of_same (mode_set_same _ _) h) h3 h4 h6
  · exact hfree h h3 h4 h6

/-! ## Samples -/

theorem setKey_fits (h : KeysFit b) {row : Fin R} {col : Fin C} {key : analog_key_t}
    (hk : StateFits key) : KeysFit (b.setKey row col key) := by
  intro r c
  change StateFits (if r = row ∧ c = col then key else b.analog_key_matrix r c)
  split
  · exact hk
  · exact h r c

theorem auto_caliration_check_fits (h : KeysFit b) (cfg : Config R C) (row : Fin R) (col : Fin C)
    (auto : AutoCalibration) : KeysFit (auto_caliration_check cfg b row col auto) ↔
      (auto ≠ .unfinished → Refits b b.profile_get_current) := by
  rcases auto_caliration_check_cases cfg b row col auto with ⟨hun, heq⟩ | ⟨hfin, l, hl, heq⟩
  · rw [heq]
    exact iff_of_true h fun hne => absurd hun hne
  · rw [heq, update_travel_configs_fits_iff, refits_of_same hl]
    exact ⟨fun hr _ => hr, fun hr => hr hfin⟩

theorem update_raw_value_strikes (cfg : Config R C) {row : Fin R} {col : Fin C} {s : Sample}
    (hv : ¬ (s.value.toNat < VALID_ANALOG_RAW_VALUE_MIN ∨
      VALID_ANALOG_RAW_VALUE_MAX < s.value.toNat))
    (hc : s.calibrating = false) (ha : s.auto = .unfinished)
    (hd : ¬ (((b.analog_key_matrix row col).last_val.toNat : Int) - s.value.toNat).natAbs < 5)
    (ht : s.travel ≠ (b.analog_key_matrix row col).last_travel) :
    (update_raw_value cfg b row col s).2.analog_key_matrix row col =
      strike b.game_controller_mode b.profile_get_current
        { b.analog_key_matrix row col with last_val := s.value, value := s.value } s.travel := by
  unfold update_raw_value
  simp only [if_neg hv, hc, ha, auto_caliration_check, if_neg hd, if_neg ht, Bool.false_eq_true,
    ite_false, Board.setKey, and_self, ite_true]
  rfl

theorem update_raw_value_fits (h : KeysFit b) (cfg : Config R C) (row : Fin R) (col : Fin C)
    (s : Sample) : KeysFit (update_raw_value cfg b row col s).2 ↔ SampleFits b s := by
  unfold update_raw_value SampleFits
  split
  · rename_i hv
    exact iff_of_true h fun hn => absurd hv hn
  split
  · rename_i hc
    exact iff_of_true (setKey_fits h (h row col)) fun _ hn => by
      rw [hc] at hn
      exact Bool.noConfusion hn
  rename_i hv hc
  have hauto := auto_caliration_check_fits h cfg row col s.auto
  have hcond : (s.auto ≠ .unfinished → Refits b b.profile_get_current) ↔
      (¬ (s.value.toNat < VALID_ANALOG_RAW_VALUE_MIN ∨
        VALID_ANALOG_RAW_VALUE_MAX < s.value.toNat) →
          s.calibrating = false → s.auto ≠ .unfinished → Refits b b.profile_get_current) :=
    ⟨fun hr _ _ => hr, fun hr => hr hv (Bool.not_eq_true _ ▸ hc)⟩
  rw [← hcond, ← hauto]
  simp only
  generalize auto_caliration_check cfg b row col s.auto = b'
  -- The handler keeps the key in its states, and touches no other key.
  have hback : ∀ key : analog_key_t, (StateFits (b'.analog_key_matrix row col) ↔ StateFits key) →
      (KeysFit (b'.setKey row col key) ↔ KeysFit b') := fun key hiff => by
    refine ⟨fun hf r c => ?_, fun hf => setKey_fits hf (hiff.mp (hf row col))⟩
    have hrc := hf r c
    unfold Board.setKey at hrc
    simp only at hrc
    split at hrc
    · rename_i heq
      obtain ⟨rfl, rfl⟩ := heq
      exact hiff.mpr hrc
    · exact hrc
  split
  · rfl
  split
  · exact hback _ Iff.rfl
  · exact hback _ (strike_fits_iff
      { b'.analog_key_matrix row col with last_val := s.value, value := s.value } s.travel).symm

end Commands

/-! ## Runs -/

/-- The input gives no key a mode that does not know the key's state. -/
def Fits (cfg : Config R C) (b : Board R C) : Input R C → Prop
  | .rx data => data 0 = 0xA9 → RxFits cfg b data
  | .select _ => True
  | .sample _ _ s => SampleFits b s
  | .calibration => Refits b b.profile_get_current

theorem save_calibration_values_fits (cfg : Config R C) (b : Board R C) :
    KeysFit (save_calibration_values cfg b) ↔ Refits b b.profile_get_current := by
  obtain ⟨l, hl, heq⟩ := save_calibration_values_eq_update cfg b
  rw [heq, update_travel_configs_fits_iff]
  exact refits_of_same hl

theorem react_fits {b : Board R C} (h : KeysFit b) (cfg : Config R C) (x : Input R C) :
    KeysFit (react cfg b x) ↔ Fits cfg b x := by
  cases x with
  | rx data => exact analog_matrix_rx_fits h cfg data
  | select prof_idx => exact iff_of_true (profile_select_fits h prof_idx) trivial
  | sample row col s => exact update_raw_value_fits h cfg row col s
  | calibration => exact save_calibration_values_fits cfg b

theorem power_cycle_fits (cfg : Config R C) (b : Board R C) : KeysFit (power_cycle cfg b) := by
  obtain ⟨l, hl, -, hzero⟩ := power_cycle_eq_update cfg b
  rw [hl, update_travel_configs_fits_iff]
  exact refits_of_released fun r c => congrArg analog_key_t.state (hzero r c)

def firstKeySample (value : UInt16) (travel : UInt8) : Input 6 15 :=
  .sample ⟨0, Nat.succ_pos 5⟩ ⟨0, Nat.succ_pos 14⟩ ⟨value, travel, false, .unfinished⟩

end keychron_qmk.analog_matrix
