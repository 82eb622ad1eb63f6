-- The byte that the handlers of the advanced modes take for an index: what
-- `update_key_config` leaves in it, after every input and for every key.
import KeychronQMK.AnalogMatrix.Coherence

namespace keychron_qmk.analog_matrix

open runs

variable {R C : Nat}

/-! ## One key -/

/-- The handler of the key finds its entry: an OKMC setting, or the axis or
button that the key is configured for. -/
structure KeyValid (key : analog_key_t) (cfg : analog_key_config_t) : Prop where
  dks : key.mode = AKM_DKS → key.rpd_trig_sen.toNat < OKMC_COUNT
  gamepad : key.mode = AKM_GAMEPAD → u8 cfg.adv_mode = AKM_GAMEPAD ∧
    key.rpd_trig_sen = cfg.adv_mode_data ∧ cfg.adv_mode_data < GC_BUTTON_MAX ∧
    cfg.adv_mode_data ≠ GC_MAX

theorem KeyValid.of_same {k k' : analog_key_t} {cfg : analog_key_config_t} (h : KeyValid k' cfg)
    (hs : SameConfig k k') : KeyValid k cfg := by
  refine ⟨fun hm => ?_, fun hm => ?_⟩
  · have hm' : k'.mode = AKM_DKS := hs.mode.symm.trans hm
    rw [hs.data (by rw [hm']; decide)]
    exact h.dks hm'
  · have hm' : k'.mode = AKM_GAMEPAD := hs.mode.symm.trans hm
    rw [hs.data (by rw [hm']; decide)]
    exact h.gamepad hm'

section Key

variable {global cfg : analog_key_config_t}

/-- Where no valid advanced mode fills the byte, it holds the sensitivity,
and the mode of the key must not find a wrong index in it. -/
structure ValidConfig (global cfg : analog_key_config_t) : Prop where
  gamepad : adv_data cfg = none → u8 cfg.adv_mode ≠ AKM_GAMEPAD
  dks : adv_data cfg = none →
    u8 cfg.adv_mode = AKM_DKS ∨ cfg.adv_mode = 0 ∧ basic_mode global cfg = AKM_DKS →
      (key_sen global cfg * TRAVEL_SCALE).toNat < OKMC_COUNT

theorem adv_mode_ne_zero {x : UInt8} (h : u8 cfg.adv_mode = x) (hx : x ≠ 0) : cfg.adv_mode ≠ 0 := by
  intro hz
  rw [hz] at h
  exact hx h.symm

theorem adv_data_some (global : analog_key_config_t) {x : UInt8} (h : adv_data cfg = some x) :
    key_mode global cfg = u8 cfg.adv_mode ∧
      (u8 cfg.adv_mode = AKM_DKS → x.toNat < OKMC_COUNT) ∧
      (u8 cfg.adv_mode = AKM_GAMEPAD →
        x = cfg.adv_mode_data ∧ x < GC_BUTTON_MAX ∧ x ≠ GC_MAX) := by
  have hmode : ∀ {y : UInt8}, u8 cfg.adv_mode = y → y ≠ 0 →
      key_mode global cfg = u8 cfg.adv_mode := fun hy hne => by
    rw [key_mode, if_pos (adv_mode_ne_zero hy hne)]
  unfold adv_data at h
  split at h
  · rename_i hd
    cases h
    refine ⟨hmode hd.1 (by decide), fun _ => hd.2, fun hg => ?_⟩
    exact absurd (hd.1.symm.trans hg) (by decide)
  split at h
  · rename_i hg
    cases h
    refine ⟨hmode hg.1 (by decide), fun hd => ?_, fun _ => ⟨rfl, hg.2⟩⟩
    exact absurd (hg.1.symm.trans hd) (by decide)
  split at h
  · rename_i ht
    cases h
    refine ⟨hmode ht (by decide), fun hd => ?_, fun hg => ?_⟩
    · exact absurd (ht.symm.trans hd) (by decide)
    · exact absurd (ht.symm.trans hg) (by decide)
  · cases h

theorem key_mode_eq_dks : key_mode global cfg = AKM_DKS ↔
    u8 cfg.adv_mode = AKM_DKS ∨ cfg.adv_mode = 0 ∧ basic_mode global cfg = AKM_DKS := by
  unfold key_mode
  by_cases hz : cfg.adv_mode = 0
  · rw [if_neg (not_not.mpr hz)]
    refine ⟨fun h => .inr ⟨hz, h⟩, fun h => ?_⟩
    rcases h with h | ⟨-, h⟩
    · exact absurd hz (adv_mode_ne_zero h (by decide))
    · exact h
  · rw [if_pos hz]
    refine ⟨.inl, fun h => ?_⟩
    rcases h with h | ⟨h, -⟩
    · exact h
    · exact absurd h hz

theorem key_mode_eq_gamepad :
    key_mode global cfg = AKM_GAMEPAD ↔ u8 cfg.adv_mode = AKM_GAMEPAD := by
  unfold key_mode
  by_cases hz : cfg.adv_mode = 0
  · rw [if_neg (not_not.mpr hz)]
    refine iff_of_false (basic_mode_ne_gamepad global cfg) fun h => ?_
    exact absurd hz (adv_mode_ne_zero h (by decide))
  · rw [if_pos hz]

theorem configured_valid_iff (key : analog_key_t) :
    KeyValid (configured_key global cfg key) (settled_config cfg) ↔ ValidConfig global cfg := by
  rcases hadv : adv_data cfg with _ | x
  · have hkey : (configured_key global cfg key).rpd_trig_sen =
        key_sen global cfg * TRAVEL_SCALE := by
      simp only [configured_key, hadv, Option.getD_none]
    constructor
    · intro h
      refine ⟨fun _ hg => ?_, fun _ hd => ?_⟩
      · obtain ⟨hcleared, -⟩ := h.gamepad (key_mode_eq_gamepad.mpr hg)
        rw [settled_config, if_pos hadv] at hcleared
        change u8 (0 : BitVec 4) = AKM_GAMEPAD at hcleared
        exact absurd hcleared (by decide)
      · rw [← hkey]
        exact h.dks (key_mode_eq_dks.mpr hd)
    · intro h
      refine ⟨fun hd => ?_, fun hg => ?_⟩
      · rw [hkey]
        exact h.dks hadv (key_mode_eq_dks.mp hd)
      · exact absurd (key_mode_eq_gamepad.mp hg) (h.gamepad hadv)
  · obtain ⟨hmode, hdks, hgamepad⟩ := adv_data_some global hadv
    have hkey : (configured_key global cfg key).rpd_trig_sen = x := by
      simp only [configured_key, hadv, Option.getD_some]
    have hsettled : settled_config cfg = cfg := by
      rw [settled_config, if_neg (by rw [hadv]; exact Option.some_ne_none x)]
    have hnone : adv_data cfg ≠ none := by
      rw [hadv]
      exact Option.some_ne_none x
    refine iff_of_true ⟨fun hd => ?_, fun hg => ?_⟩
      ⟨fun hn => absurd hn hnone, fun hn => absurd hn hnone⟩
    · rw [hkey]
      exact hdks (hmode.symm.trans hd)
    · have hg' : u8 cfg.adv_mode = AKM_GAMEPAD := hmode.symm.trans hg
      obtain ⟨hx, hlt, hne⟩ := hgamepad hg'
      rw [hkey, hsettled, ← hx]
      exact ⟨hg', rfl, hlt, hne⟩

end Key

/-! ## What an input configures -/

/-- A key of the board after an input: as it was, or as `update_key_config`
makes it from a global configuration and its own. -/
def Configured (b b' : Board R C) (r : Fin R) (c : Fin C) :
    Option (analog_key_config_t × analog_key_config_t) → Prop
  | none => b'.profile_get_current.key_config r c = b.profile_get_current.key_config r c ∧
      SameConfig (b'.analog_key_matrix r c) (b.analog_key_matrix r c)
  | some (global, cfg) => b'.profile_get_current.key_config r c = settled_config cfg ∧
      SameConfig (b'.analog_key_matrix r c) (configured_key global cfg (b.analog_key_matrix r c))

def configs (p : analog_matrix_profile_t R C) (r : Fin R) (c : Fin C) :
    analog_key_config_t × analog_key_config_t := (p.global, p.key_config r c)

section Reads

variable (b : Board R C) (r : Fin R) (c : Fin C)

/-! For each command, the configurations from which it updates a key. -/

def select_reads (prof_idx : UInt8) : Option (analog_key_config_t × analog_key_config_t) :=
  match profile_index prof_idx with
  | none => none
  | some i => if i ≠ b.current_profile_index then some (configs (b.profile i) r c) else none

def traval_reads (prof_idx mode act_pt sens rls_sens : UInt8) (global : Bool)
    (row : Fin R → UInt32) : Option (analog_key_config_t × analog_key_config_t) :=
  if profile_index prof_idx = some b.current_profile_index ∧ mode ≤ AKM_RAPID ∧ act_pt ≤ 39 ∧
      global = false ∧ (row r).toNat.testBit c then
    some (b.profile_get_current.global,
      set_traval (b.profile_get_current.key_config r c) mode act_pt sens rls_sens)
  else none

def adv_mode_reads (data : Nat → UInt8) : Option (analog_key_config_t × analog_key_config_t) :=
  if profile_index (data 0) = some b.current_profile_index ∧
      key_index R C (data 2) (data 3) = some (r, c) then
    (set_adv_mode b.profile_get_current (b.profile_get_current.key_config r c) data).map
      fun p => (p.1.global, p.2)
  else none

def reset_reads (cfg : Config R C) (prof_idx : UInt8) :
    Option (analog_key_config_t × analog_key_config_t) :=
  some (configs (if profile_index prof_idx = some b.current_profile_index then
    default_profile cfg b.current_profile_index else b.profile_get_current) r c)

def rx_reads (cfg : Config R C) (data : Nat → UInt8) :
    Option (analog_key_config_t × analog_key_config_t) :=
  if data 0 ≠ 0xA9 then none
  else if data 1 = AMC_SELECT_PROFILE then select_reads b r c (data 2)
  else if data 1 = AMC_SET_TRAVAL then
    let entire : Bool := data 7 ≠ 0
    traval_reads b r c (data 2) (data 3) (data 4) (data 5) (data 6) entire fun r =>
      if entire then 0 else row_mask data r
  else if data 1 = AMC_SET_ADVANCE_MODE then adv_mode_reads b r c fun i => data (2 + i)
  else if data 1 = AMC_RESET_PROFILE then reset_reads b r c cfg (data 2)
  else none

/-- A calibration that ends on a sample updates all keys. -/
def auto_reads : AutoCalibration → Option (analog_key_config_t × analog_key_config_t)
  | .unfinished => none
  | .adjusted | .saved _ => some (configs b.profile_get_current r c)

def sample_reads (s : Sample) : Option (analog_key_config_t × analog_key_config_t) :=
  if s.value.toNat < VALID_ANALOG_RAW_VALUE_MIN ∨ VALID_ANALOG_RAW_VALUE_MAX < s.value.toNat ∨
      s.calibrating then none
  else auto_reads b r c s.auto

def reads (cfg : Config R C) : Input R C → Option (analog_key_config_t × analog_key_config_t)
  | .rx data => rx_reads b r c cfg data
  | .select prof_idx => select_reads b r c prof_idx
  | .sample _ _ s => sample_reads b r c s
  | .calibration => some (configs b.profile_get_current r c)

end Reads

section Commands

variable {b : Board R C} {r : Fin R} {c : Fin C}

variable {b' l : Board R C}

theorem Configured.of_same (h : SameKeys b b') : Configured b b' r c none :=
  ⟨by rw [h.key_config], by rw [h.keys]; exact .refl _⟩

variable {o : Option (analog_key_config_t × analog_key_config_t)}

theorem Configured.after (h : Configured b l r c o) (hs : SameKeys l b') :
    Configured b b' r c o := by
  cases o with
  | none => exact ⟨by rw [hs.key_config]; exact h.1, by rw [hs.keys]; exact h.2⟩
  | some p => exact ⟨by rw [hs.key_config]; exact h.1, by rw [hs.keys]; exact h.2⟩

theorem update_configured (sel : Fin R → Fin C → Bool) (hsel : sel r c = true) :
    Configured b (l.update_key_configs sel) r c (some (configs l.profile_get_current r c)) := by
  refine ⟨?_, ?_⟩
  · rw [update_key_configs_current]
    simp only [hsel, ite_true]
  · rw [update_key_configs_keys, if_pos hsel]
    exact configured_key_same _ _

theorem update_left {sel : Fin R → Fin C → Bool} (hsel : sel r c = false)
    (hcfg : l.profile_get_current.key_config r c = b.profile_get_current.key_config r c)
    (hkey : l.analog_key_matrix r c = b.analog_key_matrix r c) :
    Configured b (l.update_key_configs sel) r c none := by
  refine ⟨?_, ?_⟩
  · rw [update_key_configs_current]
    simp only [hsel, Bool.false_eq_true, ite_false]
    exact hcfg
  · rw [update_key_configs_keys, if_neg (by rw [hsel]; exact Bool.false_ne_true), hkey]
    exact .refl _

theorem profile_select_configured (x : UInt8) :
    Configured b (profile_select b x).2 r c (select_reads b r c x) := by
  unfold profile_select select_reads
  rcases profile_index x with _ | i
  · exact .of_same (.refl b)
  simp only
  split
  · have hup : Configured b
        { b with current_profile_index := i }.analog_matrix_clear.update_travel_configs r c
        (some (configs (b.profile i) r c)) := update_configured _ rfl
    exact hup.after ⟨rfl, rfl, rfl⟩
  · exact .of_same (.refl b)

theorem profile_set_traval_configured (x mode act_pt sens rls_sens : UInt8) (global : Bool)
    (row : Fin R → UInt32) :
    Configured b (profile_set_traval b x mode act_pt sens rls_sens global row).2 r c
      (traval_reads b r c x mode act_pt sens rls_sens global row) := by
  unfold profile_set_traval traval_reads
  rcases hx : profile_index x with _ | i
  · rw [if_neg fun h => absurd h.1 (Option.some_ne_none _).symm]
    exact .of_same (.refl b)
  simp only
  split
  · rename_i hrej
    rw [if_neg]
    · exact .of_same (.refl b)
    · rintro ⟨-, hmode, hact, hglobal, -⟩
      rcases hrej with h | h | h
      · exact UInt8.not_le.mpr h hmode
      · exact UInt8.not_le.mpr h hact
      · exact absurd (hglobal.symm.trans h.1) (by decide)
  rename_i hacc
  cases global with
  | true =>
    rw [if_pos rfl, if_neg fun h => Bool.noConfusion h.2.2.2.1]
    by_cases hi : i = b.current_profile_index
    · subst hi
      exact ⟨by rw [set_profile_current]; rfl, .refl _⟩
    · exact .of_same (set_profile_other _ hi)
  | false =>
    rw [if_neg Bool.false_ne_true]
    by_cases hi : i = b.current_profile_index
    · subst hi
      have hmode : mode ≤ AKM_RAPID := UInt8.not_lt.mp fun h => hacc (.inl h)
      have hact : act_pt ≤ 39 := UInt8.not_lt.mp fun h => hacc (.inr (.inl h))
      rw [if_pos (by rfl)]
      by_cases hsel : (row r).toNat.testBit c = true
      · rw [if_pos ⟨rfl, hmode, hact, rfl, hsel⟩]
        have hup := update_configured (b := b) (r := r) (c := c)
          (l := b.set_profile b.current_profile_index
            { b.profile b.current_profile_index with
              key_config := fun r c =>
                if (row r).toNat.testBit c then
                  set_traval ((b.profile b.current_profile_index).key_config r c) mode act_pt sens
                    rls_sens
                else (b.profile b.current_profile_index).key_config r c })
          (fun r c => (row r).toNat.testBit c) hsel
        rw [set_profile_current] at hup
        simp only [configs, if_pos hsel] at hup
        exact hup
      · rw [if_neg fun h => hsel h.2.2.2.2]
        refine update_left (Bool.not_eq_true _ ▸ hsel) ?_ rfl
        rw [set_profile_current]
        simp only [if_neg hsel]
        rfl
    · rw [if_neg (by exact hi), if_neg fun h => hi (Option.some.inj h.1)]
      exact .of_same (set_profile_other _ hi)

theorem profile_set_adv_mode_configured (data : Nat → UInt8) :
    Configured b (profile_set_adv_mode b data).2 r c (adv_mode_reads b r c data) := by
  unfold profile_set_adv_mode adv_mode_reads
  rcases hx : profile_index (data 0) with _ | i
  · rw [if_neg fun h => absurd h.1 (Option.some_ne_none _).symm]
    exact .of_same (.refl b)
  rcases hk : key_index R C (data 2) (data 3) with _ | ⟨row, col⟩
  · rw [if_neg fun h => absurd h.2 (Option.some_ne_none _).symm]
    exact .of_same (.refl b)
  simp only
  by_cases hi : i = b.current_profile_index
  swap
  · have hno : ¬ (some i = some b.current_profile_index ∧ some (row, col) = some (r, c)) :=
      fun h => hi (Option.some.inj h.1)
    rw [if_neg hno]
    rcases hset : set_adv_mode (b.profile i) ((b.profile i).key_config row col) data with
      _ | ⟨prof, cfg⟩
    · exact .of_same (.refl b)
    · simp only
      rw [if_neg (by exact hi)]
      exact .of_same (set_profile_other _ hi)
  subst hi
  rcases hset : set_adv_mode (b.profile b.current_profile_index)
    ((b.profile b.current_profile_index).key_config row col) data with _ | ⟨prof, cfg⟩
  · simp only
    split
    · rename_i hrc
      cases hrc.2
      rw [Board.profile_get_current, hset]
      exact .of_same (.refl b)
    · exact .of_same (.refl b)
  simp only
  rw [if_pos (by rfl)]
  by_cases hrc : r = row ∧ c = col
  · obtain ⟨rfl, rfl⟩ := hrc
    have hup := update_configured (b := b) (r := r) (c := c)
      (l := b.set_profile b.current_profile_index { prof with
        key_config := fun r' c' => if r' = r ∧ c' = c then cfg else prof.key_config r' c' })
      (fun r' c' => r' = r ∧ c' = c) (by simp)
    rw [set_profile_current] at hup
    simp only [configs, and_self, ite_true] at hup
    rw [if_pos ⟨trivial, rfl⟩, Board.profile_get_current, hset]
    exact hup
  · have hne : ¬ (some (row, col) = some (r, c)) := by
      intro h
      cases h
      exact hrc ⟨rfl, rfl⟩
    rw [if_neg fun h => hne h.2]
    refine update_left (decide_eq_false hrc) ?_ rfl
    rw [set_profile_current]
    simp only [if_neg hrc]
    rw [(set_adv_mode_profile hset).2]
    rfl

theorem profile_reset_configured (cfg : Config R C) (x : UInt8) :
    Configured b (profile_reset cfg b x).2.update_travel_configs r c (reset_reads b r c cfg x) := by
  unfold profile_reset reset_reads
  rcases hx : profile_index x with _ | i
  · rw [if_neg fun h => absurd h (Option.some_ne_none _).symm]
    exact update_configured _ rfl
  have hsave := profile_save_same (b.set_profile i (default_profile cfg i)) x
  have hup := update_configured (b := b) (r := r) (c := c)
    (l := (profile_save (b.set_profile i (default_profile cfg i)) x).2) (fun _ _ => true) rfl
  rw [configs, hsave.global, hsave.key_config] at hup
  by_cases hi : i = b.current_profile_index
  · subst hi
    rw [set_profile_current] at hup
    rw [if_pos rfl]
    exact hup
  · have hother := set_profile_other (default_profile cfg i) hi
    rw [hother.global, hother.key_config] at hup
    rw [if_neg fun h => hi (Option.some.inj h)]
    exact hup

theorem analog_matrix_rx_configured (cfg : Config R C) (data : Nat → UInt8) :
    Configured b (analog_matrix_rx cfg b data).2 r c (rx_reads b r c cfg data) := by
  unfold analog_matrix_rx rx_reads
  by_cases hmark : data 0 = 0xA9
  swap
  · rw [if_pos hmark, if_pos hmark]
    exact .of_same (.refl b)
  rw [if_neg (not_not.mpr hmark), if_neg (not_not.mpr hmark)]
  -- A command that is none of the four updates no key.
  have hfree : ∀ {b' : Board R C}, SameKeys b b' → data 1 ≠ AMC_SELECT_PROFILE →
      data 1 ≠ AMC_SET_TRAVAL → data 1 ≠ AMC_SET_ADVANCE_MODE → data 1 ≠ AMC_RESET_PROFILE →
      Configured b b' r c (if data 1 = AMC_SELECT_PROFILE then select_reads b r c (data 2)
        else if data 1 = AMC_SET_TRAVAL then
          traval_reads b r c (data 2) (data 3) (data 4) (data 5) (data 6) (data 7 ≠ 0) fun r =>
            if decide (data 7 ≠ 0) = true then 0 else row_mask data r
        else if data 1 = AMC_SET_ADVANCE_MODE then adv_mode_reads b r c fun i => data (2 + i)
        else if data 1 = AMC_RESET_PROFILE then reset_reads b r c cfg (data 2)
        else none) := fun hs h1 h2 h3 h4 => by
    rw [if_neg h1, if_neg h2, if_neg h3, if_neg h4]
    exact .of_same hs
  have hnot : ∀ {x y : UInt8}, data 1 = x → x ≠ y → data 1 ≠ y :=
    fun hx hne hy => hne (hx.symm.trans hy)
  by_cases hname : data 1 = AMC_SET_PROFILE_NAME
  · rw [if_pos hname]
    exact hfree (profile_set_name_same _ _ _ _) (hnot hname (by decide)) (hnot hname (by decide))
      (hnot hname (by decide)) (hnot hname (by decide))
  rw [if_neg hname]
  by_cases hselect : data 1 = AMC_SELECT_PROFILE
  · rw [if_pos hselect, if_pos hselect]
    exact profile_select_configured _
  rw [if_neg hselect]
  by_cases htraval : data 1 = AMC_SET_TRAVAL
  · rw [if_pos htraval, if_neg hselect, if_pos htraval]
    exact profile_set_traval_configured _ _ _ _ _ _ _
  rw [if_neg htraval]
  by_cases hadv : data 1 = AMC_SET_ADVANCE_MODE
  · rw [if_pos hadv, if_neg hselect, if_neg htraval, if_pos hadv]
    exact profile_set_adv_mode_configured _
  rw [if_neg hadv]
  by_cases hsocd : data 1 = AMC_SET_SOCD
  · rw [if_pos hsocd]
    exact hfree (profile_set_socd_same _ _) hselect htraval hadv (hnot hsocd (by decide))
  rw [if_neg hsocd]
  by_cases hreset : data 1 = AMC_RESET_PROFILE
  · rw [if_pos hreset, if_neg hselect, if_neg htraval, if_neg hadv, if_pos hreset]
    exact profile_reset_configured cfg _
  rw [if_neg hreset]
  split
  · exact .of_same (profile_save_same _ _)
  split
  · exact .of_same (set_curve_same _ _)
  split
  · exact .of_same (mode_set_same _ _)
  · exact .of_same (.refl b)

/-! ## Samples -/

theorem Configured.setKey (h : Configured b l r c o) {row : Fin R} {col : Fin C}
    {key : analog_key_t} (hk : SameConfig key (l.analog_key_matrix row col)) :
    Configured b (l.setKey row col key) r c o := by
  have hkey : SameConfig ((l.setKey row col key).analog_key_matrix r c)
      (l.analog_key_matrix r c) := by
    change SameConfig (if r = row ∧ c = col then key else l.analog_key_matrix r c) _
    split
    · rename_i hrc
      obtain ⟨rfl, rfl⟩ := hrc
      exact hk
    · exact .refl _
  cases o with
  | none => exact ⟨h.1, hkey.trans h.2⟩
  | some p => exact ⟨h.1, hkey.trans h.2⟩

theorem auto_caliration_check_configured (cfg : Config R C) (row : Fin R) (col : Fin C)
    (auto : AutoCalibration) :
    Configured b (auto_caliration_check cfg b row col auto) r c (auto_reads b r c auto) := by
  rcases auto_caliration_check_cases cfg b row col auto with ⟨rfl, heq⟩ | ⟨hfin, l, hl, heq⟩
  · rw [heq]
    exact .of_same (.refl b)
  · have hup := update_configured (b := b) (r := r) (c := c) (l := l) (fun _ _ => true) rfl
    rw [configs, hl.global, hl.key_config] at hup
    rw [heq]
    cases auto with
    | unfinished => exact absurd rfl hfin
    | adjusted | saved v => exact hup

theorem update_raw_value_configured (cfg : Config R C) (row : Fin R) (col : Fin C) (s : Sample) :
    Configured b (update_raw_value cfg b row col s).2 r c (sample_reads b r c s) := by
  unfold update_raw_value sample_reads
  split
  · rename_i hv
    rw [if_pos (hv.imp_right .inl)]
    exact .of_same (.refl b)
  rename_i hv
  split
  · rename_i hc
    rw [if_pos (.inr (.inr hc))]
    exact (Configured.of_same (.refl b)).setKey ⟨rfl, rfl, fun _ => rfl, rfl⟩
  rename_i hc
  have hno : ¬ (s.value.toNat < VALID_ANALOG_RAW_VALUE_MIN ∨
      VALID_ANALOG_RAW_VALUE_MAX < s.value.toNat ∨ s.calibrating = true) := by
    rintro (h | h | h)
    · exact hv (.inl h)
    · exact hv (.inr h)
    · exact hc h
  have hauto := auto_caliration_check_configured (b := b) (r := r) (c := c) cfg row col s.auto
  simp only
  split
  · exact hauto
  split
  · exact hauto.setKey ⟨rfl, rfl, fun _ => rfl, rfl⟩
  · refine hauto.setKey ((key_action_same _ _ _).trans ?_)
    exact ⟨rfl, rfl, fun _ => rfl, rfl⟩

theorem save_calibration_values_configured (cfg : Config R C) :
    Configured b (save_calibration_values cfg b) r c (some (configs b.profile_get_current r c)) := by
  obtain ⟨l, hl, heq⟩ := save_calibration_values_eq_update cfg b
  have hup := update_configured (b := b) (r := r) (c := c) (l := l) (fun _ _ => true) rfl
  rw [configs, hl.global, hl.key_config] at hup
  rw [heq]
  exact hup

theorem react_configured (cfg : Config R C) (b : Board R C) (x : Input R C) (r : Fin R)
    (c : Fin C) : Configured b (react cfg b x) r c (reads b r c cfg x) := by
  cases x with
  | rx data => exact analog_matrix_rx_configured cfg data
  | select prof_idx => exact profile_select_configured prof_idx
  | sample row col s => exact update_raw_value_configured cfg row col s
  | calibration => exact save_calibration_values_configured cfg

end Commands

/-! ## Runs -/

def IndicesValid (b : Board R C) : Prop :=
  ∀ r c, KeyValid (b.analog_key_matrix r c) (b.profile_get_current.key_config r c)

def ReadsValid (cfg : Config R C) (b : Board R C) (x : Input R C) : Prop :=
  ∀ r c, ∀ p ∈ reads b r c cfg x, ValidConfig p.1 p.2

def LoadsValid (cfg : Config R C) (b : Board R C) : Prop :=
  ∀ r c, ValidConfig (loaded_current cfg b).global ((loaded_current cfg b).key_config r c)

theorem configured_key_valid_iff {b b' : Board R C} (h : IndicesValid b) {r : Fin R} {c : Fin C}
    {o : Option (analog_key_config_t × analog_key_config_t)} (hc : Configured b b' r c o) :
    KeyValid (b'.analog_key_matrix r c) (b'.profile_get_current.key_config r c) ↔
      ∀ p ∈ o, ValidConfig p.1 p.2 := by
  cases o with
  | none =>
    rw [hc.1]
    exact iff_of_true ((h r c).of_same hc.2) fun p hp => nomatch hp
  | some p =>
    obtain ⟨global, cfg⟩ := p
    rw [hc.1]
    have hsame : KeyValid (b'.analog_key_matrix r c) (settled_config cfg) ↔
        KeyValid (configured_key global cfg (b.analog_key_matrix r c)) (settled_config cfg) :=
      ⟨fun hv => hv.of_same hc.2.symm, fun hv => hv.of_same hc.2⟩
    rw [hsame, configured_valid_iff]
    simp only [Option.mem_def, Option.some.injEq, forall_eq']

theorem react_valid_iff {b : Board R C} (h : IndicesValid b) (cfg : Config R C) (x : Input R C) :
    IndicesValid (react cfg b x) ↔ ReadsValid cfg b x :=
  forall_congr' fun r => forall_congr' fun c =>
    configured_key_valid_iff h (react_configured cfg b x r c)

theorem power_cycle_valid_iff (cfg : Config R C) (b : Board R C) :
    IndicesValid (power_cycle cfg b) ↔ LoadsValid cfg b := by
  obtain ⟨l, hl, hcur, -⟩ := power_cycle_eq_update cfg b
  refine forall_congr' fun r => forall_congr' fun c => ?_
  rw [hl, Board.update_travel_configs, update_key_configs_current, update_key_configs_keys,
    if_pos rfl, hcur]
  exact configured_valid_iff _

/-- After every power-up, from any contents of the EEPROM, and in every run
from it the handlers find their entries exactly when every configuration
that reaches `update_key_config` is valid. -/
theorem the_indices_are_valid_as_configured (cfg : Config R C) (b : Board R C)
    (inputs : List (Input R C)) :
    (IndicesValid (power_cycle cfg b) ∧
      Along (react cfg) (fun b x => IndicesValid (react cfg b x)) (power_cycle cfg b) inputs) ↔
    LoadsValid cfg b ∧ Along (react cfg) (ReadsValid cfg) (power_cycle cfg b) inputs := by
  rw [← power_cycle_valid_iff]
  refine and_congr_right fun h => ?_
  exact Along.iff (I := IndicesValid) (fun _ x hi => (react_valid_iff hi cfg x).symm)
    (fun _ _ _ hv => hv) h

/-- The host asks for the axis behind the last one. The profile forgets the
mode at once, and the key goes on with the sensitivity 24 for its axis. -/
theorem a_refused_axis_leaves_the_sensitivity : ¬ ∀ inputs : List (Input 6 15),
    Along (react sixRows) (fun b x => IndicesValid (react sixRows b x)) sixRowsBoard inputs := by
  intro h
  obtain ⟨hv, -⟩ := h [.rx (packet [0xA9, AMC_SET_ADVANCE_MODE, 0, ADV_MODE_GAME_CONTROLLER, 0, 0,
    GC_MAX])]
  have hmode : ((react sixRows sixRowsBoard (.rx (packet [0xA9, AMC_SET_ADVANCE_MODE, 0,
      ADV_MODE_GAME_CONTROLLER, 0, 0, GC_MAX]))).analog_key_matrix 0 0).mode = AKM_GAMEPAD := by
    decide +kernel
  obtain ⟨hcleared, -⟩ := (hv 0 0).gamepad hmode
  revert hcleared
  decide +kernel

end keychron_qmk.analog_matrix
