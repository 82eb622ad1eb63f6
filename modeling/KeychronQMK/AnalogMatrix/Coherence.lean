-- The runtime configuration of the keys against the current profile: each
-- input keeps them together, but for a change of the global configuration
-- and an advanced mode that `update_key_config` clears.
import KeychronQMK.AnalogMatrix.Actions
import KeychronQMK.AnalogMatrix.Persistence

namespace keychron_qmk.analog_matrix

open layout runs

variable {R C : Nat}

/-! ## One key -/

/-- The two keys have one runtime configuration. In toggle mode the byte of
the sensitivity is the hold of the key, and no configuration. -/
structure SameConfig (k k' : analog_key_t) : Prop where
  mode : k.mode = k'.mode
  regular : k.regular = k'.regular
  data : k'.mode ≠ AKM_TOGGLE → k.rpd_trig_sen = k'.rpd_trig_sen
  sen_rls : k.rpd_trig_sen_rls = k'.rpd_trig_sen_rls

instance (k k' : analog_key_t) : Decidable (SameConfig k k') :=
  decidable_of_iff (k.mode = k'.mode ∧ k.regular = k'.regular ∧
      (k'.mode ≠ AKM_TOGGLE → k.rpd_trig_sen = k'.rpd_trig_sen) ∧
      k.rpd_trig_sen_rls = k'.rpd_trig_sen_rls)
    ⟨fun h => ⟨h.1, h.2.1, h.2.2.1, h.2.2.2⟩, fun h => ⟨h.mode, h.regular, h.data, h.sen_rls⟩⟩

theorem SameConfig.refl (k : analog_key_t) : SameConfig k k := ⟨rfl, rfl, fun _ => rfl, rfl⟩

theorem SameConfig.symm {k k' : analog_key_t} (h : SameConfig k k') : SameConfig k' k :=
  ⟨h.mode.symm, h.regular.symm, fun hm => (h.data (h.mode ▸ hm)).symm, h.sen_rls.symm⟩

theorem SameConfig.trans {k k' k'' : analog_key_t} (h : SameConfig k k')
    (h' : SameConfig k' k'') : SameConfig k k'' :=
  ⟨h.mode.trans h'.mode, h.regular.trans h'.regular,
    fun hm => (h.data (h'.mode ▸ hm)).trans (h'.data hm), h.sen_rls.trans h'.sen_rls⟩

section Key

variable {global global' cfg : analog_key_config_t}

theorem configured_key_same (k k' : analog_key_t) :
    SameConfig (configured_key global cfg k) (configured_key global cfg k') :=
  ⟨rfl, rfl, fun _ => rfl, rfl⟩

/-- `update_key_config` leaves the advanced mode, or the mode it clears is
also the basic one. -/
def ClearsNothing (global cfg : analog_key_config_t) : Prop :=
  adv_data cfg = none → cfg.adv_mode ≠ 0 → u8 cfg.adv_mode = basic_mode global cfg

instance (global cfg : analog_key_config_t) : Decidable (ClearsNothing global cfg) :=
  inferInstanceAs (Decidable (adv_data cfg = none → cfg.adv_mode ≠ 0 →
    u8 cfg.adv_mode = basic_mode global cfg))

theorem adv_data_zero (cfg : analog_key_config_t) : adv_data { cfg with adv_mode := 0 } = none := by
  have h : ∀ x : UInt8, x ≠ 0 → u8 (0 : BitVec 4) ≠ x := fun x hx h => hx h.symm
  unfold adv_data
  rw [if_neg fun hc => h _ (by decide) hc.1, if_neg fun hc => h _ (by decide) hc.1,
    if_neg fun hc => h _ (by decide) hc]

theorem settled_config_idem (cfg : analog_key_config_t) :
    settled_config (settled_config cfg) = settled_config cfg := by
  unfold settled_config
  split
  · rw [if_pos (adv_data_zero cfg)]
  · rfl

theorem clearsNothing_of_settled (h : settled_config cfg = cfg) : ClearsNothing global cfg := by
  intro hnone hne
  rw [settled_config, if_pos hnone] at h
  exact absurd (congrArg analog_key_config_t.adv_mode h).symm hne

theorem toggle_data (h : adv_data cfg = none) : u8 cfg.adv_mode ≠ AKM_TOGGLE := by
  intro ht
  unfold adv_data at h
  rw [if_neg fun hc => by rw [ht] at hc; exact absurd hc.1 (by decide),
    if_neg fun hc => by rw [ht] at hc; exact absurd hc.1 (by decide), if_pos ht] at h
  cases h

/-- After `update_key_config` the key agrees with its configuration exactly
when no mode was cleared. -/
theorem same_settled_iff (k k' : analog_key_t) :
    SameConfig (configured_key global cfg k) (configured_key global (settled_config cfg) k') ↔
      ClearsNothing global cfg := by
  unfold settled_config ClearsNothing
  split
  · rename_i hnone
    constructor
    · intro h _ hne
      have hmode := h.mode
      simp only [configured_key, key_mode, if_pos hne] at hmode
      exact hmode
    · intro h
      have hmode : key_mode global cfg = key_mode global { cfg with adv_mode := 0 } := by
        by_cases hz : cfg.adv_mode = 0
        · rw [← hz]
        · have hm := h hnone hz
          simp only [key_mode, if_pos hz]
          exact hm
      refine ⟨hmode, rfl, fun _ => ?_, rfl⟩
      simp only [configured_key, hnone, adv_data_zero]
      rfl
  · rename_i hsome
    exact iff_of_true (configured_key_same k k') fun h => absurd h hsome

/-! ## A change of the global configuration -/

def release_sen (global : analog_key_config_t) : BitVec 6 :=
  if global.rpd_trig_sen_deact = 0 then global.rpd_trig_sen else global.rpd_trig_sen_deact

/-- The key follows the global configuration in nothing that differs. -/
structure Unaffected (global global' cfg : analog_key_config_t) : Prop where
  mode : cfg.adv_mode = 0 → cfg.mode = 0 → global.mode = global'.mode
  act_pt : cfg.act_pt = 0 → global.act_pt = global'.act_pt
  sen : adv_data cfg = none → cfg.rpd_trig_sen = 0 → global.rpd_trig_sen = global'.rpd_trig_sen
  sen_rls : cfg.rpd_trig_sen_deact = 0 → release_sen global = release_sen global'

theorem u8_inj {n : Nat} (hn : n ≤ 8) {x y : BitVec n} : u8 x = u8 y ↔ x = y := by
  constructor
  · intro h
    have hx : x.toNat < 2 ^ 8 := x.isLt.trans_le (Nat.pow_le_pow_right (by decide) hn)
    have hy : y.toNat < 2 ^ 8 := y.isLt.trans_le (Nat.pow_le_pow_right (by decide) hn)
    have hnat := congrArg UInt8.toNat h
    simp only [u8, UInt8.toNat_ofNat', Nat.mod_eq_of_lt hx, Nat.mod_eq_of_lt hy] at hnat
    exact BitVec.eq_of_toNat_eq hnat
  · exact congrArg u8

theorem scale_inj {x y : BitVec 6} : u8 x * TRAVEL_SCALE = u8 y * TRAVEL_SCALE ↔ x = y := by
  constructor
  · intro h
    have hy := y.isLt
    have hnat := congrArg UInt8.toNat h
    apply BitVec.eq_of_toNat_eq
    change (x.toNat % 256 * 6) % 256 = (y.toNat % 256 * 6) % 256 at hnat
    omega
  · exact congrArg fun x => u8 x * TRAVEL_SCALE

theorem key_sen_rls_eq (global cfg : analog_key_config_t) : key_sen_rls global cfg =
    u8 (if cfg.rpd_trig_sen_deact = 0 then release_sen global else cfg.rpd_trig_sen_deact) := by
  unfold key_sen_rls release_sen
  split
  · split <;> rfl
  · rfl

theorem key_sen_eq (global cfg : analog_key_config_t) : key_sen global cfg =
    u8 (if cfg.rpd_trig_sen = 0 then global.rpd_trig_sen else cfg.rpd_trig_sen) := by
  unfold key_sen
  split <;> rfl

theorem key_actn_pt_eq (global cfg : analog_key_config_t) : key_actn_pt global cfg =
    u8 (if cfg.act_pt = 0 then global.act_pt else cfg.act_pt) := by
  unfold key_actn_pt
  split <;> rfl

theorem u8_eq_zero {n : Nat} (hn : n ≤ 8) {x : BitVec n} : u8 x = 0 ↔ x = 0 := by
  rw [← u8_inj hn]
  have hz : u8 (0 : BitVec n) = 0 := by simp [u8]
  rw [hz]

theorem same_global_iff (k k' : analog_key_t) :
    SameConfig (configured_key global cfg k) (configured_key global' cfg k') ↔
      Unaffected global global' cfg := by
  constructor
  · intro h
    refine ⟨fun hadv hm => ?_, fun ha => ?_, fun hnone hs => ?_, fun hd => ?_⟩
    · have hmode := h.mode
      have hz : u8 cfg.mode = AKM_GLOBAL := (u8_eq_zero (by decide)).mpr hm
      simp only [configured_key, key_mode, hadv, basic_mode, hz, ne_eq, not_true, ite_false,
        ite_true] at hmode
      exact (u8_inj (by decide)).mp hmode
    · have hregular := congrArg activity_point_t.actn_pt h.regular
      simp only [configured_key, key_actn_pt_eq, if_pos ha] at hregular
      exact scale_inj.mp hregular
    · have hdata := h.data ?_
      · simp only [configured_key, hnone, Option.getD_none, key_sen_eq, if_pos hs] at hdata
        exact scale_inj.mp hdata
      · have ht := toggle_data hnone
        simp only [configured_key, key_mode, basic_mode]
        split
        · exact ht
        · have hlt : ∀ x : BitVec 2, u8 x ≠ AKM_TOGGLE := by decide
          split
          · exact hlt _
          · exact hlt _
    · have hrls := h.sen_rls
      simp only [configured_key, key_sen_rls_eq, if_pos hd] at hrls
      exact scale_inj.mp hrls
  · intro h
    have hmode : key_mode global cfg = key_mode global' cfg := by
      unfold key_mode basic_mode
      split
      · rfl
      · rename_i hadv
        split
        · rename_i hz
          rw [h.mode (not_not.mp hadv) ((u8_eq_zero (by decide)).mp hz)]
        · rfl
    have hact : key_actn_pt global cfg = key_actn_pt global' cfg := by
      rw [key_actn_pt_eq, key_actn_pt_eq]
      split
      · rename_i ha
        rw [h.act_pt ha]
      · rfl
    refine ⟨hmode, ?_, fun _ => ?_, ?_⟩
    · simp only [configured_key, key_deactn_pt, hact]
    · simp only [configured_key]
      rcases hadv : adv_data cfg with _ | x
      · simp only [Option.getD_none, key_sen_eq]
        split
        · rename_i hs
          rw [h.sen hadv hs]
        · rfl
      · rfl
    · simp only [configured_key, key_sen_rls_eq]
      split
      · rename_i hd
        rw [h.sen_rls hd]
      · rfl

end Key

/-! ## One board -/

/-- Every key of the current profile runs as `update_key_config` computes it
from the contents of the profile. -/
def Coherent (b : Board R C) : Prop :=
  ∀ r c, SameConfig (b.analog_key_matrix r c)
    (configured_key b.profile_get_current.global (b.profile_get_current.key_config r c)
      (b.analog_key_matrix r c))

/-- No advanced mode of the current profile is left for `update_key_config` to clear. -/
def SettledBoard (b : Board R C) : Prop :=
  ∀ r c, settled_config (b.profile_get_current.key_config r c) =
    b.profile_get_current.key_config r c

instance (b : Board R C) : Decidable (Coherent b) :=
  inferInstanceAs (Decidable (∀ r c, SameConfig (b.analog_key_matrix r c)
    (configured_key b.profile_get_current.global (b.profile_get_current.key_config r c)
      (b.analog_key_matrix r c))))

instance (b : Board R C) : Decidable (SettledBoard b) :=
  inferInstanceAs (Decidable (∀ r c, settled_config (b.profile_get_current.key_config r c) =
    b.profile_get_current.key_config r c))

structure InOrder (b : Board R C) : Prop where
  coherent : Coherent b
  settled : SettledBoard b

structure SameKeys (b b' : Board R C) : Prop where
  global : b'.profile_get_current.global = b.profile_get_current.global
  key_config : b'.profile_get_current.key_config = b.profile_get_current.key_config
  keys : b'.analog_key_matrix = b.analog_key_matrix

theorem SameKeys.refl (b : Board R C) : SameKeys b b := ⟨rfl, rfl, rfl⟩

theorem SameKeys.trans {b b' b'' : Board R C} (h : SameKeys b b') (h' : SameKeys b' b'') :
    SameKeys b b'' :=
  ⟨h'.global.trans h.global, h'.key_config.trans h.key_config, h'.keys.trans h.keys⟩

theorem SameKeys.coherent_iff {b b' : Board R C} (h : SameKeys b b') :
    Coherent b' ↔ Coherent b := by
  unfold Coherent
  rw [h.global, h.key_config, h.keys]

theorem SameKeys.settled_iff {b b' : Board R C} (h : SameKeys b b') :
    SettledBoard b' ↔ SettledBoard b := by
  unfold SettledBoard
  rw [h.key_config]

theorem SameKeys.inOrder {b b' : Board R C} (h : SameKeys b b') (hb : InOrder b) : InOrder b' :=
  ⟨h.coherent_iff.mpr hb.coherent, h.settled_iff.mpr hb.settled⟩

section Updates

variable {b : Board R C}

theorem update_key_configs_current (b : Board R C) (sel : Fin R → Fin C → Bool) :
    (b.update_key_configs sel).profile_get_current =
      { b.profile_get_current with
        key_config := fun r c =>
          if sel r c then settled_config (b.profile_get_current.key_config r c)
          else b.profile_get_current.key_config r c } := by
  simp only [Board.update_key_configs, Board.set_profile, Board.profile_get_current,
    Function.update_self]

theorem update_key_configs_keys (b : Board R C) (sel : Fin R → Fin C → Bool) (r : Fin R)
    (c : Fin C) : (b.update_key_configs sel).analog_key_matrix r c =
      if sel r c then configured_key b.profile_get_current.global
        (b.profile_get_current.key_config r c) (b.analog_key_matrix r c)
      else b.analog_key_matrix r c := rfl

variable {sel : Fin R → Fin C → Bool}

/-- An update makes the selected keys coherent, but for those whose advanced
mode it clears. -/
theorem update_coherent_iff (h : ∀ r c, sel r c = false → SameConfig (b.analog_key_matrix r c)
      (configured_key b.profile_get_current.global (b.profile_get_current.key_config r c)
        (b.analog_key_matrix r c))) :
    Coherent (b.update_key_configs sel) ↔ ∀ r c, sel r c = true →
      ClearsNothing b.profile_get_current.global (b.profile_get_current.key_config r c) := by
  unfold Coherent
  simp only [update_key_configs_current, update_key_configs_keys]
  refine forall_congr' fun r => forall_congr' fun c => ?_
  cases hsel : sel r c with
  | true =>
    simp only [ite_true, true_imp_iff]
    exact same_settled_iff _ _
  | false =>
    simp only [Bool.false_eq_true, ite_false, false_imp_iff, iff_true]
    exact h r c hsel

theorem update_settled
    (h : ∀ r c, sel r c = false → settled_config (b.profile_get_current.key_config r c) =
      b.profile_get_current.key_config r c) : SettledBoard (b.update_key_configs sel) := by
  intro r c
  simp only [update_key_configs_current]
  cases hsel : sel r c with
  | true => simp only [ite_true, settled_config_idem]
  | false => simpa using h r c hsel

theorem update_travel_configs_settled (b : Board R C) : SettledBoard b.update_travel_configs :=
  update_settled fun _ _ h => Bool.noConfusion h

theorem update_travel_configs_coherent_iff : Coherent b.update_travel_configs ↔ ∀ r c,
    ClearsNothing b.profile_get_current.global (b.profile_get_current.key_config r c) := by
  unfold Board.update_travel_configs
  rw [update_coherent_iff fun _ _ h => Bool.noConfusion h]
  simp only [true_imp_iff]

theorem InOrder.update_travel_configs (h : InOrder b) : InOrder b.update_travel_configs :=
  ⟨update_travel_configs_coherent_iff.mpr fun r c => clearsNothing_of_settled (h.settled r c),
    update_travel_configs_settled b⟩

end Updates

/-! ## The commands -/

/-- What a step does to a coherent board: it stays settled, and it stays
coherent exactly under the condition. -/
structure StepIff (b' : Board R C) (condition : Prop) : Prop where
  coherent_iff : Coherent b' ↔ condition
  settled : SettledBoard b'

theorem StepIff.of_same {b b' : Board R C} (h : InOrder b) (hs : SameKeys b b') {P : Prop}
    (hp : P) : StepIff b' P :=
  ⟨iff_of_true (hs.inOrder h).coherent hp, (hs.inOrder h).settled⟩

theorem StepIff.after {b b' : Board R C} {P : Prop} (h : StepIff b P) (hs : SameKeys b b') :
    StepIff b' P :=
  ⟨hs.coherent_iff.trans h.coherent_iff, hs.settled_iff.mpr h.settled⟩

def SelectKeeps (b : Board R C) (prof_idx : UInt8) : Prop :=
  ∀ i, profile_index prof_idx = some i → i ≠ b.current_profile_index → ∀ r c,
    ClearsNothing (b.profile i).global ((b.profile i).key_config r c)

/-- A change of the global configuration of the current profile affects no key. -/
def TravalKeeps (b : Board R C) (prof_idx mode act_pt sens rls_sens : UInt8) (global : Bool) :
    Prop :=
  profile_index prof_idx = some b.current_profile_index →
    ¬ (AKM_RAPID < mode ∨ 39 < act_pt ∨ (global = true ∧ mode = AKM_GLOBAL)) → global = true →
      ∀ r c, Unaffected b.profile_get_current.global
        (set_traval b.profile_get_current.global mode act_pt sens rls_sens)
        (b.profile_get_current.key_config r c)

/-- No key of the current profile becomes a game controller key with the
index between the axes and the buttons. -/
def AdvModeKeeps (b : Board R C) (data : Nat → UInt8) : Prop :=
  profile_index (data 0) = some b.current_profile_index →
    (key_index R C (data 2) (data 3)).isSome → data 1 = ADV_MODE_GAME_CONTROLLER →
      data 4 ≠ GC_MAX

def ResetKeeps (cfg : Config R C) (b : Board R C) (prof_idx : UInt8) : Prop :=
  profile_index prof_idx = some b.current_profile_index → ∀ r c,
    ClearsNothing (default_profile cfg b.current_profile_index).global
      ((default_profile cfg b.current_profile_index).key_config r c)

section Commands

variable {b : Board R C}

theorem set_profile_other {i : Fin PROFILE_COUNT} (p : analog_matrix_profile_t R C)
    (h : i ≠ b.current_profile_index) : SameKeys b (b.set_profile i p) := by
  have hcur : (b.set_profile i p).profile_get_current = b.profile_get_current := by
    simp only [Board.set_profile, Board.profile_get_current, Function.update_of_ne h.symm]
  exact ⟨by rw [hcur], by rw [hcur], rfl⟩

theorem set_profile_current (p : analog_matrix_profile_t R C) :
    (b.set_profile b.current_profile_index p).profile_get_current = p := by
  simp only [Board.set_profile, Board.profile_get_current, Function.update_self]

theorem set_profile_same (i : Fin PROFILE_COUNT) {p : analog_matrix_profile_t R C}
    (hg : p.global = (b.profile i).global) (hk : p.key_config = (b.profile i).key_config) :
    SameKeys b (b.set_profile i p) := by
  by_cases h : i = b.current_profile_index
  · subst h
    exact ⟨by rw [set_profile_current, hg]; rfl, by rw [set_profile_current, hk]; rfl, rfl⟩
  · exact set_profile_other p h

theorem profile_select_step (h : InOrder b) (x : UInt8) :
    StepIff (profile_select b x).2 (SelectKeeps b x) := by
  unfold profile_select SelectKeeps
  rcases hx : profile_index x with _ | i
  · exact .of_same h (.refl b) nofun
  · simp only
    split
    · rename_i hne
      have hb : StepIff { b with current_profile_index := i }.analog_matrix_clear.update_travel_configs
          (∀ j, some i = some j → j ≠ b.current_profile_index → ∀ r c,
            ClearsNothing (b.profile j).global ((b.profile j).key_config r c)) := by
        refine ⟨update_travel_configs_coherent_iff.trans ⟨?_, fun hk => hk i rfl hne⟩,
          update_travel_configs_settled _⟩
        rintro hk j hj -
        cases hj
        exact hk
      exact hb.after ⟨rfl, rfl, rfl⟩
    · rename_i hne
      refine .of_same h (.refl b) fun j hj hji => ?_
      cases hj
      exact absurd hji hne

variable {cfg cfg' : analog_key_config_t}

theorem adv_mode_of_settled (h : settled_config cfg = cfg) (hnone : adv_data cfg = none) :
    cfg.adv_mode = 0 := by
  rw [settled_config, if_pos hnone] at h
  exact (congrArg analog_key_config_t.adv_mode h).symm

theorem profile_set_traval_step (h : InOrder b) (x mode act_pt sens rls_sens : UInt8)
    (global : Bool) (row : Fin R → UInt32) :
    StepIff (profile_set_traval b x mode act_pt sens rls_sens global row).2
      (TravalKeeps b x mode act_pt sens rls_sens global) := by
  unfold profile_set_traval TravalKeeps
  rcases hx : profile_index x with _ | i
  · exact .of_same h (.refl b) nofun
  · simp only
    split
    · rename_i hrej
      exact .of_same h (.refl b) fun _ hacc => absurd hrej hacc
    · rename_i hacc
      by_cases hi : i = b.current_profile_index
      · subst hi
        cases global with
        | true =>
          rw [if_pos rfl]
          refine ⟨?_, fun r c => ?_⟩
          · unfold Coherent
            rw [set_profile_current]
            constructor
            · intro hc _ _ _ r c
              exact same_global_iff _ _ |>.mp ((h.coherent r c).symm.trans (hc r c))
            · intro hk r c
              exact (h.coherent r c).trans ((same_global_iff _ _).mpr (hk rfl hacc rfl r c))
          · rw [set_profile_current]
            exact h.settled r c
        | false =>
          have hcur : (b.set_profile b.current_profile_index
              { b.profile b.current_profile_index with
                key_config := fun r c =>
                  if (row r).toNat.testBit c then
                    set_traval ((b.profile b.current_profile_index).key_config r c) mode act_pt sens
                      rls_sens
                  else (b.profile b.current_profile_index).key_config r c }).current_profile_index =
              b.current_profile_index := rfl
          rw [if_pos hcur.symm]
          refine ⟨iff_of_true ((update_coherent_iff fun r c hsel => ?_).mpr fun r c hsel => ?_)
            nofun, update_settled fun r c hsel => ?_⟩
          all_goals rw [set_profile_current]; simp only [hsel, Bool.false_eq_true, ite_false, ite_true]
          · exact h.coherent r c
          · intro hnone hne
            exact absurd (adv_mode_of_settled (h.settled r c) hnone) hne
          · exact h.settled r c
      · have hother : ∀ p, SameKeys b (b.set_profile i p) := fun p => set_profile_other p hi
        have hk : ¬ some i = some b.current_profile_index := fun hs => hi (Option.some.inj hs)
        cases global with
        | true => exact .of_same h (hother _) fun hs => absurd hs hk
        | false =>
          simp only [Bool.false_eq_true, ite_false]
          rw [if_neg (by exact hi)]
          exact .of_same h (hother _) fun hs => absurd hs hk

theorem u8_ofNat (x : UInt8) (h : x.toNat < 16) : u8 (BitVec.ofNat 4 x.toNat) = x := by
  simp only [u8, BitVec.toNat_ofNat, Nat.mod_eq_of_lt h]
  exact UInt8.ofNat_toNat

theorem basic_mode_ne_gamepad (global cfg : analog_key_config_t) :
    basic_mode global cfg ≠ AKM_GAMEPAD := by
  have hlt : ∀ x : BitVec 2, u8 x ≠ AKM_GAMEPAD := by decide
  unfold basic_mode
  split
  · exact hlt _
  · exact hlt _

variable {prof prof' : analog_matrix_profile_t R C} {data : Nat → UInt8}

/-- Of the advanced modes that a command can set, only one is cleared. -/
theorem set_adv_mode_clears_iff (global : analog_key_config_t)
    (h : set_adv_mode prof cfg data = some (prof', cfg')) :
    ClearsNothing global cfg' ↔ (data 1 = ADV_MODE_GAME_CONTROLLER → data 4 ≠ GC_MAX) := by
  unfold set_adv_mode at h
  simp only at h
  split at h
  · rename_i hmode
    cases h
    refine iff_of_true (fun _ hne => absurd rfl hne) fun hg => ?_
    rw [hmode] at hg
    exact absurd hg (by decide)
  · split at h
    · rename_i hmode
      split at h
      · rename_i hlt
        cases h
        refine iff_of_true (fun hnone => ?_) fun hg => ?_
        · rw [adv_data, if_pos ⟨u8_ofNat _ (by decide), hlt⟩] at hnone
          cases hnone
        · rw [hmode] at hg
          exact absurd hg (by decide)
      · cases h
    · split at h
      · rename_i hmode
        split at h
        · cases h
        · rename_i hlt
          cases h
          have hu : u8 (BitVec.ofNat 4 AKM_GAMEPAD.toNat) = AKM_GAMEPAD := u8_ofNat _ (by decide)
          have hdks : ¬ (u8 (BitVec.ofNat 4 AKM_GAMEPAD.toNat) = AKM_DKS ∧
              (data 4).toNat < OKMC_COUNT) := by
            exact fun hc => absurd hc.1 (by decide)
          rw [hmode]
          simp only [true_imp_iff]
          by_cases hmax : data 4 = GC_MAX
          · refine iff_of_false (fun hc => ?_) (not_not.mpr hmax)
            have hne : BitVec.ofNat 4 AKM_GAMEPAD.toNat ≠ 0 := by decide
            refine basic_mode_ne_gamepad global _ ((hc ?_ hne).symm.trans hu)
            rw [adv_data, if_neg hdks, if_neg fun hc => hc.2.2 hmax, if_neg]
            rw [hu]
            decide
          · refine iff_of_true (fun hnone => ?_) hmax
            rw [adv_data, if_neg hdks, if_pos ⟨hu, UInt8.not_le.mp hlt, hmax⟩] at hnone
            cases hnone
      · rename_i hmode
        refine iff_of_true (fun hnone => ?_) fun hg => absurd hg hmode
        split at h
        · cases h
          rw [adv_data, if_neg, if_neg, if_pos (u8_ofNat _ (by decide))] at hnone
          · cases hnone
          all_goals
            rw [u8_ofNat _ (by decide)]
            exact fun hc => absurd hc.1 (by decide)
        · cases h

theorem set_adv_mode_profile (h : set_adv_mode prof cfg data = some (prof', cfg')) :
    prof'.global = prof.global ∧ prof'.key_config = prof.key_config := by
  unfold set_adv_mode at h
  simp only at h
  split at h
  · cases h; exact ⟨rfl, rfl⟩
  · split at h
    · split at h
      · cases h; exact ⟨rfl, rfl⟩
      · cases h
    · split at h
      · split at h
        · cases h
        · cases h; exact ⟨rfl, rfl⟩
      · split at h
        · cases h; exact ⟨rfl, rfl⟩
        · cases h

theorem set_adv_mode_refused (h : set_adv_mode prof cfg data = none) :
    data 1 = ADV_MODE_GAME_CONTROLLER → data 4 ≠ GC_MAX := by
  intro hmode hmax
  unfold set_adv_mode at h
  simp only [hmode, hmax] at h
  rw [if_neg (by decide), if_neg (by decide), if_pos trivial, if_neg (by decide)] at h
  cases h

theorem profile_set_adv_mode_step (h : InOrder b) (data : Nat → UInt8) :
    StepIff (profile_set_adv_mode b data).2 (AdvModeKeeps b data) := by
  unfold profile_set_adv_mode AdvModeKeeps
  rcases hx : profile_index (data 0) with _ | i
  · exact .of_same h (.refl b) nofun
  rcases hk : key_index R C (data 2) (data 3) with _ | ⟨row, col⟩
  · exact .of_same h (.refl b) nofun
  simp only
  rcases hset : set_adv_mode (b.profile i) ((b.profile i).key_config row col) data with
    _ | ⟨prof, cfg⟩
  · exact .of_same h (.refl b) fun _ _ => set_adv_mode_refused hset
  · simp only
    obtain ⟨hglobal, hconfig⟩ := set_adv_mode_profile hset
    by_cases hi : i = b.current_profile_index
    · subst hi
      rw [if_pos (by rfl)]
      have hsel : ∀ r c, decide (r = row ∧ c = col) = false → ¬ (r = row ∧ c = col) :=
        fun _ _ => of_decide_eq_false
      have hiff := set_adv_mode_clears_iff prof.global hset
      refine ⟨(update_coherent_iff fun r c hs => ?_).trans ⟨fun hc _ _ => ?_, fun hc r c hs => ?_⟩,
        update_settled fun r c hs => ?_⟩
      · rw [set_profile_current]
        simp only [if_neg (hsel r c hs), hglobal, hconfig]
        exact h.coherent r c
      · have hrow := hc row col (by simp)
        rw [set_profile_current] at hrow
        simp only [and_self, ite_true] at hrow
        exact hiff.mp hrow
      · rw [set_profile_current]
        simp only [if_pos (of_decide_eq_true hs)]
        exact hiff.mpr (hc rfl rfl)
      · rw [set_profile_current]
        simp only [if_neg (hsel r c hs), hconfig]
        exact h.settled r c
    · rw [if_neg (by exact hi)]
      exact .of_same h (set_profile_other _ hi) fun hs => absurd (Option.some.inj hs) hi

theorem StepIff.of_inOrder {b' : Board R C} (h : InOrder b') {P : Prop} (hp : P) : StepIff b' P :=
  ⟨iff_of_true h.coherent hp, h.settled⟩

theorem profile_save_same (b : Board R C) (x : UInt8) : SameKeys b (profile_save b x).2 := by
  unfold profile_save
  rcases profile_index x with _ | i
  · exact .refl b
  · simp only [Board.analog_matrix_eeprom_update, Board.check_data_version]
    exact ⟨rfl, rfl, rfl⟩

theorem profile_reset_step (h : InOrder b) (cfg : Config R C) (x : UInt8) :
    StepIff (profile_reset cfg b x).2.update_travel_configs (ResetKeeps cfg b x) := by
  unfold profile_reset ResetKeeps
  rcases hx : profile_index x with _ | i
  · exact .of_inOrder h.update_travel_configs nofun
  · simp only
    have hsave := profile_save_same (b.set_profile i (default_profile cfg i)) x
    by_cases hi : i = b.current_profile_index
    · subst hi
      refine ⟨update_travel_configs_coherent_iff.trans ?_, update_travel_configs_settled _⟩
      rw [hsave.global, hsave.key_config, set_profile_current]
      exact ⟨fun hc _ => hc, fun hc => hc rfl⟩
    · refine .of_inOrder (hsave.inOrder ?_).update_travel_configs fun hs => absurd (Option.some.inj hs) hi
      exact (set_profile_other _ hi).inOrder h

theorem profile_set_name_same (b : Board R C) (x len : UInt8) (name : Nat → UInt8) :
    SameKeys b (profile_set_name b x len name).2 := by
  unfold profile_set_name
  rcases profile_index x with _ | i
  · exact .refl b
  · simp only
    split
    · exact .refl b
    · exact set_profile_same i rfl rfl

theorem profile_set_socd_same (b : Board R C) (data : Nat → UInt8) :
    SameKeys b (profile_set_socd b data).2 := by
  unfold profile_set_socd
  simp only
  split
  · split
    · split
      · exact .refl b
      · exact set_profile_same _ rfl rfl
    · exact .refl b
  · exact .refl b

theorem set_curve_same (b : Board R C) (pt : Fin CURVE_POINTS_COUNT → point_t) :
    SameKeys b (game_controller_set_curve b pt).2 := by
  unfold game_controller_set_curve
  split
  · simp only [Board.analog_matrix_eeprom_update]
    exact ⟨rfl, rfl, rfl⟩
  · exact .refl b

theorem mode_set_same (b : Board R C) (mode : UInt8) :
    SameKeys b (game_controller_mode_set b mode).2 := by
  unfold game_controller_mode_set
  split
  · exact .refl b
  · simp only [Board.analog_matrix_eeprom_update, Board.check_data_version]
    exact ⟨rfl, rfl, rfl⟩

/-- The commands that can leave the runtime keys behind, each under its condition. -/
structure RxKeeps (cfg : Config R C) (b : Board R C) (data : Nat → UInt8) : Prop where
  select : data 1 = AMC_SELECT_PROFILE → SelectKeeps b (data 2)
  traval : data 1 = AMC_SET_TRAVAL →
    TravalKeeps b (data 2) (data 3) (data 4) (data 5) (data 6) (data 7 ≠ 0)
  adv_mode : data 1 = AMC_SET_ADVANCE_MODE → AdvModeKeeps b fun i => data (2 + i)
  reset : data 1 = AMC_RESET_PROFILE → ResetKeeps cfg b (data 2)

theorem StepIff.congr {b' : Board R C} {P Q : Prop} (h : StepIff b' P) (hpq : P ↔ Q) :
    StepIff b' Q := ⟨h.coherent_iff.trans hpq, h.settled⟩

theorem analog_matrix_rx_step (h : InOrder b) (cfg : Config R C) (data : Nat → UInt8) :
    StepIff (analog_matrix_rx cfg b data).2 (data 0 = 0xA9 → RxKeeps cfg b data) := by
  unfold analog_matrix_rx
  by_cases hmark : data 0 = 0xA9
  swap
  · rw [if_pos hmark]
    exact .of_same h (.refl b) fun hm => absurd hm hmark
  rw [if_neg (not_not.mpr hmark)]
  -- A command meets its own condition, and the other conditions are not about it.
  have hnot : ∀ {x y : UInt8}, data 1 = x → x ≠ y → data 1 ≠ y := fun hx hne hy => hne (hx.symm.trans hy)
  have hfree : ∀ {b' : Board R C}, SameKeys b b' → data 1 ≠ AMC_SELECT_PROFILE →
      data 1 ≠ AMC_SET_TRAVAL → data 1 ≠ AMC_SET_ADVANCE_MODE → data 1 ≠ AMC_RESET_PROFILE →
      StepIff b' (data 0 = 0xA9 → RxKeeps cfg b data) :=
    fun hs h1 h2 h3 h4 => .of_same h hs fun _ =>
      ⟨(absurd · h1), (absurd · h2), (absurd · h3), (absurd · h4)⟩
  split
  · rename_i hc
    exact hfree (profile_set_name_same _ _ _ _) (hnot hc (by decide)) (hnot hc (by decide))
      (hnot hc (by decide)) (hnot hc (by decide))
  split
  · rename_i hc
    refine (profile_select_step h _).congr ⟨fun hk _ => ⟨fun _ => hk, ?_, ?_, ?_⟩,
      fun hk => (hk hmark).select hc⟩
    all_goals exact (absurd · (hnot hc (by decide)))
  split
  · rename_i hc
    refine (profile_set_traval_step h _ _ _ _ _ _ _).congr ⟨fun hk _ => ⟨?_, fun _ => hk, ?_, ?_⟩,
      fun hk => (hk hmark).traval hc⟩
    all_goals exact (absurd · (hnot hc (by decide)))
  split
  · rename_i hc
    refine (profile_set_adv_mode_step h _).congr ⟨fun hk _ => ⟨?_, ?_, fun _ => hk, ?_⟩,
      fun hk => (hk hmark).adv_mode hc⟩
    all_goals exact (absurd · (hnot hc (by decide)))
  split
  · rename_i hc
    exact hfree (profile_set_socd_same _ _) (hnot hc (by decide)) (hnot hc (by decide))
      (hnot hc (by decide)) (hnot hc (by decide))
  split
  · rename_i hc
    refine (profile_reset_step h cfg _).congr ⟨fun hk _ => ⟨?_, ?_, ?_, fun _ => hk⟩,
      fun hk => (hk hmark).reset hc⟩
    all_goals exact (absurd · (hnot hc (by decide)))
  rename_i h1 h2 h3 h4 h5 h6
  split
  · exact hfree (profile_save_same _ _) h2 h3 h4 h6
  split
  · exact hfree (set_curve_same _ _) h2 h3 h4 h6
  split
  · exact hfree (mode_set_same _ _) h2 h3 h4 h6
  · exact hfree (.refl b) h2 h3 h4 h6

/-! ## Samples -/

theorem regular_trigger_action_same (key : analog_key_t) :
    SameConfig (regular_trigger_action key).key key := by
  unfold regular_trigger_action
  split
  · exact ⟨rfl, rfl, fun _ => rfl, rfl⟩
  · split
    · exact ⟨rfl, rfl, fun _ => rfl, rfl⟩
    · exact .refl key

variable {key : analog_key_t}

theorem toggle_action_same (hm : key.mode = AKM_TOGGLE) :
    SameConfig (toggle_action key).key key := by
  unfold toggle_action
  split
  · exact ⟨rfl, rfl, fun _ => rfl, rfl⟩
  · split
    · exact ⟨rfl, rfl, fun hne => absurd hm hne, rfl⟩
    · exact .refl key

theorem rapid_trigger_action_same (key : analog_key_t) :
    SameConfig (rapid_trigger_action key).key key := by
  unfold rapid_trigger_action
  obtain ⟨state, changed, follow⟩ := rapid_step key
  cases follow with
  | no | down | up => exact ⟨rfl, rfl, fun _ => rfl, rfl⟩

theorem okmc_action_same (cfg : okmc_traval_config_t) (key : analog_key_t) :
    SameConfig (okmc_action cfg key).key key := by
  unfold okmc_action
  simp only
  repeat' split
  all_goals exact ⟨rfl, rfl, fun _ => rfl, rfl⟩

theorem controller_update_key (button : UInt8 → Option UInt8) (mode : UInt8) (key : analog_key_t) :
    (controller_update button mode key).key = (regular_trigger_action
      (if key.travel < 1 * TRAVEL_SCALE then { key with travel := 0 } else key)).key := by
  unfold controller_update
  generalize (if key.travel < 1 * TRAVEL_SCALE then { key with travel := 0 } else key) = k
  simp only
  split <;> rfl

theorem controller_update_same (button : UInt8 → Option UInt8) (mode : UInt8) (key : analog_key_t) :
    SameConfig (controller_update button mode key).key key := by
  have hkey : SameConfig (if key.travel < 1 * TRAVEL_SCALE then { key with travel := 0 } else key)
      key := by
    split
    · exact ⟨rfl, rfl, fun _ => rfl, rfl⟩
    · exact .refl key
  rw [controller_update_key]
  exact (regular_trigger_action_same _).trans hkey

theorem key_action_same (gc_mode : UInt8) (p : analog_matrix_profile_t R C) (key : analog_key_t) :
    SameConfig (key_action gc_mode p key).key key := by
  unfold key_action
  split
  · exact rapid_trigger_action_same key
  split
  · exact okmc_action_same _ key
  split
  · split
    · exact controller_update_same _ _ key
    · exact controller_update_same _ _ key
  split
  · rename_i hm
    exact toggle_action_same hm
  · exact regular_trigger_action_same key

theorem setKey_inOrder (h : InOrder b) {row : Fin R} {col : Fin C}
    (hk : SameConfig key (b.analog_key_matrix row col)) : InOrder (b.setKey row col key) := by
  refine ⟨fun r c => ?_, h.settled⟩
  change SameConfig (if r = row ∧ c = col then key else b.analog_key_matrix r c) _
  split
  · rename_i hrc
    obtain ⟨rfl, rfl⟩ := hrc
    exact (hk.trans (h.coherent r c)).trans (configured_key_same _ _)
  · exact (h.coherent r c).trans (configured_key_same _ _)

theorem save_calibration_value_same (b : Board R C) (row : Fin R) (col : Fin C) :
    SameKeys b (save_calibration_value b row col) := by
  unfold save_calibration_value
  simp only [Board.analog_matrix_eeprom_update, Board.he_eeprom_write_block,
    Board.check_data_version]
  split
  · exact ⟨rfl, rfl, rfl⟩
  · exact ⟨rfl, rfl, rfl⟩

theorem update_default_travel_same (cfg : Config R C) (b : Board R C) :
    SameKeys b (b.update_default_travel cfg) := ⟨rfl, rfl, rfl⟩

/-- The automatic calibration that is over on this sample configures the
keys anew, and one that is not does nothing. -/
theorem auto_caliration_check_cases (cfg : Config R C) (b : Board R C) (row : Fin R) (col : Fin C)
    (auto : AutoCalibration) :
    (auto = .unfinished ∧ auto_caliration_check cfg b row col auto = b) ∨
    (auto ≠ .unfinished ∧ ∃ l, SameKeys b l ∧
      auto_caliration_check cfg b row col auto = l.update_travel_configs) := by
  cases auto with
  | unfinished => exact .inl ⟨rfl, rfl⟩
  | adjusted => exact .inr ⟨nofun, _, update_default_travel_same cfg b, rfl⟩
  | saved v =>
    refine .inr ⟨nofun, _, ?_, rfl⟩
    have hset : SameKeys b { b with
        saved_calib_values := fun r c =>
          if r = row ∧ c = col then v else b.saved_calib_values r c } := ⟨rfl, rfl, rfl⟩
    have hsave := hset.trans (save_calibration_value_same _ row col)
    exact hsave.trans (update_default_travel_same cfg _)

theorem auto_caliration_check_inOrder (h : InOrder b) (cfg : Config R C) (row : Fin R)
    (col : Fin C) (auto : AutoCalibration) :
    InOrder (auto_caliration_check cfg b row col auto) := by
  rcases auto_caliration_check_cases cfg b row col auto with ⟨-, heq⟩ | ⟨-, l, hl, heq⟩
  · rw [heq]
    exact h
  · rw [heq]
    exact (hl.inOrder h).update_travel_configs

theorem update_raw_value_inOrder (h : InOrder b) (cfg : Config R C) (row : Fin R) (col : Fin C)
    (s : Sample) : InOrder (update_raw_value cfg b row col s).2 := by
  unfold update_raw_value
  split
  · exact h
  split
  · exact setKey_inOrder h ⟨rfl, rfl, fun _ => rfl, rfl⟩
  have hauto := auto_caliration_check_inOrder h cfg row col s.auto
  simp only
  split
  · exact hauto
  split
  · exact setKey_inOrder hauto ⟨rfl, rfl, fun _ => rfl, rfl⟩
  · refine setKey_inOrder hauto ((key_action_same _ _ _).trans ?_)
    exact ⟨rfl, rfl, fun _ => rfl, rfl⟩

theorem save_calibration_values_eq_update (cfg : Config R C) (b : Board R C) :
    ∃ l, SameKeys b l ∧ save_calibration_values cfg b = l.update_travel_configs := by
  refine ⟨_, ?_, rfl⟩
  refine SameKeys.trans ?_ (update_default_travel_same cfg _)
  simp only [Board.analog_matrix_eeprom_update, Board.he_eeprom_write_block,
    Board.check_data_version]
  split
  · exact ⟨rfl, rfl, rfl⟩
  · exact ⟨rfl, rfl, rfl⟩

theorem save_calibration_values_inOrder (h : InOrder b) (cfg : Config R C) :
    InOrder (save_calibration_values cfg b) := by
  obtain ⟨l, hl, heq⟩ := save_calibration_values_eq_update cfg b
  rw [heq]
  exact (hl.inOrder h).update_travel_configs

end Commands

/-! ## The power cycle -/

section Reboot

variable {b : Board R C}

def loaded_current (cfg : Config R C) (b : Board R C) : analog_matrix_profile_t R C :=
  let b' := if b.eeconfig_enabled then unpowered b else eeconfig_init (unpowered b)
  (profile_init cfg b' (!b.eeconfig_enabled)).profile_get_current

theorem load_calibration_frame (cfg : Config R C) (b : Board R C) :
    (load_calibration cfg b).profile = b.profile ∧
      (load_calibration cfg b).current_profile_index = b.current_profile_index := by
  unfold load_calibration
  simp only
  split
  · exact ⟨rfl, rfl⟩
  split
  · exact ⟨rfl, rfl⟩
  split
  · exact ⟨rfl, rfl⟩
  · exact ⟨rfl, rfl⟩

theorem power_cycle_eq_update (cfg : Config R C) (b : Board R C) : ∃ l : Board R C,
    power_cycle cfg b = l.update_travel_configs ∧
      l.profile_get_current = loaded_current cfg b ∧ ∀ r c, l.analog_key_matrix r c = .zero := by
  refine ⟨_, rfl, ?_, fun _ _ => rfl⟩
  simp only [Board.analog_matrix_clear, check_calibration, Board.profile_get_current,
    (load_calibration_frame cfg _).1, (load_calibration_frame cfg _).2]
  rfl

theorem power_cycle_key (cfg : Config R C) (b : Board R C) (r : Fin R) (c : Fin C) :
    (power_cycle cfg b).analog_key_matrix r c = configured_key (loaded_current cfg b).global
      ((loaded_current cfg b).key_config r c) .zero := by
  obtain ⟨l, hl, hcur, hzero⟩ := power_cycle_eq_update cfg b
  rw [hl, Board.update_travel_configs, update_key_configs_keys, if_pos rfl, hcur, hzero]

/-- No key of the profile that a power cycle loads has an advanced mode to clear. -/
def LoadKeeps (cfg : Config R C) (b : Board R C) : Prop :=
  ∀ r c, ClearsNothing (loaded_current cfg b).global ((loaded_current cfg b).key_config r c)

theorem power_cycle_step (cfg : Config R C) (b : Board R C) :
    StepIff (power_cycle cfg b) (LoadKeeps cfg b) := by
  obtain ⟨l, hl, hcur, -⟩ := power_cycle_eq_update cfg b
  rw [hl]
  refine ⟨?_, update_travel_configs_settled l⟩
  rw [update_travel_configs_coherent_iff, hcur]
  rfl

/-- The board loads what it runs with, once its current profile is saved:
the saved index is the current one, and the checks of the load change nothing
of the global configuration that a key follows. -/
structure LoadsBack (cfg : Config R C) (b : Board R C) : Prop where
  enabled : b.eeconfig_enabled = true
  index : loaded_index (b.eeprom OFFSET_CURRENT_PROFILE) = b.current_profile_index
  global : ∀ r c, Unaffected b.profile_get_current.global
    (checked_profile cfg b.current_profile_index b.profile_get_current).global
    (b.profile_get_current.key_config r c)

def saved_and_rebooted (cfg : Config R C) (b : Board R C) : Board R C :=
  power_cycle cfg (profile_save b (.ofNat b.current_profile_index)).2

variable {cfg : Config R C}

theorem loaded_current_saved (h : LoadsBack cfg b) :
    loaded_current cfg (profile_save b (.ofNat b.current_profile_index)).2 =
      checked_profile cfg b.current_profile_index b.profile_get_current := by
  have hstart := start_pos (⟨0, cfg.rows_pos⟩ : Fin R) (⟨0, cfg.cols_pos⟩ : Fin C)
  have hlt : OFFSET_CURRENT_PROFILE < profile_offset R C b.current_profile_index :=
    hstart.trans_le (profile_offset_start _)
  simp only [profile_save, profile_index_ofNat, Board.analog_matrix_eeprom_update,
    Board.check_data_version, loaded_current, h.enabled, profile_init, load_profiles, unpowered,
    Board.profile_get_current, Bool.not_true, Bool.false_eq_true, ite_false, ite_true]
  have hindex := Codec.write_of_lt (profileCodec R C) b.eeprom (b.profile b.current_profile_index) hlt
  unfold profile_offset at hindex
  rw [hindex, h.index, profiles_read]
  exact congrArg _ (Codec.read_write ..)

theorem rebooted_same (h : Coherent b) (hl : LoadsBack cfg b) (r : Fin R) (c : Fin C) :
    SameConfig (b.analog_key_matrix r c)
      ((saved_and_rebooted cfg b).analog_key_matrix r c) := by
  unfold saved_and_rebooted
  rw [power_cycle_key, loaded_current_saved hl]
  exact (h r c).trans ((same_global_iff _ _).mpr (hl.global r c))

end Reboot

/-! ## Runs -/

/-- The keys run as the current profile configures them, and as they do
after the profile is saved and loaded back. -/
structure AsConfigured (cfg : Config R C) (b : Board R C) : Prop where
  coherent : Coherent b
  rebooted : LoadsBack cfg b → ∀ r c, SameConfig (b.analog_key_matrix r c)
    ((saved_and_rebooted cfg b).analog_key_matrix r c)

theorem asConfigured_iff {cfg : Config R C} {b : Board R C} : AsConfigured cfg b ↔ Coherent b :=
  ⟨AsConfigured.coherent, fun h => ⟨h, fun hl => rebooted_same h hl⟩⟩

/-- The input leaves every runtime key as its configuration says. -/
def Keeps (cfg : Config R C) (b : Board R C) : Input R C → Prop
  | .rx data => data 0 = 0xA9 → RxKeeps cfg b data
  | .select prof_idx => SelectKeeps b prof_idx
  | .sample _ _ _ | .calibration => True

theorem react_step {b : Board R C} (h : InOrder b) (cfg : Config R C) (x : Input R C) :
    StepIff (react cfg b x) (Keeps cfg b x) := by
  cases x with
  | rx data => exact analog_matrix_rx_step h cfg data
  | select prof_idx => exact profile_select_step h prof_idx
  | sample row col s => exact .of_inOrder (update_raw_value_inOrder h cfg row col s) trivial
  | calibration => exact .of_inOrder (save_calibration_values_inOrder h cfg) trivial

theorem run_iff (cfg : Config R C) {b : Board R C} (h : InOrder b) (inputs : List (Input R C)) :
    Along (react cfg) (fun b x => AsConfigured cfg (react cfg b x)) b inputs ↔
      Along (react cfg) (Keeps cfg) b inputs :=
  Along.iff (I := InOrder)
    (fun _ x h => (react_step h cfg x).coherent_iff.symm.trans asConfigured_iff.symm)
    (fun _ x h hc => ⟨hc.coherent, (react_step h cfg x).settled⟩) h

/-- After every power-up and in every run from it, the runtime keys agree with
the current profile exactly when the power-up and each input keep them so. -/
theorem the_keys_run_as_configured_unless_left_behind (cfg : Config R C) (b : Board R C)
    (inputs : List (Input R C)) :
    (AsConfigured cfg (power_cycle cfg b) ∧
      Along (react cfg) (fun b x => AsConfigured cfg (react cfg b x)) (power_cycle cfg b) inputs) ↔
    LoadKeeps cfg b ∧ Along (react cfg) (Keeps cfg) (power_cycle cfg b) inputs := by
  have hboot := power_cycle_step cfg b
  rw [asConfigured_iff, hboot.coherent_iff]
  refine and_congr_right fun hk => ?_
  exact run_iff cfg ⟨hboot.coherent_iff.mpr hk, hboot.settled⟩ inputs

def packet (bytes : List UInt8) : Nat → UInt8 := fun i => bytes.getD i 0

def sixRowsBoard : Board 6 15 := power_cycle sixRows sixRowsBlank.board

/-- The host sets profile 0 to rapid trigger, for all keys at once, and the
keys go on in regular mode. -/
theorem a_global_change_leaves_the_keys_behind : ¬ ∀ inputs : List (Input 6 15),
    Along (react sixRows) (fun b x => AsConfigured sixRows (react sixRows b x)) sixRowsBoard
      inputs := by
  intro h
  obtain ⟨hc, -⟩ := h [.rx (packet [0xA9, AMC_SET_TRAVAL, 0, AKM_RAPID, 10, 4, 4, 1])]
  have hmode := (hc.coherent 0 0).mode
  revert hmode
  decide +kernel

end keychron_qmk.analog_matrix
