-- Travel commands between the travels of the keys: when a key at rest is
-- released, and when the points of its runtime configuration are the values
-- that the host asked for.
import KeychronQMK.AnalogMatrix.RapidTrigger

namespace keychron_qmk.analog_matrix

open runs

variable {R C : Nat}

/-! ## What the host asks for -/

/-- The values of a travel command, in tenths of a millimetre. -/
structure Travals where
  act_pt : UInt8
  sens : UInt8
  rls_sens : UInt8
  deriving DecidableEq

/-- A key without a value of its own gets the global one, and without a sensitivity
of the release that of the press. -/
def Travals.effective (global own : Travals) : Travals where
  act_pt := if own.act_pt = 0 then global.act_pt else own.act_pt
  sens := if own.sens = 0 then global.sens else own.sens
  rls_sens :=
    if own.rls_sens = 0 then
      if global.rls_sens = 0 then global.sens else global.rls_sens
    else own.rls_sens

structure ExactPoints (s : Travals) (key : analog_key_t) : Prop where
  actn_pt : key.regular.actn_pt.toNat = s.act_pt.toNat * TRAVEL_SCALE.toNat
  deactn_pt : key.regular.deactn_pt.toNat = (s.act_pt.toNat - 3) * TRAVEL_SCALE.toNat
  sen : key.rpd_trig_sen.toNat = s.sens.toNat * TRAVEL_SCALE.toNat
  sen_rls : key.rpd_trig_sen_rls.toNat = s.rls_sens.toNat * TRAVEL_SCALE.toNat

/-- Each value has its place in a byte when it is scaled. -/
structure Travals.Fit (s : Travals) : Prop where
  act_pt : s.act_pt.toNat ≤ 42
  sens : s.sens.toNat ≤ 42
  rls_sens : s.rls_sens.toNat ≤ 42

/-- The fields of a configuration hold what is left of the values in six bits. -/
structure Holds (g : analog_key_config_t) (s : Travals) : Prop where
  act_pt : g.act_pt = .ofNat 6 s.act_pt.toNat
  sens : g.rpd_trig_sen = .ofNat 6 s.sens.toNat
  rls_sens : g.rpd_trig_sen_deact = .ofNat 6 s.rls_sens.toNat

theorem holds_set_traval (cfg : analog_key_config_t) (mode : UInt8) (s : Travals) :
    Holds (set_traval cfg mode s.act_pt s.sens s.rls_sens) s := ⟨rfl, rfl, rfl⟩

/-! ## The points of a key -/

theorem field_zero (n : Nat) : (BitVec.ofNat 6 n = 0) ↔ n % 64 = 0 := by
  rw [← BitVec.toNat_inj, BitVec.toNat_ofNat]
  rfl

theorem field_toNat (n : Nat) : (u8 (BitVec.ofNat 6 n)).toNat = n % 64 := by
  unfold u8
  rw [BitVec.toNat_ofNat, UInt8.toNat_ofNat']
  omega

section

variable {global cfg : analog_key_config_t} {g s : Travals}

theorem key_actn_pt_held (hg : Holds global g) (hs : Holds cfg s) :
    (key_actn_pt global cfg).toNat =
      if s.act_pt.toNat % 64 = 0 then g.act_pt.toNat % 64 else s.act_pt.toNat % 64 := by
  unfold key_actn_pt
  rw [hs.act_pt, hg.act_pt]
  simp only [field_zero]
  split <;> exact field_toNat _

theorem key_sen_held (hg : Holds global g) (hs : Holds cfg s) :
    (key_sen global cfg).toNat =
      if s.sens.toNat % 64 = 0 then g.sens.toNat % 64 else s.sens.toNat % 64 := by
  unfold key_sen
  rw [hs.sens, hg.sens]
  simp only [field_zero]
  split <;> exact field_toNat _

theorem key_sen_rls_held (hg : Holds global g) (hs : Holds cfg s) :
    (key_sen_rls global cfg).toNat =
      if s.rls_sens.toNat % 64 = 0 then
        if g.rls_sens.toNat % 64 = 0 then g.sens.toNat % 64 else g.rls_sens.toNat % 64
      else s.rls_sens.toNat % 64 := by
  unfold key_sen_rls
  rw [hs.rls_sens, hg.rls_sens, hg.sens]
  simp only [field_zero]
  split
  · split <;> exact field_toNat _
  · exact field_toNat _

theorem byte_zero (x : UInt8) : x = 0 ↔ x.toNat = 0 := by
  rw [← UInt8.toNat_inj]
  rfl

theorem scale_toNat (x : UInt8) : (x * TRAVEL_SCALE).toNat = x.toNat * 6 % 256 := UInt8.toNat_mul ..

theorem field_exact_iff {n : Nat} (h : n < 256) : n % 64 * 6 % 256 = n * 6 ↔ n ≤ 42 := by
  constructor
  · omega
  · intro hle
    rw [Nat.mod_eq_of_lt (by omega : n < 64), Nat.mod_eq_of_lt (by omega)]

theorem picked_exact_iff {a x y : Nat} (ha : a < 256) (h : x * 6 % 256 = y * 6 ↔ y ≤ 42) :
    (if a % 64 = 0 then x else a % 64) * 6 % 256 = (if a = 0 then y else a) * 6 ↔
      (if a = 0 then y else a) ≤ 42 := by
  by_cases hzero : a = 0
  · subst hzero
    exact h
  · rw [if_neg hzero]
    by_cases hfield : a % 64 = 0
    · rw [if_pos hfield]
      exact iff_of_false (by omega) (by omega)
    · rw [if_neg hfield]
      exact field_exact_iff ha

theorem eq_of_scaled {k e : Nat} (hk : k < 64) (h : k * 6 % 256 = e * 6) (he : e ≤ 42) : k = e := by
  omega

theorem ite_toNat {c : Prop} [Decidable c] (x y : UInt8) :
    (if c then x else y).toNat = if c then x.toNat else y.toNat := by
  split <;> rfl

/-- The points of a key without an advanced mode are what the host asked for exactly
when each value fits. -/
theorem exact_points_iff (hg : Holds global g) (hs : Holds cfg s) (hadv : adv_data cfg = none)
    (key : analog_key_t) :
    ExactPoints (g.effective s) (configured_key global cfg key) ↔ (g.effective s).Fit := by
  have hsens := field_exact_iff g.sens.toNat_lt
  have hactiff := picked_exact_iff s.act_pt.toNat_lt (field_exact_iff g.act_pt.toNat_lt)
  have hseniff := picked_exact_iff s.sens.toNat_lt hsens
  have hrlsiff := picked_exact_iff s.rls_sens.toNat_lt (picked_exact_iff g.rls_sens.toNat_lt hsens)
  have hact := key_actn_pt_held hg hs
  have hdeact := key_deactn_pt_toNat global cfg
  have heffective : (g.effective s).act_pt.toNat =
      if s.act_pt.toNat = 0 then g.act_pt.toNat else s.act_pt.toNat := by
    unfold Travals.effective
    rw [ite_toNat]
    simp only [byte_zero]
  have hsenseff : (g.effective s).sens.toNat =
      if s.sens.toNat = 0 then g.sens.toNat else s.sens.toNat := by
    unfold Travals.effective
    rw [ite_toNat]
    simp only [byte_zero]
  have hrlseff : (g.effective s).rls_sens.toNat =
      if s.rls_sens.toNat = 0 then
        if g.rls_sens.toNat = 0 then g.sens.toNat else g.rls_sens.toNat
      else s.rls_sens.toNat := by
    unfold Travals.effective
    rw [ite_toNat, ite_toNat]
    simp only [byte_zero]
  rw [← hact, ← heffective] at hactiff
  rw [← key_sen_held hg hs, ← hsenseff] at hseniff
  rw [← key_sen_rls_held hg hs, ← hrlseff] at hrlsiff
  have hdata : (configured_key global cfg key).rpd_trig_sen = key_sen global cfg * TRAVEL_SCALE := by
    change (adv_data cfg).getD _ = _
    rw [hadv]
    rfl
  constructor
  · rintro ⟨hactn, -, hsen, hrls⟩
    rw [hdata] at hsen
    exact ⟨hactiff.mp ((scale_toNat _).symm.trans hactn),
      hseniff.mp ((scale_toNat _).symm.trans hsen), hrlsiff.mp ((scale_toNat _).symm.trans hrls)⟩
  · rintro ⟨hactfit, hsenfit, hrlsfit⟩
    have hactexact := hactiff.mpr hactfit
    refine ⟨(scale_toNat _).trans hactexact, ?_, ?_, (scale_toNat _).trans (hrlsiff.mpr hrlsfit)⟩
    · refine (scale_toNat (key_deactn_pt global cfg)).trans ?_
      have hfield : (key_actn_pt global cfg).toNat < 64 := by
        rw [hact]
        split <;> exact Nat.mod_lt _ (by decide)
      have hsame := eq_of_scaled hfield hactexact hactfit
      rw [hdeact, hsame]
      exact Nat.mod_eq_of_lt (by omega)
    · rw [hdata]
      exact (scale_toNat _).trans (hseniff.mpr hsenfit)

end

/-! ## A travel of 0 -/

section

variable {gc_mode : UInt8} {p : analog_matrix_profile_t R C} {key : analog_key_t}

def InBasicMode (key : analog_key_t) : Prop := key.mode = AKM_REGULAR ∨ key.mode = AKM_RAPID

theorem strike_regular (hm : key.mode = AKM_REGULAR) (t : UInt8) : strike gc_mode p key t =
    (regular_trigger_action { key with travel := t, last_travel := t }).key := by
  unfold strike key_action
  rw [if_neg (by rw [hm]; decide), if_neg (by rw [hm]; decide), if_neg (by rw [hm]; decide),
    if_neg (by rw [hm]; decide)]

theorem regular_at_rest (hm : key.mode = AKM_REGULAR) :
    (strike gc_mode p key 0).state = AKS_REGULAR_PRESSED ↔
      key.state = AKS_REGULAR_RELEASED ∧ key.regular.actn_pt = 0 := by
  rw [strike_regular hm, regular_trigger_action_state]
  by_cases hpressed : key.state = AKS_REGULAR_PRESSED
  · rw [if_pos ⟨hpressed, .inl rfl⟩, hpressed]
    exact iff_of_false (by decide) (fun h => absurd h.1 (by decide))
  · rw [if_neg fun h => hpressed h.1]
    split
    · rename_i h
      exact iff_of_true rfl ⟨h.1, UInt8.le_zero_iff.mp h.2⟩
    · rename_i h
      refine iff_of_false hpressed fun hzero => h ⟨hzero.1, ?_⟩
      rw [hzero.2]
      exact UInt8.le_refl 0

theorem rapid_at_rest (hm : key.mode = AKM_RAPID) :
    ((strike gc_mode p key 0).state = AKS_REGULAR_PRESSED ∨
        (strike gc_mode p key 0).state = AKS_RAPID_PRESSED) ↔
      key.state = AKS_REGULAR_RELEASED ∧ key.regular.actn_pt = 0 := by
  rw [strike_rapid hm, rapid_trigger_action_state]
  unfold rapid_step
  dsimp only
  by_cases hreleased : key.state = AKS_REGULAR_RELEASED
  · rw [if_pos hreleased]
    split
    · rename_i hle
      exact iff_of_true (.inl rfl) ⟨hreleased, UInt8.le_zero_iff.mp hle⟩
    · rename_i hgt
      rw [hreleased]
      refine iff_of_false (by decide) fun h => hgt ?_
      rw [h.2]
      exact UInt8.le_refl 0
  · rw [if_neg hreleased]
    refine iff_of_false ?_ fun h => hreleased h.1
    by_cases hpressed : key.state = AKS_REGULAR_PRESSED
    · rw [if_pos hpressed, if_pos UInt8.zero_le]
      decide
    · rw [if_neg hpressed]
      by_cases hrapid : key.state = AKS_RAPID_RELEASED
      · rw [if_pos hrapid, if_pos UInt8.zero_le]
        decide
      · rw [if_neg hrapid]
        by_cases hagain : key.state = AKS_RAPID_PRESSED
        · rw [if_pos hagain, if_neg (by decide), if_pos UInt8.zero_le]
          decide
        · rw [if_neg hagain]
          exact fun h => h.elim hpressed hagain

end

/-! ## Runs of commands and travels -/

/-- A board, what the host has asked of its current profile, and of each key what it has
asked of it, where it has. -/
structure AskedBoard (R C : Nat) where
  board : Board R C
  global : Travals
  key : Fin R → Fin C → Option Travals

/-- A travel command with a basic mode, and a travel that reaches the handler of a key. -/
inductive TravelEvent (R C : Nat) where
  | set (prof_idx : UInt8) (rapid : Bool) (s : Travals) (entire : Bool) (row : Fin R → UInt32)
  | travel (row : Fin R) (col : Fin C) (t : UInt8)

def traval_mode (rapid : Bool) : UInt8 := if rapid then AKM_RAPID else AKM_REGULAR

namespace AskedBoard

/-- The command sets the keys that it names, or the global values. Of a key with an
advanced mode nothing is asked. -/
def asked (a : AskedBoard R C) (s : Travals) (entire : Bool) (row : Fin R → UInt32)
    (board : Board R C) : AskedBoard R C :=
  if entire then { a with board, global := s }
  else
    { board
      global := a.global
      key := fun r c =>
        if (row r).toNat.testBit c = true ∧
            (a.board.profile_get_current.key_config r c).adv_mode = 0 then
          some (a.global.effective s)
        else a.key r c }

def react (a : AskedBoard R C) : TravelEvent R C → AskedBoard R C
  | .set prof_idx rapid s entire row =>
    let (accepted, board) := profile_set_traval a.board prof_idx (traval_mode rapid) s.act_pt s.sens
      s.rls_sens entire row
    if accepted = true ∧ profile_index prof_idx = some a.board.current_profile_index then
      a.asked s entire row board
    else { a with board }
  | .travel row col t =>
    let b := a.board
    { a with
      board := b.setKey row col
        (strike b.game_controller_mode b.profile_get_current (b.analog_key_matrix row col) t) }

/-- After the event every key has the points that it was asked to have, and a key in a
basic mode is not reported pressed after a travel of 0. -/
structure Rests (a : AskedBoard R C) (e : TravelEvent R C) : Prop where
  points : ∀ r c s, (a.react e).key r c = some s →
    ExactPoints s ((a.react e).board.analog_key_matrix r c)
  released : ∀ row col, e = .travel row col 0 → InBasicMode (a.board.analog_key_matrix row col) →
    analog_matrix_get_key_state (a.react e).board row col = false

/-- What is asked of the keys fits, and no released key with an actuation point of 0 has
a travel of 0. -/
structure Restful (a : AskedBoard R C) (e : TravelEvent R C) : Prop where
  fit : ∀ r c s, (a.react e).key r c = some s → s.Fit
  actuates : ∀ row col, e = .travel row col 0 → InBasicMode (a.board.analog_key_matrix row col) →
    ¬ ((a.board.analog_key_matrix row col).state = AKS_REGULAR_RELEASED ∧
      (a.board.analog_key_matrix row col).regular.actn_pt = 0)

/-- What is known of the configuration and of the keys between the events. -/
structure Configured (a : AskedBoard R C) : Prop where
  global : Holds a.board.profile_get_current.global a.global
  key : ∀ r c s, a.key r c = some s →
    (a.board.profile_get_current.key_config r c).adv_mode = 0 ∧
      InBasicMode (a.board.analog_key_matrix r c) ∧ ExactPoints s (a.board.analog_key_matrix r c)

end AskedBoard

theorem ExactPoints.fit {s : Travals} {key : analog_key_t} (h : ExactPoints s key) : s.Fit := by
  obtain ⟨hact, -, hsen, hrls⟩ := h
  have h₁ := key.regular.actn_pt.toNat_lt
  have h₂ := key.rpd_trig_sen.toNat_lt
  have h₃ := key.rpd_trig_sen_rls.toNat_lt
  change _ = _ * 6 at hact hsen hrls
  exact ⟨by omega, by omega, by omega⟩

/-! ## The events -/

section

variable {b : Board R C} {prof_idx mode : UInt8} {s : Travals} {entire : Bool}
  {row : Fin R → UInt32}

theorem set_traval_elsewhere
    (h : ¬ ((profile_set_traval b prof_idx mode s.act_pt s.sens s.rls_sens entire row).1 = true ∧
      profile_index prof_idx = some b.current_profile_index)) :
    SameKeys b (profile_set_traval b prof_idx mode s.act_pt s.sens s.rls_sens entire row).2 := by
  unfold profile_set_traval at h ⊢
  rcases hx : profile_index prof_idx with _ | i
  · exact .refl b
  rw [hx] at h
  dsimp only at h ⊢
  split
  · exact .refl b
  rename_i hacc
  rw [if_neg hacc] at h
  have hi : i ≠ b.current_profile_index := by
    rintro rfl
    refine h ⟨?_, rfl⟩
    split <;> rfl
  cases entire with
  | true => exact set_profile_other _ hi
  | false =>
    rw [if_neg Bool.false_ne_true, if_neg (by exact hi)]
    exact set_profile_other _ hi

theorem set_traval_entire
    (h : (profile_set_traval b prof_idx mode s.act_pt s.sens s.rls_sens true row).1 = true)
    (hi : profile_index prof_idx = some b.current_profile_index) :
    let b' := (profile_set_traval b prof_idx mode s.act_pt s.sens s.rls_sens true row).2
    b'.analog_key_matrix = b.analog_key_matrix ∧
      b'.profile_get_current.key_config = b.profile_get_current.key_config ∧
      b'.profile_get_current.global =
        set_traval b.profile_get_current.global mode s.act_pt s.sens s.rls_sens := by
  unfold profile_set_traval at h ⊢
  rw [hi] at h ⊢
  dsimp only at h ⊢
  split
  · rename_i hrej
    rw [if_pos hrej] at h
    cases h
  · rw [if_pos rfl]
    rw [set_profile_current]
    exact ⟨rfl, rfl, rfl⟩

/-- A command for keys of the current profile sets and updates them. -/
theorem set_traval_keys
    (h : (profile_set_traval b prof_idx mode s.act_pt s.sens s.rls_sens false row).1 = true)
    (hi : profile_index prof_idx = some b.current_profile_index) :
    let b' := (profile_set_traval b prof_idx mode s.act_pt s.sens s.rls_sens false row).2
    b'.profile_get_current.global = b.profile_get_current.global ∧ ∀ (r : Fin R) (c : Fin C),
      if (row r).toNat.testBit c = true then
        let cfg := set_traval (b.profile_get_current.key_config r c) mode s.act_pt s.sens s.rls_sens
        b'.profile_get_current.key_config r c = settled_config cfg ∧
          b'.analog_key_matrix r c =
            configured_key b.profile_get_current.global cfg (b.analog_key_matrix r c)
      else b'.profile_get_current.key_config r c = b.profile_get_current.key_config r c ∧
        b'.analog_key_matrix r c = b.analog_key_matrix r c := by
  unfold profile_set_traval at h ⊢
  rw [hi] at h ⊢
  dsimp only at h ⊢
  split
  · rename_i hrej
    rw [if_pos hrej] at h
    cases h
  · rw [if_neg Bool.false_ne_true]
    rw [if_pos (by rfl), update_key_configs_current, set_profile_current]
    refine ⟨rfl, fun r c => ?_⟩
    rw [update_key_configs_keys, set_profile_current]
    split
    · rename_i hsel
      simp only [hsel, if_true]
      exact ⟨rfl, rfl⟩
    · rename_i hsel
      simp only [hsel, Bool.false_eq_true, if_false]
      exact ⟨rfl, rfl⟩

end

/-- A key in a basic mode is reported pressed after a travel of 0 exactly when it was
released with an actuation point of 0. -/
theorem reported_at_rest_iff {b : Board R C} {row : Fin R} {col : Fin C}
    (h : InBasicMode (b.analog_key_matrix row col)) :
    analog_matrix_get_key_state (b.setKey row col (strike b.game_controller_mode
        b.profile_get_current (b.analog_key_matrix row col) 0)) row col = false ↔
      ¬ ((b.analog_key_matrix row col).state = AKS_REGULAR_RELEASED ∧
        (b.analog_key_matrix row col).regular.actn_pt = 0) := by
  generalize hkey : b.analog_key_matrix row col = key at h ⊢
  generalize hstruck : strike b.game_controller_mode b.profile_get_current key 0 = struck
  have hmode : struck.mode = key.mode := by
    rw [← hstruck]
    exact (strike_same _ _ key 0).mode
  have hset : (b.setKey row col struck).analog_key_matrix row col = struck := if_pos ⟨rfl, rfl⟩
  rw [← Bool.not_eq_true, not_iff_not]
  unfold analog_matrix_get_key_state
  rw [hset]
  dsimp only
  rcases h with hm | hm
  · rw [if_pos (hmode.trans hm), decide_eq_true_iff, ← hstruck]
    exact regular_at_rest hm
  · rw [hmode, hm, if_neg (by decide), if_pos rfl, decide_eq_true_iff, ← hstruck]
    exact rapid_at_rest hm

namespace AskedBoard

variable {a : AskedBoard R C}

theorem Configured.of_same (h : a.Configured) {board : Board R C} (hs : SameKeys a.board board) :
    Configured { a with board } := by
  refine ⟨?_, fun r c s hasked => ?_⟩
  · rw [show board.profile_get_current.global = _ from hs.global]
    exact h.global
  · obtain ⟨hadv, hbasic, hexact⟩ := h.key r c s hasked
    have hcfg : board.profile_get_current.key_config r c = _ := congrFun₂ hs.key_config r c
    have hkey : board.analog_key_matrix r c = _ := congrFun₂ hs.keys r c
    rw [hcfg, hkey]
    exact ⟨hadv, hbasic, hexact⟩

structure AskedKey (b : Board R C) (r : Fin R) (c : Fin C) (s : Travals) : Prop where
  plain : (b.profile_get_current.key_config r c).adv_mode = 0
  basic : InBasicMode (b.analog_key_matrix r c)
  exact_iff : ExactPoints s (b.analog_key_matrix r c) ↔ s.Fit

theorem Configured.asked_key (h : a.Configured) {r : Fin R} {c : Fin C} {s : Travals}
    (hasked : a.key r c = some s) : AskedKey a.board r c s := by
  obtain ⟨hadv, hbasic, hexact⟩ := h.key r c s hasked
  exact ⟨hadv, hbasic, iff_of_true hexact hexact.fit⟩

theorem adv_data_plain {cfg : analog_key_config_t} (h : cfg.adv_mode = 0) : adv_data cfg = none := by
  unfold adv_data
  rw [h]
  rfl

theorem key_mode_set (global : analog_key_config_t) {cfg : analog_key_config_t}
    (hadv : cfg.adv_mode = 0) (rapid : Bool) (s : Travals) :
    key_mode global (set_traval cfg (traval_mode rapid) s.act_pt s.sens s.rls_sens) =
      traval_mode rapid := by
  have hplain : (set_traval cfg (traval_mode rapid) s.act_pt s.sens s.rls_sens).adv_mode = 0 := hadv
  unfold key_mode
  rw [if_neg (not_not.mpr hplain)]
  cases rapid
  · rfl
  · rfl

/-- A command keeps the global values held, and what it asks of a key is what the key gets
if it fits. -/
theorem Configured.set (h : a.Configured) (prof_idx : UInt8) (rapid : Bool) (s : Travals)
    (entire : Bool) (row : Fin R → UInt32) :
    let a' := a.react (.set prof_idx rapid s entire row)
    Holds a'.board.profile_get_current.global a'.global ∧
      ∀ r c s', a'.key r c = some s' → AskedKey a'.board r c s' := by
  unfold react
  dsimp only
  split
  swap
  · rename_i helse
    have hsame := h.of_same (set_traval_elsewhere helse)
    exact ⟨hsame.global, fun r c s' hasked => hsame.asked_key hasked⟩
  rename_i hhere
  obtain ⟨hacc, hi⟩ := hhere
  unfold asked
  cases entire with
  | true =>
    obtain ⟨hkeys, hcfg, hglobal⟩ := set_traval_entire hacc hi
    rw [if_pos rfl]
    refine ⟨?_, fun r c s' hasked => ?_⟩
    · dsimp only
      rw [hglobal]
      exact holds_set_traval _ _ s
    · obtain ⟨hplain, hbasic, hexact⟩ := h.asked_key hasked
      refine ⟨?_, ?_, ?_⟩
      · dsimp only
        rw [hcfg]
        exact hplain
      · dsimp only
        rw [hkeys]
        exact hbasic
      · dsimp only
        rw [hkeys]
        exact hexact
  | false =>
    obtain ⟨hglobal, hkeys⟩ := set_traval_keys hacc hi
    rw [if_neg Bool.false_ne_true]
    refine ⟨?_, fun r c s' hasked => ?_⟩
    · dsimp only
      rw [hglobal]
      exact h.global
    · have hkey := hkeys r c
      dsimp only at hasked ⊢
      by_cases hsel : (row r).toNat.testBit c = true
      · rw [if_pos hsel] at hkey
        obtain ⟨hcfg, hkey⟩ := hkey
        by_cases hplain : (a.board.profile_get_current.key_config r c).adv_mode = 0
        · rw [if_pos ⟨hsel, hplain⟩, Option.some.injEq] at hasked
          subst hasked
          have hdata : adv_data (set_traval (a.board.profile_get_current.key_config r c)
              (traval_mode rapid) s.act_pt s.sens s.rls_sens) = none := adv_data_plain hplain
          refine ⟨?_, ?_, ?_⟩
          · rw [hcfg]
            unfold settled_config
            rw [if_pos hdata]
          · rw [hkey]
            have hmode := key_mode_set a.board.profile_get_current.global hplain rapid s
            change key_mode _ _ = _ ∨ key_mode _ _ = _
            rw [hmode]
            cases rapid
            · exact .inl rfl
            · exact .inr rfl
          · rw [hkey]
            exact exact_points_iff h.global (holds_set_traval _ _ s) hdata _
        · rw [if_neg fun hboth => hplain hboth.2] at hasked
          exact absurd (h.key r c s' hasked).1 hplain
      · rw [if_neg hsel] at hkey
        rw [if_neg fun hboth => hsel hboth.1] at hasked
        obtain ⟨hplain, hbasic, hexact⟩ := h.asked_key hasked
        refine ⟨?_, ?_, ?_⟩
        · rw [hkey.1]
          exact hplain
        · rw [hkey.2]
          exact hbasic
        · rw [hkey.2]
          exact hexact

/-- A travel leaves the points of the keys. -/
theorem Configured.travel (h : a.Configured) (row : Fin R) (col : Fin C) (t : UInt8) :
    let a' := a.react (.travel row col t)
    Holds a'.board.profile_get_current.global a'.global ∧
      ∀ r c s, a'.key r c = some s → AskedKey a'.board r c s := by
  refine ⟨h.global, fun r c s hasked => ?_⟩
  obtain ⟨hplain, hbasic, hexact⟩ := h.asked_key hasked
  suffices hboth : InBasicMode ((a.react (.travel row col t)).board.analog_key_matrix r c) ∧
      (ExactPoints s ((a.react (.travel row col t)).board.analog_key_matrix r c) ↔ s.Fit) from
    ⟨hplain, hboth.1, hboth.2⟩
  unfold react Board.setKey
  dsimp only
  split
  · rename_i hsame
    obtain ⟨rfl, rfl⟩ := hsame
    have hconfig := strike_same a.board.game_controller_mode a.board.profile_get_current
      (a.board.analog_key_matrix r c) t
    have htoggle : (a.board.analog_key_matrix r c).mode ≠ AKM_TOGGLE := by
      rcases hbasic with hm | hm <;> rw [hm] <;> decide
    have hdata := hconfig.data htoggle
    refine ⟨?_, ?_⟩
    · unfold InBasicMode
      rw [hconfig.mode]
      exact hbasic
    · rw [← hexact]
      constructor
      · rintro ⟨hact, hdeact, hsen, hrls⟩
        rw [hconfig.regular] at hact hdeact
        rw [hdata] at hsen
        rw [hconfig.sen_rls] at hrls
        exact ⟨hact, hdeact, hsen, hrls⟩
      · rintro ⟨hact, hdeact, hsen, hrls⟩
        rw [← hconfig.regular] at hact hdeact
        rw [← hdata] at hsen
        rw [← hconfig.sen_rls] at hrls
        exact ⟨hact, hdeact, hsen, hrls⟩
  · exact ⟨hbasic, hexact⟩

theorem Configured.event (h : a.Configured) (e : TravelEvent R C) :
    Holds (a.react e).board.profile_get_current.global (a.react e).global ∧
      ∀ r c s, (a.react e).key r c = some s → AskedKey (a.react e).board r c s := by
  cases e with
  | set prof_idx rapid s entire row => exact h.set prof_idx rapid s entire row
  | travel row col t => exact h.travel row col t

theorem Configured.rests_iff (h : a.Configured) (e : TravelEvent R C) :
    a.Restful e ↔ a.Rests e := by
  have hkeys := (h.event e).2
  constructor
  · rintro ⟨hfit, hactuates⟩
    refine ⟨fun r c s hasked => (hkeys r c s hasked).exact_iff.mpr (hfit r c s hasked), ?_⟩
    rintro row col rfl hbasic
    exact (reported_at_rest_iff hbasic).mpr (hactuates row col rfl hbasic)
  · rintro ⟨hpoints, hreleased⟩
    refine ⟨fun r c s hasked => (hkeys r c s hasked).exact_iff.mp (hpoints r c s hasked), ?_⟩
    rintro row col rfl hbasic
    exact (reported_at_rest_iff hbasic).mp (hreleased row col rfl hbasic)

theorem Configured.next (h : a.Configured) {e : TravelEvent R C} (hrests : a.Rests e) :
    (a.react e).Configured := by
  obtain ⟨hglobal, hkeys⟩ := h.event e
  refine ⟨hglobal, fun r c s hasked => ?_⟩
  obtain ⟨hplain, hbasic, -⟩ := hkeys r c s hasked
  exact ⟨hplain, hbasic, hrests.points r c s hasked⟩

/-- A board of whose keys nothing has been asked yet. -/
def unasked (b : Board R C) : AskedBoard R C :=
  ⟨b, ⟨u8 b.profile_get_current.global.act_pt, u8 b.profile_get_current.global.rpd_trig_sen,
    u8 b.profile_get_current.global.rpd_trig_sen_deact⟩, fun _ _ => none⟩

theorem field_of_u8 (x : BitVec 6) : x = .ofNat 6 (u8 x).toNat := by
  rw [← BitVec.toNat_inj, BitVec.toNat_ofNat]
  unfold u8
  rw [UInt8.toNat_ofNat']
  omega

theorem configured_unasked (b : Board R C) : (unasked b).Configured :=
  ⟨⟨field_of_u8 _, field_of_u8 _, field_of_u8 _⟩, fun _ _ _ h => by cases h⟩

end AskedBoard

end keychron_qmk.analog_matrix
