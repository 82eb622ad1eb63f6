-- One key under its samples: the states of each mode, which the handler of
-- the mode keeps. In them some travel moves the key, and a stroke presses it
-- once and releases it once.
import KeychronQMK.AnalogMatrix.Coherence

namespace keychron_qmk.analog_matrix

open runs

variable {R C : Nat}

/-! ## The states of a mode -/

def state_count (mode : UInt8) : UInt8 :=
  if mode = AKM_RAPID then 4 else if mode = AKM_DKS then 5 else 2

def StateFits (key : analog_key_t) : Prop := key.state < state_count key.mode

instance : DecidablePred StateFits := fun key =>
  inferInstanceAs (Decidable (key.state < state_count key.mode))

/-- The key after a sample with the given travel. -/
def strike (gc_mode : UInt8) (p : analog_matrix_profile_t R C) (key : analog_key_t)
    (travel : UInt8) : analog_key_t :=
  (key_action gc_mode p { key with travel, last_travel := travel }).key

/-- The key is down for the handler of its mode. -/
def pressed (key : analog_key_t) : Bool :=
  if key.mode = AKM_DKS then key.state ≠ OKMC_RELEASED
  else key.state = AKS_REGULAR_PRESSED ∨ key.state = AKS_RAPID_PRESSED

/-! ## The next state -/

theorem regular_trigger_action_state (key : analog_key_t) :
    (regular_trigger_action key).key.state =
      if key.state = AKS_REGULAR_PRESSED ∧ (key.travel = 0 ∨ key.travel < key.regular.deactn_pt) then
        AKS_REGULAR_RELEASED
      else if key.state = AKS_REGULAR_RELEASED ∧ key.regular.actn_pt ≤ key.travel then
        AKS_REGULAR_PRESSED
      else key.state := by
  unfold regular_trigger_action
  repeat' split
  all_goals rfl

theorem toggle_action_state (key : analog_key_t) : (toggle_action key).key.state =
    if key.state = AKS_REGULAR_PRESSED ∧ (key.travel = 0 ∨ key.travel < key.regular.deactn_pt) then
      AKS_REGULAR_RELEASED
    else if key.state = AKS_REGULAR_RELEASED ∧ key.regular.actn_pt < key.travel then
      AKS_REGULAR_PRESSED
    else key.state := by
  unfold toggle_action
  repeat' split
  all_goals rfl

theorem update_rapid_pts_frame (key : analog_key_t) (follow : Follow) :
    (update_rapid_pts key follow).state = key.state ∧
      (update_rapid_pts key follow).last_travel = key.last_travel := by
  cases follow with
  | no | down | up => exact ⟨rfl, rfl⟩

theorem rapid_trigger_action_state (key : analog_key_t) :
    (rapid_trigger_action key).key.state = (rapid_step key).1 :=
  (update_rapid_pts_frame _ _).1

theorem okmc_action_state (cfg : okmc_traval_config_t) (key : analog_key_t) :
    (okmc_action cfg key).key.state =
      if key.state = OKMC_RELEASED then
        if scaled cfg.shallow_act ≤ key.travel.toNat then OKMC_SHALLOW_ACTUATED else key.state
      else if key.state = OKMC_SHALLOW_ACTUATED then
        if key.travel.toNat < scaled cfg.shallow_deact ∧ shallow_released cfg key.travel then
          OKMC_RELEASED
        else if scaled cfg.deep_act ≤ key.travel.toNat then OKMC_DEEP_ACTUATED
        else key.state
      else if key.state = OKMC_DEEP_ACTUATED then
        if scaled cfg.deep_deact < key.travel.toNat then OKMC_DEEP_DEACT_READY
        else if key.travel.toNat < scaled cfg.shallow_deact ∧ shallow_released cfg key.travel then
          OKMC_RELEASED
        else key.state
      else if key.state = OKMC_DEEP_DEACT_READY then
        if key.travel.toNat ≤ scaled cfg.deep_deact then OKMC_DEEP_DEACTUATED else key.state
      else if key.state = OKMC_DEEP_DEACTUATED then
        if key.travel.toNat ≤ scaled cfg.shallow_deact ∧ shallow_released cfg key.travel then
          OKMC_RELEASED
        else key.state
      else key.state := by
  unfold okmc_action
  simp only
  repeat' split
  all_goals rfl

/-! ## Every handler keeps the states of its mode -/

theorem regular_trigger_action_fits {key : analog_key_t} (h : key.state < 2) :
    (regular_trigger_action key).key.state < 2 := by
  rw [regular_trigger_action_state]
  repeat' split
  all_goals first | exact h | decide

theorem toggle_action_fits {key : analog_key_t} (h : key.state < 2) :
    (toggle_action key).key.state < 2 := by
  rw [toggle_action_state]
  repeat' split
  all_goals first | exact h | decide

theorem rapid_step_fits {key : analog_key_t} (h : key.state < 4) : (rapid_step key).1 < 4 := by
  unfold rapid_step
  repeat' split
  all_goals first | exact h | exact (by decide)

theorem okmc_action_fits (cfg : okmc_traval_config_t) {key : analog_key_t} (h : key.state < 5) :
    (okmc_action cfg key).key.state < 5 := by
  rw [okmc_action_state]
  repeat' split
  all_goals first | exact h | decide

theorem controller_update_fits (button : UInt8 → Option UInt8) (mode : UInt8) {key : analog_key_t}
    (h : key.state < 2) : (controller_update button mode key).key.state < 2 := by
  rw [controller_update_key]
  refine regular_trigger_action_fits ?_
  split
  · exact h
  · exact h

theorem key_action_fits (gc_mode : UInt8) (p : analog_matrix_profile_t R C) {key : analog_key_t}
    (h : StateFits key) : StateFits (key_action gc_mode p key).key := by
  unfold StateFits at h ⊢
  rw [(key_action_same gc_mode p key).mode]
  unfold state_count at h ⊢
  unfold key_action
  split
  · rename_i hm
    rw [if_pos hm] at h
    rw [rapid_trigger_action_state]
    exact rapid_step_fits h
  rename_i hm
  rw [if_neg hm] at h
  split
  · rename_i hd
    rw [if_pos hd] at h
    exact okmc_action_fits _ h
  rename_i hd
  rw [if_neg hd] at h
  split
  · split
    · exact controller_update_fits _ _ h
    · exact controller_update_fits _ _ h
  split
  · exact toggle_action_fits h
  · exact regular_trigger_action_fits h

theorem strike_fits (gc_mode : UInt8) (p : analog_matrix_profile_t R C) {key : analog_key_t}
    (h : StateFits key) (travel : UInt8) : StateFits (strike gc_mode p key travel) :=
  key_action_fits gc_mode p h

theorem strike_same (gc_mode : UInt8) (p : analog_matrix_profile_t R C) (key : analog_key_t)
    (travel : UInt8) : SameConfig (strike gc_mode p key travel) key :=
  (key_action_same gc_mode p _).trans ⟨rfl, rfl, fun _ => rfl, rfl⟩

/-! ## Settings in reach -/

def MAX_TRAVEL : UInt8 := (FULL_TRAVEL_UNIT + 1) * TRAVEL_SCALE - 1

structure PointsInReach (key : analog_key_t) : Prop where
  set : TRAVEL_SCALE ≤ key.regular.actn_pt
  below_full : key.regular.actn_pt < FULL_TRAVEL_UNIT * TRAVEL_SCALE
  deactn : key.regular.deactn_pt ≤ key.regular.actn_pt

/-- The key passes the point of its shallow actuation and, on its way back,
those at which the actuation ends. -/
structure OkmcInReach (cfg : okmc_traval_config_t) : Prop where
  released : 2 ≤ cfg.shallow_act.toNat
  full : cfg.shallow_act.toNat ≤ FULL_TRAVEL_UNIT.toNat
  deact : 1 ≤ cfg.shallow_deact.toNat

structure InReach (p : analog_matrix_profile_t R C) (key : analog_key_t) : Prop where
  points : key.mode ≠ AKM_DKS → PointsInReach key
  -- Above the dead zone, the travel and the sensitivity add up within a byte.
  rapid : key.mode = AKM_RAPID →
    (BOTTOM_DEAD_ZONE * TRAVEL_SCALE).toNat + key.rpd_trig_sen.toNat ≤
      256 + key.rpd_trig_sen_rls.toNat
  okmc : key.mode = AKM_DKS → OkmcInReach (okmc_setting p key.rpd_trig_sen).travel

/-! ## The state after a sample -/

section Strike

variable (gc_mode : UInt8) (p : analog_matrix_profile_t R C) {key : analog_key_t} {travel : UInt8}

theorem strike_last_travel (gc_mode : UInt8) (p : analog_matrix_profile_t R C)
    (key : analog_key_t) (travel : UInt8) :
    (strike gc_mode p key travel).last_travel = travel := by
  have hregular : ∀ k, (regular_trigger_action k).key.last_travel = k.last_travel := fun k => by
    unfold regular_trigger_action
    repeat' split
    all_goals rfl
  have hcontroller : ∀ button mode k, (controller_update button mode k).key.last_travel =
      k.last_travel := fun button mode k => by
    rw [controller_update_key, hregular]
    split <;> rfl
  unfold strike key_action
  split
  · exact (update_rapid_pts_frame _ _).2
  split
  · unfold okmc_action
    simp only
    repeat' split
    all_goals rfl
  split
  · split
    · exact hcontroller _ _ _
    · exact hcontroller _ _ _
  split
  · unfold toggle_action
    repeat' split
    all_goals rfl
  · exact hregular _

inductive TwoStates (pts : activity_point_t) (v s s' : UInt8) : Prop
  | release (hs : s = AKS_REGULAR_PRESSED) (hv : v = 0 ∨ v < pts.deactn_pt)
    (h : s' = AKS_REGULAR_RELEASED)
  | press (hs : s = AKS_REGULAR_RELEASED) (hv : pts.actn_pt ≤ v) (h : s' = AKS_REGULAR_PRESSED)
  | stay (hp : s = AKS_REGULAR_PRESSED → v ≠ 0 ∧ pts.deactn_pt ≤ v)
    (hr : s = AKS_REGULAR_RELEASED → v ≤ pts.actn_pt) (h : s' = s)

theorem regular_two_states (key : analog_key_t) :
    TwoStates key.regular key.travel key.state (regular_trigger_action key).key.state := by
  rw [regular_trigger_action_state]
  split
  · rename_i h
    exact .release h.1 h.2 rfl
  split
  · rename_i h
    exact .press h.1 h.2 rfl
  · rename_i hn'
    refine .stay (fun hs => ?_) (fun hs => ?_) rfl
    · grind
    · grind

theorem toggle_two_states (key : analog_key_t) :
    TwoStates key.regular key.travel key.state (toggle_action key).key.state := by
  rw [toggle_action_state]
  split
  · rename_i h
    exact .release h.1 h.2 rfl
  split
  · rename_i h
    exact .press h.1 (UInt8.le_of_lt h.2) rfl
  · rename_i hn'
    refine .stay (fun hs => ?_) (fun hs => ?_) rfl
    · grind
    · grind

theorem controller_two_states (button : UInt8 → Option UInt8) (mode : UInt8) (key : analog_key_t) :
    ∃ v, (v = key.travel ∨ key.travel < TRAVEL_SCALE ∧ v = 0) ∧
      TwoStates key.regular v key.state (controller_update button mode key).key.state := by
  rw [controller_update_key]
  split
  · rename_i h
    exact ⟨0, .inr ⟨h, rfl⟩, regular_two_states { key with travel := 0 }⟩
  · exact ⟨key.travel, .inl rfl, regular_two_states key⟩

/-- In a mode other than rapid and DKS a key has two states. The travel of a
game controller is 0 where it is less than the scale. -/
theorem strike_two_states (travel : UInt8) (hr : key.mode ≠ AKM_RAPID) (hd : key.mode ≠ AKM_DKS) :
    ∃ v, (v = travel ∨ travel < TRAVEL_SCALE ∧ v = 0) ∧
      TwoStates key.regular v key.state (strike gc_mode p key travel).state := by
  unfold strike key_action
  rw [if_neg (by exact hr), if_neg (by exact hd)]
  split
  · split
    · exact controller_two_states _ _ { key with travel, last_travel := travel }
    · exact controller_two_states _ _ { key with travel, last_travel := travel }
  split
  · exact ⟨travel, .inl rfl, toggle_two_states { key with travel, last_travel := travel }⟩
  · exact ⟨travel, .inl rfl, regular_two_states { key with travel, last_travel := travel }⟩

variable {gc_mode p} in
theorem strike_rapid (hm : key.mode = AKM_RAPID) : strike gc_mode p key travel =
    (rapid_trigger_action { key with travel, last_travel := travel }).key := by
  unfold strike key_action
  rw [if_pos (by exact hm)]

variable {gc_mode p} in
theorem strike_okmc (hm : key.mode = AKM_DKS) : strike gc_mode p key travel =
    (okmc_action (okmc_setting p key.rpd_trig_sen).travel
      { key with travel, last_travel := travel }).key := by
  unfold strike key_action
  rw [if_neg (by rw [hm]; decide), if_pos (by exact hm)]

theorem scaled_eq (x : BitVec 6) : scaled x = 6 * x.toNat := Nat.mul_comm ..

theorem shallow_released_iff (cfg : okmc_traval_config_t) (v : UInt8) :
    shallow_released cfg v ↔ v.toNat + 6 < 6 * cfg.shallow_act.toNat := by
  unfold shallow_released
  rw [show ((TRAVEL_SCALE.toNat : Nat) : Int) = 6 from rfl]
  omega

/-! ## Some travel moves the key -/

theorem PointsInReach.bounds (h : PointsInReach key) :
    6 ≤ key.regular.actn_pt ∧ key.regular.actn_pt < 240 ∧
      key.regular.deactn_pt ≤ key.regular.actn_pt := by
  have h240 : FULL_TRAVEL_UNIT * TRAVEL_SCALE = 240 := by decide
  exact ⟨h.set, h240 ▸ h.below_full, h.deactn⟩

variable {gc_mode p} in
theorem two_states_moved (hr : key.mode ≠ AKM_RAPID) (hd : key.mode ≠ AKM_DKS)
    (hf : key.state < 2) (hp : PointsInReach key) :
    ∃ travel ≤ MAX_TRAVEL, (strike gc_mode p key travel).state ≠ key.state := by
  obtain ⟨hset, hfull, -⟩ := hp.bounds
  by_cases hs : key.state = AKS_REGULAR_RELEASED
  · obtain ⟨v, hv, h⟩ := strike_two_states gc_mode p 245 hr hd
    refine ⟨245, by decide, ?_⟩
    simp only [AKS_REGULAR_RELEASED, TRAVEL_SCALE] at hs hv
    rcases h with ⟨hs', -, -⟩ | ⟨-, -, h⟩ | ⟨-, hstay, -⟩
    · rw [hs] at hs'
      exact absurd hs' (by decide)
    · rw [h, hs]
      decide
    · have hle := hstay hs
      grind
  · obtain ⟨v, hv, h⟩ := strike_two_states gc_mode p 0 hr hd
    have hv0 : v = 0 := hv.elim id And.right
    have hone : key.state = AKS_REGULAR_PRESSED := by
      simp only [AKS_REGULAR_RELEASED, AKS_REGULAR_PRESSED] at hs ⊢
      grind
    refine ⟨0, by decide, ?_⟩
    rcases h with ⟨-, -, h⟩ | ⟨hs', -, -⟩ | ⟨hstay, -, -⟩
    · rw [h, hone]
      decide
    · exact absurd hs' hs
    · exact absurd hv0 (hstay hone).1

variable {gc_mode p} in
theorem rapid_moved (hm : key.mode = AKM_RAPID) (hf : key.state < 4) (hp : PointsInReach key) :
    ∃ travel ≤ MAX_TRAVEL, (strike gc_mode p key travel).state ≠ key.state := by
  obtain ⟨hset, hfull, -⟩ := hp.bounds
  by_cases hs : key.state = AKS_REGULAR_RELEASED
  · refine ⟨245, by decide, ?_⟩
    have hact : key.regular.actn_pt ≤ 245 := by grind
    rw [strike_rapid hm, rapid_trigger_action_state, rapid_step]
    simp only [hs, hact, ite_true]
    decide
  · refine ⟨0, by decide, ?_⟩
    rw [strike_rapid hm, rapid_trigger_action_state, rapid_step]
    simp only [AKS_REGULAR_RELEASED, AKS_REGULAR_PRESSED, AKS_RAPID_RELEASED,
      AKS_RAPID_PRESSED] at hs ⊢
    grind

variable {gc_mode p} in
theorem okmc_moved (hm : key.mode = AKM_DKS) (hf : key.state < 5)
    (hp : OkmcInReach (okmc_setting p key.rpd_trig_sen).travel) :
    ∃ travel ≤ MAX_TRAVEL, (strike gc_mode p key travel).state ≠ key.state := by
  obtain ⟨hreleased, hfull, hdeact⟩ := hp
  rw [show FULL_TRAVEL_UNIT.toNat = 40 from rfl] at hfull
  by_cases hs : key.state = OKMC_RELEASED
  · refine ⟨245, by decide, ?_⟩
    rw [strike_okmc hm, okmc_action_state, if_pos (by exact hs), if_pos, hs]
    · decide
    · rw [scaled_eq, show (245 : UInt8).toNat = 245 from rfl]
      omega
  · refine ⟨0, by decide, ?_⟩
    have hshallow : (0 : UInt8).toNat < scaled (okmc_setting p key.rpd_trig_sen).travel.shallow_deact ∧
        shallow_released (okmc_setting p key.rpd_trig_sen).travel 0 := by
      rw [scaled_eq, shallow_released_iff, show (0 : UInt8).toNat = 0 from rfl]
      omega
    rw [strike_okmc hm, okmc_action_state]
    simp only [OKMC_RELEASED, OKMC_SHALLOW_ACTUATED, OKMC_DEEP_ACTUATED, OKMC_DEEP_DEACT_READY,
      OKMC_DEEP_DEACTUATED, AKS_REGULAR_RELEASED] at hs ⊢
    grind

variable {gc_mode p} in
theorem some_travel_moves_the_key (hf : StateFits key) (hp : InReach p key) :
    ∃ travel ≤ MAX_TRAVEL, (strike gc_mode p key travel).state ≠ key.state := by
  unfold StateFits state_count at hf
  by_cases hr : key.mode = AKM_RAPID
  · rw [if_pos hr] at hf
    exact rapid_moved hr hf (hp.points (by rw [hr]; decide))
  rw [if_neg hr] at hf
  by_cases hd : key.mode = AKM_DKS
  · rw [if_pos hd] at hf
    exact okmc_moved hd hf (hp.okmc hd)
  · rw [if_neg hd] at hf
    exact two_states_moved hr hd hf (hp.points hd)

variable {gc_mode p} in
theorem no_travel_moves_a_stranded_key (h : ¬ StateFits key) (travel : UInt8) :
    (strike gc_mode p key travel).state = key.state := by
  unfold StateFits state_count at h
  by_cases hr : key.mode = AKM_RAPID
  · rw [if_pos hr] at h
    rw [strike_rapid hr, rapid_trigger_action_state, rapid_step]
    simp only [AKS_REGULAR_RELEASED, AKS_REGULAR_PRESSED, AKS_RAPID_RELEASED, AKS_RAPID_PRESSED]
    have hne : key.state ≠ 0 ∧ key.state ≠ 1 ∧ key.state ≠ 2 ∧ key.state ≠ 3 := by grind
    simp only [hne, ite_false]
  rw [if_neg hr] at h
  by_cases hd : key.mode = AKM_DKS
  · rw [if_pos hd] at h
    rw [strike_okmc hd, okmc_action_state]
    simp only [OKMC_RELEASED, OKMC_SHALLOW_ACTUATED, OKMC_DEEP_ACTUATED, OKMC_DEEP_DEACT_READY,
      OKMC_DEEP_DEACTUATED, AKS_REGULAR_RELEASED]
    have hne : key.state ≠ 0 ∧ key.state ≠ 1 ∧ key.state ≠ 2 ∧ key.state ≠ 3 ∧ key.state ≠ 4 := by
      grind
    simp only [hne, ite_false]
  rw [if_neg hd] at h
  obtain ⟨v, -, hv⟩ := strike_two_states gc_mode p travel hr hd
  rcases hv with ⟨hs, -, -⟩ | ⟨hs, -, -⟩ | ⟨-, -, hs⟩
  · rw [hs] at h
    exact absurd (by decide) h
  · rw [hs] at h
    exact absurd (by decide) h
  · exact hs

variable {gc_mode p} in
theorem strike_fits_iff (key : analog_key_t) (travel : UInt8) :
    StateFits (strike gc_mode p key travel) ↔ StateFits key := by
  refine ⟨fun h => ?_, fun h => strike_fits gc_mode p h travel⟩
  by_contra hn
  refine hn ?_
  unfold StateFits at h ⊢
  rwa [no_travel_moves_a_stranded_key hn, (strike_same gc_mode p key travel).mode] at h

end Strike

/-! ## Strokes -/

/-- The key passes, on its way back, the points at which each actuation ends. -/
structure OkmcReleased (cfg : okmc_traval_config_t) (travel : UInt8) : Prop where
  deep : travel.toNat ≤ scaled cfg.deep_deact
  shallow : travel.toNat < scaled cfg.shallow_deact
  released : shallow_released cfg travel

/-- A full press and a full release: the samples go down to `top` without
turning, and back to 0 in the same way. The setting of a DKS key has two
actuations to end, and a sample before the last ends the deep one. -/
structure Stroke (p : analog_matrix_profile_t R C) (key : analog_key_t) (down : List UInt8)
    (top : UInt8) (up : List UInt8) : Prop where
  deeper : (key.last_travel :: (down ++ [top])).IsChain (· < ·)
  full : FULL_TRAVEL_UNIT * TRAVEL_SCALE ≤ top
  higher : (top :: (up ++ [0])).IsChain (· > ·)
  okmc : key.mode = AKM_DKS →
    ∃ travel ∈ up, OkmcReleased (okmc_setting p key.rpd_trig_sen).travel travel

section Stroke

variable (gc_mode : UInt8) (p : analog_matrix_profile_t R C)

variable {key : analog_key_t} {down up : List UInt8}

/-- A stroke has one press and one release when the key stays down once it
is down on the way to the full travel, and stays up once it is up on the way back. -/
theorem edges_of_phases (Down Up : analog_key_t → Prop) {top : UInt8}
    (hs : Stroke p key down top up) (hdown : ∀ k t, Down k → k.last_travel < t →
      Down (strike gc_mode p k t) ∧ (pressed k = true → pressed (strike gc_mode p k t) = true))
    (htop : ∀ k t, Down k → k.last_travel < t → FULL_TRAVEL_UNIT * TRAVEL_SCALE ≤ t →
      pressed (strike gc_mode p k t) = true) (hturn : ∀ k, Down k → pressed k = true → Up k)
    (hup : ∀ k t, Up k → t < k.last_travel →
      Up (strike gc_mode p k t) ∧ (pressed k = false → pressed (strike gc_mode p k t) = false))
    (hend : ∀ k, Up k → Along (strike gc_mode p) (fun k t => t < k.last_travel) k (up ++ [0]) →
      pressed ((up ++ [0]).foldl (strike gc_mode p) k) = false) (h0 : Down key)
    (hoff : pressed key = false) :
    edges (strike gc_mode p) pressed key ((down ++ [top]) ++ (up ++ [0])) = [true, false] := by
  have hpress : Along (strike gc_mode p) (fun k t => k.last_travel < t) key (down ++ [top]) :=
    Along.of_chain analog_key_t.last_travel (strike_last_travel gc_mode p) hs.deeper
  have hlast : ((down ++ [top]).foldl (strike gc_mode p) key).last_travel = top := by
    rw [List.foldl_append]
    exact strike_last_travel ..
  obtain ⟨hfirst, hbottom⟩ := Along.append.mp hpress
  have hfull : pressed ((down ++ [top]).foldl (strike gc_mode p) key) = true := by
    rw [List.foldl_append]
    exact htop _ _ (Along.invariant (fun k t h hc => (hdown k t h hc).1) h0 hfirst) hbottom.1 hs.full
  have hturned := hturn _ (Along.invariant (fun k t h hc => (hdown k t h hc).1) h0 hpress) hfull
  have hrelease : Along (strike gc_mode p) (fun k t => t < k.last_travel)
      ((down ++ [top]).foldl (strike gc_mode p) key) (up ++ [0]) := by
    refine Along.of_chain analog_key_t.last_travel (r := (· > ·)) (strike_last_travel gc_mode p) ?_
    rw [hlast]
    exact hs.higher
  rw [edges_append, edges_to_latch hdown h0 hpress (by rw [hoff]; decide) hfull,
    edges_to_latch hup hturned hrelease (by rw [hfull]; decide) (hend _ hturned hrelease)]
  rfl

/-! ### Two states -/

structure TwoStateKey (key : analog_key_t) : Prop where
  not_rapid : key.mode ≠ AKM_RAPID
  not_okmc : key.mode ≠ AKM_DKS
  fits : key.state < 2
  points : PointsInReach key

theorem PointsInReach.next (h : PointsInReach key) (t : UInt8) :
    PointsInReach (strike gc_mode p key t) := by
  have hsame := (strike_same gc_mode p key t).regular
  obtain ⟨hset, hfull, hdeact⟩ := h
  rw [← hsame] at hset hfull hdeact
  exact ⟨hset, hfull, hdeact⟩

theorem TwoStateKey.next (h : TwoStateKey key) (t : UInt8) :
    TwoStateKey (strike gc_mode p key t) := by
  have hmode := (strike_same gc_mode p key t).mode
  have hfits : StateFits key := by
    unfold StateFits state_count
    rw [if_neg h.not_rapid, if_neg h.not_okmc]
    exact h.fits
  have hstrike := strike_fits gc_mode p hfits t
  unfold StateFits state_count at hstrike
  rw [hmode, if_neg h.not_rapid, if_neg h.not_okmc] at hstrike
  exact ⟨hmode ▸ h.not_rapid, hmode ▸ h.not_okmc, hstrike, h.points.next gc_mode p t⟩

theorem TwoStateKey.pressed_iff (h : TwoStateKey key) :
    pressed key = true ↔ key.state = AKS_REGULAR_PRESSED := by
  have hfits := h.fits
  unfold pressed
  rw [if_neg h.not_okmc, decide_eq_true_iff]
  simp only [AKS_REGULAR_PRESSED, AKS_RAPID_PRESSED]
  grind

theorem TwoStateKey.released_iff (h : TwoStateKey key) :
    pressed key = false ↔ key.state = AKS_REGULAR_RELEASED := by
  have hfits := h.fits
  rw [← Bool.not_eq_true, h.pressed_iff]
  simp only [AKS_REGULAR_PRESSED, AKS_REGULAR_RELEASED]
  grind

/-- On the way down a pressed key is not above its deactuation point. -/
structure TwoStatesDown (k : analog_key_t) : Prop where
  key : TwoStateKey k
  below : k.state = AKS_REGULAR_PRESSED →
    k.regular.deactn_pt ≤ k.last_travel ∧ TRAVEL_SCALE ≤ k.last_travel

/-- On the way up a released key is not below its actuation point. -/
structure TwoStatesUp (k : analog_key_t) : Prop where
  key : TwoStateKey k
  above : k.state = AKS_REGULAR_RELEASED → k.last_travel ≤ k.regular.actn_pt

theorem TwoStatesDown.next {k : analog_key_t} {t : UInt8} (h : TwoStatesDown k)
    (ht : k.last_travel < t) : TwoStatesDown (strike gc_mode p k t) ∧
      (pressed k = true → pressed (strike gc_mode p k t) = true) := by
  have hkey := h.key.next gc_mode p t
  rw [h.key.pressed_iff, hkey.pressed_iff]
  obtain ⟨hset, hfull, hdeact⟩ := h.key.points.bounds
  have hsame := (strike_same gc_mode p k t).regular
  obtain ⟨v, hv, hstep⟩ := strike_two_states gc_mode p t
    h.key.not_rapid h.key.not_okmc
  simp only [TRAVEL_SCALE] at hv
  have hbelow := h.below
  simp only [TRAVEL_SCALE] at hbelow
  rcases hstep with ⟨hs, hrel, -⟩ | ⟨hs, hact, hs'⟩ | ⟨-, -, hs'⟩
  · -- A deeper sample does not release the key.
    grind
  · refine ⟨⟨hkey, fun _ => ?_⟩, fun _ => hs'⟩
    rw [hsame, strike_last_travel]
    simp only [TRAVEL_SCALE]
    grind
  · refine ⟨⟨hkey, fun hp => ?_⟩, fun hp => hs'.trans hp⟩
    rw [hsame, strike_last_travel]
    simp only [TRAVEL_SCALE]
    grind

theorem TwoStatesDown.full {k : analog_key_t} {t : UInt8} (h : TwoStatesDown k)
    (ht : k.last_travel < t) (hfull : FULL_TRAVEL_UNIT * TRAVEL_SCALE ≤ t) :
    pressed (strike gc_mode p k t) = true := by
  obtain ⟨hnext, hstays⟩ := h.next gc_mode p ht
  by_cases hp : pressed k = true
  · exact hstays hp
  rw [hnext.key.pressed_iff]
  have hs := h.key.released_iff.mp (Bool.not_eq_true _ ▸ hp)
  obtain ⟨-, hbound, -⟩ := h.key.points.bounds
  rw [show FULL_TRAVEL_UNIT * TRAVEL_SCALE = 240 by decide] at hfull
  obtain ⟨v, hv, hstep⟩ := strike_two_states gc_mode p t
    h.key.not_rapid h.key.not_okmc
  simp only [TRAVEL_SCALE] at hv
  rcases hstep with ⟨hs', -, -⟩ | ⟨-, -, hs'⟩ | ⟨-, hr, -⟩
  · rw [hs] at hs'
    exact absurd hs' (by decide)
  · exact hs'
  · have hle := hr hs
    grind

theorem TwoStatesUp.next {k : analog_key_t} {t : UInt8} (h : TwoStatesUp k)
    (ht : t < k.last_travel) : TwoStatesUp (strike gc_mode p k t) ∧
      (pressed k = false → pressed (strike gc_mode p k t) = false) := by
  have hkey := h.key.next gc_mode p t
  rw [h.key.released_iff, hkey.released_iff]
  obtain ⟨hset, hfull, hdeact⟩ := h.key.points.bounds
  have hsame := (strike_same gc_mode p k t).regular
  obtain ⟨v, hv, hstep⟩ := strike_two_states gc_mode p t
    h.key.not_rapid h.key.not_okmc
  simp only [TRAVEL_SCALE] at hv
  have habove := h.above
  rcases hstep with ⟨hs, hrel, hs'⟩ | ⟨hs, hact, -⟩ | ⟨-, -, hs'⟩
  · refine ⟨⟨hkey, fun _ => ?_⟩, fun _ => hs'⟩
    rw [hsame, strike_last_travel]
    grind
  · -- A higher sample does not press the key.
    grind
  · refine ⟨⟨hkey, fun hp => ?_⟩, fun hp => hs'.trans hp⟩
    rw [hsame, strike_last_travel]
    grind

theorem TwoStatesUp.zero {k : analog_key_t} (h : TwoStatesUp k) (ht : 0 < k.last_travel) :
    pressed (strike gc_mode p k 0) = false := by
  obtain ⟨hnext, hstays⟩ := h.next gc_mode p ht
  by_cases hp : pressed k = true
  swap
  · exact hstays (Bool.not_eq_true _ ▸ hp)
  rw [hnext.key.released_iff]
  have hs := h.key.pressed_iff.mp hp
  obtain ⟨v, hv, hstep⟩ := strike_two_states gc_mode p 0
    h.key.not_rapid h.key.not_okmc
  rcases hstep with ⟨-, -, hs'⟩ | ⟨hs', -, -⟩ | ⟨hstay, -, -⟩
  · exact hs'
  · rw [hs] at hs'
    exact absurd hs' (by decide)
  · exact absurd (hv.elim id And.right) (hstay hs).1

/-! ### Rapid trigger -/

def sampled (key : analog_key_t) (t : UInt8) : analog_key_t :=
  { key with travel := t, last_travel := t }

structure RapidKey (k : analog_key_t) : Prop where
  mode : k.mode = AKM_RAPID
  points : PointsInReach k
  room : (BOTTOM_DEAD_ZONE * TRAVEL_SCALE).toNat + k.rpd_trig_sen.toNat ≤
    256 + k.rpd_trig_sen_rls.toNat

theorem RapidKey.next {k : analog_key_t} (h : RapidKey k) (t : UInt8) :
    RapidKey (strike gc_mode p k t) := by
  have hsame := strike_same gc_mode p k t
  refine ⟨hsame.mode.trans h.mode, h.points.next gc_mode p t, ?_⟩
  rw [hsame.data (by rw [h.mode]; decide), hsame.sen_rls]
  exact h.room

theorem RapidKey.pressed_iff {k : analog_key_t} (h : RapidKey k) :
    pressed k = true ↔ k.state = AKS_REGULAR_PRESSED ∨ k.state = AKS_RAPID_PRESSED := by
  unfold pressed
  rw [if_neg (by rw [h.mode]; decide), decide_eq_true_iff]

variable {c : Bool} {follow : Follow}

theorem strike_rapid_step {k : analog_key_t} (hm : k.mode = AKM_RAPID) {t s : UInt8}
    (h : rapid_step (sampled k t) = (s, c, follow)) :
    (strike gc_mode p k t).state = s ∧ (strike gc_mode p k t).rapid =
      (update_rapid_pts { sampled k t with state := s } follow).rapid := by
  have heq : strike gc_mode p k t = update_rapid_pts { sampled k t with state := s } follow := by
    rw [strike_rapid hm, rapid_trigger_action]
    unfold sampled at h ⊢
    rw [h]
  rw [heq]
  exact ⟨(update_rapid_pts_frame _ _).1, rfl⟩

/-- On the way down a pressed key is not above either deactuation point. -/
structure RapidDown (k : analog_key_t) : Prop where
  key : RapidKey k
  fits : k.state = AKS_REGULAR_RELEASED ∨ k.state = AKS_REGULAR_PRESSED
  below : k.state = AKS_REGULAR_PRESSED →
    k.regular.deactn_pt ≤ k.last_travel ∧ k.rapid.deactn_pt ≤ k.last_travel

theorem up_deactn_le (k : analog_key_t) : (update_rapid_pts k .up).rapid.deactn_pt ≤ k.travel := by
  simp only [update_rapid_pts]
  split
  · grind
  · grind

theorem RapidDown.next {k : analog_key_t} {t : UInt8} (h : RapidDown k) (ht : k.last_travel < t) :
    RapidDown (strike gc_mode p k t) ∧
      (k.regular.actn_pt ≤ t ∨ pressed k = true → pressed (strike gc_mode p k t) = true) := by
  have hkey := h.key.next gc_mode p t
  have hlast := strike_last_travel gc_mode p k t
  have hreg := (strike_same gc_mode p k t).regular
  obtain ⟨hset, hfull, hdeact⟩ := h.key.points.bounds
  rw [h.key.pressed_iff, hkey.pressed_iff]
  rcases h.fits with hs | hs
  · by_cases hact : k.regular.actn_pt ≤ t
    · have hstep : rapid_step (sampled k t) = (AKS_REGULAR_PRESSED, true, .up) := by
        rw [rapid_step, if_pos (by exact hs), if_pos (by exact hact)]
      obtain ⟨hstate, hrapid⟩ := strike_rapid_step gc_mode p h.key.mode hstep
      refine ⟨⟨hkey, .inr hstate, fun _ => ?_⟩, fun _ => .inl hstate⟩
      rw [hlast, hreg, hrapid]
      exact ⟨by grind, up_deactn_le _⟩
    · have hstep : rapid_step (sampled k t) = (k.state, false, .no) := by
        rw [rapid_step, if_pos (by exact hs), if_neg (by exact hact)]
        rfl
      obtain ⟨hstate, -⟩ := strike_rapid_step gc_mode p h.key.mode hstep
      rw [hs] at hstate ⊢
      refine ⟨⟨hkey, .inl hstate, fun hp => ?_⟩, fun hp => ?_⟩
      · rw [hstate] at hp
        exact absurd hp (by decide)
      · rcases hp with hp | hp | hp
        · exact absurd hp hact
        · exact absurd hp (by decide)
        · exact absurd hp (by decide)
  · obtain ⟨hb, hbr⟩ := h.below hs
    have hdeep : ¬ t ≤ k.regular.deactn_pt := by grind
    have hheld : ¬ rapid_released (sampled k t) := fun hrel => by
      have hle : t ≤ k.rapid.deactn_pt := hrel.1
      grind
    have hzero : k.state ≠ AKS_REGULAR_RELEASED := by rw [hs]; decide
    by_cases hup : k.rapid.actn_pt < t
    · have hstep : rapid_step (sampled k t) = (k.state, false, .up) := by
        rw [rapid_step, if_neg (by exact hzero), if_pos (by exact hs), if_neg (by exact hdeep),
          if_neg hheld, if_pos (by exact hup)]
        rfl
      obtain ⟨hstate, hrapid⟩ := strike_rapid_step gc_mode p h.key.mode hstep
      refine ⟨⟨hkey, .inr (hstate.trans hs), fun _ => ?_⟩, fun _ => .inl (hstate.trans hs)⟩
      rw [hlast, hreg, hrapid]
      exact ⟨by grind, up_deactn_le _⟩
    · have hstep : rapid_step (sampled k t) = (k.state, false, .no) := by
        rw [rapid_step, if_neg (by exact hzero), if_pos (by exact hs), if_neg (by exact hdeep),
          if_neg hheld, if_neg (by exact hup)]
        rfl
      obtain ⟨hstate, hrapid⟩ := strike_rapid_step gc_mode p h.key.mode hstep
      have hsame : (update_rapid_pts { sampled k t with state := k.state } .no).rapid = k.rapid := rfl
      refine ⟨⟨hkey, .inr (hstate.trans hs), fun _ => ?_⟩, fun _ => .inl (hstate.trans hs)⟩
      exact ⟨by grind, by grind⟩

/-- On the way up a released key is not below the point that presses it again. -/
structure RapidUp (k : analog_key_t) : Prop where
  key : RapidKey k
  fits : k.state = AKS_REGULAR_RELEASED ∨ k.state = AKS_REGULAR_PRESSED ∨
    k.state = AKS_RAPID_RELEASED
  above : k.state = AKS_REGULAR_RELEASED → k.last_travel ≤ k.regular.actn_pt
  rapid : k.state = AKS_RAPID_RELEASED → k.last_travel ≤ k.rapid.actn_pt ∧
    k.last_travel.toNat + k.rpd_trig_sen_rls.toNat < (BOTTOM_DEAD_ZONE * TRAVEL_SCALE).toNat

theorem down_actn_ge {k : analog_key_t} (h : RapidKey k)
    (hlow : k.travel.toNat + k.rpd_trig_sen_rls.toNat < (BOTTOM_DEAD_ZONE * TRAVEL_SCALE).toNat) :
    k.travel ≤ (update_rapid_pts k .down).rapid.actn_pt := by
  have hroom := h.room
  change k.travel ≤ k.travel + k.rpd_trig_sen
  rw [UInt8.le_iff_toNat_le, UInt8.toNat_add]
  omega

/-- A sample that leaves a key released in rapid mode, with its points where
the sample is or where they were. -/
theorem RapidUp.of_rapid_released {k : analog_key_t} {t : UInt8} (hk : RapidKey k)
    (hstep : rapid_step (sampled k t) = (AKS_RAPID_RELEASED, c, follow))
    (hlow : t.toNat + k.rpd_trig_sen_rls.toNat < (BOTTOM_DEAD_ZONE * TRAVEL_SCALE).toNat)
    (hfollow : follow = .down ∨ follow = .no ∧ t ≤ k.rapid.actn_pt) :
    RapidUp (strike gc_mode p k t) ∧
      (pressed k = false → pressed (strike gc_mode p k t) = false) := by
  have hkey := hk.next gc_mode p t
  have hrls := (strike_same gc_mode p k t).sen_rls
  obtain ⟨hstate, hrapid⟩ := strike_rapid_step gc_mode p hk.mode hstep
  refine ⟨⟨hkey, .inr (.inr hstate), fun hp => ?_, fun _ => ?_⟩, fun _ => ?_⟩
  · rw [hstate] at hp
    exact absurd hp (by decide)
  · rw [strike_last_travel, hrls, hrapid]
    refine ⟨?_, hlow⟩
    rcases hfollow with rfl | ⟨rfl, hle⟩
    · exact down_actn_ge (k := { sampled k t with state := AKS_RAPID_RELEASED })
        ⟨hk.mode, ⟨hk.points.set, hk.points.below_full, hk.points.deactn⟩, hk.room⟩ hlow
    · exact hle
  · rw [← Bool.not_eq_true, hkey.pressed_iff, hstate]
    decide

theorem RapidUp.of_released {k : analog_key_t} {t : UInt8} (hk : RapidKey k)
    (hstep : rapid_step (sampled k t) = (AKS_REGULAR_RELEASED, c, follow))
    (hle : t ≤ k.regular.actn_pt) : RapidUp (strike gc_mode p k t) ∧
      pressed (strike gc_mode p k t) = false := by
  have hkey := hk.next gc_mode p t
  have hreg := (strike_same gc_mode p k t).regular
  obtain ⟨hstate, -⟩ := strike_rapid_step gc_mode p hk.mode hstep
  refine ⟨⟨hkey, .inl hstate, fun _ => ?_, fun hp => ?_⟩, ?_⟩
  · rw [strike_last_travel, hreg]
    exact hle
  · rw [hstate] at hp
    exact absurd hp (by decide)
  · rw [← Bool.not_eq_true, hkey.pressed_iff, hstate]
    decide

theorem RapidUp.of_pressed (c : Bool) (follow : Follow) {k : analog_key_t} {t : UInt8}
    (hk : RapidKey k) (hs : k.state = AKS_REGULAR_PRESSED)
    (hstep : rapid_step (sampled k t) = (k.state, c, follow)) : RapidUp (strike gc_mode p k t) ∧
      (pressed k = false → pressed (strike gc_mode p k t) = false) := by
  obtain ⟨hstate, -⟩ := strike_rapid_step gc_mode p hk.mode hstep
  rw [hs] at hstate
  refine ⟨⟨hk.next gc_mode p t, .inr (.inl hstate), fun hp => ?_, fun hp => ?_⟩, fun hp => ?_⟩
  · rw [hstate] at hp
    exact absurd hp (by decide)
  · rw [hstate] at hp
    exact absurd hp (by decide)
  · rw [hk.pressed_iff.mpr (.inl hs)] at hp
    cases hp

theorem RapidUp.next {k : analog_key_t} {t : UInt8} (h : RapidUp k) (ht : t < k.last_travel) :
    RapidUp (strike gc_mode p k t) ∧
      (pressed k = false → pressed (strike gc_mode p k t) = false) := by
  obtain ⟨hset, hfull, hdeact⟩ := h.key.points.bounds
  rcases h.fits with hs | hs | hs
  · have hle := h.above hs
    have hact : ¬ k.regular.actn_pt ≤ t := by grind
    have hstep : rapid_step (sampled k t) = (AKS_REGULAR_RELEASED, false, .no) := by
      rw [rapid_step, if_pos (by exact hs), if_neg (by exact hact), ← hs]
      rfl
    obtain ⟨hup, hoff⟩ := RapidUp.of_released gc_mode p h.key hstep (by grind)
    exact ⟨hup, fun _ => hoff⟩
  · have hzero : k.state ≠ AKS_REGULAR_RELEASED := by rw [hs]; decide
    by_cases hhigh : t ≤ k.regular.deactn_pt
    · have hstep : rapid_step (sampled k t) = (AKS_REGULAR_RELEASED, true, .no) := by
        rw [rapid_step, if_neg (by exact hzero), if_pos (by exact hs), if_pos (by exact hhigh)]
      obtain ⟨hup, hoff⟩ := RapidUp.of_released gc_mode p h.key hstep (by grind)
      exact ⟨hup, fun _ => hoff⟩
    by_cases hrel : rapid_released (sampled k t)
    · have hstep : rapid_step (sampled k t) = (AKS_RAPID_RELEASED, true, .down) := by
        rw [rapid_step, if_neg (by exact hzero), if_pos (by exact hs), if_neg (by exact hhigh),
          if_pos hrel]
      refine RapidUp.of_rapid_released gc_mode p h.key hstep ?_ (.inl rfl)
      have hlow : (t.toNat : Int) < (BOTTOM_DEAD_ZONE * TRAVEL_SCALE).toNat -
          k.rpd_trig_sen_rls.toNat := hrel.2
      omega
    by_cases hdown : k.rapid.actn_pt < t
    · refine RapidUp.of_pressed gc_mode p false .up h.key hs ?_
      rw [rapid_step, if_neg (by exact hzero), if_pos (by exact hs), if_neg (by exact hhigh),
        if_neg hrel, if_pos (by exact hdown)]
      rfl
    · refine RapidUp.of_pressed gc_mode p false .no h.key hs ?_
      rw [rapid_step, if_neg (by exact hzero), if_pos (by exact hs), if_neg (by exact hhigh),
        if_neg hrel, if_neg (by exact hdown)]
      rfl
  · obtain ⟨hpt, hlow⟩ := h.rapid hs
    have hzero : k.state ≠ AKS_REGULAR_RELEASED := by rw [hs]; decide
    have hone : k.state ≠ AKS_REGULAR_PRESSED := by rw [hs]; decide
    have htlow : t.toNat + k.rpd_trig_sen_rls.toNat < (BOTTOM_DEAD_ZONE * TRAVEL_SCALE).toNat := by
      rw [UInt8.lt_iff_toNat_lt] at ht
      omega
    by_cases hhigh : t ≤ k.regular.deactn_pt
    · have hstep : rapid_step (sampled k t) = (AKS_REGULAR_RELEASED, false, .no) := by
        rw [rapid_step, if_neg (by exact hzero), if_neg (by exact hone), if_pos (by exact hs),
          if_pos (by exact hhigh)]
      obtain ⟨hup, hoff⟩ := RapidUp.of_released gc_mode p h.key hstep (by grind)
      exact ⟨hup, fun _ => hoff⟩
    have hagain : ¬ (k.rapid.actn_pt ≤ t ∧ k.regular.actn_pt ≤ t) := by grind
    by_cases hfollow : t < k.rapid.deactn_pt
    · refine RapidUp.of_rapid_released gc_mode p (c := false) h.key ?_ htlow (.inl rfl)
      rw [rapid_step, if_neg (by exact hzero), if_neg (by exact hone), if_pos (by exact hs),
        if_neg (by exact hhigh), if_neg (by exact hagain), if_pos (by exact hfollow), ← hs]
      rfl
    · refine RapidUp.of_rapid_released gc_mode p (c := false) h.key ?_ htlow (.inr ⟨rfl, by grind⟩)
      rw [rapid_step, if_neg (by exact hzero), if_neg (by exact hone), if_pos (by exact hs),
        if_neg (by exact hhigh), if_neg (by exact hagain), if_neg (by exact hfollow), ← hs]
      rfl

theorem RapidUp.zero {k : analog_key_t} (h : RapidUp k) (ht : 0 < k.last_travel) :
    pressed (strike gc_mode p k 0) = false := by
  obtain ⟨-, hstays⟩ := h.next gc_mode p ht
  by_cases hp : pressed k = true
  swap
  · exact hstays (Bool.not_eq_true _ ▸ hp)
  have hs : k.state = AKS_REGULAR_PRESSED := by
    rcases h.key.pressed_iff.mp hp with hs | hs
    · exact hs
    · have hfits := h.fits
      rw [hs] at hfits
      exact absurd hfits (by decide)
  have hzero : k.state ≠ AKS_REGULAR_RELEASED := by rw [hs]; decide
  have hstep : rapid_step (sampled k 0) = (AKS_REGULAR_RELEASED, true, .no) := by
    rw [rapid_step, if_neg (by exact hzero), if_pos (by exact hs), if_pos]
    change (0 : UInt8) ≤ k.regular.deactn_pt
    grind
  exact (RapidUp.of_released gc_mode p h.key hstep (by grind)).2

/-! ### DKS -/

structure OkmcKey (p : analog_matrix_profile_t R C) (cfg : okmc_traval_config_t)
    (k : analog_key_t) : Prop where
  mode : k.mode = AKM_DKS
  setting : (okmc_setting p k.rpd_trig_sen).travel = cfg
  reach : OkmcInReach cfg

section Okmc

variable {p} {cfg : okmc_traval_config_t} {k : analog_key_t} {t : UInt8}

theorem OkmcKey.next (h : OkmcKey p cfg k) (t : UInt8) : OkmcKey p cfg (strike gc_mode p k t) := by
  have hsame := strike_same gc_mode p k t
  refine ⟨hsame.mode.trans h.mode, ?_, h.reach⟩
  rw [hsame.data (by rw [h.mode]; decide)]
  exact h.setting

theorem OkmcKey.pressed_iff (h : OkmcKey p cfg k) : pressed k = true ↔ k.state ≠ 0 := by
  unfold pressed
  rw [if_pos h.mode, decide_eq_true_iff]
  rfl

theorem OkmcKey.released_iff (h : OkmcKey p cfg k) : pressed k = false ↔ k.state = 0 := by
  rw [← Bool.not_eq_true, h.pressed_iff, not_not]

theorem OkmcKey.state_eq (h : OkmcKey p cfg k) (t : UInt8) : (strike gc_mode p k t).state =
    if k.state = 0 then if 6 * cfg.shallow_act.toNat ≤ t.toNat then 1 else k.state
    else if k.state = 1 then
      if t.toNat < 6 * cfg.shallow_deact.toNat ∧ t.toNat + 6 < 6 * cfg.shallow_act.toNat then 0
      else if 6 * cfg.deep_act.toNat ≤ t.toNat then 2
      else k.state
    else if k.state = 2 then
      if 6 * cfg.deep_deact.toNat < t.toNat then 3
      else if t.toNat < 6 * cfg.shallow_deact.toNat ∧ t.toNat + 6 < 6 * cfg.shallow_act.toNat then 0
      else k.state
    else if k.state = 3 then if t.toNat ≤ 6 * cfg.deep_deact.toNat then 4 else k.state
    else if k.state = 4 then
      if t.toNat ≤ 6 * cfg.shallow_deact.toNat ∧ t.toNat + 6 < 6 * cfg.shallow_act.toNat then 0
      else k.state
    else k.state := by
  rw [strike_okmc h.mode, okmc_action_state, h.setting]
  simp only [scaled_eq, shallow_released_iff]
  rfl

/-- On the way down a pressed key is not above the point that pressed it. -/
structure OkmcDown (p : analog_matrix_profile_t R C) (cfg : okmc_traval_config_t)
    (k : analog_key_t) : Prop where
  key : OkmcKey p cfg k
  fits : k.state < 4
  below : k.state ≠ 0 → 6 * cfg.shallow_act.toNat ≤ k.last_travel.toNat
  ready : k.state = 3 → 6 * cfg.deep_deact.toNat < k.last_travel.toNat

theorem OkmcDown.next (h : OkmcDown p cfg k) (ht : k.last_travel < t) :
    OkmcDown p cfg (strike gc_mode p k t) ∧
      (6 * cfg.shallow_act.toNat ≤ t.toNat ∨ pressed k = true →
        pressed (strike gc_mode p k t) = true) := by
  have hkey := h.key.next gc_mode t
  rw [h.key.pressed_iff, hkey.pressed_iff]
  have hstate := h.key.state_eq gc_mode t
  have hlast := strike_last_travel gc_mode p k t
  have hfits := h.fits
  have hbelow := h.below
  have hready := h.ready
  rw [UInt8.lt_iff_toNat_lt] at ht
  refine ⟨⟨hkey, ?_, ?_, ?_⟩, ?_⟩
  · grind
  · rw [hlast]; grind
  · rw [hlast]; grind
  · grind

/-- On the way up a released key is not below the point that presses it. -/
structure OkmcUp (p : analog_matrix_profile_t R C) (cfg : okmc_traval_config_t)
    (k : analog_key_t) : Prop where
  key : OkmcKey p cfg k
  fits : k.state < 5
  above : k.state = 0 → k.last_travel.toNat < 6 * cfg.shallow_act.toNat

theorem OkmcUp.next (h : OkmcUp p cfg k) (ht : t < k.last_travel) :
    OkmcUp p cfg (strike gc_mode p k t) ∧
      (pressed k = false → pressed (strike gc_mode p k t) = false) := by
  have hkey := h.key.next gc_mode t
  rw [h.key.released_iff, hkey.released_iff]
  have hstate := h.key.state_eq gc_mode t
  have hlast := strike_last_travel gc_mode p k t
  have hfits := h.fits
  have habove := h.above
  rw [UInt8.lt_iff_toNat_lt] at ht
  refine ⟨⟨hkey, ?_, ?_⟩, ?_⟩
  · grind
  · rw [hlast]; grind
  · grind

/-- Past the points at which its actuations end, a key is released at the
second sample at the latest. -/
theorem OkmcUp.released (h : OkmcUp p cfg k) (ht : OkmcReleased cfg t) :
    (strike gc_mode p k t).state = 0 ∨ (strike gc_mode p k t).state = 4 := by
  have hstate := h.key.state_eq gc_mode t
  have hfits := h.fits
  obtain ⟨hdeep, hshallow, hrel⟩ := ht
  rw [scaled_eq] at hdeep hshallow
  rw [shallow_released_iff] at hrel
  grind

theorem OkmcUp.deactuated (h : OkmcUp p cfg k) (hs : k.state = 0 ∨ k.state = 4)
    (ht : t < k.last_travel) (hlast : OkmcReleased cfg k.last_travel) :
    pressed (strike gc_mode p k t) = false := by
  have hstate := h.key.state_eq gc_mode t
  obtain ⟨hdeep, hshallow, hrel⟩ := hlast
  rw [scaled_eq] at hdeep hshallow
  rw [shallow_released_iff] at hrel
  rw [(h.key.next gc_mode t).released_iff]
  rw [UInt8.lt_iff_toNat_lt] at ht
  grind

/-- A sample past those points before the last one leaves the key released. -/
theorem OkmcUp.ends {up : List UInt8} (h : OkmcUp p cfg k)
    (hrun : Along (strike gc_mode p) (fun k t => t < k.last_travel) k (up ++ [0]))
    (ht : ∃ t ∈ up, OkmcReleased cfg t) :
    pressed ((up ++ [0]).foldl (strike gc_mode p) k) = false := by
  obtain ⟨t, hmem, hrel⟩ := ht
  obtain ⟨before, after, rfl⟩ := List.append_of_mem hmem
  rw [List.append_assoc] at hrun ⊢
  obtain ⟨hbefore, hrest⟩ := Along.append.mp hrun
  rw [List.foldl_append]
  have hup := Along.invariant (I := OkmcUp p cfg) (fun k t h hc => (OkmcUp.next gc_mode h hc).1) h hbefore
  generalize before.foldl (strike gc_mode p) k = k' at hup hrest ⊢
  obtain ⟨htk, hrest⟩ := hrest
  rw [List.cons_append, List.foldl_cons]
  have hnext := (hup.next gc_mode htk).1
  have hstate := hup.released gc_mode hrel
  have hlast := strike_last_travel gc_mode p k' t
  generalize strike gc_mode p k' t = k'' at hnext hstate hlast hrest ⊢
  -- The samples after `t` are not empty, and the first of them releases the key.
  obtain ⟨x, xs, hxs⟩ : ∃ x xs, after ++ [0] = x :: xs := by
    cases after with
    | nil => exact ⟨0, [], rfl⟩
    | cons x xs => exact ⟨x, xs ++ [0], rfl⟩
  change Along _ _ k'' (after ++ [0]) at hrest
  rw [hxs] at hrest ⊢
  obtain ⟨hx, hrest⟩ := hrest
  have hoff := hnext.deactuated gc_mode hstate hx (hlast ▸ hrel)
  have hstep : ∀ k t, OkmcUp p cfg k → t < k.last_travel → OkmcUp p cfg (strike gc_mode p k t) ∧
      (pressed k = false → pressed (strike gc_mode p k t) = false) :=
    fun k t h hc => h.next gc_mode hc
  exact (edges_of_latched hstep (hnext.next gc_mode hx).1 hrest hoff).2

end Okmc

/-! ### Every mode -/

/-- From the released state, a stroke within reach has one press and one release. -/
theorem a_stroke_presses_once_and_releases_once {top : UInt8} (hp : InReach p key)
    (hoff : key.state = AKS_REGULAR_RELEASED) (hs : Stroke p key down top up) :
    edges (strike gc_mode p) pressed key ((down ++ [top]) ++ (up ++ [0])) = [true, false] := by
  have hzero : ∀ {Up : analog_key_t → Prop},
      (∀ k t, Up k → t < k.last_travel → Up (strike gc_mode p k t)) →
      (∀ k, Up k → 0 < k.last_travel → pressed (strike gc_mode p k 0) = false) →
      ∀ k, Up k → Along (strike gc_mode p) (fun k t => t < k.last_travel) k (up ++ [0]) →
        pressed ((up ++ [0]).foldl (strike gc_mode p) k) = false := by
    intro Up hup hlast k hk hrun
    obtain ⟨hbefore, hbottom⟩ := Along.append.mp hrun
    rw [List.foldl_append]
    exact hlast _ (Along.invariant hup hk hbefore) hbottom.1
  by_cases hr : key.mode = AKM_RAPID
  · have hpts := hp.points (by rw [hr]; decide)
    have h0 : RapidDown key := ⟨⟨hr, hpts, hp.rapid hr⟩, .inl hoff, fun h => by
      rw [hoff] at h
      exact absurd h (by decide)⟩
    refine edges_of_phases gc_mode p RapidDown RapidUp hs (fun k t h ht => ?_)
      (fun k t h ht hfull => ?_) (fun k h hon => ?_) (fun k t h ht => h.next gc_mode p ht)
      (hzero (fun k t h ht => (h.next gc_mode p ht).1) fun k h ht => h.zero gc_mode p ht) h0 ?_
    · obtain ⟨hnext, hon⟩ := h.next gc_mode p ht
      exact ⟨hnext, fun h => hon (.inr h)⟩
    · refine (h.next gc_mode p ht).2 (.inl ?_)
      have hbound := h.key.points.below_full
      grind
    · have hstate : k.state = AKS_REGULAR_PRESSED := h.fits.resolve_left fun hrel => by
        rw [h.key.pressed_iff, hrel] at hon
        exact absurd hon (by decide)
      refine ⟨h.key, .inr (.inl hstate), fun h => ?_, fun h => ?_⟩
      · rw [hstate] at h
        exact absurd h (by decide)
      · rw [hstate] at h
        exact absurd h (by decide)
    · rw [← Bool.not_eq_true, h0.key.pressed_iff, hoff]
      decide
  by_cases hd : key.mode = AKM_DKS
  · have hreach := hp.okmc hd
    have hkey : OkmcKey p (okmc_setting p key.rpd_trig_sen).travel key := ⟨hd, rfl, hreach⟩
    refine edges_of_phases gc_mode p (OkmcDown p (okmc_setting p key.rpd_trig_sen).travel)
      (OkmcUp p (okmc_setting p key.rpd_trig_sen).travel) hs (fun k t h ht => ?_)
      (fun k t h ht hfull => ?_) (fun k h hon => ?_) (fun k t h ht => h.next gc_mode ht)
      (fun k h hrun => h.ends gc_mode hrun (hs.okmc hd)) ⟨hkey, ?_, fun h => absurd hoff h, fun h => ?_⟩
      (hkey.released_iff.mpr hoff)
    · obtain ⟨hnext, hon⟩ := h.next gc_mode ht
      exact ⟨hnext, fun h => hon (.inr h)⟩
    · refine (h.next gc_mode ht).2 (.inl ?_)
      have hbound := hreach.full
      rw [show FULL_TRAVEL_UNIT.toNat = 40 from rfl] at hbound
      rw [show FULL_TRAVEL_UNIT * TRAVEL_SCALE = 240 by decide, UInt8.le_iff_toNat_le,
        show (240 : UInt8).toNat = 240 from rfl] at hfull
      omega
    · refine ⟨h.key, ?_, fun h0 => absurd h0 (h.key.pressed_iff.mp hon)⟩
      have hfits := h.fits
      grind
    · rw [hoff]
      decide
    · rw [hoff] at h
      exact absurd h (by decide)
  · have h0 : TwoStatesDown key := ⟨⟨hr, hd, by rw [hoff]; decide, hp.points hd⟩, fun h => by
      rw [hoff] at h
      exact absurd h (by decide)⟩
    refine edges_of_phases gc_mode p TwoStatesDown TwoStatesUp hs (fun k t h ht => h.next gc_mode p ht)
      (fun k t h ht hfull => h.full gc_mode p ht hfull) (fun k h hon => ?_) (fun k t h ht => h.next gc_mode p ht)
      (hzero (fun k t h ht => (h.next gc_mode p ht).1) fun k h ht => h.zero gc_mode p ht) h0
      (h0.key.released_iff.mpr hoff)
    refine ⟨h.key, fun h0 => ?_⟩
    rw [h.key.pressed_iff.mp hon] at h0
    exact absurd h0 (by decide)

end Stroke

end keychron_qmk.analog_matrix
