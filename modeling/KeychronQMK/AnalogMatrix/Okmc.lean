-- The keys of a DKS setting (`action_okmc.c`): what the actuations of the key do to the
-- reports, and when the way up leaves none of its keycodes behind.
import KeychronQMK.AnalogMatrix.Strokes
import KeychronQMK.Report.RegisterCode

namespace keychron_qmk.analog_matrix

open report action_util action runs

variable {R C : Nat}

/-! ## The actions of a setting -/

def is_basic (keycode : UInt16) : Prop :=
  KC_A.toNat ≤ keycode.toNat ∧ keycode.toNat ≤ KC_EXSEL.toNat

def is_modifier (keycode : UInt16) : Prop :=
  KC_LEFT_CTRL.toNat ≤ keycode.toNat ∧ keycode.toNat ≤ KC_RIGHT_GUI.toNat

instance : DecidablePred is_basic := fun _ => inferInstanceAs (Decidable (_ ∧ _))

instance : DecidablePred is_modifier := fun _ => inferInstanceAs (Decidable (_ ∧ _))

section Actions

variable (host : Host) (okmc : okmc_config_t)

def report_action (add : Bool) (keycode : UInt16) (s : State) : State :=
  let code := keycode.toUInt8
  if add then
    if is_basic keycode then
      if is_key_pressed host.host_can_send_nkro code s.report then s else add_key host code s
    else if is_modifier keycode then add_mods (MOD_BIT code) s
    else s
  else if is_basic keycode then
    if is_key_pressed host.host_can_send_nkro code s.report then del_key host code s else s
  else if is_modifier keycode then del_mods (MOD_BIT code) s
  else s

/-- One turn over the four keycodes, for those that are picked. -/
def report_actions (add : Bool) (picked : Fin 4 → Bool) (s : State) : State :=
  (List.finRange 4).foldl
    (fun s i =>
      if okmc.keycode i ≠ 0 ∧ picked i then report_action host add (okmc.keycode i) s else s) s

def release_okmc_keys (s : State) : State :=
  send host (report_actions host okmc false (fun _ => true) s)

/-- The loop over the bits of an action: the second bit presses, the others release. -/
def run_actions (field : okmc_action_t → BitVec 4) (s : State) : State :=
  (List.range 3).foldl
    (fun s bit =>
      let picked i := (field (okmc.action i)).getLsbD bit
      let s := report_actions host okmc (bit % 2 = 1) picked s
      let any_action := ∃ i, okmc.keycode i ≠ 0 ∧ picked i
      if any_action then send host s else s) s

def shallow_actuate (s : State) : State := run_actions host okmc (fun a => a.shallow_act) s

def shallow_deactuate (s : State) : State :=
  release_okmc_keys host okmc (send host (run_actions host okmc (fun a => a.shallow_deact) s))

def deep_actuate (s : State) : State := run_actions host okmc (fun a => a.deep_act) s

def deep_deactuate (s : State) : State := run_actions host okmc (fun a => a.deep_deact) s

def okmc_event (s : State) : Event → State
  | .shallow_actuate => shallow_actuate host okmc s
  | .shallow_deactuate => shallow_deactuate host okmc s
  | .deep_actuate => deep_actuate host okmc s
  | .deep_deactuate => deep_deactuate host okmc s
  | .release_okmc_keys => release_okmc_keys host okmc s
  | _ => s

end Actions

/-! ## The reports -/

section Reports

variable {host : Host} {okmc : okmc_config_t}

variable {keycode : UInt16}

theorem is_basic_code (h : is_basic keycode) : IS_BASIC_KEYCODE keycode.toUInt8 = true := by
  rw [basic_iff]
  obtain ⟨hlo, hhi⟩ := h
  have hA : KC_A.toNat = 4 := rfl
  have hE : KC_EXSEL.toNat = 0xA4 := rfl
  rw [UInt16.toNat_toUInt8]
  omega

theorem is_modifier_code (h : is_modifier keycode) :
    IS_MODIFIER_KEYCODE keycode.toUInt8 = true := by
  rw [modifier_iff]
  obtain ⟨hlo, hhi⟩ := h
  have hC : KC_LEFT_CTRL.toNat = 0xE0 := rfl
  have hG : KC_RIGHT_GUI.toNat = 0xE7 := rfl
  rw [UInt16.toNat_toUInt8]
  omega

/-- The reports are in order, and the keys of the setting that are in the
NKRO report are reached. -/
structure OkmcFits (host : Host) (okmc : okmc_config_t) (s : State) : Prop where
  sound : action.Sound s.report
  reach : ∀ i, is_basic (okmc.keycode i) → Reaches host s.report (okmc.keycode i).toUInt8

theorem reaches_add_key {r : Report} {key : UInt8} (hreach : Reaches host r key) :
    Reaches host (add_key_to_report host.host_can_send_nkro key r) key := by
  intro h0 hset
  unfold add_key_to_report at hset
  split at hset
  · rename_i hnkro
    exact hnkro.1
  · rcases add_key_byte_cases key r with ⟨heq, -⟩ | ⟨e, -, -, heq⟩
    · rw [heq] at hset
      exact hreach h0 hset
    · rw [heq] at hset
      exact hreach h0 hset

variable {s : State}

theorem OkmcFits.of_changed {s' : State} {code : UInt8} (h : OkmcFits host okmc s)
    (hchanged : CodeChanged code s s')
    (hreach : IS_BASIC_KEYCODE code = true → Reaches host s'.report code) :
    OkmcFits host okmc s' := by
  refine ⟨hchanged.sound, fun i hb h0 hset => ?_⟩
  by_cases hc : (okmc.keycode i).toUInt8 = code
  · subst hc
    exact hreach (is_basic_code hb) h0 hset
  · rw [hchanged.bit _ h0 hc] at hset
    exact h.reach i hb h0 hset

theorem OkmcFits.send (h : OkmcFits host okmc s) : OkmcFits host okmc (send host s) := by
  refine ⟨send_sound h.sound host, fun i hb h0 hset => ?_⟩
  rw [send_hasBit] at hset
  exact h.reach i hb h0 hset

theorem OkmcFits.press (h : OkmcFits host okmc s) (i : Fin 4) :
    OkmcFits host okmc (report_action host true (okmc.keycode i) s) := by
  unfold report_action
  rw [if_pos rfl]
  split
  · rename_i hb
    have hreach := h.reach i hb
    have hkey := is_key_pressed_holds h.sound (basic_inNkroRange (is_basic_code hb)).1 hreach
    split
    · exact h
    · rename_i hfree
      rw [hkey, Bool.not_eq_true] at hfree
      have hchanged : Changed _ s.report
          (add_key_to_report host.host_can_send_nkro (okmc.keycode i).toUInt8 s.report) :=
        add_key_changed h.sound (is_basic_code hb) hfree
      exact h.of_changed hchanged.code fun _ => reaches_add_key hreach
  split
  · rename_i hm
    have hcode := is_modifier_code hm
    refine h.of_changed (mods_changed h.sound fun other hm' hne => ?_)
      fun hb => absurd hb (modifier_not_basic hcode)
    exact or_and_bitOf s.mods.real_mods _ other (modifier_bits hcode hm' hne)
  · exact h

/-- A release keeps the reports in order, takes its keycode out of them and
brings none back. -/
theorem OkmcFits.release (h : OkmcFits host okmc s) (i : Fin 4) :
    OkmcFits host okmc (report_action host false (okmc.keycode i) s) ∧
      ∀ j, is_basic (okmc.keycode j) → (j = i ∨ holds s.report (okmc.keycode j).toUInt8 = false) →
        holds (report_action host false (okmc.keycode i) s).report
          (okmc.keycode j).toUInt8 = false := by
  unfold report_action
  rw [if_neg (by simp)]
  split
  · rename_i hb
    have h0 := (basic_inNkroRange (is_basic_code hb)).1
    have hreach := h.reach i hb
    have hkey := is_key_pressed_holds h.sound h0 hreach
    split
    · obtain ⟨hchanged, hgone⟩ := del_key_changed h.sound (is_basic_code hb) hreach
      refine ⟨h.of_changed hchanged.code fun _ _ hset => ?_, fun j hj hor => ?_⟩
      · have hheld : holds (del_key host (okmc.keycode i).toUInt8 s).report
            (okmc.keycode i).toUInt8 = true := by
          unfold holds
          rw [decide_eq_true_iff]
          exact .inr hset
        exact absurd (hheld.symm.trans hgone) (by simp)
      · by_cases hc : (okmc.keycode j).toUInt8 = (okmc.keycode i).toUInt8
        · rw [hc]
          exact hgone
        · have hfree := hor.resolve_left fun hji => hc (by rw [hji])
          exact ((hchanged.other _ (basic_inNkroRange (is_basic_code hj)).1 hc).1).trans hfree
    · rename_i hfree
      rw [hkey, Bool.not_eq_true] at hfree
      refine ⟨h, fun j _ hor => ?_⟩
      rcases hor with rfl | hj
      · exact hfree
      · exact hj
  · rename_i hb
    split
    · rename_i hm
      have hcode := is_modifier_code hm
      have hchanged : CodeChanged (okmc.keycode i).toUInt8 s
          (del_mods (MOD_BIT (okmc.keycode i).toUInt8) s) :=
        mods_changed h.sound fun other hm' hne =>
          and_not_and_bitOf s.mods.real_mods _ other (modifier_bits hcode hm' hne)
      refine ⟨h.of_changed hchanged fun hb => absurd hb (modifier_not_basic hcode),
        fun j hj hor => ?_⟩
      have hji : j ≠ i := fun hji => hb (hji ▸ hj)
      have hne : (okmc.keycode j).toUInt8 ≠ (okmc.keycode i).toUInt8 := fun hc =>
        modifier_not_basic hcode (hc ▸ is_basic_code hj)
      have hsame := hchanged.registered _ hne
      rw [registered_basic (is_basic_code hj), registered_basic (is_basic_code hj)] at hsame
      exact hsame.trans (hor.resolve_left hji)
    · refine ⟨h, fun j hj hor => hor.resolve_left fun hji => hb (hji ▸ hj)⟩

theorem OkmcFits.action (h : OkmcFits host okmc s) (add : Bool) (i : Fin 4) :
    OkmcFits host okmc (report_action host add (okmc.keycode i) s) := by
  cases add with
  | true => exact h.press i
  | false => exact (h.release i).1

theorem OkmcFits.actions (h : OkmcFits host okmc s) (add : Bool) (picked : Fin 4 → Bool) :
    OkmcFits host okmc (report_actions host okmc add picked s) := by
  refine List.foldlRecOn _ _ h fun s hs i _ => ?_
  split
  · exact hs.action add i
  · exact hs

theorem OkmcFits.run (h : OkmcFits host okmc s) (field : okmc_action_t → BitVec 4) :
    OkmcFits host okmc (run_actions host okmc field s) := by
  refine List.foldlRecOn _ _ h fun s hs bit _ => ?_
  dsimp only
  split
  · exact (hs.actions _ _).send
  · exact hs.actions _ _

def NoneLeft (okmc : okmc_config_t) (s : State) : Prop :=
  ∀ i, is_basic (okmc.keycode i) → holds s.report (okmc.keycode i).toUInt8 = false

instance (okmc : okmc_config_t) : DecidablePred (NoneLeft okmc) := fun s =>
  inferInstanceAs (Decidable (∀ i, is_basic (okmc.keycode i) →
    holds s.report (okmc.keycode i).toUInt8 = false))

theorem OkmcFits.releases {s : State} (h : OkmcFits host okmc s) (is : List (Fin 4)) :
    let s' := is.foldl (fun s i =>
      if okmc.keycode i ≠ 0 ∧ true then report_action host false (okmc.keycode i) s else s) s
    OkmcFits host okmc s' ∧ ∀ j, is_basic (okmc.keycode j) →
      (j ∈ is ∨ holds s.report (okmc.keycode j).toUInt8 = false) →
        holds s'.report (okmc.keycode j).toUInt8 = false := by
  induction is generalizing s with
  | nil => exact ⟨h, fun j _ hor => hor.resolve_left (by simp)⟩
  | cons i is ih =>
    rw [List.foldl_cons]
    split
    · obtain ⟨hfits, hgone⟩ := h.release i
      obtain ⟨hrest, hout⟩ := ih hfits
      refine ⟨hrest, fun j hj hor => hout j hj ?_⟩
      rcases hor with hmem | hfree
      · rcases List.mem_cons.mp hmem with hji | hmem
        · exact .inr (hgone j hj (.inl hji))
        · exact .inl hmem
      · exact .inr (hgone j hj (.inr hfree))
    · rename_i hzero
      obtain ⟨hrest, hout⟩ := ih h
      refine ⟨hrest, fun j hj hor => hout j hj ?_⟩
      rcases hor with hmem | hfree
      · refine .inl ((List.mem_cons.mp hmem).resolve_left fun hji => hzero ⟨fun h0 => ?_, rfl⟩)
        rw [hji, h0] at hj
        exact absurd hj (by decide)
      · exact .inr hfree

theorem OkmcFits.release_okmc_keys (h : OkmcFits host okmc s) :
    OkmcFits host okmc (release_okmc_keys host okmc s) ∧
      NoneLeft okmc (release_okmc_keys host okmc s) := by
  obtain ⟨hfits, hout⟩ := h.releases (List.finRange 4)
  refine ⟨hfits.send, fun i hi => ?_⟩
  exact (send_holds host _ _).trans (hout i hi (.inl (List.mem_finRange i)))

theorem OkmcFits.shallow_deactuate (h : OkmcFits host okmc s) :
    OkmcFits host okmc (shallow_deactuate host okmc s) ∧
      NoneLeft okmc (shallow_deactuate host okmc s) :=
  (h.run _).send.release_okmc_keys

theorem OkmcFits.event (h : OkmcFits host okmc s) (e : Event) :
    OkmcFits host okmc (okmc_event host okmc s e) := by
  cases e with
  | axis_travel | button | matrix => exact h
  | shallow_actuate | deep_actuate | deep_deactuate => exact h.run _
  | shallow_deactuate => exact h.shallow_deactuate.1
  | release_okmc_keys => exact h.release_okmc_keys.1

end Reports

/-! ## A key under its travels -/

structure DksKey where
  key : analog_key_t
  in_matrix : Bool
  reports : State

/-- A travel that a sample converts to, and what the host answers then. -/
structure TravelUpdate where
  travel : UInt8
  host : Host

section Travels

variable (okmc : okmc_config_t)

def DksKey.update (k : DksKey) (x : TravelUpdate) : DksKey :=
  let key := { k.key with travel := x.travel }
  if key.travel = key.last_travel then { k with key }
  else
    let a := okmc_action okmc.travel { key with last_travel := key.travel }
    let pressed : Bool :=
      OKMC_SHALLOW_ACTUATED ≤ a.key.state ∧ a.key.state ≤ OKMC_DEEP_DEACT_READY
    { key := a.key
      in_matrix := if a.changed then pressed else k.in_matrix
      reports := a.events.foldl (okmc_event x.host okmc) k.reports }

theorem update_raw_value_dks (cfg : Config R C) (b : Board R C) (row : Fin R) (col : Fin C)
    (s : Sample) (in_matrix : Bool) (reports : State) (host : Host)
    (hvalid : ¬ (s.value.toNat < VALID_ANALOG_RAW_VALUE_MIN ∨
      VALID_ANALOG_RAW_VALUE_MAX < s.value.toNat)) (hcalibrating : s.calibrating = false) :
    let b' := auto_caliration_check cfg b row col s.auto
    let k := b'.analog_key_matrix row col
    k.mode = AKM_DKS → ¬ ((k.last_val.toNat : Int) - s.value.toNat).natAbs < 5 →
      (update_raw_value cfg b row col s).2.analog_key_matrix row col =
        (DksKey.update (okmc_setting b'.profile_get_current k.rpd_trig_sen)
          ⟨{ k with last_val := s.value, value := s.value }, in_matrix, reports⟩
          ⟨s.travel, host⟩).key := by
  intro b' k hmode hnew
  have hdks : AKM_DKS ≠ AKM_RAPID := by decide
  unfold update_raw_value DksKey.update
  rw [if_neg hvalid, if_neg (by simp [hcalibrating])]
  rw [if_neg hnew]
  by_cases heq : s.travel = k.last_travel
  · rw [if_pos heq, if_pos heq]
    exact if_pos ⟨rfl, rfl⟩
  · rw [if_neg heq, if_neg heq]
    unfold key_action
    rw [if_neg (by exact hmode ▸ hdks), if_pos (by exact hmode)]
    exact if_pos ⟨rfl, rfl⟩

structure DksKey.Released (k : DksKey) : Prop where
  state : k.key.state = OKMC_RELEASED
  in_matrix : k.in_matrix = false
  none_left : NoneLeft okmc k.reports

structure DksKey.AtRest (k : DksKey) : Prop where
  released : k.Released okmc
  sound : action.Sound k.reports.report

def ReleasedAtZero (k : DksKey) (x : TravelUpdate) : Prop :=
  x.travel = 0 → (k.update okmc x).Released okmc

def Reached (k : DksKey) (x : TravelUpdate) : Prop :=
  ∀ i, is_basic (okmc.keycode i) → Reaches x.host k.reports.report (okmc.keycode i).toUInt8

/-- A travel of 0 takes the state to the released one. From the readiness for
the deep deactuation it takes two travels. -/
def LiftReleases (cfg : okmc_traval_config_t) (state : UInt8) : Prop :=
  if state = OKMC_RELEASED then cfg.shallow_act ≠ 0
  else if state = OKMC_DEEP_DEACT_READY then False
  else 2 ≤ cfg.shallow_act.toNat ∧ (state = OKMC_DEEP_DEACTUATED ∨ cfg.shallow_deact ≠ 0)

/-- Where the last travel was not 0 already, the key is lifted from a state
that releases it. -/
def LiftedInTime (k : DksKey) (x : TravelUpdate) : Prop :=
  x.travel = 0 → k.key.last_travel ≠ 0 → LiftReleases okmc.travel k.key.state

/-- What a travel does to the state of a key and to the reports. -/
inductive OkmcMove (key : analog_key_t) (a : Action) : Prop
  | stay (hchanged : a.changed = false) (hevents : a.events = [])
    (hstate : a.key.state = OKMC_RELEASED ↔ key.state = OKMC_RELEASED)
  | actuate (hchanged : a.changed = true) (hstate : a.key.state ≠ OKMC_RELEASED)
  | release (hchanged : a.changed = true) (hstate : a.key.state = OKMC_RELEASED)
    (hevents : a.events = [.release_okmc_keys] ∨ a.events = [.shallow_deactuate])

theorem okmc_action_move (cfg : okmc_traval_config_t) (key : analog_key_t) :
    OkmcMove key (okmc_action cfg key) := by
  unfold okmc_action
  dsimp only
  split
  · split
    · exact .actuate rfl (by simp [OKMC_SHALLOW_ACTUATED, OKMC_RELEASED, AKS_REGULAR_RELEASED])
    · exact .stay rfl rfl Iff.rfl
  split
  · split
    · exact .release rfl rfl (.inl rfl)
    split
    · exact .actuate rfl (by simp [OKMC_DEEP_ACTUATED, OKMC_RELEASED, AKS_REGULAR_RELEASED])
    · exact .stay rfl rfl Iff.rfl
  split
  · rename_i hoff _ _
    split
    · refine .stay rfl rfl (iff_of_false ?_ hoff)
      simp [OKMC_DEEP_DEACT_READY, OKMC_RELEASED, AKS_REGULAR_RELEASED]
    split
    · exact .release rfl rfl (.inl rfl)
    · exact .stay rfl rfl Iff.rfl
  split
  · split
    · exact .actuate rfl (by simp [OKMC_DEEP_DEACTUATED, OKMC_RELEASED, AKS_REGULAR_RELEASED])
    · exact .stay rfl rfl Iff.rfl
  split
  · split
    · exact .release rfl rfl (.inr rfl)
    · exact .stay rfl rfl Iff.rfl
  · exact .stay rfl rfl Iff.rfl

theorem lift_releases_iff (cfg : okmc_traval_config_t) (key : analog_key_t) (h : key.state < 5)
    (ht : key.travel = 0) :
    LiftReleases cfg key.state ↔ (okmc_action cfg key).key.state = OKMC_RELEASED := by
  rw [okmc_action_state, ht]
  simp only [scaled_eq, shallow_released_iff]
  unfold LiftReleases
  have hact : cfg.shallow_act ≠ 0 ↔ 0 < cfg.shallow_act.toNat := by
    rw [ne_eq, ← BitVec.toNat_inj, Nat.pos_iff_ne_zero]
    rfl
  have hdeact : cfg.shallow_deact ≠ 0 ↔ 0 < cfg.shallow_deact.toNat := by
    rw [ne_eq, ← BitVec.toNat_inj, Nat.pos_iff_ne_zero]
    rfl
  simp only [OKMC_RELEASED, AKS_REGULAR_RELEASED, OKMC_SHALLOW_ACTUATED, OKMC_DEEP_ACTUATED,
    OKMC_DEEP_DEACT_READY, OKMC_DEEP_DEACTUATED, UInt8.toNat_zero]
  grind

/-! ### Runs -/

variable {okmc} {k : DksKey} {x : TravelUpdate}

/-- What the travels keep of a key: where it is released, nothing is left of it. -/
structure DksKey.Tidy (okmc : okmc_config_t) (k : DksKey) : Prop where
  fits : k.key.state < 5
  sound : action.Sound k.reports.report
  rest : k.key.state = OKMC_RELEASED → k.Released okmc

theorem DksKey.update_moved (okmc : okmc_config_t) (hne : x.travel ≠ k.key.last_travel) :
    let a := okmc_action okmc.travel { k.key with travel := x.travel, last_travel := x.travel }
    (k.update okmc x).key = a.key ∧
      (k.update okmc x).in_matrix = (if a.changed then
        decide (OKMC_SHALLOW_ACTUATED ≤ a.key.state ∧ a.key.state ≤ OKMC_DEEP_DEACT_READY)
      else k.in_matrix) ∧
      (k.update okmc x).reports = a.events.foldl (okmc_event x.host okmc) k.reports := by
  unfold DksKey.update
  rw [if_neg hne]
  exact ⟨rfl, rfl, rfl⟩

theorem DksKey.update_still (heq : x.travel = k.key.last_travel) :
    k.update okmc x = { k with key := { k.key with travel := x.travel } } := if_pos heq

theorem DksKey.Tidy.update (h : k.Tidy okmc) (hreach : Reached okmc k x) :
    (k.update okmc x).Tidy okmc := by
  by_cases heq : x.travel = k.key.last_travel
  · rw [DksKey.update_still heq]
    exact ⟨h.fits, h.sound, fun hs => ⟨hs, (h.rest hs).in_matrix, (h.rest hs).none_left⟩⟩
  obtain ⟨hkey, hmatrix, hreports⟩ := DksKey.update_moved okmc heq
  have hfits : OkmcFits x.host okmc k.reports := ⟨h.sound, hreach⟩
  have hlast : OkmcFits x.host okmc (k.update okmc x).reports := by
    rw [hreports]
    exact List.foldlRecOn _ _ hfits fun s hs e _ => hs.event e
  refine ⟨?_, hlast.sound, fun hs => ⟨hs, ?_, ?_⟩⟩
  · rw [hkey]
    exact okmc_action_fits _ h.fits
  · rw [hkey] at hs
    rw [hmatrix]
    rcases okmc_action_move okmc.travel { k.key with travel := x.travel, last_travel := x.travel }
      with ⟨hchanged, -, hstate⟩ | ⟨-, hstate⟩ | ⟨hchanged, -, -⟩
    · rw [if_neg (by simp [hchanged])]
      exact (h.rest (hstate.mp hs)).in_matrix
    · exact absurd hs hstate
    · rw [if_pos hchanged, hs]
      simp [OKMC_RELEASED, AKS_REGULAR_RELEASED, OKMC_SHALLOW_ACTUATED]
  · rw [hkey] at hs
    rw [hreports]
    rcases okmc_action_move okmc.travel { k.key with travel := x.travel, last_travel := x.travel }
      with ⟨-, hevents, hstate⟩ | ⟨-, hstate⟩ | ⟨-, -, hevents⟩
    · rw [hevents]
      exact (h.rest (hstate.mp hs)).none_left
    · exact absurd hs hstate
    · rcases hevents with hevents | hevents
      · rw [hevents]
        exact hfits.release_okmc_keys.2
      · rw [hevents]
        exact hfits.shallow_deactuate.2

structure DksKey.Followed (okmc : okmc_config_t) (k : DksKey) : Prop where
  tidy : k.Tidy okmc
  zero : k.key.last_travel = 0 → k.key.state = OKMC_RELEASED

theorem okmc_action_last_travel (cfg : okmc_traval_config_t) (key : analog_key_t) :
    (okmc_action cfg key).key.last_travel = key.last_travel := by
  unfold okmc_action
  dsimp only
  repeat' split
  all_goals rfl

theorem lifted_in_time_iff (h : k.Followed okmc) (hreach : Reached okmc k x) :
    LiftedInTime okmc k x ↔ ReleasedAtZero okmc k x := by
  have htidy := h.tidy.update hreach
  refine forall_congr' fun ht => ?_
  by_cases heq : x.travel = k.key.last_travel
  · have hzero := heq.symm.trans ht
    refine iff_of_true (fun hne => absurd hzero hne) (htidy.rest ?_)
    rw [DksKey.update_still heq]
    exact h.zero hzero
  obtain ⟨hkey, -, -⟩ := DksKey.update_moved okmc heq
  have hne : k.key.last_travel ≠ 0 := fun hzero => heq (ht.trans hzero.symm)
  have hlift := lift_releases_iff okmc.travel
    { k.key with travel := x.travel, last_travel := x.travel } h.tidy.fits ht
  rw [← hkey] at hlift
  constructor
  · intro hlifted
    exact htidy.rest (hlift.mp (hlifted hne))
  · intro hreleased _
    exact hlift.mpr hreleased.state

theorem DksKey.Followed.update (h : k.Followed okmc) (hreach : Reached okmc k x)
    (hp : ReleasedAtZero okmc k x) : (k.update okmc x).Followed okmc := by
  refine ⟨h.tidy.update hreach, fun hlast => ?_⟩
  by_cases heq : x.travel = k.key.last_travel
  · rw [DksKey.update_still heq] at hlast ⊢
    exact h.zero hlast
  obtain ⟨hkey, -, -⟩ := DksKey.update_moved okmc heq
  rw [hkey, okmc_action_last_travel] at hlast
  exact (hp hlast).state

theorem DksKey.AtRest.followed (h : k.AtRest okmc) : k.Followed okmc := by
  have hs := h.released.state
  refine ⟨⟨?_, h.sound, fun _ => h.released⟩, fun _ => hs⟩
  rw [hs]
  simp [OKMC_RELEASED, AKS_REGULAR_RELEASED]

/-- In a run whose keys in the NKRO report are reached, the key is released
at every travel of 0 exactly when it is always lifted from a state that one
travel of 0 releases. -/
theorem dks_keys_are_released_iff (okmc : okmc_config_t) {k : DksKey} {xs : List TravelUpdate}
    (h0 : k.AtRest okmc) (hreach : Along (DksKey.update okmc) (Reached okmc) k xs) :
    Along (DksKey.update okmc) (ReleasedAtZero okmc) k xs ↔
      Along (DksKey.update okmc) (LiftedInTime okmc) k xs :=
  Along.iff_of_along (I := DksKey.Followed okmc) (fun _ _ h hx => lifted_in_time_iff h hx)
    (fun _ _ h hx hp => h.update hx hp) h0.followed hreach

/-! ### A fast release -/

/-- A setting with an A that is pressed at the shallow actuation and
released by no action. -/
def deepSetting : okmc_config_t :=
  ⟨⟨20, 10, 30, 28⟩, fun i => if i.val = 0 then 0x04 else 0, fun _ => ⟨2, 0, 0, 0⟩⟩

def restingKey : DksKey := ⟨{ analog_key_t.zero with mode := AKM_DKS }, false, .start⟩

theorem resting_key_at_rest : restingKey.AtRest deepSetting :=
  ⟨⟨rfl, rfl, fun _ hi => action.start_holds (basic_inNkroRange (is_basic_code hi)).1⟩, start_sound⟩

/-- The travels, while the host takes the NKRO report. -/
def travels (ts : List UInt8) : List TravelUpdate := ts.map fun travel => ⟨travel, ⟨true, false⟩⟩

theorem travels_reached (ts : List UInt8) (k : DksKey) :
    Along (DksKey.update okmc) (Reached okmc) k (travels ts) := by
  have hnkro : ∀ x ∈ travels ts, x.host.host_can_send_nkro = true := fun x hx => by
    obtain ⟨t, -, rfl⟩ := List.mem_map.mp hx
    rfl
  exact Along.imp (I := fun _ => True) (fun k x _ hx => ⟨fun _ _ _ _ => hx, trivial⟩) trivial
    (Along.of_mem hnkro k)

theorem a_slow_release_is_followed :
    Along (DksKey.update deepSetting) (ReleasedAtZero deepSetting) restingKey
        (travels [150, 200, 201, 160, 0]) ↔
      Along (DksKey.update deepSetting) (LiftedInTime deepSetting) restingKey
        (travels [150, 200, 201, 160, 0]) :=
  dks_keys_are_released_iff deepSetting resting_key_at_rest (travels_reached _ _)

/-- The key is past the deep actuation, and its next travel is 0: it stays in
the deep deactuation, with its A in the reports. -/
theorem a_fast_release_leaves_the_key : ¬ ∀ (okmc : okmc_config_t) (k : DksKey)
    (xs : List TravelUpdate), k.AtRest okmc → Along (DksKey.update okmc) (Reached okmc) k xs →
      Along (DksKey.update okmc) (ReleasedAtZero okmc) k xs := by
  intro h
  have hrun := h deepSetting restingKey (travels [150, 200, 201, 0]) resting_key_at_rest
    (travels_reached _ _)
  obtain ⟨-, -, -, hlast, -⟩ := hrun
  have hstate := (hlast rfl).state
  exact absurd hstate (by decide)

end Travels

end keychron_qmk.analog_matrix
