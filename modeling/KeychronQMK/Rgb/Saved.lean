-- What the commands save while the lights render: the renderer writes no EEPROM,
-- but MIXED RGB leaves its own color and speed in the configuration, and a command
-- that steps or keeps them saves what it finds there.
import KeychronQMK.Rgb.HostPackets
import KeychronQMK.Rgb.Task

namespace keychron_qmk.rgb_matrix

open traced via_rgb_matrix runs

variable {b : Board} {s r : State}

/-- The configuration in EEPROM. -/
def State.saved (s : State) : rgb_config_t := nvm_eeconfig_read_rgb_matrix s.eeprom

/-! ## The task -/

/-- What no task changes. -/
structure Undrawn (s s' : State) : Prop where
  eeprom : s'.eeprom = s.eeprom
  enable : s'.rgb_matrix_config.enable = s.rgb_matrix_config.enable
  mode : s'.rgb_matrix_config.mode = s.rgb_matrix_config.mode
  dirty : s'.dirty_rgb_matrix = s.dirty_rgb_matrix

theorem Undrawn.refl (s : State) : Undrawn s s := ⟨rfl, rfl, rfl, rfl⟩

theorem Undrawn.trans {s s' s'' : State} (h : Undrawn s s') (h' : Undrawn s' s'') :
    Undrawn s s'' :=
  ⟨h'.eeprom.trans h.eeprom, h'.enable.trans h.enable, h'.mode.trans h.mode,
    h'.dirty.trans h.dirty⟩

@[simp] theorem sethsv_noeeprom_enable (hue sat val : UInt8) (c : rgb_config_t) :
    (rgb_matrix_sethsv_noeeprom b.toBuild hue sat val c).enable = c.enable := by
  unfold rgb_matrix_sethsv_noeeprom
  split <;> rfl

@[simp] theorem sethsv_noeeprom_mode (hue sat val : UInt8) (c : rgb_config_t) :
    (rgb_matrix_sethsv_noeeprom b.toBuild hue sat val c).mode = c.mode := by
  unfold rgb_matrix_sethsv_noeeprom
  split <;> rfl

@[simp] theorem set_speed_noeeprom_enable (speed : UInt8) (c : rgb_config_t) :
    (rgb_matrix_set_speed_noeeprom speed c).enable = c.enable := by
  unfold rgb_matrix_set_speed_noeeprom
  split <;> rfl

@[simp] theorem set_speed_noeeprom_mode (speed : UInt8) (c : rgb_config_t) :
    (rgb_matrix_set_speed_noeeprom speed c).mode = c.mode := by
  unfold rgb_matrix_set_speed_noeeprom
  split <;> rfl

theorem runner_undrawn (run : LayerRun) (s : State) :
    Undrawn s (multiple_rgb_effect_runner b run s).2 := by
  unfold multiple_rgb_effect_runner
  dsimp only
  split
  · exact ⟨rfl, rfl, rfl, rfl⟩
  · refine ⟨rfl, ?_, ?_, rfl⟩
    · split <;> simp
    · split <;> simp

theorem mixed_rgb_undrawn (run : TaskRun) (s : State) : Undrawn s (mixed_rgb b run s).2 := by
  refine List.foldlRecOn (motive := fun r : Bool × State => Undrawn s r.2) _ _ ?_
    fun r hr i _ => ?_
  · dsimp only
    split
    · exact ⟨rfl, rfl, rfl, rfl⟩
    · exact .refl s
  · refine Undrawn.trans ?_ (runner_undrawn (run.layer i) _)
    exact ⟨hr.eeprom, hr.enable, hr.mode, hr.dirty⟩

theorem run_effect_undrawn (run : TaskRun) (effect : UInt8) (s : State) :
    Undrawn s (run_effect b run effect s).2 := by
  unfold run_effect
  split
  · exact .refl s
  · split
    · exact mixed_rgb_undrawn run s
    · exact .refl s

theorem reload_undrawn (effect : UInt8) (s : State) : Undrawn s (reload b effect s) := by
  unfold reload
  split
  · exact ⟨rfl, rfl, rfl, rfl⟩
  · exact .refl s

theorem render_undrawn (run : TaskRun) (effect : UInt8) (s : State) :
    Undrawn s (rgb_task_render b run effect s) := by
  unfold rgb_task_render
  dsimp only
  generalize hs : reload b effect _ = s1
  have hreload : Undrawn s s1 := by
    rw [← hs]
    refine Undrawn.trans ?_ (reload_undrawn effect _)
    exact ⟨rfl, rfl, rfl, rfl⟩
  split
  · exact ⟨hreload.eeprom, hreload.enable, hreload.mode, hreload.dirty⟩
  · generalize hr : run_effect b run effect _ = r
    have hrun : Undrawn s r.2 := by
      rw [← hr]
      refine Undrawn.trans ?_ (run_effect_undrawn run effect _)
      exact ⟨hreload.eeprom, hreload.enable, hreload.mode, hreload.dirty⟩
    split
    · exact ⟨hrun.eeprom, hrun.enable, hrun.mode, hrun.dirty⟩
    · split <;> exact ⟨hrun.eeprom, hrun.enable, hrun.mode, hrun.dirty⟩

theorem flush_of_clean (h : s.dirty_rgb_matrix = false) : eeconfig_flush_rgb_matrix false s = s := by
  unfold eeconfig_flush_rgb_matrix
  rw [h]
  rfl

theorem task_undrawn (run : TaskRun) (h : s.dirty_rgb_matrix = false) :
    Undrawn s (rgb_matrix_task b run s) := by
  unfold rgb_matrix_task rgb_task_timers
  dsimp only
  split
  · exact ⟨rfl, rfl, rfl, rfl⟩
  · refine Undrawn.trans ?_ (render_undrawn run _ _)
    exact ⟨rfl, rfl, rfl, rfl⟩
  · exact ⟨rfl, rfl, rfl, rfl⟩
  · unfold rgb_task_sync
    rw [flush_of_clean (by exact h)]
    dsimp only
    split <;> exact ⟨rfl, rfl, rfl, rfl⟩

/-! ## The commands beside each other -/

/-- A run with rendering beside one without. Only the color and the speed in the
configuration may differ, and those of the second run are the saved ones. -/
structure Beside (s r : State) : Prop where
  eeprom : s.eeprom = r.eeprom
  enable : s.rgb_matrix_config.enable = r.rgb_matrix_config.enable
  mode : s.rgb_matrix_config.mode = r.rgb_matrix_config.mode
  dirty : s.dirty_rgb_matrix = false
  hsv : r.rgb_matrix_config.hsv = r.saved.hsv
  speed : r.rgb_matrix_config.speed = r.saved.speed

theorem Beside.saved (h : Beside s r) : s.saved = r.saved := by
  unfold State.saved
  rw [h.eeprom]

theorem Beside.of_undrawn (h : Beside s r) {s' : State} (hs : Undrawn s s') : Beside s' r :=
  ⟨hs.eeprom.trans h.eeprom, hs.enable.trans h.enable, hs.mode.trans h.mode,
    hs.dirty.trans h.dirty, h.hsv, h.speed⟩

theorem Beside.hsv_eq (h : Beside s r) (hs : s.rgb_matrix_config.hsv = s.saved.hsv) :
    s.rgb_matrix_config.hsv = r.rgb_matrix_config.hsv := by
  rw [hs, h.saved, h.hsv]

theorem mode_byte_congr {c c' : rgb_config_t} (hmode : c.mode = c'.mode)
    (henable : c.enable = c'.enable) : mode_byte c = mode_byte c' := by
  unfold mode_byte
  rw [hmode, henable]

theorem sethsv_off (hue sat val : UInt8) (h : s.rgb_matrix_config.enable = 0) :
    rgb_matrix_sethsv b hue sat val s = s := if_pos h

theorem sethsv_on (hue sat val : UInt8) (h : s.rgb_matrix_config.enable ≠ 0) :
    rgb_matrix_sethsv b hue sat val s =
      let hsv := ⟨hue, sat, if b.RGB_MATRIX_MAXIMUM_BRIGHTNESS < val then
        b.RGB_MATRIX_MAXIMUM_BRIGHTNESS else val⟩
      { s with rgb_matrix_config.hsv := hsv, eeprom := eeprom_write_hsv hsv s.eeprom } := by
  unfold rgb_matrix_sethsv rgb_matrix_sethsv_noeeprom
  rw [if_neg h, if_neg h]

theorem Beside.sethsv (h : Beside s r) (hue sat val : UInt8) :
    Beside (rgb_matrix_sethsv b hue sat val s) (rgb_matrix_sethsv b hue sat val r) := by
  by_cases hoff : s.rgb_matrix_config.enable = 0
  · rw [sethsv_off hue sat val hoff, sethsv_off hue sat val (h.enable.symm.trans hoff)]
    exact h
  · rw [sethsv_on hue sat val hoff, sethsv_on hue sat val (fun hr => hoff (h.enable.trans hr))]
    refine ⟨?_, h.enable, h.mode, h.dirty, rfl, h.speed⟩
    rw [h.eeprom]

theorem Beside.sethsv_hsv (h : Beside s r) (hue sat val : UInt8)
    (hhsv : s.rgb_matrix_config.hsv = r.rgb_matrix_config.hsv) :
    (rgb_matrix_sethsv b hue sat val s).rgb_matrix_config.hsv =
      (rgb_matrix_sethsv b hue sat val r).rgb_matrix_config.hsv := by
  by_cases hoff : s.rgb_matrix_config.enable = 0
  · rw [sethsv_off hue sat val hoff, sethsv_off hue sat val (h.enable.symm.trans hoff)]
    exact hhsv
  · rw [sethsv_on hue sat val hoff, sethsv_on hue sat val (fun hr => hoff (h.enable.trans hr))]

theorem Beside.write_mode (h : Beside s r) : Beside (write_mode s) (write_mode r) := by
  refine ⟨?_, h.enable, h.mode, h.dirty, h.hsv, h.speed⟩
  unfold rgb_matrix.write_mode
  rw [h.eeprom, mode_byte_congr h.mode h.enable]

theorem Beside.leave_dark (dark : UInt8) (n : Nat) {s r : State} (h : Beside s r)
    (hhsv : s.rgb_matrix_config.hsv = r.rgb_matrix_config.hsv) :
    Beside (leave_dark_saved b dark n s) (leave_dark_saved b dark n r) := by
  induction n generalizing s r with
  | zero => exact h
  | succ n ih =>
    unfold leave_dark_saved
    rw [h.enable, hhsv]
    split
    · unfold brighter
      rw [hhsv]
      exact ih (h.sethsv _ _ _) (h.sethsv_hsv _ _ _ hhsv)
    · exact h

theorem leave_dark_still {dark : UInt8} (n : Nat)
    (h : s.rgb_matrix_config.enable ≠ 0 → dark ≤ s.rgb_matrix_config.hsv.v) :
    leave_dark_saved b dark n s = s := by
  cases n with
  | zero => rfl
  | succ n => exact if_neg fun hlt => UInt8.not_lt.mpr (h hlt.1) hlt.2

theorem Beside.out_of_dark (h : Beside s r)
    (hlights : s.rgb_matrix_config.enable ≠ 0 → ∀ dark ∈ b.RGB_MATRIX_BRIGHTNESS_TURN_OFF_VAL,
      s.rgb_matrix_config.hsv = r.rgb_matrix_config.hsv ∨
        (dark ≤ s.rgb_matrix_config.hsv.v ∧ dark ≤ r.rgb_matrix_config.hsv.v)) :
    Beside (out_of_dark b s) (out_of_dark b r) := by
  unfold rgb_matrix.out_of_dark
  split
  · rename_i dark hdark
    by_cases hoff : s.rgb_matrix_config.enable = 0
    · rw [leave_dark_still 255 fun hon => absurd hoff hon,
        leave_dark_still 255 fun hon => absurd (h.enable.symm.trans hoff) hon]
      exact h
    · rcases hlights hoff dark hdark with hhsv | ⟨hs, hr⟩
      · exact h.leave_dark dark 255 hhsv
      · rw [leave_dark_still 255 fun _ => hs, leave_dark_still 255 fun _ => hr]
        exact h
  · exact h

theorem Beside.toggle (h : Beside s r)
    (hlights : s.rgb_matrix_config.enable ^^^ 1 ≠ 0 →
      ∀ dark ∈ b.RGB_MATRIX_BRIGHTNESS_TURN_OFF_VAL,
        s.rgb_matrix_config.hsv = r.rgb_matrix_config.hsv ∨
          (dark ≤ s.rgb_matrix_config.hsv.v ∧ dark ≤ r.rgb_matrix_config.hsv.v)) :
    Beside (rgb_matrix_toggle b s) (rgb_matrix_toggle b r) := by
  refine Beside.out_of_dark (Beside.write_mode ?_) hlights
  exact ⟨h.eeprom, congrArg (· ^^^ 1) h.enable, h.mode, h.dirty, h.hsv, h.speed⟩

theorem leave_dark_keeps (dark : UInt8) (n : Nat) (c : rgb_config_t) :
    (via_rgb_matrix.leave_dark b.toBuild dark n c).enable = c.enable ∧
      (via_rgb_matrix.leave_dark b.toBuild dark n c).mode = c.mode := by
  induction n generalizing c with
  | zero => exact ⟨rfl, rfl⟩
  | succ n ih =>
    unfold via_rgb_matrix.leave_dark
    split
    · obtain ⟨henable, hmode⟩ := ih (via_rgb_matrix.rgb_matrix_increase_val b.toBuild c)
      rw [henable, hmode]
      exact ⟨sethsv_noeeprom_enable _ _ _ c, sethsv_noeeprom_mode _ _ _ c⟩
    · exact ⟨rfl, rfl⟩

theorem enable_noeeprom_keeps (c : rgb_config_t) :
    (rgb_matrix_enable_noeeprom b.toBuild c).enable = 1 ∧
      (rgb_matrix_enable_noeeprom b.toBuild c).mode = c.mode := by
  unfold rgb_matrix_enable_noeeprom
  split
  · exact leave_dark_keeps _ 255 _
  · exact ⟨rfl, rfl⟩

theorem enable_noeeprom_lit {c : rgb_config_t}
    (h : ∀ dark ∈ b.RGB_MATRIX_BRIGHTNESS_TURN_OFF_VAL, dark ≤ c.hsv.v) :
    rgb_matrix_enable_noeeprom b.toBuild c = { c with enable := 1 } := by
  unfold rgb_matrix_enable_noeeprom
  split
  · rename_i dark hdark
    exact if_neg (UInt8.not_lt.mpr (h dark hdark))
  · rfl

theorem Beside.enables (h : Beside s r)
    (hlit : ∀ dark ∈ b.RGB_MATRIX_BRIGHTNESS_TURN_OFF_VAL, dark ≤ r.rgb_matrix_config.hsv.v) :
    Beside (rgb_matrix_enable b s) (rgb_matrix_enable b r) := by
  obtain ⟨henable, hmode⟩ := enable_noeeprom_keeps (b := b) s.rgb_matrix_config
  unfold rgb_matrix_enable
  rw [enable_noeeprom_lit hlit]
  refine Beside.out_of_dark (Beside.write_mode ?_) fun _ dark hdark => .inr ⟨?_, hlit dark hdark⟩
  · exact ⟨h.eeprom, henable, hmode.trans h.mode, h.dirty, h.hsv, h.speed⟩
  · exact enabled_out_of_dark hdark s.rgb_matrix_config

theorem Beside.selects (h : Beside s r) (mode : UInt8) :
    Beside (rgb_matrix_mode b mode s) (rgb_matrix_mode b mode r) := by
  unfold rgb_matrix_mode
  rw [h.enable]
  split
  · exact h
  · refine Beside.write_mode ?_
    unfold rgb_matrix_mode_noeeprom
    rw [h.enable]
    split
    · exact ⟨h.eeprom, h.enable, h.mode, h.dirty, h.hsv, h.speed⟩
    · split
      · exact ⟨h.eeprom, rfl, rfl, h.dirty, h.hsv, h.speed⟩
      · split
        · exact ⟨h.eeprom, rfl, rfl, h.dirty, h.hsv, h.speed⟩
        · exact ⟨h.eeprom, rfl, rfl, h.dirty, h.hsv, h.speed⟩

theorem Beside.set_speed (h : Beside s r) (speed : UInt8) :
    Beside (rgb_matrix_set_speed speed s) (rgb_matrix_set_speed speed r) := by
  unfold rgb_matrix_set_speed
  rw [h.enable]
  split
  · exact h
  · refine ⟨?_, h.enable, h.mode, h.dirty, h.hsv, rfl⟩
    rw [h.eeprom]

/-! ## What a command reads -/

/-- Lights that come on are out of the dark, by their value and by the saved one, or have
the saved color. -/
def LightsUp (b : Board) (s : State) : Prop :=
  ∀ dark ∈ b.RGB_MATRIX_BRIGHTNESS_TURN_OFF_VAL,
    s.rgb_matrix_config.hsv = s.saved.hsv ∨
      (dark ≤ s.rgb_matrix_config.hsv.v ∧ dark ≤ s.saved.hsv.v)

/-- The color and the speed that a command steps or keeps are the saved ones, and no
`rgb_matrix_enable` finds the saved value in the dark. -/
def ReadsSaved (b : Board) (s : State) : Command → Prop
  | .increase_hue | .decrease_hue | .increase_sat | .decrease_sat | .increase_val
  | .decrease_val => s.rgb_matrix_config.hsv = s.saved.hsv
  | .increase_speed | .decrease_speed => s.rgb_matrix_config.speed = s.saved.speed
  | .toggle => s.rgb_matrix_config.enable ^^^ 1 ≠ 0 → LightsUp b s
  | .enable => ∀ dark ∈ b.RGB_MATRIX_BRIGHTNESS_TURN_OFF_VAL, dark ≤ s.saved.hsv.v
  | .disable | .mode _ | .step | .step_reverse | .sethsv _ _ _ | .set_speed _ => True

theorem Beside.decrease_val (h : Beside s r) (hs : s.rgb_matrix_config.hsv = s.saved.hsv) :
    Beside (rgb_matrix_decrease_val b s) (rgb_matrix_decrease_val b r) := by
  have hhsv := h.hsv_eq hs
  unfold rgb_matrix_decrease_val
  dsimp only
  rw [hhsv]
  generalize qsub8 r.rgb_matrix_config.hsv.v b.RGB_MATRIX_VAL_STEP = val
  have hset := h.sethsv (b := b) r.rgb_matrix_config.hsv.h r.rgb_matrix_config.hsv.s val
  have hsame := h.sethsv_hsv (b := b) r.rgb_matrix_config.hsv.h r.rgb_matrix_config.hsv.s val hhsv
  split
  · rw [hset.enable, hsame]
    split
    · exact hset.toggle fun _ _ _ => .inl hsame
    · exact hset
  · exact hset

theorem Beside.increase_val (h : Beside s r) (hs : s.rgb_matrix_config.hsv = s.saved.hsv) :
    Beside (rgb_matrix_increase_val b s) (rgb_matrix_increase_val b r) := by
  have hhsv := h.hsv_eq hs
  unfold rgb_matrix_increase_val
  rw [h.enable]
  split
  · exact h.toggle fun _ _ _ => .inl hhsv
  · unfold brighter
    rw [hhsv]
    exact h.sethsv _ _ _

/-- A command that reads what is saved saves the same on both sides. -/
theorem Beside.command (h : Beside s r) {c : Command} (hc : ReadsSaved b s c) :
    Beside (command b s c) (command b r c) := by
  cases c with
  | toggle =>
    refine h.toggle fun hon dark hdark => ?_
    rcases hc hon dark hdark with hs | ⟨hv, hsaved⟩
    · exact .inl (h.hsv_eq hs)
    · rw [h.saved, ← h.hsv] at hsaved
      exact .inr ⟨hv, hsaved⟩
  | enable =>
    refine h.enables fun dark hdark => ?_
    rw [h.hsv, ← h.saved]
    exact hc dark hdark
  | disable =>
    refine Beside.write_mode ?_
    exact ⟨h.eeprom, rfl, h.mode, h.dirty, h.hsv, h.speed⟩
  | mode mode => exact h.selects mode
  | step =>
    unfold rgb_matrix.command rgb_matrix_step mode_of
    rw [h.mode]
    exact h.selects _
  | step_reverse =>
    unfold rgb_matrix.command rgb_matrix_step_reverse mode_of
    rw [h.mode]
    exact h.selects _
  | sethsv hue sat val => exact h.sethsv hue.toUInt8 sat val
  | increase_hue | decrease_hue | increase_sat | decrease_sat =>
    simp only [rgb_matrix.command, rgb_matrix_increase_hue, rgb_matrix_decrease_hue,
      rgb_matrix_increase_sat, rgb_matrix_decrease_sat]
    rw [h.hsv_eq hc]
    exact h.sethsv _ _ _
  | increase_val => exact h.increase_val hc
  | decrease_val => exact h.decrease_val hc
  | set_speed speed => exact h.set_speed speed
  | increase_speed | decrease_speed =>
    have hspeed : s.rgb_matrix_config.speed = r.rgb_matrix_config.speed := by
      rw [hc, h.saved, h.speed]
    simp only [rgb_matrix.command, rgb_matrix_increase_speed, rgb_matrix_decrease_speed]
    rw [hspeed]
    exact h.set_speed _

/-! ## Runs -/

theorem init_beside (b : Board) (s : State) :
    Beside (rgb_matrix_init b s) (rgb_matrix_init b s) := by
  unfold rgb_matrix_init eeconfig_init_rgb_matrix
  dsimp only
  split
  · exact ⟨rfl, rfl, rfl, rfl, rfl, rfl⟩
  · exact ⟨rfl, rfl, rfl, rfl, rfl, rfl⟩

def Unmixed (b : Board) (s : State) : Input → Prop
  | .command c => ReadsSaved b s c
  | .rgb_matrix_task _ => True

/-- From power-up, with any EEPROM and any layers of effects, a run whose commands all read
what is saved leaves the same EEPROM as its commands alone. -/
theorem rendering_leaves_the_saved_settings (b : Board) (s : State) (xs : List Input)
    (h : Along (step b) (Unmixed b) (rgb_matrix_init b s) xs) :
    (xs.foldl (step b) (rgb_matrix_init b s)).eeprom =
      ((xs.filter Input.isCommand).foldl (step b) (rgb_matrix_init b s)).eeprom := by
  refine (Along.erase (R := Beside) Input.isCommand ?_ ?_ (init_beside b s) h).eeprom
  · intro s r x hsr hx hkept
    cases x with
    | command c => exact hsr.command hx
    | rgb_matrix_task run => cases hkept
  · intro s r x hsr _ hkept
    cases x with
    | command c => cases hkept
    | rgb_matrix_task run => exact hsr.of_undrawn (task_undrawn run hsr.dirty)

def GivenOn (s : State) : Input → Prop
  | .command (.sethsv _ _ _) | .command .increase_hue | .command .decrease_hue
  | .command .increase_sat | .command .decrease_sat | .command .increase_val
  | .command .decrease_val | .command (.set_speed _) | .command .increase_speed
  | .command .decrease_speed => s.rgb_matrix_config.enable ≠ 0
  | _ => True

def oneEffect : rgb.Lamps where
  os_ind_cfg := ⟨0, ⟨0, 0, 0⟩⟩
  per_key_rgb_type := 0
  per_key_led := fun _ => ⟨0, 0, 0⟩
  regions := fun _ => 0
  effect_list := fun layer i => if layer = 0 ∧ i = 0 then ⟨5, 100, 255, 127, 5000⟩ else ⟨0, 0, 0, 0, 0⟩
  rgb_regions := fun _ => 0
  layer_effect_count := fun layer => if layer = 0 then 1 else 0
  layer_effect_index := fun _ => 0
  layer_effect_timer := fun _ => 0
  typingHeatmap := 0
  eeprom := ⟨⟨0, ⟨0, 0, 0⟩⟩, 0, fun _ => ⟨0, 0, 0⟩, fun _ => 0, fun _ _ => ⟨0, 0, 0, 0, 0⟩⟩

def lightsBoard : Board where
  RGB_MATRIX_MAXIMUM_BRIGHTNESS := 255
  RGB_MATRIX_BRIGHTNESS_TURN_OFF_VAL := none
  RGB_MATRIX_VAL_STEP := 16
  RGB_MATRIX_EFFECT_MAX := 24
  effects_le := by decide
  step_pos := build.step_pos
  turn_off_lt := nofun
  layers := { rgb.keyboard with RGB_MATRIX_TYPING_HEATMAP := 20, RGB_MATRIX_CUSTOM_MIXED_RGB := 23 }
  RGB_MATRIX_HUE_STEP := 8
  RGB_MATRIX_SAT_STEP := 16
  RGB_MATRIX_SPD_STEP := 16
  default_config := ⟨1, 1, ⟨0, 255, 255⟩, 127, 255⟩

def mixedSaved : State :=
  powered (fun i => if i = 0 then 93 else if i = offset_h then 10 else 200) oneEffect

def taskAt20 : Input := .rgb_matrix_task ⟨20, 20, false, false, 20, fun _ => ⟨fun _ => 20, false⟩⟩

/-- The hue is set before it is stepped. -/
theorem rendering_leaves_a_set_hue :
    ([taskAt20, taskAt20, taskAt20, .command (.sethsv 30 255 200), .command .increase_hue].foldl
        (step lightsBoard) (rgb_matrix_init lightsBoard mixedSaved)).eeprom =
      ([Input.command (.sethsv 30 255 200), .command .increase_hue].foldl (step lightsBoard)
        (rgb_matrix_init lightsBoard mixedSaved)).eeprom :=
  rendering_leaves_the_saved_settings lightsBoard mixedSaved
    [taskAt20, taskAt20, taskAt20, .command (.sethsv 30 255 200), .command .increase_hue]
    ⟨trivial, trivial, trivial, trivial, rfl, trivial⟩

/-- MIXED RGB draws a frame, the next effect is selected, and the hue is stepped before that
effect draws. The hue of MIXED RGB is saved. -/
theorem a_stepped_hue_is_that_of_mixed_rgb : ¬ ∀ (b : Board) (s : State) (xs : List Input),
    Along (step b) GivenOn (rgb_matrix_init b s) xs →
      (xs.foldl (step b) (rgb_matrix_init b s)).eeprom =
        ((xs.filter Input.isCommand).foldl (step b) (rgb_matrix_init b s)).eeprom := by
  intro h
  have hsame := h lightsBoard mixedSaved
    [taskAt20, taskAt20, taskAt20, taskAt20, .command .step, .command .increase_hue]
    ⟨trivial, trivial, trivial, trivial, trivial, (show (_ : BitVec 2) ≠ 0 by decide), trivial⟩
  have hhue := congrFun hsame offset_h
  revert hhue
  decide

end keychron_qmk.rgb_matrix
