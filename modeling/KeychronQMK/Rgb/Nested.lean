-- MIXED RGB with any list of effects that EEPROM may hold. The lists of the host have no
-- MIXED RGB among their effects, but one that is loaded may, and then MIXED RGB draws itself.
import KeychronQMK.Rgb.Saved

namespace keychron_qmk.rgb_matrix.nested

open rgb_matrix traced via_rgb_matrix runs

/-- A board whose effects are numbered behind `RGB_MATRIX_NONE`. -/
structure Keyboard extends Board where
  mixed_pos : RGB_MATRIX_NONE < layers.RGB_MATRIX_CUSTOM_MIXED_RGB

variable (b : Keyboard)

/-! ## One layer -/

/-- A layer at its switch: the effect that it draws, the value that it comes back to, and
whether it has to. -/
structure AtSwitch where
  effect : rgb.effect_config_t
  backup_value : UInt8
  transation : Bool
  state : State

def note_heatmap (layer : Nat) (last_effect : UInt8) (lamps : rgb.Lamps) : rgb.Lamps :=
  { lamps with
    typingHeatmap := if last_effect = b.layers.RGB_MATRIX_TYPING_HEATMAP then
        lamps.typingHeatmap ||| heatmap_bit layer
      else lamps.typingHeatmap &&& ~~~heatmap_bit layer }

def until_switch (run : LayerRun) (s : State) : State ⊕ AtSwitch :=
  let hsv := s.rgb_matrix_config.hsv
  let layer := s.rgb_effect_params.region.toNat
  let last_effect :=
    (s.lamps.effect_list layer (s.lamps.layer_effect_index layer).toNat).effect
  match turn_layer b.layers run layer hsv.v (note_heatmap b layer last_effect s.lamps) with
  | (lamps, none) => .inl { s with lamps := lamps }
  | (_, some turn) =>
    let e := turn.lamps.effect_list layer turn.effect_index.toNat
    let index := turn.lamps.layer_effect_index layer
    let index := if e.effect = 0 then index + 1 else index
    let c := rgb_matrix_sethsv_noeeprom b.toBuild e.hue e.sat turn.v s.rgb_matrix_config
    .inr
      { effect := e
        backup_value := hsv.v
        transation := turn.transation
        state := { s with
          rgb_matrix_config := rgb_matrix_set_speed_noeeprom e.speed c
          rgb_effect_params.init := last_effect ≠ e.effect
          lamps := set_index turn.lamps layer (wrapped b.layers index) } }

/-- The value after a transition. -/
def AtSwitch.restore (d : AtSwitch) (s : State) : State :=
  if d.transation then
    { s with
      rgb_matrix_config := rgb_matrix_sethsv_noeeprom b.toBuild d.effect.hue d.effect.sat
        d.backup_value s.rgb_matrix_config }
  else s

/-- The switch, in which `MIXED_RGB` may not return. -/
def draw (MIXED_RGB : State → Option (Bool × State)) (run : LayerRun) (effect : UInt8)
    (s : State) : Option (Bool × State) :=
  if effect = b.layers.RGB_MATRIX_CUSTOM_MIXED_RGB then MIXED_RGB s
  else some (draws b.toBoard effect && run.rendering, s)

def multiple_rgb_effect_runner (MIXED_RGB : State → Option (Bool × State)) (run : LayerRun)
    (s : State) : Option (Bool × State) :=
  match until_switch b run s with
  | .inl s => some (true, s)
  | .inr d => (draw b MIXED_RGB run d.effect.effect d.state).map fun r => (r.1, d.restore b r.2)

/-! ## A call, and the calls within it -/

/-- The start of a call. -/
def begun (run : TaskRun) (s : State) : State :=
  if s.rgb_effect_params.init then
    let lamps := { s.lamps with
      rgb_regions := fun i =>
        if i < b.layers.RGB_MATRIX_LED_COUNT then s.lamps.regions i else s.lamps.rgb_regions i
      layer_effect_index := fun i =>
        if i < b.layers.EFFECT_LAYERS then 0 else s.lamps.layer_effect_index i }
    { s with
      lamps := ((rgb.mixed_rgb_reset b.layers run.reset_time).next ⟨fun _ => 0, lamps⟩).lamps }
  else s

def for_layer (layer : Nat) (s : State) : State :=
  { s with rgb_effect_params.region := layer.toUInt8 }

/-- A call within the effects of some layers, when there is room for `depth` calls within each
other. Each call has its own times. -/
def mixed_rgb (times : List Nat → TaskRun) : Nat → List Nat → State → Option (Bool × State)
  | 0, _, _ => none
  | depth + 1, within, s =>
    (List.range b.layers.EFFECT_LAYERS).reverse.foldlM (fun r i =>
      multiple_rgb_effect_runner b (mixed_rgb times depth (i :: within)) ((times within).layer i)
        (for_layer i r.2))
      (false, begun b (times within) s)

def Indexed (lamps : rgb.Lamps) : Prop :=
  ∀ layer < b.layers.EFFECT_LAYERS,
    (lamps.layer_effect_index layer).toNat < b.layers.EFFECTS_PER_LAYER

def Unmixed (effect_list : Nat → Nat → rgb.effect_config_t) : Prop :=
  ∀ layer < b.layers.EFFECT_LAYERS, ∀ i < b.layers.EFFECTS_PER_LAYER,
    (effect_list layer i).effect ≠ b.layers.RGB_MATRIX_CUSTOM_MIXED_RGB

/-! ## What a layer leaves -/

/-- The lists stay, and so do the indices within them. -/
structure Kept (lamps lamps' : rgb.Lamps) : Prop where
  effect_list : lamps'.effect_list = lamps.effect_list
  eeprom : lamps'.eeprom = lamps.eeprom
  layer_effect_count : lamps'.layer_effect_count = lamps.layer_effect_count
  indexed : Indexed b lamps → Indexed b lamps'

structure Turned (lamps : rgb.Lamps) (layer : Nat) (backup_value : UInt8) (turn : Turn) :
    Prop where
  kept : Kept b lamps turn.lamps
  effect_index : turn.effect_index.toNat < b.layers.EFFECTS_PER_LAYER
  v : turn.transation = false → turn.v = backup_value

/-- A layer that is on leaves the value as it was. -/
structure Lit (s s' : State) : Prop where
  enable : s'.rgb_matrix_config.enable = s.rgb_matrix_config.enable
  v : s.rgb_matrix_config.enable ≠ 0 →
    s.rgb_matrix_config.hsv.v ≤ b.RGB_MATRIX_MAXIMUM_BRIGHTNESS →
      s'.rgb_matrix_config.hsv.v = s.rgb_matrix_config.hsv.v

section Laws

variable {b : Keyboard} {lamps : rgb.Lamps} {s : State} {run : LayerRun} {layer : Nat}
  {backup_value : UInt8}

theorem Kept.refl (lamps : rgb.Lamps) : Kept b lamps lamps := ⟨rfl, rfl, rfl, id⟩

theorem Kept.trans {lamps' lamps'' : rgb.Lamps} (h : Kept b lamps lamps')
    (h' : Kept b lamps' lamps'') : Kept b lamps lamps'' :=
  ⟨h'.effect_list.trans h.effect_list, h'.eeprom.trans h.eeprom,
    h'.layer_effect_count.trans h.layer_effect_count, h'.indexed ∘ h.indexed⟩

theorem wrapped_lt (index : UInt8) :
    (wrapped b.layers index).toNat < b.layers.EFFECTS_PER_LAYER := by
  have hpos := b.layers.effects_pos
  unfold wrapped
  split
  · simpa using hpos
  · omega

theorem kept_set_index (lamps : rgb.Lamps) (layer : Nat) {index : UInt8} (h : index.toNat < b.layers.EFFECTS_PER_LAYER) :
    Kept b lamps (set_index lamps layer index) where
  effect_list := rfl
  eeprom := rfl
  layer_effect_count := rfl
  indexed hlamps other hother := by
    by_cases hsame : other = layer
    · subst hsame
      simpa [set_index] using h
    · simpa [set_index, Function.update_of_ne hsame] using hlamps other hother

theorem Turned.fade_in {turn : Turn} (h : Turned b lamps layer backup_value turn) :
    Turned b lamps layer backup_value (fade_in run layer backup_value turn) := by
  unfold rgb_matrix.fade_in
  split
  · exact ⟨h.kept, h.effect_index, fun hne => by cases hne⟩
  · exact h

theorem only_effect_turned (backup_value : UInt8) (hindex : (lamps.layer_effect_index layer).toNat <
      b.layers.EFFECTS_PER_LAYER) :
    Turned b lamps layer backup_value (only_effect b.layers layer backup_value lamps) := by
  unfold only_effect
  dsimp only
  split
  · split
    · rename_i i hfound
      have hi : i < b.layers.EFFECTS_PER_LAYER :=
        List.mem_range.mp (List.mem_of_find?_eq_some hfound)
      have hlt : i.toUInt8.toNat < b.layers.EFFECTS_PER_LAYER := by
        rw [Nat.toUInt8, UInt8.toNat_ofNat']
        omega
      exact ⟨kept_set_index lamps layer hlt, hlt, fun _ => rfl⟩
    · exact ⟨.refl lamps, hindex, fun _ => rfl⟩
  · exact ⟨.refl lamps, hindex, fun _ => rfl⟩

theorem next_effect_turned (run : LayerRun) (backup_value : UInt8) (hindex : (lamps.layer_effect_index layer).toNat <
      b.layers.EFFECTS_PER_LAYER) :
    Kept b lamps (next_effect b.layers run layer backup_value lamps).1 ∧
      ∀ turn, (next_effect b.layers run layer backup_value lamps).2 = some turn →
        Turned b lamps layer backup_value turn := by
  unfold next_effect
  dsimp only
  split
  · have hkept : ∀ timer, Kept b lamps
        { set_index lamps layer (wrapped b.layers (lamps.layer_effect_index layer + 1)) with
          layer_effect_timer := timer } := by
      intro timer
      obtain ⟨hlist, heeprom, hcount, hindexed⟩ :=
        kept_set_index (b := b) lamps layer (wrapped_lt (lamps.layer_effect_index layer + 1))
      exact ⟨hlist, heeprom, hcount, hindexed⟩
    split
    · exact ⟨hkept _, fun turn h => by cases h⟩
    · refine ⟨hkept _, fun turn h => ?_⟩
      obtain rfl := Option.some.inj h
      exact Turned.fade_in ⟨hkept _, wrapped_lt _, fun _ => rfl⟩
  · refine ⟨.refl lamps, fun turn h => ?_⟩
    obtain rfl := Option.some.inj h
    split
    · exact Turned.fade_in ⟨.refl lamps, hindex, fun hne => by cases hne⟩
    · exact Turned.fade_in ⟨.refl lamps, hindex, fun _ => rfl⟩

theorem turn_layer_turned (run : LayerRun) (backup_value : UInt8) (hindex : (lamps.layer_effect_index layer).toNat <
      b.layers.EFFECTS_PER_LAYER) :
    Kept b lamps (turn_layer b.layers run layer backup_value lamps).1 ∧
      ∀ turn, (turn_layer b.layers run layer backup_value lamps).2 = some turn →
        Turned b lamps layer backup_value turn := by
  unfold turn_layer
  split
  · exact next_effect_turned run backup_value hindex
  · refine ⟨.refl lamps, fun turn h => ?_⟩
    obtain rfl := Option.some.inj h
    exact only_effect_turned backup_value hindex

/-! ## The value -/

theorem sethsv_v {val : UInt8} (hval : val ≤ b.RGB_MATRIX_MAXIMUM_BRIGHTNESS) (hue sat : UInt8)
    {c : rgb_config_t} (hon : c.enable ≠ 0) :
    (rgb_matrix_sethsv_noeeprom b.toBuild hue sat val c).hsv.v = val := by
  rw [rgb_matrix_sethsv_noeeprom, if_neg hon, if_neg (UInt8.not_lt.mpr hval)]

theorem set_speed_hsv (speed : UInt8) (c : rgb_config_t) :
    (rgb_matrix_set_speed_noeeprom speed c).hsv = c.hsv := by
  unfold rgb_matrix_set_speed_noeeprom
  split <;> rfl

theorem Lit.of_same {s' : State} (h : s'.rgb_matrix_config = s.rgb_matrix_config) :
    Lit b s s' where
  enable := by rw [h]
  v _ _ := by rw [h]

theorem Lit.trans {s' s'' : State} (h : Lit b s s') (h' : Lit b s' s'') :
    Lit b s s'' where
  enable := h'.enable.trans h.enable
  v hon hmax := by
    have hv := h.v hon hmax
    rw [← h.enable] at hon
    exact (h'.v hon (hv.symm ▸ hmax)).trans hv

/-! ## A layer and its switch -/

theorem kept_note_heatmap (layer : Nat) (last_effect : UInt8) (lamps : rgb.Lamps) :
    Kept b lamps (note_heatmap b layer last_effect lamps) := ⟨rfl, rfl, rfl, id⟩

theorem until_switch_inl {s' : State} (hlayer : s.rgb_effect_params.region.toNat <
      b.layers.EFFECT_LAYERS) (hindexed : Indexed b s.lamps) (h : until_switch b run s = .inl s') :
    Kept b s.lamps s'.lamps ∧ s'.rgb_matrix_config = s.rgb_matrix_config := by
  unfold until_switch at h
  dsimp only at h
  generalize hnoted : note_heatmap b _ _ s.lamps = noted at h
  have hkept : Kept b s.lamps noted := hnoted ▸ kept_note_heatmap _ _ s.lamps
  have hturned := turn_layer_turned run s.rgb_matrix_config.hsv.v
    (hkept.indexed hindexed _ hlayer)
  split at h
  · rename_i lamps' hturn
    obtain rfl := Sum.inl.inj h
    rw [hturn] at hturned
    exact ⟨hkept.trans hturned.1, rfl⟩
  · cases h

theorem restore_lit {d : AtSwitch}
    (henable : d.state.rgb_matrix_config.enable = s.rgb_matrix_config.enable)
    (hbackup : d.backup_value = s.rgb_matrix_config.hsv.v)
    (hv : d.transation = false → Lit b s d.state) : Lit b s (d.restore b d.state) := by
  unfold AtSwitch.restore
  cases htransation : d.transation with
  | false => exact hv htransation
  | true =>
    rw [if_pos rfl]
    constructor
    · rw [sethsv_noeeprom_enable, henable]
    · intro hon hmax
      rw [sethsv_v (hbackup ▸ hmax) _ _ (henable ▸ hon), hbackup]

theorem until_switch_inr {d : AtSwitch} (hlayer : s.rgb_effect_params.region.toNat <
      b.layers.EFFECT_LAYERS) (hindexed : Indexed b s.lamps) (h : until_switch b run s = .inr d) :
    Kept b s.lamps d.state.lamps ∧ Lit b s (d.restore b d.state) ∧
      ∃ i < b.layers.EFFECTS_PER_LAYER,
        d.effect = s.lamps.effect_list s.rgb_effect_params.region.toNat i := by
  unfold until_switch at h
  dsimp only at h
  generalize hnoted : note_heatmap b _ _ s.lamps = noted at h
  have hkept : Kept b s.lamps noted := hnoted ▸ kept_note_heatmap _ _ s.lamps
  have hturned := turn_layer_turned run s.rgb_matrix_config.hsv.v
    (hkept.indexed hindexed _ hlayer)
  split at h
  · cases h
  · rename_i turn hturn
    obtain rfl := Sum.inr.inj h
    rw [hturn] at hturned
    obtain ⟨hturnkept, heffect, hv⟩ := hturned.2 turn rfl
    refine ⟨hkept.trans (hturnkept.trans (kept_set_index _ _ (wrapped_lt _))), ?_,
      turn.effect_index.toNat, heffect, ?_⟩
    · refine restore_lit (by simp) rfl fun htransation => ⟨by simp, fun hon hmax => ?_⟩
      rw [set_speed_hsv, hv htransation, sethsv_v hmax _ _ hon]
    · rw [hturnkept.effect_list, hkept.effect_list]

theorem runner_of_unmixed (MIXED_RGB : State → Option (Bool × State))
    (h : ∀ d, until_switch b run s = .inr d →
      d.effect.effect ≠ b.layers.RGB_MATRIX_CUSTOM_MIXED_RGB) :
    multiple_rgb_effect_runner b MIXED_RGB run s =
      some (rgb_matrix.multiple_rgb_effect_runner b.toBoard run s) := by
  unfold multiple_rgb_effect_runner draw AtSwitch.restore
  unfold until_switch note_heatmap at h ⊢
  unfold rgb_matrix.multiple_rgb_effect_runner
  dsimp only at h ⊢
  generalize turn_layer b.layers run _ _ _ = turned at h ⊢
  obtain ⟨lamps', turn | turn⟩ := turned
  · rfl
  · have hne := h _ rfl
    dsimp only at hne ⊢
    rw [if_neg hne]
    cases turn.transation <;> rfl

/-! ## A call -/

def reset_layer (now : UInt32) (h : rgb.Host) (i : Nat) : rgb.Host :=
  { h with
    lamps.layer_effect_index := Function.update h.lamps.layer_effect_index i 0
    lamps.layer_effect_timer := Function.update h.lamps.layer_effect_timer i now
    lamps.typingHeatmap :=
      if (h.lamps.effect_list i 0).effect = b.layers.RGB_MATRIX_TYPING_HEATMAP then
        h.lamps.typingHeatmap ||| heatmap_bit i
      else h.lamps.typingHeatmap }

theorem next_reset (now : UInt32) (h : rgb.Host) :
    (rgb.mixed_rgb_reset b.layers now).next h =
      (List.range b.layers.EFFECT_LAYERS).foldl (reset_layer (b := b) now)
        { h with lamps.typingHeatmap := 0 } := by
  unfold rgb.mixed_rgb_reset
  rw [next_bind, next_each]
  rfl

theorem reset_kept (now : UInt32) (h : rgb.Host) :
    Kept b h.lamps ((rgb.mixed_rgb_reset b.layers now).next h).lamps ∧
      Indexed b ((rgb.mixed_rgb_reset b.layers now).next h).lamps := by
  have hindexed : Indexed b ((rgb.mixed_rgb_reset b.layers now).next h).lamps := by
    intro layer hlayer
    rw [next_reset, foldl_hit (fun h : rgb.Host => h.lamps.layer_effect_index layer) (v := 0)
      (· = layer)]
    · exact b.layers.effects_pos
    · rintro h i - rfl
      exact Function.update_self ..
    · exact fun h i _ hne => Function.update_of_ne (Ne.symm hne) ..
    · exact ⟨layer, List.mem_range.mpr hlayer, rfl⟩
  refine ⟨⟨?_, ?_, ?_, fun _ => hindexed⟩, hindexed⟩
  · rw [next_reset]
    refine foldl_miss (fun h : rgb.Host => h.lamps.effect_list) ?_ _
    exact fun _ _ _ => rfl
  · rw [next_reset]
    refine foldl_miss (fun h : rgb.Host => h.lamps.eeprom) ?_ _
    exact fun _ _ _ => rfl
  · rw [next_reset]
    refine foldl_miss (fun h : rgb.Host => h.lamps.layer_effect_count) ?_ _
    exact fun _ _ _ => rfl

theorem begun_kept (times : TaskRun) (s : State) :
    Kept b s.lamps (begun b times s).lamps ∧
      (begun b times s).rgb_matrix_config = s.rgb_matrix_config := by
  unfold begun
  split
  · dsimp only
    refine ⟨Kept.trans ?_ (reset_kept times.reset_time _).1, rfl⟩
    refine ⟨rfl, rfl, rfl, fun h layer hlayer => ?_⟩
    dsimp only
    rw [if_pos hlayer]
    exact b.layers.effects_pos
  · exact ⟨.refl _, rfl⟩

theorem restore_lamps (d : AtSwitch) (s : State) : (d.restore b s).lamps = s.lamps := by
  unfold AtSwitch.restore
  split <;> rfl

theorem runner_kept (run : LayerRun) (MIXED_RGB : State → Option (Bool × State))
    (hlayer : s.rgb_effect_params.region.toNat < b.layers.EFFECT_LAYERS)
    (hindexed : Indexed b s.lamps) (hunmixed : Unmixed b s.lamps.effect_list) :
    multiple_rgb_effect_runner b MIXED_RGB run s =
        some (rgb_matrix.multiple_rgb_effect_runner b.toBoard run s) ∧
      Kept b s.lamps (rgb_matrix.multiple_rgb_effect_runner b.toBoard run s).2.lamps ∧
      Lit b s (rgb_matrix.multiple_rgb_effect_runner b.toBoard run s).2 := by
  have hother : ∀ d, until_switch b run s = .inr d →
      d.effect.effect ≠ b.layers.RGB_MATRIX_CUSTOM_MIXED_RGB := by
    intro d hd
    obtain ⟨-, -, i, hi, heffect⟩ := until_switch_inr hlayer hindexed hd
    exact heffect ▸ hunmixed _ hlayer i hi
  have hsame := runner_of_unmixed MIXED_RGB hother
  refine ⟨hsame, ?_⟩
  cases hswitch : until_switch b run s with
  | inl s' =>
    obtain ⟨hkept, hconfig⟩ := until_switch_inl hlayer hindexed hswitch
    rw [multiple_rgb_effect_runner, hswitch] at hsame
    rw [← Option.some.inj hsame]
    exact ⟨hkept, .of_same hconfig⟩
  | inr d =>
    obtain ⟨hkept, hlit, -⟩ := until_switch_inr hlayer hindexed hswitch
    rw [multiple_rgb_effect_runner, hswitch] at hsame
    dsimp only at hsame
    rw [draw, if_neg (hother d hswitch)] at hsame
    rw [← Option.some.inj hsame]
    exact ⟨(restore_lamps (b := b) d d.state).symm ▸ hkept, hlit⟩

theorem for_layer_region {layer : Nat} (hlayer : layer < b.layers.EFFECT_LAYERS) (s : State) :
    (for_layer layer s).rgb_effect_params.region.toNat = layer := by
  have hlayers := b.layers.layers_le
  rw [for_layer, Nat.toUInt8, UInt8.toNat_ofNat']
  omega

/-- Without MIXED RGB in the lists, a call is the one of `rgb_matrix_task`. No call is within it,
the lists and their indices stay, and the value does. -/
theorem mixed_rgb_kept (times : List Nat → TaskRun) (within : List Nat) (depth : Nat)
    (hindexed : Indexed b s.lamps) (hunmixed : Unmixed b s.lamps.effect_list) :
    mixed_rgb b times (depth + 1) within s =
        some (rgb_matrix.mixed_rgb b.toBoard (times within) s) ∧
      Kept b s.lamps (rgb_matrix.mixed_rgb b.toBoard (times within) s).2.lamps ∧
      Lit b s (rgb_matrix.mixed_rgb b.toBoard (times within) s).2 := by
  obtain ⟨hkept, hconfig⟩ := begun_kept (b := b) (times within) s
  refine foldlM_some (I := fun r : Bool × State => Kept b s.lamps r.2.lamps ∧ Lit b s r.2)
    (fun r hr i hi => ?_) ⟨hkept, .of_same hconfig⟩
  obtain ⟨hkept, hlit⟩ := hr
  have hi' : i < b.layers.EFFECT_LAYERS := by simpa using hi
  obtain ⟨hrunner, hkept', hlit'⟩ := runner_kept (b := b) (s := for_layer i r.2)
    ((times within).layer i) (mixed_rgb b times depth (i :: within))
    ((for_layer_region hi' r.2).symm ▸ hi') (hkept.indexed hindexed)
    (hkept.effect_list ▸ hunmixed)
  have hcalled : Lit b r.2 (for_layer i r.2) := .of_same rfl
  exact ⟨hrunner, hkept.trans hkept', hlit.trans (hcalled.trans hlit')⟩

end Laws

end keychron_qmk.rgb_matrix.nested
