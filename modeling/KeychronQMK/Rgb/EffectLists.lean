-- The effect lists of the host and of EEPROM, and every run of MIXED RGB with them: it is
-- scheduled right with every list that the host may send, and with one that is loaded when
-- MIXED RGB is not in it.
import KeychronQMK.Rgb.Nested

namespace keychron_qmk.rgb_matrix.nested

open rgb_matrix traced via_rgb_matrix runs

variable (b : Keyboard)

/-! ## Lists from the host and from EEPROM -/

def mixed_rgb_set_effect_list (data : Nat → UInt8) (now : UInt32) (s : State) : State :=
  { s with
    lamps := ((rgb.mixed_rgb_set_effect_list b.layers now).next ⟨data, s.lamps⟩).lamps }

def kc_rgb_save (s : State) : State :=
  { s with lamps := ((rgb.kc_rgb_save b.layers).next ⟨fun _ => 0, s.lamps⟩).lamps }

def eeprom_read_block {α : Type} (size : Nat) (eeprom array : Nat → α) : Nat → α :=
  fun i => if i < size then eeprom i else array i

def loaded (lamps : rgb.Lamps) : rgb.Lamps :=
  let stored := lamps.eeprom
  { lamps with
    os_ind_cfg := { stored.os_ind_cfg with
      hsv.v := if stored.os_ind_cfg.hsv.v < 128 then 128 else stored.os_ind_cfg.hsv.v }
    per_key_rgb_type := stored.per_key_rgb_type
    per_key_led := eeprom_read_block b.layers.RGB_MATRIX_LED_COUNT stored.per_key_led
      lamps.per_key_led
    regions := eeprom_read_block b.layers.RGB_MATRIX_LED_COUNT stored.regions lamps.regions
    effect_list := fun layer =>
      if layer < b.layers.EFFECT_LAYERS then
        eeprom_read_block b.layers.EFFECTS_PER_LAYER (stored.effect_list layer)
          (lamps.effect_list layer)
      else lamps.effect_list layer }

def eeconfig_init_custom_rgb (now : UInt32) (s : State) : State :=
  { s with
    lamps := ((rgb.update_mixed_rgb_effect_count b.layers now).next
      ⟨fun _ => 0, loaded b s.lamps⟩).lamps }

/-! ## Runs -/

/-- What happens to the lamps. At a call of `mixed_rgb` the configuration is any, since keys
and the host change it too. -/
inductive input where
  | set_effect_list (data : Nat → UInt8) (now : UInt32)
  | save
  | load (now : UInt32)
  | frame (rgb_matrix_config : rgb_config_t) (init : Bool) (times : List Nat → TaskRun)

def called (c : rgb_config_t) (init : Bool) (s : State) : State :=
  { s with rgb_matrix_config := c, rgb_effect_params.init := init }

/-- A call in which MIXED RGB draws itself is not followed. -/
def step (s : State) : input → State
  | .set_effect_list data now => mixed_rgb_set_effect_list b data now s
  | .save => kc_rgb_save b s
  | .load now => eeconfig_init_custom_rgb b now s
  | .frame c init times => (mixed_rgb b times 1 [] (called c init s)).elim s (·.2)

/-- A call returns with the value that it found, without a call within it: one level of calls
is enough. -/
def Returns (s : State) : input → Prop
  | .frame c init times =>
    ∃ r, (∀ depth, mixed_rgb b times (depth + 1) [] (called c init s) = some r) ∧
      (c.enable ≠ 0 → r.2.rgb_matrix_config.hsv.v = c.hsv.v)
  | _ => True

def Scheduled (s : State) (x : input) : Prop := Returns b s x ∧ Indexed b (step b s x).lamps

/-- An accepted list is in a layer that there is, since what lies behind the layers belongs to
something else, and the lights that are on are not brighter than they may be. -/
def Within : input → Prop
  | .set_effect_list data _ => ¬ rgb.effects_rejected b.layers (data 2) (data 3) (data 4) →
      (data 4).toNat = 0 ∨ (data 2).toNat < b.layers.EFFECT_LAYERS
  | .frame c _ _ => c.enable ≠ 0 → c.hsv.v ≤ b.RGB_MATRIX_MAXIMUM_BRIGHTNESS
  | _ => True

/-! ## The counts -/

def Counted (lamps : rgb.Lamps) : Prop :=
  ∀ layer < b.layers.EFFECT_LAYERS, lamps.layer_effect_count layer =
    .ofNat ((List.range b.layers.EFFECTS_PER_LAYER).countP fun i =>
      (lamps.effect_list layer i).effect ≠ 0)

def count_effect (layer : Nat) (h : rgb.Host) (i : Nat) : rgb.Host :=
  if (h.lamps.effect_list layer i).effect ≠ 0 then
    { h with
      lamps.layer_effect_count := Function.update h.lamps.layer_effect_count layer
        (h.lamps.layer_effect_count layer + 1) }
  else h

def count_layer (h : rgb.Host) (layer : Nat) : rgb.Host :=
  (List.range b.layers.EFFECTS_PER_LAYER).foldl (count_effect layer)
    { h with lamps.layer_effect_count := Function.update h.lamps.layer_effect_count layer 0 }

section Laws

variable {b : Keyboard} {s : State} {h : rgb.Host}

theorem next_update (now : UInt32) (h : rgb.Host) :
    (rgb.update_mixed_rgb_effect_count b.layers now).next h =
      (rgb.mixed_rgb_reset b.layers now).next
        ((List.range b.layers.EFFECT_LAYERS).foldl (count_layer b) h) := by
  have hturn : ∀ (h : rgb.Host) layer i, (do
      let e ← rgb.get_effect layer i
      if e.effect ≠ 0 then
        change fun h => { h with
          lamps.layer_effect_count := Function.update h.lamps.layer_effect_count layer
            (h.lamps.layer_effect_count layer + 1) }
      else pure () : rgb.Rgb Unit).next h = count_effect layer h i := by
    intro h layer i
    exact apply_ite (fun m : rgb.Rgb Unit => m.next h) _ _ _
  unfold rgb.update_mixed_rgb_effect_count
  simp only [next_bind, next_change, next_each, hturn]
  rfl

theorem fold_count_effect (layer n : Nat) (h : rgb.Host) :
    (List.range n).foldl (count_effect layer) h =
      { h with
        lamps.layer_effect_count := Function.update h.lamps.layer_effect_count layer
          (h.lamps.layer_effect_count layer + .ofNat ((List.range n).countP fun i =>
            (h.lamps.effect_list layer i).effect ≠ 0)) } := by
  induction n with
  | zero => simp
  | succ n ih =>
    rw [List.range_succ, List.foldl_append, ih, List.countP_append]
    simp only [List.foldl_cons, List.foldl_nil, count_effect, List.countP_singleton]
    by_cases hsome : (h.lamps.effect_list layer n).effect ≠ 0
    · simp [hsome, UInt8.add_assoc]
    · simp [hsome]

theorem count_layer_eq (h : rgb.Host) (layer : Nat) :
    count_layer b h layer =
      { h with
        lamps.layer_effect_count := Function.update h.lamps.layer_effect_count layer
          (.ofNat ((List.range b.layers.EFFECTS_PER_LAYER).countP fun i =>
            (h.lamps.effect_list layer i).effect ≠ 0)) } := by
  rw [count_layer, fold_count_effect]
  simp

theorem fold_count_layer (n : Nat) (h : rgb.Host) :
    let h' := (List.range n).foldl (count_layer b) h
    h'.lamps.effect_list = h.lamps.effect_list ∧ h'.lamps.eeprom = h.lamps.eeprom ∧
      ∀ layer < n, h'.lamps.layer_effect_count layer =
        .ofNat ((List.range b.layers.EFFECTS_PER_LAYER).countP fun i =>
          (h.lamps.effect_list layer i).effect ≠ 0) := by
  induction n with
  | zero => exact ⟨rfl, rfl, fun layer hlayer => absurd hlayer (Nat.not_lt_zero layer)⟩
  | succ n ih =>
    obtain ⟨hlist, heeprom, hcount⟩ := ih
    rw [List.range_succ, List.foldl_append, List.foldl_cons, List.foldl_nil, count_layer_eq]
    refine ⟨hlist, heeprom, fun layer hlayer => ?_⟩
    by_cases hsame : layer = n
    · subst hsame
      simp [hlist]
    · dsimp only
      rw [Function.update_of_ne hsame]
      exact hcount layer (by omega)

theorem update_kept (now : UInt32) (h : rgb.Host) :
    let lamps := ((rgb.update_mixed_rgb_effect_count b.layers now).next h).lamps
    lamps.effect_list = h.lamps.effect_list ∧ lamps.eeprom = h.lamps.eeprom ∧
      Indexed b lamps ∧ Counted b lamps := by
  obtain ⟨hlist, heeprom, hcount⟩ := fold_count_layer (b := b) b.layers.EFFECT_LAYERS h
  rw [next_update]
  obtain ⟨hkept, hindexed⟩ :=
    reset_kept (b := b) now ((List.range b.layers.EFFECT_LAYERS).foldl (count_layer b) h)
  refine ⟨hkept.effect_list.trans hlist, hkept.eeprom.trans heeprom, hindexed,
    fun layer hlayer => ?_⟩
  rw [hkept.layer_effect_count, hkept.effect_list, hlist]
  exact hcount layer hlayer

/-! ## A list of the host -/

/-- An effect of a packet. -/
def sent (data : Nat → UInt8) (i : Nat) : rgb.effect_config_t :=
  let time := 9 + i * rgb.EFFECT_DATA_LEN
  { effect := data (5 + i * rgb.EFFECT_DATA_LEN)
    hue := data (6 + i * rgb.EFFECT_DATA_LEN)
    sat := data (7 + i * rgb.EFFECT_DATA_LEN)
    speed := data (8 + i * rgb.EFFECT_DATA_LEN)
    time := (data time).toUInt32 ||| (data (time + 1)).toUInt32 <<< 8 |||
      (data (time + 2)).toUInt32 <<< 16 ||| (data (time + 3)).toUInt32 <<< 24 }

def received (region start n : Nat) (data : Nat → UInt8)
    (effect_list : Nat → Nat → rgb.effect_config_t) : Nat → Nat → rgb.effect_config_t :=
  fun layer i =>
    if layer = region ∧ start ≤ i ∧ i < start + n then sent data (i - start)
    else effect_list layer i

/-- One turn of the loop over the effects of a packet. -/
def receive (region start : Nat) (h : rgb.Host) (i : Nat) : rgb.Host :=
  { h with
    lamps.effect_list := Function.update h.lamps.effect_list region
      (Function.update (h.lamps.effect_list region) (start + i) (sent h.data i)) }

theorem fold_receive (region start n : Nat) (h : rgb.Host) :
    (List.range n).foldl (receive region start) h =
      { h with lamps.effect_list := received region start n h.data h.lamps.effect_list } := by
  induction n with
  | zero =>
    have hnone : received region start 0 h.data h.lamps.effect_list = h.lamps.effect_list := by
      funext layer i
      exact if_neg (by omega)
    rw [hnone]
    rfl
  | succ n ih =>
    rw [List.range_succ, List.foldl_append, ih, List.foldl_cons, List.foldl_nil]
    have hone : Function.update (received region start n h.data h.lamps.effect_list) region
        (Function.update (received region start n h.data h.lamps.effect_list region) (start + n)
          (sent h.data n)) = received region start (n + 1) h.data h.lamps.effect_list := by
      funext layer i
      unfold received
      by_cases hlayer : layer = region
      · subst hlayer
        by_cases hi : i = start + n
        · subst hi
          simp
        · simp only [Function.update_self, Function.update_of_ne hi, true_and]
          simp only [show i < start + (n + 1) ↔ i < start + n by omega]
      · simp [hlayer]
    simp only [receive, hone]

/-- What the check of a packet lets through. -/
def Accepts (b : Keyboard) (data : Nat → UInt8) : Prop :=
  ¬ rgb.effects_rejected b.layers (data 2) (data 3) (data 4) ∧
    ∀ i < (data 4).toNat, (sent data i).effect < b.layers.RGB_MATRIX_CUSTOM_MIXED_RGB

theorem next_set (now : UInt32) (h : rgb.Host) :
    (Accepts b h.data → (rgb.mixed_rgb_set_effect_list b.layers now).next h =
      (rgb.update_mixed_rgb_effect_count b.layers now).next
        { h with
          lamps.effect_list := received (h.data 2).toNat (h.data 3).toNat (h.data 4).toNat h.data
            h.lamps.effect_list }) ∧
      (¬ Accepts b h.data → (rgb.mixed_rgb_set_effect_list b.layers now).next h = h) := by
  have hreads : ∀ i, Reads (do
      let effect ← rgb.byte (5 + i * rgb.EFFECT_DATA_LEN)
      pure (decide (b.layers.RGB_MATRIX_CUSTOM_MIXED_RGB ≤ effect)) : rgb.Rgb Bool) :=
    fun i => reads_bind (fun _ => rfl) fun _ => reads_pure _
  obtain ⟨hnext, hval⟩ := anyM_of_reads hreads (List.range (h.data 4).toNat) h
  unfold rgb.mixed_rgb_set_effect_list
  rw [next_bind, rgb.next_byte, rgb.val_byte, next_bind, rgb.next_byte, rgb.val_byte, next_bind,
    rgb.next_byte, rgb.val_byte]
  by_cases hrejected : rgb.effects_rejected b.layers (h.data 2) (h.data 3) (h.data 4)
  · rw [if_pos hrejected]
    exact ⟨fun haccepts => absurd hrejected haccepts.1, fun _ => rfl⟩
  rw [if_neg hrejected, next_bind, hnext, hval]
  have hcheck : ((List.range (h.data 4).toNat).any fun i => (do
      let effect ← rgb.byte (5 + i * rgb.EFFECT_DATA_LEN)
      pure (decide (b.layers.RGB_MATRIX_CUSTOM_MIXED_RGB ≤ effect)) : rgb.Rgb Bool).val h) = true ↔
        ∃ i < (h.data 4).toNat, b.layers.RGB_MATRIX_CUSTOM_MIXED_RGB ≤ (sent h.data i).effect := by
    rw [List.any_eq_true]
    constructor
    · rintro ⟨i, hi, heffect⟩
      exact ⟨i, List.mem_range.mp hi, of_decide_eq_true heffect⟩
    · rintro ⟨i, hi, heffect⟩
      exact ⟨i, List.mem_range.mpr hi, decide_eq_true heffect⟩
  by_cases hbad : ∃ i < (h.data 4).toNat,
      b.layers.RGB_MATRIX_CUSTOM_MIXED_RGB ≤ (sent h.data i).effect
  · obtain ⟨i, hi, heffect⟩ := id hbad
    rw [if_pos (hcheck.mpr hbad)]
    exact ⟨fun haccepts => absurd (haccepts.2 i hi) (UInt8.not_lt.mpr heffect), fun _ => rfl⟩
  · rw [if_neg (mt hcheck.mp hbad), next_bind, next_bind, next_each]
    have haccepts : Accepts b h.data :=
      ⟨hrejected, fun i hi => UInt8.not_le.mp fun heffect => hbad ⟨i, hi, heffect⟩⟩
    refine ⟨fun _ => ?_, fun hnot => absurd haccepts hnot⟩
    rw [← fold_receive]
    rfl

theorem set_effect_list_eq (data : Nat → UInt8) (now : UInt32) (s : State) :
    (Accepts b data → let lamps := (mixed_rgb_set_effect_list b data now s).lamps
      lamps.effect_list = received (data 2).toNat (data 3).toNat (data 4).toNat data
          s.lamps.effect_list ∧
        lamps.eeprom = s.lamps.eeprom ∧ Indexed b lamps ∧ Counted b lamps) ∧
      (¬ Accepts b data → mixed_rgb_set_effect_list b data now s = s) := by
  obtain ⟨haccepted, hrefused⟩ := next_set (b := b) now ⟨data, s.lamps⟩
  unfold mixed_rgb_set_effect_list
  constructor
  · intro haccepts
    rw [haccepted haccepts]
    exact update_kept now _
  · intro hnot
    rw [hrefused hnot]

/-! ## Lists without MIXED RGB -/

/-- MIXED RGB is in no list, and every index is one of its layer. -/
structure Sound (b : Keyboard) (s : State) : Prop where
  unmixed : Unmixed b s.lamps.effect_list
  stored : Unmixed b s.lamps.eeprom.effect_list
  indexed : Indexed b s.lamps

theorem received_unmixed {data : Nat → UInt8} {effect_list : Nat → Nat → rgb.effect_config_t}
    (haccepts : Accepts b data) (h : Unmixed b effect_list) :
    Unmixed b (received (data 2).toNat (data 3).toNat (data 4).toNat data effect_list) := by
  intro layer hlayer i hi
  unfold received
  split
  · exact UInt8.ne_of_lt (haccepts.2 _ (by omega))
  · exact h layer hlayer i hi

theorem Sound.set_effect_list (h : Sound b s) (data : Nat → UInt8) (now : UInt32) :
    Sound b (mixed_rgb_set_effect_list b data now s) := by
  obtain ⟨haccepted, hrefused⟩ := set_effect_list_eq (b := b) data now s
  by_cases haccepts : Accepts b data
  · obtain ⟨hlist, heeprom, hindexed, -⟩ := haccepted haccepts
    exact ⟨hlist ▸ received_unmixed haccepts h.unmixed, heeprom ▸ h.stored, hindexed⟩
  · rw [hrefused haccepts]
    exact h

theorem next_save (h : rgb.Host) :
    (rgb.kc_rgb_save b.layers).next h = { h with lamps.eeprom := h.lamps.toStored } := by
  have heach {κ : Type} (g : κ → rgb.Rgb Unit) (hg : ∀ x h, (g x).next h = h) (xs : List κ)
      (h : rgb.Host) : (each g xs).next h = h := by
    rw [next_each]
    exact List.foldl_fixed' (fun x => hg x h) xs
  unfold rgb.kc_rgb_save
  rw [next_bind, next_bind, next_bind, next_bind,
    heach _ fun region h => heach _ (fun i h => rfl) _ h, heach _ fun i h => rfl,
    heach _ fun i h => rfl]
  rfl

theorem Sound.save (h : Sound b s) : Sound b (kc_rgb_save b s) := by
  unfold kc_rgb_save
  rw [next_save]
  exact ⟨h.unmixed, h.unmixed, h.indexed⟩

theorem sound_load (now : UInt32) (h : Unmixed b s.lamps.eeprom.effect_list) :
    Sound b (eeconfig_init_custom_rgb b now s) := by
  obtain ⟨hlist, heeprom, hindexed, -⟩ :=
    update_kept (b := b) now ⟨fun _ => 0, loaded b s.lamps⟩
  refine ⟨?_, heeprom ▸ h, hindexed⟩
  intro layer hlayer i hi
  unfold eeconfig_init_custom_rgb
  rw [hlist]
  simpa [loaded, eeprom_read_block, hlayer, hi] using h layer hlayer i hi

theorem Sound.frame (h : Sound b s) (c : rgb_config_t) (init : Bool) (times : List Nat → TaskRun) :
    Sound b (step b s (.frame c init times)) ∧
      (Within b (.frame c init times) → Returns b s (.frame c init times)) := by
  have hcall := fun depth => mixed_rgb_kept (b := b) (s := called c init s) times [] depth h.indexed
    h.unmixed
  obtain ⟨-, hkept, hlit⟩ := hcall 0
  constructor
  · rw [step, (hcall 0).1]
    exact ⟨hkept.effect_list ▸ h.unmixed, hkept.eeprom ▸ h.stored, hkept.indexed h.indexed⟩
  · intro hmax
    exact ⟨_, fun depth => (hcall depth).1, fun hon => hlit.v hon (hmax hon)⟩

theorem Sound.step (h : Sound b s) (x : input) : Sound b (step b s x) := by
  cases x with
  | set_effect_list data now => exact h.set_effect_list data now
  | save => exact h.save
  | load now => exact sound_load now h.stored
  | frame c init times => exact (h.frame c init times).1

theorem Sound.scheduled (h : Sound b s) {x : input} (hx : Within b x) : Scheduled b s x := by
  refine ⟨?_, (h.step x).indexed⟩
  cases x with
  | set_effect_list data now => trivial
  | save => trivial
  | load now => trivial
  | frame c init times => exact (h.frame c init times).2 hx

/-! ## MIXED RGB in a layer -/

structure OnlyMixed (b : Keyboard) (layer : Nat) (lamps : rgb.Lamps) : Prop where
  indexed : Indexed b lamps
  count : lamps.layer_effect_count layer = 1
  some_effect : ∃ i < b.layers.EFFECTS_PER_LAYER, (lamps.effect_list layer i).effect ≠ 0
  mixed : ∀ i < b.layers.EFFECTS_PER_LAYER, (lamps.effect_list layer i).effect ≠ 0 →
    (lamps.effect_list layer i).effect = b.layers.RGB_MATRIX_CUSTOM_MIXED_RGB

theorem OnlyMixed.of_kept {layer : Nat} {lamps lamps' : rgb.Lamps} (h : OnlyMixed b layer lamps)
    (hkept : Kept b lamps lamps') : OnlyMixed b layer lamps' where
  indexed := hkept.indexed h.indexed
  count := by rw [hkept.layer_effect_count, h.count]
  some_effect := hkept.effect_list ▸ h.some_effect
  mixed := hkept.effect_list ▸ h.mixed

theorem OnlyMixed.finds {layer : Nat} {lamps : rgb.Lamps} (h : OnlyMixed b layer lamps)
    (backup_value : UInt8) :
    (lamps.effect_list layer
      (only_effect b.layers layer backup_value lamps).effect_index.toNat).effect ≠ 0 := by
  have hbyte := b.layers.effects_le
  unfold only_effect
  dsimp only
  split
  · split
    · rename_i i hfound
      have hi : i < b.layers.EFFECTS_PER_LAYER :=
        List.mem_range.mp (List.mem_of_find?_eq_some hfound)
      have hsame : i.toUInt8.toNat = i := by
        rw [Nat.toUInt8, UInt8.toNat_ofNat']
        omega
      simpa [hsame] using List.find?_some hfound
    · rename_i hnone
      obtain ⟨i, hi, heffect⟩ := h.some_effect
      exact absurd heffect (by simpa using List.find?_eq_none.mp hnone i (List.mem_range.mpr hi))
  · rename_i hnot
    exact fun hzero => hnot ⟨h.count, hzero⟩

theorem OnlyMixed.draws (run : LayerRun) (hlayer : s.rgb_effect_params.region.toNat <
      b.layers.EFFECT_LAYERS) (h : OnlyMixed b s.rgb_effect_params.region.toNat s.lamps) :
    ∃ d, until_switch b run s = .inr d ∧
      d.effect.effect = b.layers.RGB_MATRIX_CUSTOM_MIXED_RGB := by
  unfold until_switch
  dsimp only
  generalize hnoted : note_heatmap b _ _ s.lamps = noted
  have hmixed : OnlyMixed b s.rgb_effect_params.region.toNat noted :=
    h.of_kept (hnoted ▸ kept_note_heatmap _ _ s.lamps)
  have hturned := only_effect_turned (b := b) s.rgb_matrix_config.hsv.v
    (hmixed.indexed _ hlayer)
  have hone : ¬ 1 < noted.layer_effect_count s.rgb_effect_params.region.toNat := by
    rw [hmixed.count]
    decide
  rw [turn_layer, if_neg hone]
  refine ⟨_, rfl, ?_⟩
  rw [hturned.kept.effect_list]
  exact hmixed.mixed _ hturned.effect_index (hmixed.finds _)

section Runner

variable {MIXED_RGB : State → Option (Bool × State)} {run : LayerRun} {layer : Nat}

theorem OnlyMixed.of_runner (hnone : ∀ s, OnlyMixed b layer s.lamps → MIXED_RGB s = none)
    (hregion : s.rgb_effect_params.region.toNat < b.layers.EFFECT_LAYERS)
    (h : OnlyMixed b layer s.lamps) {r : Bool × State}
    (hr : multiple_rgb_effect_runner b MIXED_RGB run s = some r) : OnlyMixed b layer r.2.lamps := by
  unfold multiple_rgb_effect_runner at hr
  split at hr
  · rename_i s' hswitch
    obtain rfl := Option.some.inj hr
    exact h.of_kept (until_switch_inl hregion h.indexed hswitch).1
  · rename_i d hswitch
    have hkept := (until_switch_inr hregion h.indexed hswitch).1
    unfold draw at hr
    split at hr
    · rw [hnone d.state (h.of_kept hkept)] at hr
      cases hr
    · obtain rfl := Option.some.inj hr
      exact h.of_kept ((restore_lamps (b := b) d d.state).symm ▸ hkept)

theorem OnlyMixed.runner_none (hnone : ∀ s, OnlyMixed b layer s.lamps → MIXED_RGB s = none)
    (hlayer : layer < b.layers.EFFECT_LAYERS) (hregion : s.rgb_effect_params.region.toNat = layer)
    (h : OnlyMixed b layer s.lamps) : multiple_rgb_effect_runner b MIXED_RGB run s = none := by
  subst hregion
  obtain ⟨d, hswitch, hmixed⟩ := h.draws run hlayer
  have hkept := (until_switch_inr hlayer h.indexed hswitch).1
  rw [multiple_rgb_effect_runner, hswitch]
  dsimp only
  rw [draw, if_pos hmixed, hnone d.state (h.of_kept hkept)]
  rfl

end Runner

theorem OnlyMixed.never_returns {layer : Nat} (hlayer : layer < b.layers.EFFECT_LAYERS)
    (times : List Nat → TaskRun) (depth : Nat) (within : List Nat)
    (h : OnlyMixed b layer s.lamps) : mixed_rgb b times depth within s = none := by
  induction depth generalizing within s with
  | zero => rfl
  | succ depth ih =>
    refine foldlM_none (I := fun r : Bool × State => OnlyMixed b layer r.2.lamps)
      (fun r hr i hi r' hr' => ?_) (x := layer) (by simpa using hlayer) (fun r hr => ?_)
      (h.of_kept (begun_kept (times within) s).1)
    · have hi' : i < b.layers.EFFECT_LAYERS := by simpa using hi
      have hregion : (for_layer i r.2).rgb_effect_params.region.toNat < b.layers.EFFECT_LAYERS :=
        (for_layer_region hi' r.2).symm ▸ hi'
      have hfor : OnlyMixed b layer (for_layer i r.2).lamps := hr
      exact hfor.of_runner (fun s hs => ih (i :: within) hs) hregion hr'
    · have hfor : OnlyMixed b layer (for_layer layer r.2).lamps := hr
      exact hfor.runner_none (fun s hs => ih (layer :: within) hs) hlayer
        (for_layer_region hlayer r.2)

theorem OnlyMixed.not_returns {layer : Nat} (hlayer : layer < b.layers.EFFECT_LAYERS)
    (c : rgb_config_t) (init : Bool) (times : List Nat → TaskRun)
    (h : OnlyMixed b layer s.lamps) : ¬ Returns b s (.frame c init times) := by
  rintro ⟨r, hr, -⟩
  have hcalled : OnlyMixed b layer (called c init s).lamps := h
  exact absurd ((hr 0).symm.trans (hcalled.never_returns hlayer times 1 [])) (by simp)

/-! ## Lists that come to MIXED RGB -/

/-- A packet that takes an effect out of a layer. -/
def cleared (layer i : Nat) : Nat → UInt8 :=
  fun k => if k = 2 then layer.toUInt8 else if k = 3 then i.toUInt8 else if k = 4 then 1 else 0

theorem cleared_toNat {layer i : Nat} (hlayer : layer < b.layers.EFFECT_LAYERS)
    (hi : i < b.layers.EFFECTS_PER_LAYER) :
    (cleared layer i 2).toNat = layer ∧ (cleared layer i 3).toNat = i := by
  have hlayers := b.layers.layers_le
  have heffects := b.layers.effects_le
  exact ⟨UInt8.toNat_ofNat_of_lt' (show layer < 256 by omega),
    UInt8.toNat_ofNat_of_lt' (show i < 256 by omega)⟩

theorem accepts_clear {layer i : Nat} (hlayer : layer < b.layers.EFFECT_LAYERS)
    (hi : i < b.layers.EFFECTS_PER_LAYER) : Accepts b (cleared layer i) := by
  obtain ⟨hlayer', hi'⟩ := cleared_toNat hlayer hi
  refine ⟨?_, fun k hk => ?_⟩
  · rintro (hcount | hregion | hend)
    · exact absurd hcount (show ¬ (3 : UInt8) < 1 by decide)
    · omega
    · have hone : (cleared layer i 4).toNat = 1 := rfl
      omega
  · obtain rfl : k = 0 := Nat.lt_one_iff.mp hk
    exact b.mixed_pos

structure Left (b : Keyboard) (layer i : Nat) (js : List Nat) (lamps : rgb.Lamps) : Prop where
  indexed : Indexed b lamps
  counted : Counted b lamps
  mixed : (lamps.effect_list layer i).effect = b.layers.RGB_MATRIX_CUSTOM_MIXED_RGB
  others : ∀ j < b.layers.EFFECTS_PER_LAYER, j ≠ i → (lamps.effect_list layer j).effect ≠ 0 → j ∈ js

theorem Left.clear {layer i j : Nat} {js : List Nat} (hlayer : layer < b.layers.EFFECT_LAYERS)
    (hj : j < b.layers.EFFECTS_PER_LAYER) (hne : j ≠ i) (h : Left b layer i (j :: js) s.lamps) :
    Left b layer i js (mixed_rgb_set_effect_list b (cleared layer j) 0 s).lamps := by
  obtain ⟨hlist, -, hindexed, hcounted⟩ :=
    (set_effect_list_eq (cleared layer j) 0 s).1 (accepts_clear hlayer hj)
  obtain ⟨hlayer', hj'⟩ := cleared_toNat hlayer hj
  have hone : (cleared layer j 4).toNat = 1 := rfl
  rw [hlayer', hj', hone] at hlist
  refine ⟨hindexed, hcounted, ?_, fun k hk hki heffect => ?_⟩
  · rw [hlist, received, if_neg (by omega), h.mixed]
  · rw [hlist, received] at heffect
    by_cases hkj : k = j
    · subst hkj
      simp [sent, cleared, rgb.EFFECT_DATA_LEN] at heffect
    · rw [if_neg (by omega)] at heffect
      exact (List.mem_cons.mp (h.others k hk hki heffect)).resolve_left hkj

theorem Left.only {layer i : Nat} (hlayer : layer < b.layers.EFFECT_LAYERS)
    (hi : i < b.layers.EFFECTS_PER_LAYER) {lamps : rgb.Lamps} (h : Left b layer i [] lamps) :
    OnlyMixed b layer lamps := by
  have hsome : (lamps.effect_list layer i).effect ≠ 0 := by
    rw [h.mixed]
    exact (UInt8.ne_of_lt b.mixed_pos).symm
  have hothers : ∀ j ∈ List.range b.layers.EFFECTS_PER_LAYER,
      ((lamps.effect_list layer j).effect ≠ 0 ↔ j = i) := by
    intro j hj
    constructor
    · intro heffect
      by_contra hne
      exact absurd (h.others j (List.mem_range.mp hj) hne heffect) List.not_mem_nil
    · rintro rfl
      exact hsome
  refine ⟨h.indexed, ?_, ⟨i, hi, hsome⟩, fun j hj heffect => ?_⟩
  · rw [h.counted layer hlayer, List.countP_congr (q := (· = i)) fun j hj => by
      simpa using hothers j hj]
    have hone : (List.range b.layers.EFFECTS_PER_LAYER).countP (· = i) = 1 := by
      have hcount := List.count_range (a := i) (n := b.layers.EFFECTS_PER_LAYER)
      rw [if_pos hi] at hcount
      rw [← hcount, List.count]
      rfl
    rw [hone]
    rfl
  · rw [(hothers j (List.mem_range.mpr hj)).mp heffect, h.mixed]

theorem Left.run {layer i : Nat} (hlayer : layer < b.layers.EFFECT_LAYERS)
    (hi : i < b.layers.EFFECTS_PER_LAYER) {js : List Nat}
    (hjs : ∀ j ∈ js, j < b.layers.EFFECTS_PER_LAYER ∧ j ≠ i) (h : Left b layer i js s.lamps) :
    OnlyMixed b layer
      ((js.map fun j => .set_effect_list (cleared layer j) 0).foldl (step b) s).lamps := by
  induction js generalizing s with
  | nil => exact h.only hlayer hi
  | cons j js ih =>
    obtain ⟨⟨hj, hne⟩, hrest⟩ := List.forall_mem_cons.mp hjs
    exact ih hrest (h.clear hlayer hj hne)

theorem left_load {layer i : Nat} (hlayer : layer < b.layers.EFFECT_LAYERS)
    (hi : i < b.layers.EFFECTS_PER_LAYER) (now : UInt32)
    (hmixed : (s.lamps.eeprom.effect_list layer i).effect = b.layers.RGB_MATRIX_CUSTOM_MIXED_RGB) :
    Left b layer i ((List.range b.layers.EFFECTS_PER_LAYER).filter (· ≠ i))
      (eeconfig_init_custom_rgb b now s).lamps := by
  obtain ⟨hlist, -, hindexed, hcounted⟩ :=
    update_kept (b := b) now ⟨fun _ => 0, loaded b s.lamps⟩
  refine ⟨hindexed, hcounted, ?_, fun j hj hne _ => ?_⟩
  · unfold eeconfig_init_custom_rgb
    rw [hlist]
    simpa [loaded, eeprom_read_block, hlayer, hi] using hmixed
  · simpa using ⟨hj, hne⟩

end Laws

/-- The packets that take all effects but one out of a layer. -/
def clears (layer i : Nat) : List input :=
  ((List.range b.layers.EFFECTS_PER_LAYER).filter (· ≠ i)).map fun j =>
    .set_effect_list (cleared layer j) 0

/-- A call at the highest brightness. -/
def brightest : input :=
  .frame ⟨1, 0, ⟨0, 0, b.RGB_MATRIX_MAXIMUM_BRIGHTNESS⟩, 0, 0⟩ false fun _ =>
    { now := 0
      sync_timer_read32 := 0
      suspended := false
      rendering := false
      reset_time := 0
      layer := fun _ => ⟨fun _ => 0, false⟩ }

/-- With MIXED RGB in a layer, the host can take its other effects out, and then a call does
not return. -/
theorem unscheduled_of_mixed {b : Keyboard} {s : State} (now : UInt32)
    (hmixed : ¬ Unmixed b s.lamps.eeprom.effect_list) :
    ∃ xs, (∀ x ∈ xs, Within b x) ∧
      ¬ Along (step b) (Scheduled b) (eeconfig_init_custom_rgb b now s) xs := by
  simp only [Unmixed, not_forall, not_not] at hmixed
  obtain ⟨layer, hlayer, i, hi, hmixed⟩ := hmixed
  have honly := Left.run hlayer hi (by simp) (left_load hlayer hi now hmixed)
  refine ⟨clears b layer i ++ [brightest b], List.forall_mem_append.mpr ⟨?_, ?_⟩, fun hall => ?_⟩
  · refine List.forall_mem_map.mpr fun j hj _ => .inr ?_
    have hj' : j < b.layers.EFFECTS_PER_LAYER := List.mem_range.mp (List.mem_filter.mp hj).1
    exact (cleared_toNat hlayer hj').1.symm ▸ hlayer
  · exact List.forall_mem_singleton.mpr fun _ => UInt8.le_refl _
  · exact honly.not_returns hlayer _ _ _ (Along.append.mp hall).2.1.1

/-- With the lists that are loaded, MIXED RGB is scheduled in every run exactly when it is not
in a layer of them itself. -/
theorem scheduled_exactly_when_loaded_unmixed (b : Keyboard) (now : UInt32) (s : State) :
    (∀ xs, (∀ x ∈ xs, Within b x) →
        Along (step b) (Scheduled b) (eeconfig_init_custom_rgb b now s) xs) ↔
      Unmixed b s.lamps.eeprom.effect_list := by
  constructor
  · intro hall
    by_contra hmixed
    obtain ⟨xs, hwithin, hnot⟩ := unscheduled_of_mixed now hmixed
    exact hnot (hall xs hwithin)
  · intro hunmixed xs hxs
    exact Along.imp (I := Sound b) (fun s x h hx => ⟨h.scheduled hx, h.step x⟩)
      (sound_load now hunmixed) (Along.of_mem hxs _)

/-! ## A list of MIXED RGB alone -/

def board : Keyboard := { lightsBoard with mixed_pos := by decide }

def storedMixed : rgb.Stored :=
  { rgb.dark with
    effect_list := fun layer i => if layer = 0 ∧ i = 0 then ⟨23, 0, 255, 127, 5000⟩
      else ⟨0, 0, 0, 0, 0⟩ }

def start : State := powered (fun _ => 0) { oneEffect with eeprom := storedMixed }

theorem left_start : Left board 0 0 [] (eeconfig_init_custom_rgb board 0 start).lamps := by
  obtain ⟨hlist, -, hindexed, hcounted⟩ :=
    update_kept (b := board) 0 ⟨fun _ => 0, loaded board start.lamps⟩
  refine ⟨hindexed, hcounted, ?_, ?_⟩
  · unfold eeconfig_init_custom_rgb
    decide
  · unfold eeconfig_init_custom_rgb
    decide

/-- However deep, no call returns after such a list is loaded. -/
theorem a_loaded_mixed_rgb_never_returns :
    Within board (brightest board) ∧
      (∀ times depth, mixed_rgb board times depth []
        (called ⟨1, 23, ⟨0, 255, 255⟩, 127, 255⟩ true
          (eeconfig_init_custom_rgb board 0 start)) = none) ∧
      ¬ Along (step board) (Scheduled board) (eeconfig_init_custom_rgb board 0 start)
        [brightest board] := by
  have honly := left_start.only (by decide) (by decide)
  refine ⟨fun _ => UInt8.le_refl _, fun times depth => ?_, fun hall => ?_⟩
  · exact OnlyMixed.never_returns (by decide) times depth [] honly
  · exact honly.not_returns (by decide) _ _ _ hall.1.1

end keychron_qmk.rgb_matrix.nested
