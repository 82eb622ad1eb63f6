-- Where the RGB commands of the host reach: the packet and the arrays for any
-- packet, except that the last row, the last layer and the end of the lamps
-- are checked one too far or not at all.
import KeychronQMK.Rgb.Funs

namespace keychron_qmk.rgb

open traced

/-! ## One access -/

section

variable (cfg : Config)

def InBounds : Access → Prop
  | .packet i => i < RAW_EPSIZE
  | .per_key_led i => i < cfg.RGB_MATRIX_LED_COUNT
  | .regions i => i < cfg.RGB_MATRIX_LED_COUNT
  | .rgb_regions i => i < cfg.RGB_MATRIX_LED_COUNT
  | .effect_list region i => region < cfg.EFFECT_LAYERS ∧ i < cfg.EFFECTS_PER_LAYER
  | .matrix_co row column => row < cfg.MATRIX_ROWS ∧ column < cfg.MATRIX_COLS

variable (i region : Nat) (x : UInt8) (hsv : HSV) (e : effect_config_t) (h : Host)

@[simp] theorem val_byte : (byte i).val h = h.data i := rfl

@[simp] theorem next_byte : (byte i).next h = h := rfl

@[simp] theorem safe_byte : Safe (InBounds cfg) (byte i) h ↔ i < 32 := by
  simp [byte, InBounds, RAW_EPSIZE]

@[simp] theorem safe_put : Safe (InBounds cfg) (put i x) h ↔ i < 32 := by
  simp [put, InBounds, RAW_EPSIZE]

@[simp] theorem safe_get_led :
    Safe (InBounds cfg) (get_led i) h ↔ i < cfg.RGB_MATRIX_LED_COUNT := by
  simp [get_led, InBounds]

@[simp] theorem safe_set_led :
    Safe (InBounds cfg) (set_led i hsv) h ↔ i < cfg.RGB_MATRIX_LED_COUNT := by
  simp [set_led, InBounds]

@[simp] theorem safe_get_region :
    Safe (InBounds cfg) (get_region i) h ↔ i < cfg.RGB_MATRIX_LED_COUNT := by
  simp [get_region, InBounds]

@[simp] theorem safe_set_region :
    Safe (InBounds cfg) (set_region i x) h ↔ i < cfg.RGB_MATRIX_LED_COUNT := by
  simp [set_region, InBounds]

@[simp] theorem safe_get_effect : Safe (InBounds cfg) (get_effect region i) h ↔
    region < cfg.EFFECT_LAYERS ∧ i < cfg.EFFECTS_PER_LAYER := by
  simp [get_effect, InBounds]

@[simp] theorem safe_set_effect : Safe (InBounds cfg) (set_effect region i e) h ↔
    region < cfg.EFFECT_LAYERS ∧ i < cfg.EFFECTS_PER_LAYER := by
  simp [set_effect, InBounds]

def maskOf (data : Nat → UInt8) : UInt32 :=
  (data 3).toUInt32 ||| (data 4).toUInt32 <<< 8 ||| (data 5).toUInt32 <<< 16

@[simp] theorem val_row_mask : row_mask.val h = maskOf h.data := rfl

@[simp] theorem next_row_mask : row_mask.next h = h := rfl

@[simp] theorem safe_row_mask : Safe (InBounds cfg) row_mask h := by
  simp [row_mask]

@[simp] theorem safe_put_time (t : UInt32) :
    Safe (InBounds cfg) (put_time i t) h ↔ i + 3 < 32 := by
  simp only [put_time, safe_bind, safe_put]
  omega

@[simp] theorem safe_get_time : Safe (InBounds cfg) (get_time i) h ↔ i + 3 < 32 := by
  simp only [get_time, safe_bind, safe_byte, safe_pure, next_byte, and_true]
  omega

end

/-! ## Loops -/

section

variable {cfg : Config} {g : Nat → Rgb Unit} {C : Nat → Prop} {n : Nat}

theorem safe_loop (hsafe : ∀ i, i < n → ∀ h, Safe (InBounds cfg) (g i) h ↔ C i) (h : Host) :
    Safe (InBounds cfg) (each g (List.range n)) h ↔ ∀ i, i < n → C i := by
  rw [safe_each (I := fun _ => True) (C := C) ?_ (fun _ _ _ _ => trivial) trivial]
  · simp only [List.mem_range]
  · intro i hi h _
    exact hsafe i (List.mem_range.mp hi) h

end

theorem forall_lt_add {start count size : Nat} :
    (∀ i, i < count → start + i < size) ↔ count = 0 ∨ start + count ≤ size := by
  constructor
  · intro hall
    by_contra hne
    have hlast := hall (count - 1) (by omega)
    omega
  · intro hor i hi
    omega

/-! ## Handlers -/

section

variable (cfg : Config) (matrix_co : Nat → Nat → UInt8) (now : UInt32) (h : Host)

theorem safe_get_led_idx : Safe (InBounds cfg) (rgb_get_led_idx cfg matrix_co) h ↔
    ((h.data 2).toNat ≤ cfg.MATRIX_ROWS → cfg.MATRIX_COLS ≤ 29 ∧
      ((h.data 2).toNat < cfg.MATRIX_ROWS ∨
        ∀ c, c < cfg.MATRIX_COLS → (maskOf h.data).toNat.testBit c = false)) := by
  unfold rgb_get_led_idx
  rw [safe_bind, safe_byte, next_byte, val_byte, and_iff_right (by decide)]
  split
  · rename_i hrow
    exact iff_of_true (safe_pure _) fun hle => absurd hle (Nat.not_le.mpr hrow)
  rename_i hrow
  rw [safe_bind, next_row_mask, val_row_mask, and_iff_right (safe_row_mask cfg h), safe_bind,
    safe_loop (C := fun c => ((maskOf h.data).toNat.testBit c = true →
      (h.data 2).toNat < cfg.MATRIX_ROWS) ∧ 3 + c < 32)]
  · rw [and_iff_left (safe_pure _), forall_prop_of_true (Nat.not_lt.mp hrow)]
    constructor
    · intro hall
      constructor
      · by_contra hcols
        have := (hall 29 (by omega)).2
        omega
      · rw [or_iff_not_imp_left]
        intro hlast c hc
        by_contra hbit
        exact hlast ((hall c hc).1 (by simpa using hbit))
    · rintro ⟨hcols, hor⟩ c hc
      refine ⟨fun hbit => ?_, by omega⟩
      rcases hor with hin | hnone
      · exact hin
      · rw [hnone c hc] at hbit
        exact absurd hbit (by decide)
  · intro c hc s
    rw [safe_bind, safe_put]
    apply and_congr_left
    intro _
    unfold masked_led
    split
    · rename_i hbit
      simp [rgb_matrix_map_row_column_to_led, InBounds, hc, hbit]
    · rename_i hbit
      simp [hbit]

/-- The two commands on the colours, of which one has the other's bytes. -/
def ColorsIn (data : Nat → UInt8) : Prop :=
  (data 3).toNat ≤ 9 → (data 3).toNat = 0 ∨
    (data 2).toNat + (data 3).toNat ≤ cfg.RGB_MATRIX_LED_COUNT

theorem safe_get_led_color :
    Safe (InBounds cfg) per_key_rgb_get_led_color h ↔ ColorsIn cfg h.data := by
  unfold per_key_rgb_get_led_color ColorsIn
  rw [safe_bind, safe_byte, next_byte, val_byte, and_iff_right (by decide), safe_bind, safe_byte,
    next_byte, val_byte, and_iff_right (by decide)]
  split
  · rename_i hcount
    have := UInt8.lt_iff_toNat_lt.mp hcount
    exact iff_of_true (safe_pure _) fun hle => absurd this (Nat.not_lt.mpr hle)
  rename_i hcount
  have hle : (h.data 3).toNat ≤ 9 := UInt8.le_iff_toNat_le.mp (UInt8.not_lt.mp hcount)
  rw [safe_bind, and_iff_left (safe_pure _), forall_prop_of_true hle, ← forall_lt_add]
  apply safe_loop
  intro i hi s
  simp only [safe_bind, safe_get_led, safe_put]
  constructor
  · exact fun hall => hall.1
  · intro hin
    exact ⟨hin, by omega, by omega, by omega⟩

theorem safe_set_led_color :
    Safe (InBounds cfg) per_key_rgb_set_led_color h ↔ ColorsIn cfg h.data := by
  unfold per_key_rgb_set_led_color ColorsIn
  rw [safe_bind, safe_byte, next_byte, val_byte, and_iff_right (by decide), safe_bind, safe_byte,
    next_byte, val_byte, and_iff_right (by decide)]
  split
  · rename_i hcount
    have := UInt8.lt_iff_toNat_lt.mp hcount
    exact iff_of_true (safe_pure _) fun hle => absurd this (Nat.not_lt.mpr hle)
  rename_i hcount
  have hle : (h.data 3).toNat ≤ 9 := UInt8.le_iff_toNat_le.mp (UInt8.not_lt.mp hcount)
  rw [safe_bind, and_iff_left (safe_pure _), forall_prop_of_true hle, ← forall_lt_add]
  apply safe_loop
  intro i hi s
  simp only [safe_bind, safe_set_led, safe_byte]
  constructor
  · exact fun hall => hall.2.2.2
  · intro hin
    exact ⟨by omega, by omega, by omega, hin⟩

theorem safe_get_regions : Safe (InBounds cfg) (mixed_rgb_get_regions cfg) h := by
  unfold mixed_rgb_get_regions
  rw [safe_bind, safe_byte, next_byte, val_byte, and_iff_right (by decide), safe_bind, safe_byte,
    next_byte, val_byte, and_iff_right (by decide)]
  split
  · exact safe_pure _
  rename_i hacc
  rw [not_or, UInt8.not_lt, Nat.not_lt] at hacc
  have hcount : (h.data 3).toNat ≤ 29 := UInt8.le_iff_toNat_le.mp hacc.1
  rw [safe_bind, and_iff_left (safe_pure _), safe_loop (C := fun _ => True)]
  · exact fun _ _ => trivial
  · intro i hi s
    simp only [safe_bind, safe_get_region, safe_put, iff_true]
    omega

theorem safe_set_regions : Safe (InBounds cfg) (mixed_rgb_set_regions cfg) h := by
  unfold mixed_rgb_set_regions
  rw [safe_bind, safe_byte, next_byte, val_byte, and_iff_right (by decide), safe_bind, safe_byte,
    next_byte, val_byte, and_iff_right (by decide)]
  split
  · exact safe_pure _
  rename_i hacc
  rw [not_or, UInt8.not_lt, Nat.not_lt] at hacc
  have hcount : (h.data 3).toNat ≤ 28 := UInt8.le_iff_toNat_le.mp hacc.1
  rw [safe_bind]
  constructor
  · apply safe_anyM
    intro i hi s
    have := List.mem_range.mp hi
    simp only [safe_bind, safe_byte, safe_pure, and_true]
    omega
  · split
    · exact safe_pure _
    rw [safe_bind, and_iff_left (safe_pure _), safe_loop (C := fun _ => True)]
    · exact fun _ _ => trivial
    · intro i hi s
      simp only [safe_bind, safe_set_region, safe_byte, iff_true]
      omega

theorem effects_accepted {region start count : UInt8}
    (hacc : ¬ effects_rejected cfg region start count) :
    count.toNat ≤ 3 ∧ region.toNat ≤ cfg.EFFECT_LAYERS ∧
      start.toNat + count.toNat ≤ cfg.EFFECTS_PER_LAYER := by
  unfold effects_rejected at hacc
  rw [not_or, not_or, UInt8.not_lt, Nat.not_lt, Nat.not_lt] at hacc
  exact ⟨UInt8.le_iff_toNat_le.mp hacc.1, hacc.2⟩

theorem forall_layer {region count start : Nat}
    (hacc : start + count ≤ cfg.EFFECTS_PER_LAYER) :
    (∀ i, i < count → region < cfg.EFFECT_LAYERS ∧ start + i < cfg.EFFECTS_PER_LAYER) ↔
      count = 0 ∨ region < cfg.EFFECT_LAYERS := by
  constructor
  · intro hall
    rw [or_iff_not_imp_left]
    intro hne
    exact (hall 0 (by omega)).1
  · intro hor i hi
    omega

theorem safe_get_effect_list : Safe (InBounds cfg) (mixed_rgb_get_effect_list cfg) h ↔
    (¬ effects_rejected cfg (h.data 2) (h.data 3) (h.data 4) →
      (h.data 4).toNat = 0 ∨ (h.data 2).toNat < cfg.EFFECT_LAYERS) := by
  unfold mixed_rgb_get_effect_list
  rw [safe_bind, safe_byte, next_byte, val_byte, and_iff_right (by decide), safe_bind, safe_byte,
    next_byte, val_byte, and_iff_right (by decide), safe_bind, safe_byte, next_byte, val_byte,
    and_iff_right (by decide)]
  split
  · rename_i hrej
    exact iff_of_true (safe_pure _) fun hacc => absurd hrej hacc
  rename_i hacc
  obtain ⟨hcount, -, hend⟩ := effects_accepted cfg hacc
  rw [safe_bind, and_iff_left (safe_pure _), forall_prop_of_true hacc, ← forall_layer cfg hend]
  apply safe_loop
  intro i hi s
  simp only [safe_bind, safe_get_effect, safe_put, safe_put_time, EFFECT_DATA_LEN]
  constructor
  · exact fun hall => hall.1
  · intro hin
    exact ⟨hin, by omega, by omega, by omega, by omega, by omega⟩

theorem safe_update_count : Safe (InBounds cfg) (update_mixed_rgb_effect_count cfg now) h := by
  unfold update_mixed_rgb_effect_count mixed_rgb_reset
  rw [safe_bind]
  constructor
  · rw [safe_loop (C := fun _ => True)]
    · exact fun _ _ => trivial
    intro layer hlayer s
    rw [safe_bind, iff_true, safe_loop (C := fun _ => True)]
    · exact ⟨safe_change _, fun _ _ => trivial⟩
    intro i hi s
    rw [safe_bind, safe_get_effect, iff_true]
    refine ⟨⟨hlayer, hi⟩, ?_⟩
    split
    · exact safe_change _
    · exact safe_pure ()
  · rw [safe_bind, safe_loop (C := fun _ => True)]
    · exact ⟨safe_change _, fun _ _ => trivial⟩
    intro i hi s
    simp [hi, cfg.effects_pos]

theorem safe_set_effect_list : Safe (InBounds cfg) (mixed_rgb_set_effect_list cfg now) h ↔
    (¬ effects_rejected cfg (h.data 2) (h.data 3) (h.data 4) →
      (h.data 4).toNat = 0 ∨ (h.data 2).toNat < cfg.EFFECT_LAYERS ∨
        ∃ i, i < (h.data 4).toNat ∧ cfg.RGB_MATRIX_CUSTOM_MIXED_RGB ≤ h.data (5 + i * 8)) := by
  unfold mixed_rgb_set_effect_list
  rw [safe_bind, safe_byte, next_byte, val_byte, and_iff_right (by decide), safe_bind, safe_byte,
    next_byte, val_byte, and_iff_right (by decide), safe_bind, safe_byte, next_byte, val_byte,
    and_iff_right (by decide)]
  split
  · rename_i hrej
    exact iff_of_true (safe_pure _) fun hacc => absurd hrej hacc
  rename_i hacc
  obtain ⟨hcount, -, hend⟩ := effects_accepted cfg hacc
  have hreads : ∀ i, Reads (do
      let effect ← byte (5 + i * EFFECT_DATA_LEN)
      pure (decide (cfg.RGB_MATRIX_CUSTOM_MIXED_RGB ≤ effect)) : Rgb Bool) :=
    fun i => reads_bind (fun _ => rfl) fun _ => reads_pure _
  obtain ⟨hnext, hval⟩ := anyM_of_reads hreads (List.range (h.data 4).toNat) h
  rw [safe_bind, hnext, hval, forall_prop_of_true hacc]
  have hcheck : Safe (InBounds cfg) ((List.range (h.data 4).toNat).anyM fun i => do
      let effect ← byte (5 + i * EFFECT_DATA_LEN)
      pure (decide (cfg.RGB_MATRIX_CUSTOM_MIXED_RGB ≤ effect))) h := by
    apply safe_anyM
    intro i hi s
    have := List.mem_range.mp hi
    simp only [safe_bind, safe_byte, safe_pure, and_true, EFFECT_DATA_LEN]
    omega
  rw [and_iff_right hcheck]
  split
  · rename_i hbad
    obtain ⟨i, hi, heffect⟩ := List.any_eq_true.mp hbad
    exact iff_of_true (safe_pure _)
      (.inr (.inr ⟨i, List.mem_range.mp hi, of_decide_eq_true heffect⟩))
  rename_i hgood
  have hnone : ¬ ∃ i, i < (h.data 4).toNat ∧
      cfg.RGB_MATRIX_CUSTOM_MIXED_RGB ≤ h.data (5 + i * 8) := by
    rintro ⟨i, hi, heffect⟩
    exact hgood (List.any_eq_true.mpr ⟨i, List.mem_range.mpr hi, decide_eq_true heffect⟩)
  rw [safe_bind, safe_bind, and_iff_left ⟨safe_update_count cfg now _, safe_pure _⟩,
    or_iff_left hnone, ← forall_layer cfg hend]
  apply safe_loop
  intro i hi s
  simp only [safe_bind, safe_set_effect, safe_byte, safe_get_time, EFFECT_DATA_LEN]
  constructor
  · exact fun hall => hall.2.2.2.2.2
  · intro hin
    exact ⟨by omega, by omega, by omega, by omega, by omega, hin⟩

theorem safe_save : Safe (InBounds cfg) (kc_rgb_save cfg) h := by
  unfold kc_rgb_save
  rw [safe_bind, safe_bind, safe_bind, safe_bind]
  refine ⟨?_, ?_, ?_, safe_change _, safe_pure _⟩
  · rw [safe_loop (C := fun _ => True)]
    · exact fun _ _ => trivial
    intro i hi s
    simp [hi]
  · rw [safe_loop (C := fun _ => True)]
    · exact fun _ _ => trivial
    intro i hi s
    simp [hi]
  · rw [safe_loop (C := fun _ => True)]
    · exact fun _ _ => trivial
    intro region hregion s
    rw [iff_true, safe_loop (C := fun _ => True)]
    · exact fun _ _ => trivial
    intro i hi s
    simp [hi, hregion]

/-! ## Commands -/

variable (b : Board)

/-- The packets that reach into memory of nothing else. -/
structure InRange (data : Nat → UInt8) : Prop where
  led_idx : data 1 = RGB_GET_LED_IDX → (data 2).toNat ≤ cfg.MATRIX_ROWS →
    cfg.MATRIX_COLS ≤ 29 ∧ ((data 2).toNat < cfg.MATRIX_ROWS ∨
      ∀ c, c < cfg.MATRIX_COLS → (maskOf data).toNat.testBit c = false)
  colors : data 1 = PER_KEY_RGB_GET_COLOR ∨ data 1 = PER_KEY_RGB_SET_COLOR → ColorsIn cfg data
  get_effects : data 1 = MIXED_EFFECT_RGB_GET_EFFECT_LIST →
    ¬ effects_rejected cfg (data 2) (data 3) (data 4) →
      (data 4).toNat = 0 ∨ (data 2).toNat < cfg.EFFECT_LAYERS
  set_effects : data 1 = MIXED_EFFECT_RGB_SET_EFFECT_LIST →
    ¬ effects_rejected cfg (data 2) (data 3) (data 4) →
      (data 4).toNat = 0 ∨ (data 2).toNat < cfg.EFFECT_LAYERS ∨
        ∃ i, i < (data 4).toNat ∧ cfg.RGB_MATRIX_CUSTOM_MIXED_RGB ≤ data (5 + i * 8)

theorem inRange_of_other {data : Nat → UInt8}
    (hid : data 1 ∉ [RGB_GET_LED_IDX, PER_KEY_RGB_GET_COLOR, PER_KEY_RGB_SET_COLOR,
      MIXED_EFFECT_RGB_GET_EFFECT_LIST, MIXED_EFFECT_RGB_SET_EFFECT_LIST]) :
    InRange cfg data := by
  simp only [List.mem_cons, List.not_mem_nil, or_false, not_or] at hid
  obtain ⟨hidx, hget, hset, hgets, hsets⟩ := hid
  refine ⟨fun h => absurd h hidx, fun h => ?_, fun h => absurd h hgets, fun h => absurd h hsets⟩
  rcases h with h | h
  · exact absurd h hget
  · exact absurd h hset

theorem safe_of_other {m : Rgb Bool} {cmd : UInt8} (heq : h.data 1 = cmd)
    (hid : cmd ∉ [RGB_GET_LED_IDX, PER_KEY_RGB_GET_COLOR, PER_KEY_RGB_SET_COLOR,
      MIXED_EFFECT_RGB_GET_EFFECT_LIST, MIXED_EFFECT_RGB_SET_EFFECT_LIST])
    (hm : Safe (InBounds cfg) m h) : Safe (InBounds cfg) m h ↔ InRange cfg h.data :=
  iff_of_true hm (inRange_of_other cfg (heq ▸ hid))

theorem safe_request :
    Safe (InBounds cfg) (request cfg b (h.data 1)) h ↔ InRange cfg h.data := by
  apply safe_ite_iff
  · intro heq
    exact safe_of_other cfg h heq (by decide) (by simp [rgb_get_version])
  intro _
  apply safe_ite_iff
  · intro heq
    exact safe_of_other cfg h heq (by decide) (safe_save cfg h)
  intro _
  apply safe_ite_iff
  · intro heq
    exact safe_of_other cfg h heq (by decide) (by simp [get_indicators_config])
  intro _
  apply safe_ite_iff
  · intro heq
    exact safe_of_other cfg h heq (by decide) (by simp [set_indicators_config])
  intro _
  apply safe_ite_iff
  · intro heq
    exact safe_of_other cfg h heq (by decide) (by simp [rgb_get_led_count])
  intro _
  apply safe_ite_iff
  · intro heq
    rw [safe_get_led_idx]
    constructor
    · intro hidx
      refine ⟨fun _ => hidx, fun h => ?_, fun h => ?_, fun h => ?_⟩
      · rw [heq] at h
        exact absurd h (by decide)
      · rw [heq] at h
        exact absurd h (by decide)
      · rw [heq] at h
        exact absurd h (by decide)
    · exact fun hin => hin.led_idx heq
  intro hidx
  apply safe_ite_iff
  · intro heq
    exact safe_of_other cfg h heq (by decide) (by simp [per_key_rgb_get_type])
  intro _
  apply safe_ite_iff
  · intro heq
    apply safe_of_other cfg h heq (by decide)
    unfold per_key_rgb_set_type
    rw [safe_bind, safe_byte, next_byte, val_byte]
    refine ⟨by decide, ?_⟩
    split
    · exact safe_pure _
    · exact safe_bind.mpr ⟨safe_change _, safe_pure _⟩
  intro _
  apply safe_ite_iff
  · intro heq
    rw [safe_get_led_color]
    constructor
    · intro hcolors
      refine ⟨fun h => absurd h hidx, fun _ => hcolors, fun h => ?_, fun h => ?_⟩
      · rw [heq] at h
        exact absurd h (by decide)
      · rw [heq] at h
        exact absurd h (by decide)
    · exact fun hin => hin.colors (.inl heq)
  intro hget
  apply safe_ite_iff
  · intro heq
    rw [safe_set_led_color]
    constructor
    · intro hcolors
      refine ⟨fun h => absurd h hidx, fun _ => hcolors, fun h => ?_, fun h => ?_⟩
      · rw [heq] at h
        exact absurd h (by decide)
      · rw [heq] at h
        exact absurd h (by decide)
    · exact fun hin => hin.colors (.inr heq)
  intro hset
  apply safe_ite_iff
  · intro heq
    exact safe_of_other cfg h heq (by decide) (by simp [mixed_rgb_get_effect_info])
  intro _
  apply safe_ite_iff
  · intro heq
    exact safe_of_other cfg h heq (by decide) (safe_get_regions cfg h)
  intro _
  apply safe_ite_iff
  · intro heq
    exact safe_of_other cfg h heq (by decide) (safe_set_regions cfg h)
  intro _
  have hcolors : ¬ (h.data 1 = PER_KEY_RGB_GET_COLOR ∨ h.data 1 = PER_KEY_RGB_SET_COLOR) :=
    not_or.mpr ⟨hget, hset⟩
  apply safe_ite_iff
  · intro heq
    rw [safe_get_effect_list]
    constructor
    · intro heffects
      refine ⟨fun h => absurd h hidx, fun h => absurd h hcolors, fun _ => heffects, fun h => ?_⟩
      rw [heq] at h
      exact absurd h (by decide)
    · exact fun hin => hin.get_effects heq
  intro hgets
  apply safe_ite_iff
  · intro heq
    rw [safe_set_effect_list]
    constructor
    · intro heffects
      exact ⟨fun h => absurd h hidx, fun h => absurd h hcolors, fun h => absurd h hgets,
        fun _ => heffects⟩
    · exact fun hin => hin.set_effects heq
  intro hsets
  refine iff_of_true (by simp) ?_
  exact ⟨fun h => absurd h hidx, fun h => absurd h hcolors, fun h => absurd h hgets,
    fun h => absurd h hsets⟩

/-! ## Rejected requests -/

theorem reads_byte (i : Nat) : Reads (byte i) := fun _ => rfl

theorem request_atomic (cmd : UInt8) : Atomic (request cfg b cmd) := by
  apply atomic_ite
  · exact atomic_of_true fun _ => rfl
  apply atomic_ite
  · exact atomic_of_true fun _ => rfl
  apply atomic_ite
  · exact atomic_of_true fun _ => rfl
  apply atomic_ite
  · exact atomic_of_true fun _ => rfl
  apply atomic_ite
  · exact atomic_of_true fun _ => rfl
  apply atomic_ite
  · apply atomic_bind (reads_byte 2)
    intro row
    exact atomic_ite atomic_false (atomic_of_true fun _ => rfl)
  apply atomic_ite
  · exact atomic_of_true fun _ => rfl
  apply atomic_ite
  · apply atomic_bind (reads_byte 2)
    intro type
    exact atomic_ite atomic_false (atomic_of_true fun _ => rfl)
  apply atomic_ite
  · apply atomic_bind (reads_byte 2)
    intro start
    apply atomic_bind (reads_byte 3)
    intro count
    exact atomic_ite atomic_false (atomic_of_true fun _ => rfl)
  apply atomic_ite
  · apply atomic_bind (reads_byte 2)
    intro start
    apply atomic_bind (reads_byte 3)
    intro count
    exact atomic_ite atomic_false (atomic_of_true fun _ => rfl)
  apply atomic_ite
  · exact atomic_of_true fun _ => rfl
  apply atomic_ite
  · apply atomic_bind (reads_byte 2)
    intro start
    apply atomic_bind (reads_byte 3)
    intro count
    exact atomic_ite atomic_false (atomic_of_true fun _ => rfl)
  apply atomic_ite
  · apply atomic_bind (reads_byte 2)
    intro start
    apply atomic_bind (reads_byte 3)
    intro count
    apply atomic_ite atomic_false
    apply atomic_bind
    · intro s
      exact (anyM_of_reads (fun i => reads_bind (reads_byte _) fun _ => reads_pure _) _ s).1
    intro bad
    exact atomic_ite atomic_false (atomic_of_true fun _ => rfl)
  apply atomic_ite
  · apply atomic_bind (reads_byte 2)
    intro region
    apply atomic_bind (reads_byte 3)
    intro start
    apply atomic_bind (reads_byte 4)
    intro count
    exact atomic_ite atomic_false (atomic_of_true fun _ => rfl)
  apply atomic_ite
  · apply atomic_bind (reads_byte 2)
    intro region
    apply atomic_bind (reads_byte 3)
    intro start
    apply atomic_bind (reads_byte 4)
    intro count
    apply atomic_ite atomic_false
    apply atomic_bind
    · intro s
      exact (anyM_of_reads (fun i => reads_bind (reads_byte _) fun _ => reads_pure _) _ s).1
    intro bad
    exact atomic_ite atomic_false (atomic_of_true fun _ => rfl)
  · exact atomic_of_true fun _ => rfl

end

section

variable (cfg : Config) (b : Board) (h : Host)

def commands : List UInt8 :=
  [RGB_GET_PROTOCOL_VER, RGB_SAVE, GET_INDICATORS_CONFIG, SET_INDICATORS_CONFIG,
    RGB_GET_LED_COUNT, RGB_GET_LED_IDX, PER_KEY_RGB_GET_TYPE, PER_KEY_RGB_SET_TYPE,
    PER_KEY_RGB_GET_COLOR, PER_KEY_RGB_SET_COLOR, MIXED_EFFECT_RGB_GET_INFO,
    MIXED_EFFECT_RGB_GET_REGIONS, MIXED_EFFECT_RGB_SET_REGIONS,
    MIXED_EFFECT_RGB_GET_EFFECT_LIST, MIXED_EFFECT_RGB_SET_EFFECT_LIST]

/-- No command, or one that its handler refuses. -/
def Rejected : Prop := h.data 1 ∉ commands ∨ (request cfg b (h.data 1)).val h = false

/-- A rejected request changes no lamp, and of the packet at most the id and
the status of the reply. -/
theorem rejected_keeps (hrej : Rejected cfg b h) :
    ((kc_rgb_matrix_rx cfg b).next h).lamps = h.lamps ∧
      ∀ i, i ≠ 0 → i ≠ 2 → ((kc_rgb_matrix_rx cfg b).next h).data i = h.data i := by
  have hput : ∀ x s, ((put 2 x).next s).lamps = s.lamps ∧
      ∀ i, i ≠ 2 → ((put 2 x).next s).data i = s.data i :=
    fun x s => ⟨rfl, fun i hi => Function.update_of_ne hi _ _⟩
  have hrequest : ((request cfg b (h.data 1)).next h).lamps = h.lamps ∧
      ∀ i, i ≠ 0 → ((request cfg b (h.data 1)).next h).data i = h.data i := by
    rcases hrej with hunknown | hrefused
    · have hdefault : request cfg b (h.data 1) = (do put 0 0xFF; pure true : Rgb Bool) := by
        simp only [commands, List.mem_cons, List.not_mem_nil, or_false, not_or] at hunknown
        simp [request, hunknown]
      rw [hdefault]
      exact ⟨rfl, fun i hi => Function.update_of_ne hi _ _⟩
    · rw [request_atomic cfg b _ h hrefused]
      exact ⟨rfl, fun _ _ => rfl⟩
  constructor
  · exact (hput _ _).1.trans hrequest.1
  · intro i h0 h2
    exact ((hput _ _).2 i h2).trans (hrequest.2 i h0)

theorem safe_rx :
    Safe (InBounds cfg) (kc_rgb_matrix_rx cfg b) h ↔ InRange cfg h.data := by
  unfold kc_rgb_matrix_rx
  rw [safe_bind, safe_byte, next_byte, val_byte, and_iff_right (by decide), safe_bind, safe_put,
    and_iff_left (by decide), safe_request]

/-- A packet reaches nothing out of bounds, and nothing at all when it is
rejected. -/
structure Bounded : Prop where
  accesses : Safe (InBounds cfg) (kc_rgb_matrix_rx cfg b) h
  rejected : Rejected cfg b h → ((kc_rgb_matrix_rx cfg b).next h).lamps = h.lamps ∧
    ∀ i, i ≠ 0 → i ≠ 2 → ((kc_rgb_matrix_rx cfg b).next h).data i = h.data i

/-- The row and the layer past the last, the columns past the packet and the
colours past the last lamp are all that goes out of bounds. -/
theorem rgb_packets_are_bounded_when_in_range : Bounded cfg b h ↔ InRange cfg h.data := by
  constructor
  · intro hbounded
    exact (safe_rx cfg b h).mp hbounded.accesses
  · intro hin
    exact ⟨(safe_rx cfg b h).mpr hin, rejected_keeps cfg b h⟩

end

/-- 84 lamps on a matrix of 6 rows and 15 columns. -/
def keyboard : Config where
  RGB_MATRIX_LED_COUNT := 84
  MATRIX_ROWS := 6
  MATRIX_COLS := 15
  EFFECT_LAYERS := 2
  EFFECTS_PER_LAYER := 5
  RGB_MATRIX_TYPING_HEATMAP := 13
  RGB_MATRIX_CUSTOM_MIXED_RGB := 24
  indicator_mask := 0x02
  cols_le := by decide
  layers_le := by decide
  effects_pos := by decide
  effects_le := by decide

def dark : Stored where
  os_ind_cfg := ⟨0, 0, 0, 128⟩
  per_key_rgb_type := 0
  per_key_led _ := ⟨0, 0, 0⟩
  regions _ := 0
  effect_list _ _ := ⟨0, 0, 0, 0, 0⟩

def nineColors : Host where
  data i := [0xA8, 0x0A, 83, 9].getD i 0
  lamps :=
    { dark with
      rgb_regions := fun _ => 0
      layer_effect_count := fun _ => 0
      layer_effect_index := fun _ => 0
      layer_effect_timer := fun _ => 0
      typingHeatmap := 0
      eeprom := dark }

theorem colors_past_the_last_lamp :
    ¬ Bounded keyboard ⟨fun _ _ => 0, 0⟩ nineColors := by
  intro hbounded
  have hin := (safe_rx keyboard ⟨fun _ _ => 0, 0⟩ nineColors).mp hbounded.accesses
  rcases hin.colors (.inr rfl) (by decide) with hnone | hend
  · exact absurd hnone (by decide)
  · exact absurd hend (by decide)

end keychron_qmk.rgb
