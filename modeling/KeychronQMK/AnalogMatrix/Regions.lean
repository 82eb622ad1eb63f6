-- The EEPROM against the record of what was saved: each write of the
-- firmware keeps every region at the value saved last, but for the byte that
-- the current profile and the calibration of the first key share.
import KeychronQMK.AnalogMatrix.Eeconfig

namespace keychron_qmk.analog_matrix

open layout memory

variable {R C : Nat}

/-! ## The low byte of a calibrated value -/

def low (v : calibrated_value_t) : UInt8 := .ofNat v.zero_travel.toNat

def withLow (v : calibrated_value_t) (x : UInt8) : calibrated_value_t :=
  { v with zero_travel := .ofNat 12 (v.zero_travel.toNat / 256 * 256 + x.toNat) }

theorem withLow_toNat (v : calibrated_value_t) (x : UInt8) :
    (withLow v x).zero_travel.toNat = v.zero_travel.toNat / 256 * 256 + x.toNat := by
  have hx := x.toNat_lt
  simp only [withLow, BitVec.toNat_ofNat]
  omega

theorem low_toNat (v : calibrated_value_t) : (low v).toNat = v.zero_travel.toNat % 256 := by
  simp [low]

@[simp] theorem low_withLow (v : calibrated_value_t) (x : UInt8) : low (withLow v x) = x := by
  have hx := x.toNat_lt
  apply UInt8.toNat_inj.mp
  rw [low_toNat, withLow_toNat]
  omega

@[simp] theorem withLow_withLow (v : calibrated_value_t) (x y : UInt8) :
    withLow (withLow v x) y = withLow v y := by
  have hx := x.toNat_lt
  have hdiv : (v.zero_travel.toNat / 256 * 256 + x.toNat) / 256 = v.zero_travel.toNat / 256 := by
    omega
  change (⟨.ofNat 12 ((withLow v x).zero_travel.toNat / 256 * 256 + y.toNat), v.full_travel⟩ :
    calibrated_value_t) = _
  rw [withLow_toNat, hdiv]
  rfl

theorem calib_read_eq (m : Nat → UInt8) (a : Nat) :
    calibCodec.read m a =
      ⟨.ofNat 12 ((m a).toNat + 256 * ((m (a + 1)).toNat + 256 * (m (a + 2)).toNat)),
        .ofNat 12 (((m a).toNat + 256 * ((m (a + 1)).toNat + 256 * (m (a + 2)).toNat)) / 2 ^ 12)⟩ :=
  rfl

theorem low_read (m : Nat → UInt8) (a : Nat) : low (calibCodec.read m a) = m a := by
  have h := (m a).toNat_lt
  apply UInt8.toNat_inj.mp
  rw [low_toNat, calib_read_eq, BitVec.toNat_ofNat]
  omega

theorem calib_read_write_byte (m : Nat → UInt8) (a : Nat) (x : UInt8) :
    calibCodec.read (Codec.byte.write m a x) a = withLow (calibCodec.read m a) x := by
  have h := (m a).toNat_lt
  have hx := x.toNat_lt
  rw [calib_read_eq, calib_read_eq, Codec.byte_write, Function.update_self,
    Function.update_of_ne (by omega), Function.update_of_ne (by omega)]
  congr 1
  · apply BitVec.eq_of_toNat_eq
    simp only [BitVec.toNat_ofNat]
    omega
  · apply BitVec.eq_of_toNat_eq
    simp only [BitVec.toNat_ofNat]
    omega

/-! ## The record -/

/-- Who wrote the shared byte. -/
inductive Writer
  | index
  | calibration
  deriving DecidableEq

/-- The value saved last for each datum, if any was, and the last writer of
the shared byte. -/
structure Saved (R C : Nat) where
  calibrated : Option UInt8
  value : Fin R → Fin C → Option calibrated_value_t
  index : Option (Fin PROFILE_COUNT)
  profile : Fin PROFILE_COUNT → Option (analog_matrix_profile_t R C)
  curve : Option (Fin CURVE_POINTS_COUNT → point_t)
  mode : Option UInt8
  writer : Option Writer

namespace Saved

def nothing (R C : Nat) : Saved R C where
  calibrated := none
  value := fun _ _ => none
  index := none
  profile := fun _ => none
  curve := none
  mode := none
  writer := none

/-- The first key, whose value starts on the shared byte. -/
def IsFirst (r : Fin R) (c : Fin C) : Prop := r.val = 0 ∧ c.val = 0

instance (r : Fin R) (c : Fin C) : Decidable (IsFirst r c) :=
  inferInstanceAs (Decidable (r.val = 0 ∧ c.val = 0))

def indexByte (g : Saved R C) : UInt8 := .ofNat (g.index.getD 0).val

def saveIndex (g : Saved R C) (i : Fin PROFILE_COUNT) : Saved R C :=
  { g with index := some i, writer := some .index }

def saveFlag (g : Saved R C) (x : UInt8) : Saved R C := { g with calibrated := some x }

def saveValue (g : Saved R C) (r : Fin R) (c : Fin C) (v : calibrated_value_t) : Saved R C :=
  { g with
    value := fun r' c' => if r' = r ∧ c' = c then some v else g.value r' c'
    writer := if IsFirst r c then some .calibration else g.writer }

def saveValues (g : Saved R C) (v : Fin R → Fin C → calibrated_value_t) : Saved R C :=
  { g with value := fun r c => some (v r c), writer := some .calibration }

def saveProfile (g : Saved R C) (i : Fin PROFILE_COUNT) (p : analog_matrix_profile_t R C) :
    Saved R C :=
  { g with profile := Function.update g.profile i (some p) }

def saveCurve (g : Saved R C) (pt : Fin CURVE_POINTS_COUNT → point_t) : Saved R C :=
  { g with curve := some pt }

def saveMode (g : Saved R C) (mode : UInt8) : Saved R C := { g with mode := some mode }

def stored (g : Saved R C) (r : Fin R) (c : Fin C) : calibrated_value_t :=
  if IsFirst r c ∧ g.writer = some .index then withLow ((g.value r c).getD .zero) g.indexByte
  else (g.value r c).getD .zero

end Saved

/-! ## The layout -/

def profile_offset (R C : Nat) (i : Fin PROFILE_COUNT) : Nat :=
  OFFSET_PROFILES_START R C + i * PROFILE_SIZE R C

theorem calib_offset_end (r : Fin R) (c : Fin C) :
    calib_offset r c + calibCodec.size ≤ OFFSET_PROFILES_START R C := by
  have h : r * C + c + 1 ≤ R * C :=
    calc r * C + c + 1 ≤ r * C + C := by omega
      _ = (r + 1) * C := (Nat.succ_mul r C).symm
      _ ≤ R * C := Nat.mul_le_mul_right C r.isLt
  change 1 + (r * C + c) * 3 + 3 ≤ 1 + R * C * 3
  omega

theorem calib_offset_pos (r : Fin R) (c : Fin C) : 1 ≤ calib_offset r c := by
  change 1 ≤ 1 + (r * C + c) * 3
  omega

theorem calib_offset_disjoint {r r' : Fin R} {c c' : Fin C} (h : ¬ (r' = r ∧ c' = c)) :
    calib_offset r' c' + calibCodec.size ≤ calib_offset r c ∨
      calib_offset r c + calibCodec.size ≤ calib_offset r' c' := by
  have hne : r' * C + c' ≠ r * C + c := by
    intro heq
    have hC : 0 < C := by have := c.isLt; omega
    have hdiv : ∀ (a : Nat) (b : Fin C), (a * C + b) / C = a := by
      intro a b
      rw [Nat.mul_comm, Nat.mul_add_div hC, Nat.div_eq_of_lt b.isLt, Nat.add_zero]
    have hr : r'.val = r.val := by rw [← hdiv r' c', heq, hdiv]
    rw [hr] at heq
    exact h ⟨Fin.ext hr, Fin.ext (by omega)⟩
  change 1 + (r' * C + c') * 3 + 3 ≤ 1 + (r * C + c) * 3 ∨
    1 + (r * C + c) * 3 + 3 ≤ 1 + (r' * C + c') * 3
  omega

theorem calib_offset_first {r : Fin R} {c : Fin C} :
    calib_offset r c = OFFSET_CURRENT_PROFILE ↔ Saved.IsFirst r c := by
  change 1 + (r * C + c) * 3 = 1 ↔ r.val = 0 ∧ c.val = 0
  constructor
  · intro h
    have hc : c.val = 0 := by omega
    have hr : r * C = 0 := by omega
    rcases Nat.mul_eq_zero.mp hr with hr | hr
    · exact ⟨hr, hc⟩
    · have := c.isLt; omega
  · rintro ⟨hr, hc⟩
    rw [hr, hc]
    omega

theorem profile_offset_end (i : Fin PROFILE_COUNT) :
    profile_offset R C i + (profileCodec R C).size ≤ OFFSET_CURVE_PTS_START R C := by
  rw [profileCodec_size]
  unfold profile_offset OFFSET_CURVE_PTS_START OFFSET_PROFILES_END
  rw [Nat.add_assoc, ← Nat.succ_mul, Nat.mul_comm (PROFILE_SIZE R C)]
  exact Nat.add_le_add_left (Nat.mul_le_mul_right _ i.isLt) _

theorem profile_offset_start (i : Fin PROFILE_COUNT) :
    OFFSET_PROFILES_START R C ≤ profile_offset R C i := Nat.le_add_right _ _

theorem profile_offset_disjoint {i j : Fin PROFILE_COUNT} (h : j ≠ i) :
    profile_offset R C j + (profileCodec R C).size ≤ profile_offset R C i ∨
      profile_offset R C i + (profileCodec R C).size ≤ profile_offset R C j := by
  have hstep : ∀ {a b : Fin PROFILE_COUNT}, a < b →
      profile_offset R C a + (profileCodec R C).size ≤ profile_offset R C b := by
    intro a b hab
    rw [profileCodec_size]
    unfold profile_offset
    rw [Nat.add_assoc, ← Nat.succ_mul]
    exact Nat.add_le_add_left (Nat.mul_le_mul_right _ hab) _
  rcases lt_or_gt_of_ne h with hlt | hgt
  · exact .inl (hstep hlt)
  · exact .inr (hstep hgt)

theorem mode_offset :
    OFFSET_GAME_CONTROLLER_MODE_START R C = OFFSET_CURVE_PTS_START R C + curveCodec.size := rfl

theorem calibsCodec_size :
    OFFSET_CALIBRATED_DATA_START + (calibsCodec R C).size = OFFSET_PROFILES_START R C := by
  change 1 + R * (C * 3) = 1 + R * C * 3
  rw [Nat.mul_assoc]

theorem calibs_read (m : Nat → UInt8) (a : Nat) (r : Fin R) (c : Fin C) :
    (calibsCodec R C).read m a r c = calibCodec.read m (a + (r * C + c) * SIZE_OF_CALIB_VALUE_T) := by
  unfold calibsCodec
  rw [Codec.array_read, Codec.array_read]
  congr 1
  change a + r * (C * 3) + c * 3 = a + (r * C + c) * 3
  ring

theorem calibs_read_offset (m : Nat → UInt8) (r : Fin R) (c : Fin C) :
    (calibsCodec R C).read m OFFSET_CALIBRATED_DATA_START r c =
      calibCodec.read m (calib_offset r c) := calibs_read _ _ _ _

theorem profiles_read (m : Nat → UInt8) (i : Fin PROFILE_COUNT) :
    (profilesCodec R C).read m (OFFSET_PROFILES_START R C) i =
      (profileCodec R C).read m (profile_offset R C i) := by
  unfold profilesCodec
  rw [Codec.array_read, profileCodec_size]
  rfl

/-! ## Each write -/

structure MemoryHolds (cfg : Config R C) (m : Nat → UInt8) (g : Saved R C) : Prop where
  flag : Codec.byte.read m OFFSET_CALIBRATION = g.calibrated.getD 0
  value : ∀ r c, calibCodec.read m (calib_offset r c) = g.stored r c
  profile : ∀ i, (profileCodec R C).read m (profile_offset R C i) =
    (g.profile i).getD (default_profile cfg i)
  curve : curveCodec.read m (OFFSET_CURVE_PTS_START R C) = g.curve.getD fun _ => ⟨0, 0⟩
  mode : Codec.byte.read m (OFFSET_GAME_CONTROLLER_MODE_START R C) = g.mode.getD 0

section Writes

variable {cfg : Config R C} {m : Nat → UInt8} {g : Saved R C}

theorem MemoryHolds.of_low_write {α : Type} (h : MemoryHolds cfg m g) {c : Codec α} {a : Nat}
    (x : α) {g' : Saved R C} (ha : a + c.size ≤ OFFSET_PROFILES_START R C)
    (hp : g'.profile = g.profile) (hc : g'.curve = g.curve) (hm : g'.mode = g.mode)
    (flag : Codec.byte.read (c.write m a x) OFFSET_CALIBRATION = g'.calibrated.getD 0)
    (value : ∀ r k, calibCodec.read (c.write m a x) (calib_offset r k) = g'.stored r k) :
    MemoryHolds cfg (c.write m a x) g' where
  flag := flag
  value := value
  profile i := by
    have hstart := profile_offset_start (R := R) (C := C) i
    rw [Codec.read_write_of_disjoint _ _ _ _ (by omega), hp]
    exact h.profile i
  curve := by
    have hend := profile_offset_end (R := R) (C := C) 0
    have hstart := profile_offset_start (R := R) (C := C) 0
    rw [Codec.read_write_of_disjoint _ _ _ _ (by omega), hc]
    exact h.curve
  mode := by
    have hend := profile_offset_end (R := R) (C := C) 0
    have hstart := profile_offset_start (R := R) (C := C) 0
    have hmode := mode_offset (R := R) (C := C)
    rw [Codec.read_write_of_disjoint _ _ _ _ (by omega), hm]
    exact h.mode

theorem MemoryHolds.of_high_write {α : Type} (h : MemoryHolds cfg m g) {c : Codec α} {a : Nat}
    (x : α) (ha : OFFSET_PROFILES_START R C ≤ a) :
    Codec.byte.read (c.write m a x) OFFSET_CALIBRATION = g.calibrated.getD 0 ∧
      ∀ r k, calibCodec.read (c.write m a x) (calib_offset r k) = g.stored r k := by
  constructor
  · have hpos : 0 < OFFSET_PROFILES_START R C := Nat.lt_add_right _ Nat.one_pos
    rw [Codec.read_write_of_disjoint _ _ _ _ (by simp [OFFSET_CALIBRATION]; omega)]
    exact h.flag
  · intro r k
    have hend := calib_offset_end r k
    rw [Codec.read_write_of_disjoint _ _ _ _ (by omega)]
    exact h.value r k

theorem stored_of_not_first (g : Saved R C) {r : Fin R} {c : Fin C} (h : ¬ Saved.IsFirst r c) :
    g.stored r c = (g.value r c).getD .zero := if_neg fun hc => h hc.1

theorem start_pos (r : Fin R) (c : Fin C) : 1 < OFFSET_PROFILES_START R C := by
  have hend := calib_offset_end r c
  change _ + 3 ≤ _ at hend
  omega

theorem MemoryHolds.write_flag (h : MemoryHolds cfg m g) (x : UInt8) :
    MemoryHolds cfg (Codec.byte.write m OFFSET_CALIBRATION x) (g.saveFlag x) := by
  refine h.of_low_write x ?_ rfl rfl rfl ?_ ?_
  · simp [OFFSET_PROFILES_START, OFFSET_CALIBRATED_DATA_END, OFFSET_CALIBRATED_DATA_START,
      OFFSET_CURRENT_PROFILE]
  · exact Codec.read_write _ _ _ _
  · intro r c
    have hpos := calib_offset_pos r c
    rw [Codec.read_write_of_disjoint _ _ _ _ (.inr (by simp [OFFSET_CALIBRATION]; omega))]
    exact h.value r c

theorem MemoryHolds.write_index (h : MemoryHolds cfg m g) (i : Fin PROFILE_COUNT) :
    MemoryHolds cfg (Codec.byte.write m OFFSET_CURRENT_PROFILE (.ofNat i)) (g.saveIndex i) := by
  have hrows := cfg.rows_pos
  have hcols := cfg.cols_pos
  refine h.of_low_write _ ?_ rfl rfl rfl ?_ ?_
  · exact start_pos ⟨0, hrows⟩ ⟨0, hcols⟩
  · rw [Codec.read_write_of_disjoint _ _ _ _ (by decide)]
    exact h.flag
  · intro r c
    by_cases hf : Saved.IsFirst r c
    · have hnew : (g.saveIndex i).stored r c = withLow ((g.value r c).getD .zero) (.ofNat i) :=
        if_pos ⟨hf, rfl⟩
      rw [calib_offset_first.mpr hf, calib_read_write_byte, ← calib_offset_first.mpr hf, h.value,
        hnew]
      unfold Saved.stored
      split
      · exact withLow_withLow _ _ _
      · rfl
    · have hpos := calib_offset_pos r c
      have hne := mt calib_offset_first.mp hf
      have hlt : OFFSET_CURRENT_PROFILE + Codec.byte.size ≤ calib_offset r c := by
        simp only [OFFSET_CURRENT_PROFILE, OFFSET_CALIBRATION, Codec.byte_size] at hne ⊢
        omega
      rw [Codec.read_write_of_disjoint _ _ _ _ (.inr hlt), h.value, stored_of_not_first _ hf,
        stored_of_not_first _ hf]
      rfl

theorem MemoryHolds.write_value (h : MemoryHolds cfg m g) (r : Fin R) (c : Fin C)
    (v : calibrated_value_t) :
    MemoryHolds cfg (calibCodec.write m (calib_offset r c) v) (g.saveValue r c v) := by
  refine h.of_low_write v (calib_offset_end r c) rfl rfl rfl ?_ ?_
  · have hpos := calib_offset_pos r c
    rw [Codec.read_write_of_disjoint _ _ _ _ (.inl (by simp [OFFSET_CALIBRATION]; omega))]
    exact h.flag
  · intro r' c'
    by_cases hrc : r' = r ∧ c' = c
    · obtain ⟨rfl, rfl⟩ := hrc
      unfold Saved.stored
      rw [if_neg]
      · simp [Saved.saveValue]
      · rintro ⟨hf, hw⟩
        simp [Saved.saveValue, hf] at hw
    · rw [Codec.read_write_of_disjoint _ _ _ _ (calib_offset_disjoint hrc), h.value]
      unfold Saved.stored
      by_cases hf : Saved.IsFirst r' c'
      · have hf' : ¬ Saved.IsFirst r c := by
          intro hf'
          exact hrc ⟨Fin.ext (hf.1.trans hf'.1.symm), Fin.ext (hf.2.trans hf'.2.symm)⟩
        simp [Saved.saveValue, hrc, hf', Saved.indexByte]
      · simp [Saved.saveValue, hrc, hf]

theorem MemoryHolds.write_values (h : MemoryHolds cfg m g)
    (v : Fin R → Fin C → calibrated_value_t) :
    MemoryHolds cfg ((calibsCodec R C).write m OFFSET_CALIBRATED_DATA_START v)
      (g.saveValues v) := by
  refine h.of_low_write v calibsCodec_size.le rfl rfl rfl ?_ ?_
  · rw [Codec.read_write_of_disjoint _ _ _ _ (.inl (by decide))]
    exact h.flag
  · intro r c
    rw [← calibs_read_offset, Codec.read_write]
    simp [Saved.stored, Saved.saveValues]

theorem MemoryHolds.write_profile (h : MemoryHolds cfg m g) (i : Fin PROFILE_COUNT)
    (p : analog_matrix_profile_t R C) :
    MemoryHolds cfg ((profileCodec R C).write m (profile_offset R C i) p) (g.saveProfile i p) where
  flag := (h.of_high_write p (profile_offset_start i)).1
  value := (h.of_high_write p (profile_offset_start i)).2
  profile j := by
    by_cases hj : j = i
    · subst hj
      simp [Saved.saveProfile]
    · rw [Codec.read_write_of_disjoint _ _ _ _ (profile_offset_disjoint hj), h.profile]
      simp [Saved.saveProfile, hj]
  curve := by
    rw [Codec.read_write_of_disjoint _ _ _ _ (.inr (profile_offset_end i))]
    exact h.curve
  mode := by
    have hend := profile_offset_end (R := R) (C := C) i
    have hmode := mode_offset (R := R) (C := C)
    rw [Codec.read_write_of_disjoint _ _ _ _ (.inr (by omega))]
    exact h.mode

theorem MemoryHolds.write_curve (h : MemoryHolds cfg m g) (pt : Fin CURVE_POINTS_COUNT → point_t) :
    MemoryHolds cfg (curveCodec.write m (OFFSET_CURVE_PTS_START R C) pt) (g.saveCurve pt) := by
  have hend := profile_offset_end (R := R) (C := C) 0
  have hstart := profile_offset_start (R := R) (C := C) 0
  obtain ⟨hflag, hvalue⟩ := h.of_high_write (c := curveCodec) pt
    (a := OFFSET_CURVE_PTS_START R C) (by omega)
  refine ⟨hflag, hvalue, ?_, ?_, ?_⟩
  · intro i
    rw [Codec.read_write_of_disjoint _ _ _ _ (.inl (profile_offset_end i))]
    exact h.profile i
  · exact Codec.read_write _ _ _ _
  · rw [Codec.read_write_of_disjoint _ _ _ _ (.inr mode_offset.ge)]
    exact h.mode

theorem MemoryHolds.write_mode (h : MemoryHolds cfg m g) (x : UInt8) :
    MemoryHolds cfg (Codec.byte.write m (OFFSET_GAME_CONTROLLER_MODE_START R C) x)
      (g.saveMode x) := by
  have hend := profile_offset_end (R := R) (C := C) 0
  have hstart := profile_offset_start (R := R) (C := C) 0
  have hmode := mode_offset (R := R) (C := C)
  obtain ⟨hflag, hvalue⟩ := h.of_high_write (c := .byte) x
    (a := OFFSET_GAME_CONTROLLER_MODE_START R C) (by omega)
  refine ⟨hflag, hvalue, ?_, ?_, Codec.read_write _ _ _ _⟩
  · intro i
    have hendi := profile_offset_end (R := R) (C := C) i
    rw [Codec.read_write_of_disjoint _ _ _ _ (.inl (by omega))]
    exact h.profile i
  · rw [Codec.read_write_of_disjoint _ _ _ _ (.inl mode_offset.ge)]
    exact h.curve

end Writes

end keychron_qmk.analog_matrix
