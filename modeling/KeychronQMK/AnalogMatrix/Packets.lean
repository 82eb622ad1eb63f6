-- The memory that a command of the host reaches: the accesses of
-- `analog_matrix_rx` to the packet and to its arrays, for any packet, and the
-- bytes of a profile that `profile_get_raw_data` replies with.
import KeychronQMK.AnalogMatrix.Coherence

namespace keychron_qmk.analog_matrix

open layout memory

variable {R C : Nat}

/-! ## Constants -/

def AMC_GET_VERSION : UInt8 := 0x01
def AMC_GET_PROFILES_INFO : UInt8 := 0x10
def AMC_GET_PROFILE_RAW : UInt8 := 0x12
def AMC_GET_CURVE : UInt8 := 0x20
def AMC_GET_GAME_CONTROLLER_MODE : UInt8 := 0x22
def AMC_GET_REALTIME_TRAVEL : UInt8 := 0x30
def AMC_CALIBRATE : UInt8 := 0x40
def AMC_GET_CALIBRATE_STATE : UInt8 := 0x41
def AMC_GET_CALIBRATED_VALUE : UInt8 := 0x42

def CALIB_ZERO_TRAVEL_MANUAL : UInt8 := 2

def RAW_EPSIZE : Nat := 32

/-! ## Accesses -/

/-- The arrays with an element for each key. -/
inductive Matrix
  | key_config
  | analog_key_matrix
  | calib_values
  | saved_calib_values
  | scale_factor
  | calibrate_values
  deriving DecidableEq

inductive Rows
  | row_mask
  | analog_matrix_mask
  | analog_raw_matrix
  | calib_state_matrix
  | manual_calib_zero_invalid
  | okmc_matrix
  | game_controller_matrix
  deriving DecidableEq

/-- What the code touches: some bytes of the packet, of the array of profiles,
of the name of a profile or of the curve, or an element of an array. -/
inductive Access
  | packet (write : Bool) (first count : Nat)
  | profile_bytes (first count : Nat)
  | profile (index : Nat)
  | okmc (index : Nat)
  | socd (index : Nat)
  | name (count : Nat)
  | curve (count : Nat)
  | key (m : Matrix) (r c : Nat)
  | row (m : Rows) (r : Nat)
  deriving DecidableEq

def Access.InBounds (R C : Nat) : Access → Prop
  | .packet _ first count => count = 0 ∨ first + count ≤ RAW_EPSIZE
  | .profile_bytes first count => count = 0 ∨ first + count ≤ PROFILE_COUNT * PROFILE_SIZE R C
  | .profile index => index < PROFILE_COUNT
  | .okmc index => index < OKMC_COUNT
  | .socd index => index < SOCD_COUNT
  | .name count => count ≤ PROFILE_NAME_LEN
  | .curve count => count ≤ CURVE_POINTS_COUNT * SIZE_OF_POINT_T
  | .key _ r c => r < R ∧ c < C
  | .row _ r => r < R

/-! ## The commands -/

def each_row (R : Nat) (f : Fin R → List Access) : List Access := (List.finRange R).flatMap f

def each_key (R C : Nat) (f : Fin R → Fin C → List Access) : List Access :=
  each_row R fun r => (List.finRange C).flatMap (f r)

section Commands

variable (b : Board R C)

def update_key_config_accesses (row col : Nat) : List Access :=
  [.key .analog_key_matrix row col, .profile b.current_profile_index, .key .key_config row col]

def update_travel_configs_accesses : List Access :=
  each_key R C fun r c => update_key_config_accesses b r c

/-- Its clearing of the keys of the advanced modes included. -/
def profile_select_accesses (prof_idx : UInt8) : List Access :=
  match profile_index prof_idx with
  | none => []
  | some i =>
    if i ≠ b.current_profile_index then
      [.profile i] ++ each_key R C (fun r c => [.key .analog_key_matrix r c]) ++
        update_travel_configs_accesses { b with current_profile_index := i } ++
        each_row R fun r => [.row .okmc_matrix r, .row .game_controller_matrix r]
    else []

def cut_size (R C : Nat) (offset : UInt16) (size : UInt8) : UInt8 :=
  if PROFILE_SIZE R C < offset.toNat + size.toNat then
    .ofInt ((PROFILE_SIZE R C : Int) - offset.toNat)
  else size

def raw_offset (data : Nat → UInt8) : UInt16 := (data 4).toUInt16 <<< 8 ||| (data 3).toUInt16

/-- The request passes the check of `profile_get_raw_data`. -/
def raw_accepted (R C : Nat) (prof_idx : UInt8) (offset : UInt16) (size : UInt8) : Prop :=
  prof_idx.toNat < PROFILE_COUNT ∧
    offset.toNat + size.toNat ≤ PROFILE_COUNT * PROFILE_SIZE R C

instance (prof_idx : UInt8) (offset : UInt16) (size : UInt8) :
    Decidable (raw_accepted R C prof_idx offset size) :=
  inferInstanceAs (Decidable (prof_idx.toNat < PROFILE_COUNT ∧
    offset.toNat + size.toNat ≤ PROFILE_COUNT * PROFILE_SIZE R C))

def profile_get_raw_data_accesses (R C : Nat) (prof_idx : UInt8) (offset : UInt16) (size : UInt8)
    (data : Nat) : List Access :=
  if raw_accepted R C prof_idx offset size then
    [.packet true data size.toNat,
      .profile_bytes (prof_idx.toNat * PROFILE_SIZE R C + offset.toNat)
        (cut_size R C offset size).toNat,
      .packet true data (cut_size R C offset size).toNat]
  else []

def profile_set_traval_accesses (prof_idx mode act_pt : UInt8) (global : Bool)
    (row : Fin R → UInt32) : List Access :=
  if PROFILE_COUNT ≤ prof_idx.toNat ∨ AKM_RAPID < mode ∨ 39 < act_pt ∨
      (global = true ∧ mode = AKM_GLOBAL) then []
  else if global then .profile prof_idx.toNat :: each_row R fun r => [.row .row_mask r]
  else
    each_key R C fun r c =>
      .row .row_mask r ::
        if (row r).toNat.testBit c then
          [.profile prof_idx.toNat, .key .key_config r c] ++
            if prof_idx.toNat = b.current_profile_index.val then update_key_config_accesses b r c
            else []
        else []

def profile_set_adv_mode_accesses (data : Nat → UInt8) : List Access :=
  let prof_idx := data 2
  let mode := data 3
  let row := data 4
  let col := data 5
  let index := data 6
  .packet false 2 5 ::
    if PROFILE_COUNT ≤ prof_idx.toNat ∨ R ≤ row.toNat ∨ C ≤ col.toNat then []
    else
      let set : List Access := [.profile prof_idx.toNat, .key .key_config row.toNat col.toNat]
      let update := if prof_idx.toNat = b.current_profile_index.val then
        update_key_config_accesses b row.toNat col.toNat else []
      if mode = ADV_MODE_CLEAR ∨ mode = ADV_MODE_TOGGLE then set ++ update
      else if mode = ADV_MODE_OKMC then
        if OKMC_COUNT ≤ index.toNat then []
        else [.packet false 7 4, .packet false 11 8, .packet false 19 8, .okmc index.toNat] ++ set ++
          update
      else if mode = ADV_MODE_GAME_CONTROLLER then
        if GC_BUTTON_MAX ≤ index then [] else set ++ update
      else []

def profile_set_socd_accesses (R C : Nat) (data : Nat → UInt8) : List Access :=
  let index := data 7
  .packet false 2 7 ::
    if PROFILE_COUNT ≤ (data 2).toNat ∨ R ≤ (data 3).toNat ∨ C ≤ (data 4).toNat ∨
        R ≤ (data 5).toNat ∨ C ≤ (data 6).toNat ∨ SOCD_COUNT ≤ index.toNat ∨
        SOCD_PRI_MAX ≤ data 8 then []
    else if data 8 ≠ 0 ∧ data 3 = data 5 ∧ data 4 = data 6 then []
    else [.profile (data 2).toNat, .socd index.toNat]

def profile_set_name_accesses (prof_idx len : UInt8) : List Access :=
  if PROFILE_COUNT ≤ prof_idx.toNat ∨ 28 < len then []
  else [.profile prof_idx.toNat, .name PROFILE_NAME_LEN, .name len.toNat, .packet false 4 len.toNat]

def profile_save_accesses (R C : Nat) (prof_index : UInt8) : List Access :=
  if PROFILE_COUNT ≤ prof_index.toNat then []
  else [.profile prof_index.toNat,
    .profile_bytes (prof_index.toNat * PROFILE_SIZE R C) (PROFILE_SIZE R C)]

def profile_reset_accesses (R C : Nat) (prof_index : UInt8) : List Access :=
  if PROFILE_COUNT ≤ prof_index.toNat then []
  else [.profile prof_index.toNat,
      .profile_bytes (prof_index.toNat * PROFILE_SIZE R C) (PROFILE_SIZE R C)] ++
    each_key R C (fun r c => [.key .key_config r c]) ++ profile_save_accesses R C prof_index

def get_realtime_travel_accesses (R C : Nat) (row col : UInt8) : List Access :=
  if R ≤ row.toNat ∨ C ≤ col.toNat then []
  else [.key .analog_key_matrix row.toNat col.toNat, .key .calib_values row.toNat col.toNat,
    .row .analog_raw_matrix row.toNat, .packet true 3 11]

def game_controller_set_curve_accesses : List Access :=
  .curve 8 :: if ordered_curve b.curve then [.packet false 2 8] else []

def set_calibrate_accesses (R C : Nat) (new_cali_state : UInt8) : List Access :=
  if new_cali_state = CALIB_ZERO_TRAVEL_MANUAL then
    each_key R C (fun r c => [.key .calibrate_values r c, .key .calib_values r c]) ++
      each_row R fun r => [.row .calib_state_matrix r, .row .manual_calib_zero_invalid r]
  else []

/-- The state goes behind two bytes, three bytes for each row. -/
def get_calibrate_state_accesses (R : Nat) (data : Nat) : List Access :=
  each_row R (fun r => [.row .calib_state_matrix r]) ++ [.packet true data 2] ++
    each_row R fun r => [.packet true (data + 2 + 3 * r) 3]

/-- A row of `analog_matrix_mask`. The source reads a row past the array as
whatever lies behind it; here such a row is empty. -/
def Config.mask (cfg : Config R C) (r : Nat) : UInt32 :=
  if h : r < R then cfg.analog_matrix_mask ⟨r, h⟩ else 0

/-- The sizes of the matrix go before the values of the key `0xFF`, `0xFF`,
which is looked up like any other. -/
def get_calibrated_value_accesses (R C : Nat) (row col : UInt8) (mask : Nat → UInt32)
    (data : Nat) : List Access :=
  let sizes : Bool := row = 0xFF ∧ col = 0xFF
  if sizes = false ∧ (R ≤ row.toNat ∨ C ≤ col.toNat) then []
  else
    let i := if sizes then 4 else 0
    (if sizes then [.packet true data 4] else []) ++ [.row .analog_matrix_mask row.toNat] ++
      (if (mask row.toNat).toNat.testBit col.toNat then
        [.key .saved_calib_values row.toNat col.toNat] else []) ++
      [.packet true (data + i) 4, .key .scale_factor row.toNat col.toNat,
        .packet true (data + i + 4) 4]

/-- The accesses in the switch of `analog_matrix_rx`. -/
def command_accesses (cfg : Config R C) (data : Nat → UInt8) : List Access :=
  if data 1 = AMC_GET_VERSION then [.packet true 2 1]
  else if data 1 = AMC_GET_PROFILES_INFO then [.packet true 2 6]
  else if data 1 = AMC_GET_PROFILE_RAW then
    .packet false 2 4 :: profile_get_raw_data_accesses R C (data 2) (raw_offset data) (data 5) 6
  else if data 1 = AMC_SET_PROFILE_NAME then
    .packet false 2 2 :: profile_set_name_accesses (data 2) (data 3) ++ [.packet true 2 1]
  else if data 1 = AMC_SELECT_PROFILE then
    .packet false 2 1 :: profile_select_accesses b (data 2) ++ [.packet true 2 1]
  else if data 1 = AMC_SET_TRAVAL then
    .packet false 2 6 :: each_row R (fun r => [.row .row_mask r]) ++
      (if decide (data 7 ≠ 0) = true then [] else
        each_row R fun r => [.packet false (8 + 3 * r) 3, .row .row_mask r]) ++
      profile_set_traval_accesses b (data 2) (data 3) (data 4) (decide (data 7 ≠ 0))
        (fun r => if decide (data 7 ≠ 0) = true then 0 else row_mask data r) ++ [.packet true 2 1]
  else if data 1 = AMC_SET_ADVANCE_MODE then
    profile_set_adv_mode_accesses b data ++ [.packet true 2 1]
  else if data 1 = AMC_SET_SOCD then profile_set_socd_accesses R C data ++ [.packet true 2 1]
  else if data 1 = AMC_GET_REALTIME_TRAVEL then
    .packet false 2 2 :: get_realtime_travel_accesses R C (data 2) (data 3) ++ [.packet true 2 1]
  else if data 1 = AMC_RESET_PROFILE then
    .packet false 2 1 :: profile_reset_accesses R C (data 2) ++
      update_travel_configs_accesses b ++ [.packet true 2 1]
  else if data 1 = AMC_SAVE_PROFILE then
    .packet false 2 1 :: profile_save_accesses R C (data 2) ++ [.packet true 2 1]
  else if data 1 = AMC_GET_CURVE then [.curve 8, .packet true 2 8]
  else if data 1 = AMC_SET_CURVE then game_controller_set_curve_accesses b ++ [.packet true 2 1]
  else if data 1 = AMC_GET_GAME_CONTROLLER_MODE then .packet true 3 1 :: [.packet true 2 1]
  else if data 1 = AMC_SET_GAME_CONTROLLER_MODE then [.packet false 2 1]
  else if data 1 = AMC_CALIBRATE then
    .packet false 2 1 :: set_calibrate_accesses R C (data 2) ++ [.packet true 2 1]
  else if data 1 = AMC_GET_CALIBRATE_STATE then get_calibrate_state_accesses R 2
  else if data 1 = AMC_GET_CALIBRATED_VALUE then
    .packet false 2 2 :: get_calibrated_value_accesses R C (data 2) (data 3) cfg.mask 5 ++
      [.packet true 4 1]
  else []

/-- The whole packet is sent back at last. -/
def analog_matrix_rx_accesses (cfg : Config R C) (data : Nat → UInt8) : List Access :=
  .packet false 0 1 ::
    if data 0 ≠ 0xA9 then []
    else .packet false 1 1 :: command_accesses b cfg data ++ [.packet false 0 RAW_EPSIZE]

end Commands

/-! ## Commands in bounds -/

def AllIn (R C : Nat) (l : List Access) : Prop := ∀ a ∈ l, a.InBounds R C

section Bounds

variable {l l' : List Access}

@[simp] theorem allIn_nil : AllIn R C [] := by simp [AllIn]

@[simp] theorem allIn_cons {a : Access} : AllIn R C (a :: l) ↔ a.InBounds R C ∧ AllIn R C l := by
  simp [AllIn]

@[simp] theorem allIn_append : AllIn R C (l ++ l') ↔ AllIn R C l ∧ AllIn R C l' := by
  simp only [AllIn, List.forall_mem_append]

@[simp] theorem allIn_each_row {f : Fin R → List Access} :
    AllIn R C (each_row R f) ↔ ∀ r, AllIn R C (f r) := by
  simp only [AllIn, each_row, List.mem_flatMap, List.mem_finRange, true_and]
  exact ⟨fun h r a ha => h a ⟨r, ha⟩, fun h a ⟨r, ha⟩ => h r a ha⟩

@[simp] theorem allIn_each_key {f : Fin R → Fin C → List Access} :
    AllIn R C (each_key R C f) ↔ ∀ r c, AllIn R C (f r c) := by
  unfold each_key
  rw [allIn_each_row]
  refine forall_congr' fun r => ?_
  simp only [AllIn, List.mem_flatMap, List.mem_finRange, true_and]
  exact ⟨fun h c a ha => h a ⟨c, ha⟩, fun h a ⟨c, ha⟩ => h c a ha⟩

variable (b : Board R C)

theorem update_key_config_in {r c : Nat} (hr : r < R) (hc : c < C) :
    AllIn R C (update_key_config_accesses b r c) := by
  simp [update_key_config_accesses, Access.InBounds, hr, hc]

theorem update_travel_configs_in : AllIn R C (update_travel_configs_accesses b) := by
  unfold update_travel_configs_accesses
  rw [allIn_each_key]
  exact fun r c => update_key_config_in b r.isLt c.isLt

theorem profile_select_in (x : UInt8) : AllIn R C (profile_select_accesses b x) := by
  unfold profile_select_accesses
  rcases profile_index x with _ | i
  · exact allIn_nil
  simp only
  split
  · have hall := update_travel_configs_in { b with current_profile_index := i }
    simp [Access.InBounds, hall]
  · exact allIn_nil

theorem profile_set_traval_in (x mode act_pt : UInt8) (global : Bool) (row : Fin R → UInt32) :
    AllIn R C (profile_set_traval_accesses b x mode act_pt global row) := by
  unfold profile_set_traval_accesses
  split
  · exact allIn_nil
  rename_i hacc
  have hx : x.toNat < PROFILE_COUNT := Nat.not_le.mp fun h => hacc (.inl h)
  split
  · simp [Access.InBounds, hx]
  rw [allIn_each_key]
  intro r c
  refine allIn_cons.mpr ⟨r.isLt, ?_⟩
  split
  · refine allIn_append.mpr ⟨by simp [Access.InBounds, hx], ?_⟩
    split
    · exact update_key_config_in b r.isLt c.isLt
    · exact allIn_nil
  · exact allIn_nil

theorem profile_set_adv_mode_in (data : Nat → UInt8) :
    AllIn R C (profile_set_adv_mode_accesses b data) := by
  refine allIn_cons.mpr ⟨.inr (by decide), ?_⟩
  split
  · exact allIn_nil
  rename_i hacc
  simp only [not_or, Nat.not_le] at hacc
  obtain ⟨hx, hr, hc⟩ := hacc
  have hset : AllIn R C [.profile (data 2).toNat, .key .key_config (data 4).toNat (data 5).toNat] := by
    simp [Access.InBounds, hx, hr, hc]
  have hupdate : AllIn R C (if (data 2).toNat = b.current_profile_index.val then
      update_key_config_accesses b (data 4).toNat (data 5).toNat else []) := by
    split
    · exact update_key_config_in b hr hc
    · exact allIn_nil
  simp only
  split
  · exact allIn_append.mpr ⟨hset, hupdate⟩
  split
  · split
    · exact allIn_nil
    · rename_i hidx
      have hokmc : AllIn R C [.packet false 7 4, .packet false 11 8, .packet false 19 8,
          .okmc (data 6).toNat] := by
        simp [Access.InBounds, RAW_EPSIZE, Nat.not_le.mp hidx]
      exact allIn_append.mpr ⟨allIn_append.mpr ⟨hokmc, hset⟩, hupdate⟩
  split
  · split
    · exact allIn_nil
    · exact allIn_append.mpr ⟨hset, hupdate⟩
  · exact allIn_nil

theorem profile_set_socd_in (data : Nat → UInt8) :
    AllIn R C (profile_set_socd_accesses R C data) := by
  refine allIn_cons.mpr ⟨.inr (by decide), ?_⟩
  split
  · exact allIn_nil
  rename_i hacc
  simp only [not_or, Nat.not_le] at hacc
  split
  · exact allIn_nil
  · simp [Access.InBounds, hacc]

theorem profile_set_name_in (x len : UInt8) : AllIn R C (profile_set_name_accesses x len) := by
  unfold profile_set_name_accesses
  split
  · exact allIn_nil
  rename_i hacc
  simp only [not_or, Nat.not_le, UInt8.not_lt] at hacc
  have hlen : len.toNat ≤ 28 := UInt8.le_iff_toNat_le.mp hacc.2
  simp only [allIn_cons, allIn_nil, Access.InBounds, PROFILE_NAME_LEN, RAW_EPSIZE, and_true]
  omega

theorem profile_block_in {x first count : Nat} (hx : x < PROFILE_COUNT)
    (h : first + count ≤ PROFILE_SIZE R C) :
    (Access.profile_bytes (x * PROFILE_SIZE R C + first) count).InBounds R C := by
  refine .inr ?_
  have hle : (x + 1) * PROFILE_SIZE R C ≤ PROFILE_COUNT * PROFILE_SIZE R C :=
    Nat.mul_le_mul_right _ hx
  rw [Nat.succ_mul] at hle
  omega

theorem profile_save_in (x : UInt8) : AllIn R C (profile_save_accesses R C x) := by
  unfold profile_save_accesses
  split
  · exact allIn_nil
  rename_i hacc
  have hx := Nat.not_le.mp hacc
  have hblock := profile_block_in hx (Nat.zero_add (PROFILE_SIZE R C)).le
  rw [Nat.add_zero] at hblock
  simp only [allIn_cons, allIn_nil, and_true]
  exact ⟨hx, hblock⟩

theorem profile_reset_in (x : UInt8) : AllIn R C (profile_reset_accesses R C x) := by
  have hsave := profile_save_in (R := R) (C := C) x
  unfold profile_reset_accesses
  split
  · exact allIn_nil
  rename_i hacc
  have hhead := hsave
  unfold profile_save_accesses at hhead
  rw [if_neg hacc] at hhead
  refine allIn_append.mpr ⟨allIn_append.mpr ⟨hhead, ?_⟩, hsave⟩
  simp [Access.InBounds]

theorem get_realtime_travel_in (row col : UInt8) :
    AllIn R C (get_realtime_travel_accesses R C row col) := by
  unfold get_realtime_travel_accesses
  split
  · exact allIn_nil
  rename_i hacc
  simp only [not_or, Nat.not_le] at hacc
  simp [Access.InBounds, hacc, RAW_EPSIZE]

theorem set_curve_in : AllIn R C (game_controller_set_curve_accesses b) := by
  refine allIn_cons.mpr ⟨?_, ?_⟩
  · exact Nat.le_refl 8
  · split
    · exact allIn_cons.mpr ⟨.inr (by decide), allIn_nil⟩
    · exact allIn_nil

theorem set_calibrate_in (x : UInt8) : AllIn R C (set_calibrate_accesses R C x) := by
  unfold set_calibrate_accesses
  split
  · simp [Access.InBounds]
  · exact allIn_nil

theorem row_masks_in_iff :
    AllIn R C (each_row R fun r => [.packet false (8 + 3 * r) 3, .row .row_mask r]) ↔ R ≤ 8 := by
  simp only [allIn_each_row, allIn_cons, allIn_nil, Access.InBounds, RAW_EPSIZE, and_true]
  constructor
  · intro h
    by_contra hR
    obtain ⟨hlast, -⟩ := h ⟨R - 1, by omega⟩
    simp only at hlast
    omega
  · intro hR r
    have hr := r.isLt
    exact ⟨.inr (by omega), hr⟩

theorem get_calibrate_state_in_iff : AllIn R C (get_calibrate_state_accesses R 2) ↔ R ≤ 9 := by
  unfold get_calibrate_state_accesses
  simp only [allIn_append, allIn_each_row, allIn_cons, allIn_nil, Access.InBounds, RAW_EPSIZE,
    and_true]
  constructor
  · rintro ⟨-, h⟩
    by_contra hR
    have hlast := h ⟨R - 1, by omega⟩
    simp only at hlast
    omega
  · intro hR
    refine ⟨⟨fun r => r.isLt, by omega⟩, fun r => ?_⟩
    omega

/-- The key `0xFF`, `0xFF` is looked up, and no other key that does not exist. -/
theorem get_calibrated_value_in_iff (row col : UInt8) (mask : Nat → UInt32) :
    AllIn R C (get_calibrated_value_accesses R C row col mask 5) ↔
      (row = 0xFF → col = 0xFF → 255 < R ∧ 255 < C) := by
  unfold get_calibrated_value_accesses
  by_cases hall : row = 0xFF ∧ col = 0xFF
  · obtain ⟨rfl, rfl⟩ := hall
    have h255 : (255 : UInt8).toNat = 255 := rfl
    simp only [and_self, decide_true, Bool.true_eq_false, false_and, ite_false, ite_true,
      allIn_append, allIn_cons, allIn_nil, Access.InBounds, RAW_EPSIZE, h255, and_true,
      true_imp_iff]
    constructor
    · exact fun h => h.2.2.1
    · intro h
      refine ⟨⟨⟨.inr (by decide), h.1⟩, ?_⟩, .inr (by decide), h, .inr (by decide)⟩
      split
      · exact allIn_cons.mpr ⟨h, allIn_nil⟩
      · exact allIn_nil
  · refine iff_of_true ?_ fun h1 h2 => absurd ⟨h1, h2⟩ hall
    simp only [hall, decide_false, true_and, Bool.false_eq_true, ite_false, Nat.add_zero]
    split
    · exact allIn_nil
    rename_i hacc
    simp only [not_or, Nat.not_le] at hacc
    simp only [List.nil_append, allIn_append, allIn_cons, allIn_nil, Access.InBounds, RAW_EPSIZE,
      and_true]
    refine ⟨⟨hacc.1, ?_⟩, .inr (by decide), hacc, .inr (by decide)⟩
    split
    · exact allIn_cons.mpr ⟨hacc, allIn_nil⟩
    · exact allIn_nil

end Bounds

/-! ## The raw bytes of a profile -/

section Raw

def profile_memory (b : Board R C) (beyond : Nat → UInt8) : Nat → UInt8 :=
  (profilesCodec R C).write beyond 0 b.profile

/-- Whether the request is accepted, and the packet with the reply from `at_` on. -/
def profile_get_raw_data (R C : Nat) (memory : Nat → UInt8) (prof_idx : UInt8) (offset : UInt16)
    (size : UInt8) (data : Nat → UInt8) (at_ : Nat) : Bool × (Nat → UInt8) :=
  if raw_accepted R C prof_idx offset size then
    let data := patch data at_ (List.replicate size.toNat 0)
    (true, patch data at_ (readBlock memory (prof_idx.toNat * PROFILE_SIZE R C + offset.toNat)
      (cut_size R C offset size).toNat))
  else (false, data)

variable {b : Board R C} {beyond : Nat → UInt8} {prof_idx : UInt8} {offset : UInt16} {size : UInt8}
  {data : Nat → UInt8}

def profile_bytes (b : Board R C) (i : Fin PROFILE_COUNT) : List UInt8 :=
  (profileCodec R C).encode (b.profile i)

/-- The reply to an accepted request: nothing is written outside its `size`
bytes, and these are the bytes of the profile, with zeros behind its end. -/
structure RawReply (b : Board R C) (beyond : Nat → UInt8) (prof_idx : UInt8) (offset : UInt16)
    (size : UInt8) (data : Nat → UInt8) : Prop where
  writes : ∀ first count,
    .packet true first count ∈ profile_get_raw_data_accesses R C prof_idx offset size 6 →
      6 ≤ first ∧ first + count ≤ 6 + size.toNat
  content : ∀ p, profile_index prof_idx = some p → ∀ i < size.toNat,
    (profile_get_raw_data R C (profile_memory b beyond) prof_idx offset size data 6).2 (6 + i) =
      (profile_bytes b p).getD (offset.toNat + i) 0

/-- How far the offset is below the next multiple of 256 behind the profile. -/
def gap (R C : Nat) (offset : UInt16) : Nat := (256 - (offset.toNat - PROFILE_SIZE R C) % 256) % 256

/-- The bytes fit behind the head of the packet, and a request that starts
behind the end of its profile gets no others than zeros. -/
structure RawFits (b : Board R C) (prof_idx : UInt8) (offset : UInt16) (size : UInt8) : Prop where
  size_le : size.toNat ≤ 26
  behind : PROFILE_SIZE R C < offset.toNat → gap R C offset ≤ size.toNat ∧
    ∀ i < gap R C offset, ((profilesCodec R C).encode b.profile)[prof_idx.toNat *
      PROFILE_SIZE R C + offset.toNat + i]? = some 0

theorem cut_size_behind (size : UInt8) (h : PROFILE_SIZE R C < offset.toNat) :
    (cut_size R C offset size).toNat = gap R C offset := by
  unfold cut_size gap
  rw [if_pos (by omega)]
  simp only [UInt8.ofInt, UInt8.toNat_ofNat']
  omega

theorem cut_size_inside (h : offset.toNat ≤ PROFILE_SIZE R C) :
    (cut_size R C offset size).toNat = min size.toNat (PROFILE_SIZE R C - offset.toNat) := by
  unfold cut_size
  have hsize := size.toNat_lt
  split
  · simp only [UInt8.ofInt, UInt8.toNat_ofNat']
    omega
  · omega

theorem profiles_size : (profilesCodec R C).size = PROFILE_COUNT * PROFILE_SIZE R C := by
  rw [profilesCodec, Codec.array_size, profileCodec_size]

theorem profile_bytes_length (p : Fin PROFILE_COUNT) :
    (profile_bytes b p).length = PROFILE_SIZE R C := by
  rw [profile_bytes, Codec.encode_length, profileCodec_size]

theorem profile_memory_in (beyond : Nat → UInt8) {j : Nat} (h : j < PROFILE_COUNT * PROFILE_SIZE R C) :
    ((profilesCodec R C).encode b.profile)[j]? = some (profile_memory b beyond j) := by
  have hlen : j < ((profilesCodec R C).encode b.profile).length := by
    rw [Codec.encode_length, profiles_size]
    exact h
  unfold profile_memory Codec.write
  rw [patch_in _ _ (Nat.zero_le j) hlen]
  exact List.getElem?_eq_getElem hlen

theorem profile_memory_of (beyond : Nat → UInt8) (p : Fin PROFILE_COUNT) {j : Nat} (h : j < PROFILE_SIZE R C) :
    profile_memory b beyond (p * PROFILE_SIZE R C + j) = (profile_bytes b p).getD j 0 := by
  have hblock : p * PROFILE_SIZE R C + j < PROFILE_COUNT * PROFILE_SIZE R C := by
    have hle : (p.val + 1) * PROFILE_SIZE R C ≤ PROFILE_COUNT * PROFILE_SIZE R C :=
      Nat.mul_le_mul_right _ p.isLt
    rw [Nat.succ_mul] at hle
    omega
  have hcell : ((profilesCodec R C).encode b.profile)[p * PROFILE_SIZE R C + j]? =
      (profile_bytes b p)[j]? := by
    rw [← profileCodec_size]
    exact Codec.cells_getElem? _ _ _ p (by rw [profileCodec_size]; exact h)
  rw [profile_memory_in beyond hblock] at hcell
  rw [List.getD_eq_getElem?_getD, ← hcell, Option.getD_some]

theorem raw_reply_byte (hacc : raw_accepted R C prof_idx offset size) (memory : Nat → UInt8)
    {i : Nat} (hi : i < size.toNat) :
    (profile_get_raw_data R C memory prof_idx offset size data 6).2 (6 + i) =
      if i < (cut_size R C offset size).toNat then
        memory (prof_idx.toNat * PROFILE_SIZE R C + offset.toNat + i)
      else 0 := by
  unfold profile_get_raw_data
  rw [if_pos hacc]
  simp only
  split
  · rename_i hcut
    rw [patch_in _ _ (by omega) (by rw [readBlock_length]; omega)]
    simp [readBlock]
  · rename_i hcut
    rw [patch_ge _ _ (by rw [readBlock_length]; omega),
      patch_in _ _ (by omega) (by rw [List.length_replicate]; omega)]
    simp

theorem profile_bytes_behind (p : Fin PROFILE_COUNT) {j : Nat} (h : PROFILE_SIZE R C ≤ j) :
    (profile_bytes b p).getD j 0 = 0 := by
  rw [List.getD_eq_getElem?_getD, List.getElem?_eq_none (by rw [profile_bytes_length]; exact h),
    Option.getD_none]

theorem raw_accesses (hacc : raw_accepted R C prof_idx offset size) :
    profile_get_raw_data_accesses R C prof_idx offset size 6 =
      [.packet true 6 size.toNat,
        .profile_bytes (prof_idx.toNat * PROFILE_SIZE R C + offset.toNat)
          (cut_size R C offset size).toNat,
        .packet true 6 (cut_size R C offset size).toNat] := if_pos hacc

theorem raw_fits_of_reply (hacc : raw_accepted R C prof_idx offset size)
    (hin : AllIn R C (profile_get_raw_data_accesses R C prof_idx offset size 6))
    (h : RawReply b beyond prof_idx offset size data) : RawFits b prof_idx offset size := by
  have hwrites := h.writes
  rw [raw_accesses hacc] at hin hwrites
  simp only [allIn_cons, allIn_nil, Access.InBounds, RAW_EPSIZE, and_true] at hin
  refine ⟨by omega, fun hbehind => ?_⟩
  have hcut := cut_size_behind size hbehind
  have hle := (hwrites 6 (cut_size R C offset size).toNat (by simp)).2
  refine ⟨by omega, fun i hi => ?_⟩
  have hidx : profile_index prof_idx = some ⟨prof_idx.toNat, hacc.1⟩ := dif_pos hacc.1
  have hbyte := h.content _ hidx i (by omega)
  rw [raw_reply_byte hacc _ (by omega), hcut, if_pos hi, profile_bytes_behind _ (by omega)] at hbyte
  rw [profile_memory_in beyond (by omega), hbyte]

theorem raw_reply_of_fits (beyond data : Nat → UInt8) (hacc : raw_accepted R C prof_idx offset size)
    (h : RawFits b prof_idx offset size) :
    AllIn R C (profile_get_raw_data_accesses R C prof_idx offset size 6) ∧
      RawReply b beyond prof_idx offset size data := by
  obtain ⟨hsize, hbehind⟩ := h
  have hidx : profile_index prof_idx = some ⟨prof_idx.toNat, hacc.1⟩ := dif_pos hacc.1
  have hcut : (cut_size R C offset size).toNat ≤ size.toNat := by
    by_cases ho : PROFILE_SIZE R C < offset.toNat
    · rw [cut_size_behind size ho]
      exact (hbehind ho).1
    · rw [cut_size_inside (Nat.not_lt.mp ho)]
      exact Nat.min_le_left _ _
  refine ⟨?_, fun first count hmem => ?_, fun p hp i hi => ?_⟩
  · rw [raw_accesses hacc]
    refine allIn_cons.mpr ⟨.inr (by simp only [RAW_EPSIZE]; omega), allIn_cons.mpr ⟨?_,
      allIn_cons.mpr ⟨.inr (by simp only [RAW_EPSIZE]; omega), allIn_nil⟩⟩⟩
    by_cases ho : PROFILE_SIZE R C < offset.toNat
    · rw [cut_size_behind size ho]
      rcases Nat.eq_zero_or_pos (gap R C offset) with hz | hpos
      · exact .inl hz
      · -- The last byte of the gap is a byte of the array.
        have hlast := (hbehind ho).2 (gap R C offset - 1) (by omega)
        obtain ⟨hlt, -⟩ := List.getElem?_eq_some_iff.mp hlast
        rw [Codec.encode_length, profiles_size] at hlt
        exact .inr (by omega)
    · rw [cut_size_inside (Nat.not_lt.mp ho)]
      exact profile_block_in hacc.1 (by omega)
  · rw [raw_accesses hacc] at hmem
    simp only [List.mem_cons, Access.packet.injEq, reduceCtorEq, true_and, List.not_mem_nil,
      false_or, or_false] at hmem
    omega
  · cases hidx.symm.trans hp
    rw [raw_reply_byte hacc _ hi]
    by_cases ho : PROFILE_SIZE R C < offset.toNat
    · rw [profile_bytes_behind _ (by omega), cut_size_behind size ho]
      split
      · rename_i hgap
        obtain ⟨hle, hzero⟩ := hbehind ho
        have hbyte := hzero i hgap
        obtain ⟨hlt, -⟩ := List.getElem?_eq_some_iff.mp hbyte
        rw [Codec.encode_length, profiles_size] at hlt
        rw [profile_memory_in beyond hlt] at hbyte
        exact Option.some.inj hbyte
      · rfl
    · rw [cut_size_inside (Nat.not_lt.mp ho)]
      split
      · rename_i hin
        rw [Nat.add_assoc, ← profile_memory_of beyond _ (by omega)]
      · exact (profile_bytes_behind _ (by omega)).symm

end Raw

/-! ## Packets -/

def RawRequest (R C : Nat) (data : Nat → UInt8) : Prop :=
  data 1 = AMC_GET_PROFILE_RAW ∧ raw_accepted R C (data 2) (raw_offset data) (data 5)

/-- The packet reaches only what it may, and a request gets the bytes that it asks for. -/
structure PacketSafe (cfg : Config R C) (b : Board R C) (beyond data : Nat → UInt8) : Prop where
  in_bounds : AllIn R C (analog_matrix_rx_accesses b cfg data)
  reply : data 0 = 0xA9 → RawRequest R C data →
    RawReply b beyond (data 2) (raw_offset data) (data 5) data

/-- The request fits, the matrix has rows for which the packet has room, and
the key `0xFF`, `0xFF` is not asked for. -/
structure PacketFits (b : Board R C) (data : Nat → UInt8) : Prop where
  raw : RawRequest R C data → RawFits b (data 2) (raw_offset data) (data 5)
  traval : data 1 = AMC_SET_TRAVAL → data 7 = 0 → R ≤ 8
  calibrate_state : data 1 = AMC_GET_CALIBRATE_STATE → R ≤ 9
  calibrated_value : data 1 = AMC_GET_CALIBRATED_VALUE → data 2 = 0xFF → data 3 = 0xFF →
    255 < R ∧ 255 < C

section Packet

variable {b : Board R C} {beyond data : Nat → UInt8}

theorem head_in {write : Bool} {first count : Nat} (h : first + count ≤ 10) :
    (Access.packet write first count).InBounds R C := .inr (by simp only [RAW_EPSIZE]; omega)

theorem done_in {l : List Access} {first count : Nat} (h : first + count ≤ 10)
    (hl : AllIn R C l) :
    AllIn R C (.packet false first count :: l ++ [.packet true 2 1]) :=
  allIn_cons.mpr ⟨head_in h, allIn_append.mpr ⟨hl, allIn_cons.mpr ⟨head_in (by decide), allIn_nil⟩⟩⟩

theorem raw_command_iff (hraw : data 1 = AMC_GET_PROFILE_RAW) :
    (AllIn R C (.packet false 2 4 ::
        profile_get_raw_data_accesses R C (data 2) (raw_offset data) (data 5) 6) ∧
      (RawRequest R C data → RawReply b beyond (data 2) (raw_offset data) (data 5) data)) ↔
    (RawRequest R C data → RawFits b (data 2) (raw_offset data) (data 5)) := by
  rw [allIn_cons, and_iff_right (head_in (by decide))]
  by_cases hacc : raw_accepted R C (data 2) (raw_offset data) (data 5)
  · constructor
    · intro h hreq
      exact raw_fits_of_reply hacc h.1 (h.2 hreq)
    · intro h
      have hboth := raw_reply_of_fits beyond data hacc (h ⟨hraw, hacc⟩)
      exact ⟨hboth.1, fun _ => hboth.2⟩
  · have hno : ¬ RawRequest R C data := fun h => hacc h.2
    refine iff_of_true ⟨?_, fun h => absurd h hno⟩ fun h => absurd h hno
    unfold profile_get_raw_data_accesses
    rw [if_neg hacc]
    exact allIn_nil

theorem traval_command_iff :
    AllIn R C (.packet false 2 6 :: each_row R (fun r => [.row .row_mask r]) ++
      (if decide (data 7 ≠ 0) = true then [] else
        each_row R fun r => [.packet false (8 + 3 * r) 3, .row .row_mask r]) ++
      profile_set_traval_accesses b (data 2) (data 3) (data 4) (decide (data 7 ≠ 0))
        (fun r => if decide (data 7 ≠ 0) = true then 0 else row_mask data r) ++
      [.packet true 2 1]) ↔ (data 7 = 0 → R ≤ 8) := by
  have hset := profile_set_traval_in b (data 2) (data 3) (data 4) (decide (data 7 ≠ 0))
    fun r => if decide (data 7 ≠ 0) = true then 0 else row_mask data r
  have hrows : AllIn R C (each_row R fun r => [.row .row_mask r]) := by simp [Access.InBounds]
  rw [allIn_append, allIn_append, allIn_append, allIn_cons, and_iff_right (head_in (by decide)),
    and_iff_right hrows, and_iff_left hset,
    and_iff_left (allIn_cons.mpr ⟨head_in (by decide), allIn_nil⟩)]
  by_cases h7 : data 7 = 0
  · rw [if_neg (by rw [h7]; decide), row_masks_in_iff]
    exact ⟨fun h _ => h, fun h => h h7⟩
  · rw [if_pos (decide_eq_true h7)]
    exact iff_of_true allIn_nil fun h => absurd h h7

theorem command_iff (cfg : Config R C) (b : Board R C) (beyond data : Nat → UInt8) :
    (AllIn R C (command_accesses b cfg data) ∧
      (RawRequest R C data → RawReply b beyond (data 2) (raw_offset data) (data 5) data)) ↔
    PacketFits b data := by
  have hnot : ∀ {x y : UInt8}, data 1 = x → x ≠ y → data 1 ≠ y :=
    fun hx hne hy => hne (hx.symm.trans hy)
  -- A command that is none of the four needs nothing.
  have hfree : ∀ {l : List Access}, AllIn R C l → data 1 ≠ AMC_GET_PROFILE_RAW →
      data 1 ≠ AMC_SET_TRAVAL → data 1 ≠ AMC_GET_CALIBRATE_STATE →
      data 1 ≠ AMC_GET_CALIBRATED_VALUE →
      ((AllIn R C l ∧
        (RawRequest R C data → RawReply b beyond (data 2) (raw_offset data) (data 5) data)) ↔
      PacketFits b data) := fun hl h1 h2 h3 h4 =>
    iff_of_true ⟨hl, fun h => absurd h.1 h1⟩
      ⟨fun h => absurd h.1 h1, fun h => absurd h h2, fun h => absurd h h3, fun h => absurd h h4⟩
  have hdone : AllIn R C [.packet true 2 1] := allIn_cons.mpr ⟨head_in (by decide), allIn_nil⟩
  unfold command_accesses
  by_cases hc : data 1 = AMC_GET_VERSION
  · rw [if_pos hc]
    exact hfree hdone (hnot hc (by decide)) (hnot hc (by decide)) (hnot hc (by decide))
      (hnot hc (by decide))
  rw [if_neg hc]
  by_cases hc : data 1 = AMC_GET_PROFILES_INFO
  · rw [if_pos hc]
    exact hfree (allIn_cons.mpr ⟨head_in (by decide), allIn_nil⟩) (hnot hc (by decide))
      (hnot hc (by decide)) (hnot hc (by decide)) (hnot hc (by decide))
  rw [if_neg hc]
  by_cases hraw : data 1 = AMC_GET_PROFILE_RAW
  · rw [if_pos hraw]
    rw [raw_command_iff hraw]
    exact ⟨fun h => ⟨h, fun h => absurd h (hnot hraw (by decide)),
      fun h => absurd h (hnot hraw (by decide)), fun h => absurd h (hnot hraw (by decide))⟩,
      PacketFits.raw⟩
  rw [if_neg hraw]
  by_cases hc : data 1 = AMC_SET_PROFILE_NAME
  · rw [if_pos hc]
    exact hfree (done_in (by decide) (profile_set_name_in _ _)) hraw (hnot hc (by decide))
      (hnot hc (by decide)) (hnot hc (by decide))
  rw [if_neg hc]
  by_cases hc : data 1 = AMC_SELECT_PROFILE
  · rw [if_pos hc]
    exact hfree (done_in (by decide) (profile_select_in b _)) hraw (hnot hc (by decide))
      (hnot hc (by decide)) (hnot hc (by decide))
  rw [if_neg hc]
  by_cases htraval : data 1 = AMC_SET_TRAVAL
  · rw [if_pos htraval]
    rw [traval_command_iff, and_iff_left fun h => absurd h.1 hraw]
    exact ⟨fun h => ⟨fun h => absurd h.1 hraw, fun _ => h,
      fun h => absurd h (hnot htraval (by decide)), fun h => absurd h (hnot htraval (by decide))⟩,
      fun h => h.traval htraval⟩
  rw [if_neg htraval]
  by_cases hc : data 1 = AMC_SET_ADVANCE_MODE
  · rw [if_pos hc]
    exact hfree (allIn_append.mpr ⟨profile_set_adv_mode_in b data, hdone⟩) hraw htraval
      (hnot hc (by decide)) (hnot hc (by decide))
  rw [if_neg hc]
  by_cases hc : data 1 = AMC_SET_SOCD
  · rw [if_pos hc]
    exact hfree (allIn_append.mpr ⟨profile_set_socd_in data, hdone⟩) hraw htraval
      (hnot hc (by decide)) (hnot hc (by decide))
  rw [if_neg hc]
  by_cases hc : data 1 = AMC_GET_REALTIME_TRAVEL
  · rw [if_pos hc]
    exact hfree (done_in (by decide) (get_realtime_travel_in _ _)) hraw htraval
      (hnot hc (by decide)) (hnot hc (by decide))
  rw [if_neg hc]
  by_cases hc : data 1 = AMC_RESET_PROFILE
  · rw [if_pos hc]
    have hreset := allIn_append.mpr ⟨profile_reset_in (R := R) (C := C) (data 2),
      update_travel_configs_in b⟩
    exact hfree (done_in (by decide) hreset) hraw htraval (hnot hc (by decide))
      (hnot hc (by decide))
  rw [if_neg hc]
  by_cases hc : data 1 = AMC_SAVE_PROFILE
  · rw [if_pos hc]
    exact hfree (done_in (by decide) (profile_save_in _)) hraw htraval (hnot hc (by decide))
      (hnot hc (by decide))
  rw [if_neg hc]
  by_cases hc : data 1 = AMC_GET_CURVE
  · rw [if_pos hc]
    refine hfree (allIn_cons.mpr ⟨Nat.le_refl 8, allIn_cons.mpr ⟨head_in (by decide), allIn_nil⟩⟩)
      hraw htraval (hnot hc (by decide)) (hnot hc (by decide))
  rw [if_neg hc]
  by_cases hc : data 1 = AMC_SET_CURVE
  · rw [if_pos hc]
    exact hfree (allIn_append.mpr ⟨set_curve_in b, hdone⟩) hraw htraval (hnot hc (by decide))
      (hnot hc (by decide))
  rw [if_neg hc]
  by_cases hc : data 1 = AMC_GET_GAME_CONTROLLER_MODE
  · rw [if_pos hc]
    exact hfree (allIn_cons.mpr ⟨head_in (by decide), hdone⟩) hraw htraval (hnot hc (by decide))
      (hnot hc (by decide))
  rw [if_neg hc]
  by_cases hc : data 1 = AMC_SET_GAME_CONTROLLER_MODE
  · rw [if_pos hc]
    exact hfree (allIn_cons.mpr ⟨head_in (by decide), allIn_nil⟩) hraw htraval
      (hnot hc (by decide)) (hnot hc (by decide))
  rw [if_neg hc]
  by_cases hc : data 1 = AMC_CALIBRATE
  · rw [if_pos hc]
    exact hfree (done_in (by decide) (set_calibrate_in _)) hraw htraval (hnot hc (by decide))
      (hnot hc (by decide))
  rw [if_neg hc]
  by_cases hstate : data 1 = AMC_GET_CALIBRATE_STATE
  · rw [if_pos hstate]
    rw [get_calibrate_state_in_iff, and_iff_left fun h => absurd h.1 hraw]
    exact ⟨fun h => ⟨fun h => absurd h.1 hraw, fun h => absurd h htraval, fun _ => h,
      fun h => absurd h (hnot hstate (by decide))⟩, fun h => h.calibrate_state hstate⟩
  rw [if_neg hstate]
  by_cases hvalue : data 1 = AMC_GET_CALIBRATED_VALUE
  · rw [if_pos hvalue]
    rw [and_iff_left fun h => absurd h.1 hraw, allIn_append, allIn_cons,
      get_calibrated_value_in_iff, and_iff_right (head_in (by decide)),
      and_iff_left (allIn_cons.mpr ⟨head_in (by decide), allIn_nil⟩)]
    exact ⟨fun h => ⟨fun h => absurd h.1 hraw, fun h => absurd h htraval,
      fun h => absurd h hstate, fun _ => h⟩, fun h => h.calibrated_value hvalue⟩
  · rw [if_neg hvalue]
    exact hfree allIn_nil hraw htraval hstate hvalue

/-- A packet reaches nothing outside its arrays and gets the bytes of a
profile that it asks for exactly when its request fits, on every board. -/
theorem a_packet_stays_in_bounds_when_it_fits (cfg : Config R C) (b : Board R C)
    (beyond data : Nat → UInt8) :
    PacketSafe cfg b beyond data ↔ (data 0 = 0xA9 → PacketFits b data) := by
  by_cases hmark : data 0 = 0xA9
  · rw [← command_iff cfg b beyond data]
    constructor
    · intro h _
      have hin := h.in_bounds
      unfold analog_matrix_rx_accesses at hin
      rw [if_neg (not_not.mpr hmark)] at hin
      exact ⟨(allIn_append.mp (allIn_cons.mp (allIn_cons.mp hin).2).2).1, h.reply hmark⟩
    · intro h
      obtain ⟨hin, hreply⟩ := h hmark
      refine ⟨?_, fun _ => hreply⟩
      unfold analog_matrix_rx_accesses
      rw [if_neg (not_not.mpr hmark)]
      have hsend : AllIn R C [.packet false 0 RAW_EPSIZE] :=
        allIn_cons.mpr ⟨.inr (Nat.zero_add _).le, allIn_nil⟩
      exact allIn_cons.mpr ⟨head_in (by decide), allIn_cons.mpr ⟨head_in (by decide),
        allIn_append.mpr ⟨hin, hsend⟩⟩⟩
  · refine iff_of_true ⟨?_, fun h => absurd h hmark⟩ fun h => absurd h hmark
    unfold analog_matrix_rx_accesses
    rw [if_pos hmark]
    exact allIn_cons.mpr ⟨head_in (by decide), allIn_nil⟩

/-- The host asks for 64 bytes of a profile, twice the packet that they go into. -/
theorem a_long_request_overruns_the_packet : ¬ ∀ beyond data : Nat → UInt8,
    PacketSafe sixRows sixRowsBoard beyond data := by
  intro h
  have hin := (h (fun _ => 0) (packet [0xA9, AMC_GET_PROFILE_RAW, 0, 0, 0, 64])).in_bounds
  have hmem : Access.packet true 6 64 ∈ analog_matrix_rx_accesses sixRowsBoard sixRows
      (packet [0xA9, AMC_GET_PROFILE_RAW, 0, 0, 0, 64]) := by decide +kernel
  rcases hin _ hmem with h | h
  · exact absurd h (by decide)
  · exact absurd h (by decide)

end Packet

end keychron_qmk.analog_matrix
