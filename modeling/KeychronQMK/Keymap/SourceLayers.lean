-- The source layer cache of `quantum/action_layer.c`: the layer on which each
-- key went down, stored bit by bit, so that its release has the action of
-- its press.
import KeychronQMK.Lib.BitSlice
import Mathlib.Tactic.Ring.RingNF

namespace keychron_qmk.action_layer

open bitslice

def CHAR_BIT : Nat := 8

def KEYLOC_ENCODER_CW : UInt8 := 253

def KEYLOC_ENCODER_CCW : UInt8 := 252

def ACTION_TRANSPARENT : UInt16 := 1

structure keypos_t where
  row : UInt8
  col : UInt8
  deriving DecidableEq

/-- The sizes of a build. The layer state has `layer_bits` bits, and the layers
below `MAX_LAYER` fit the bits that are stored. -/
structure Config where
  MATRIX_ROWS : Nat
  MATRIX_COLS : Nat
  ENCODER_MAP_ENABLE : Bool
  NUM_ENCODERS : Nat
  layer_bits : Nat
  MAX_LAYER : Nat
  MAX_LAYER_BITS : Nat
  rows_le : MATRIX_ROWS ≤ 255
  cols_le : MATRIX_COLS ≤ 255
  encoders_le : NUM_ENCODERS ≤ 255
  layers_le : MAX_LAYER ≤ 2 ^ MAX_LAYER_BITS
  bits_le : MAX_LAYER_BITS ≤ 5

/-- The bytes that hold `entries` entries, in one plane for each bit of a layer. -/
abbrev Cache (entries bits : Nat) := Fin ((entries + CHAR_BIT - 1) / CHAR_BIT) → Fin bits → BitVec 8

structure Layers (cfg : Config) where
  layer_state : BitVec cfg.layer_bits
  default_layer_state : BitVec cfg.layer_bits
  source_layers_cache : Cache (cfg.MATRIX_ROWS * cfg.MATRIX_COLS) cfg.MAX_LAYER_BITS
  encoder_source_layers_cache : Cache cfg.NUM_ENCODERS cfg.MAX_LAYER_BITS

/-- The variables at power-up. -/
def Layers.zero (cfg : Config) : Layers cfg := ⟨0, 0, fun _ _ => 0, fun _ _ => 0⟩

/-! ## The cache -/

section

variable {entries bits : Nat}

def update_source_layers_cache_impl (layer : BitVec 8) (entry_number : Nat)
    (cache : Cache entries bits) : Cache entries bits :=
  let storage_idx := entry_number / CHAR_BIT
  let storage_bit := entry_number % CHAR_BIT
  fun idx bit_number =>
    if idx.val = storage_idx then
      assign (cache idx bit_number) storage_bit (layer &&& mask bit_number ≠ 0)
    else cache idx bit_number

def read_source_layers_cache_impl (entry_number : Nat) (cache : Cache entries bits) : BitVec 8 :=
  let storage_idx := entry_number / CHAR_BIT
  let storage_bit := entry_number % CHAR_BIT
  gather (fun bit_number =>
    if h : storage_idx < (entries + CHAR_BIT - 1) / CHAR_BIT ∧ bit_number < bits then
      cache ⟨storage_idx, h.1⟩ ⟨bit_number, h.2⟩ &&& mask storage_bit ≠ 0
    else false) bits

variable {entry : Nat}

theorem entry_word (h : entry < entries) :
    entry / CHAR_BIT < (entries + CHAR_BIT - 1) / CHAR_BIT := by
  unfold CHAR_BIT
  omega

theorem getLsbD_read (h : entry < entries) (hbits : bits ≤ 8) (cache : Cache entries bits)
    (i : Nat) :
    (read_source_layers_cache_impl entry cache).getLsbD i =
      if hi : i < bits then (cache ⟨_, entry_word h⟩ ⟨i, hi⟩).getLsbD (entry % CHAR_BIT) else false := by
  unfold read_source_layers_cache_impl
  rw [getLsbD_gather]
  by_cases hi : i < bits
  · have hlt : i < 8 := by omega
    rw [dif_pos ⟨entry_word h, hi⟩, dif_pos hi]
    simp only [hi, hlt, and_self, decide_true, Bool.true_and]
    rw [Bool.eq_iff_iff, decide_eq_true_iff, and_mask_ne_zero]
  · simp [hi]

theorem read_update_self (h : entry < entries) (hbits : bits ≤ 8) {layer : BitVec 8}
    (hlayer : layer.toNat < 2 ^ bits) (cache : Cache entries bits) :
    read_source_layers_cache_impl entry (update_source_layers_cache_impl layer entry cache) =
      layer := by
  apply BitVec.eq_of_getLsbD_eq
  intro i _
  rw [getLsbD_read h hbits]
  have hmod : entry % CHAR_BIT < 8 := Nat.mod_lt _ (by simp [CHAR_BIT])
  split
  · unfold update_source_layers_cache_impl
    simp only [if_pos, getLsbD_assign, true_and, hmod]
    rw [Bool.eq_iff_iff, decide_eq_true_iff, and_mask_ne_zero]
  · rename_i hi
    have hpow : 2 ^ bits ≤ 2 ^ i := Nat.pow_le_pow_right (by omega) (by omega)
    symm
    apply Nat.testBit_lt_two_pow
    omega

theorem read_update_other {other : Nat} (h : entry < entries) (hbits : bits ≤ 8)
    (hne : entry ≠ other) (layer : BitVec 8) (cache : Cache entries bits) :
    read_source_layers_cache_impl entry (update_source_layers_cache_impl layer other cache) =
      read_source_layers_cache_impl entry cache := by
  apply BitVec.eq_of_getLsbD_eq
  intro i _
  rw [getLsbD_read h hbits, getLsbD_read h hbits]
  split
  · unfold update_source_layers_cache_impl
    dsimp only
    split
    · -- another bit of the same byte
      rename_i hword
      have hbit : ¬ (entry % CHAR_BIT = other % CHAR_BIT ∧ other % CHAR_BIT < 8) := by
        unfold CHAR_BIT at hword ⊢
        omega
      rw [getLsbD_assign, if_neg hbit]
    · rfl
  · rfl

end

/-! ## Keys -/

def keypos_t.Valid (cfg : Config) (key : keypos_t) : Prop :=
  (key.row.toNat < cfg.MATRIX_ROWS ∧ key.col.toNat < cfg.MATRIX_COLS) ∨
    (cfg.ENCODER_MAP_ENABLE = true ∧
      (key.row = KEYLOC_ENCODER_CW ∨ key.row = KEYLOC_ENCODER_CCW) ∧
      key.col.toNat < cfg.NUM_ENCODERS)

/-- A position that has an entry. -/
abbrev Key (cfg : Config) := {key : keypos_t // key.Valid cfg}

/-- An entry of one of the two caches. -/
inductive Place where
  | matrix (entry_number : Nat)
  | encoder (entry_number : Nat)
  deriving DecidableEq

section

variable {cfg : Config}

/-- The arithmetic of `uint16_t`. -/
def matrix_entry (cfg : Config) (key : keypos_t) : Nat :=
  ((key.row.toNat * cfg.MATRIX_COLS) % 2 ^ 16 + key.col.toNat) % 2 ^ 16

/-- Where the layer of a key is kept. The two directions of an encoder share
one entry. -/
def keypos_t.place (cfg : Config) (key : keypos_t) : Option Place :=
  if key.row.toNat < cfg.MATRIX_ROWS ∧ key.col.toNat < cfg.MATRIX_COLS then
    some (.matrix (matrix_entry cfg key))
  else if cfg.ENCODER_MAP_ENABLE ∧
      (key.row = KEYLOC_ENCODER_CW ∨ key.row = KEYLOC_ENCODER_CCW) then
    some (.encoder key.col.toNat)
  else none

def update_source_layers_cache (key : keypos_t) (layer : BitVec 8) (s : Layers cfg) : Layers cfg :=
  match key.place cfg with
  | some (.matrix entry_number) =>
    { s with source_layers_cache :=
        update_source_layers_cache_impl layer entry_number s.source_layers_cache }
  | some (.encoder entry_number) =>
    { s with encoder_source_layers_cache :=
        update_source_layers_cache_impl layer entry_number s.encoder_source_layers_cache }
  | none => s

def read_source_layers_cache (key : keypos_t) (s : Layers cfg) : BitVec 8 :=
  match key.place cfg with
  | some (.matrix entry_number) => read_source_layers_cache_impl entry_number s.source_layers_cache
  | some (.encoder entry_number) =>
    read_source_layers_cache_impl entry_number s.encoder_source_layers_cache
  | none => 0

def layer_switch_get_layer (keymap : BitVec 8 → keypos_t → UInt16) (key : keypos_t)
    (s : Layers cfg) : BitVec 8 :=
  let layers := s.layer_state ||| s.default_layer_state
  let found := (List.range cfg.MAX_LAYER).reverse.find? fun i =>
    layers &&& mask i ≠ 0 ∧ keymap (BitVec.ofNat 8 i) key ≠ ACTION_TRANSPARENT
  match found with
  | some i => BitVec.ofNat 8 i
  | none => 0

def store_or_get_action (keymap : BitVec 8 → keypos_t → UInt16) (pressed : Bool) (key : keypos_t)
    (s : Layers cfg) : UInt16 × Layers cfg :=
  if pressed then
    let layer := layer_switch_get_layer keymap key s
    (keymap layer key, update_source_layers_cache key layer s)
  else (keymap (read_source_layers_cache key s) key, s)

theorem layer_fits (keymap : BitVec 8 → keypos_t → UInt16) (key : keypos_t) (s : Layers cfg) :
    (layer_switch_get_layer keymap key s).toNat < 2 ^ cfg.MAX_LAYER_BITS := by
  unfold layer_switch_get_layer
  dsimp only
  split
  · rename_i i hfound
    have hi := List.mem_of_find?_eq_some hfound
    simp only [List.mem_reverse, List.mem_range] at hi
    have hle := cfg.layers_le
    rw [BitVec.toNat_ofNat]
    omega
  · exact Nat.two_pow_pos _

variable {key : keypos_t}

theorem matrix_entry_eq (hrow : key.row.toNat < cfg.MATRIX_ROWS)
    (hcol : key.col.toNat < cfg.MATRIX_COLS) :
    matrix_entry cfg key = key.row.toNat * cfg.MATRIX_COLS + key.col.toNat ∧
      matrix_entry cfg key < cfg.MATRIX_ROWS * cfg.MATRIX_COLS := by
  have hr := cfg.rows_le
  have hc := cfg.cols_le
  have hprod : (key.row.toNat + 1) * cfg.MATRIX_COLS ≤ cfg.MATRIX_ROWS * cfg.MATRIX_COLS :=
    Nat.mul_le_mul_right _ hrow
  have hall : cfg.MATRIX_ROWS * cfg.MATRIX_COLS ≤ 255 * 255 := Nat.mul_le_mul hr hc
  rw [Nat.succ_mul] at hprod
  unfold matrix_entry
  rw [Nat.mod_eq_of_lt (by omega), Nat.mod_eq_of_lt (by omega)]
  omega

theorem place_valid (h : key.Valid cfg) :
    (∃ entry < cfg.MATRIX_ROWS * cfg.MATRIX_COLS, key.place cfg = some (.matrix entry)) ∨
      ∃ entry < cfg.NUM_ENCODERS, key.place cfg = some (.encoder entry) := by
  unfold keypos_t.place
  by_cases hm : key.row.toNat < cfg.MATRIX_ROWS ∧ key.col.toNat < cfg.MATRIX_COLS
  · rw [if_pos hm]
    exact .inl ⟨_, (matrix_entry_eq hm.1 hm.2).2, rfl⟩
  · rw [if_neg hm]
    obtain ⟨hmap, hrow, hcol⟩ := h.resolve_left hm
    rw [if_pos ⟨hmap, hrow⟩]
    exact .inr ⟨_, hcol, rfl⟩

/-- The entry of a key reads as it was written last, and the entries of the
other keys stay. -/
theorem read_update {other : keypos_t} (h : key.Valid cfg) {layer : BitVec 8}
    (hlayer : layer.toNat < 2 ^ cfg.MAX_LAYER_BITS) (s : Layers cfg) :
    read_source_layers_cache key (update_source_layers_cache other layer s) =
      if key.place cfg = other.place cfg then layer else read_source_layers_cache key s := by
  have hbits : cfg.MAX_LAYER_BITS ≤ 8 := by
    have := cfg.bits_le
    omega
  unfold read_source_layers_cache update_source_layers_cache
  rcases place_valid h with ⟨entry, hentry, hplace⟩ | ⟨entry, hentry, hplace⟩
  · rw [hplace]
    cases hother : other.place cfg with
    | none => simp
    | some place =>
      cases place with
      | encoder entry' => simp
      | matrix entry' =>
        by_cases heq : entry = entry'
        · subst heq
          simpa using read_update_self hentry hbits hlayer s.source_layers_cache
        · simpa [heq] using read_update_other hentry hbits heq layer s.source_layers_cache
  · rw [hplace]
    cases hother : other.place cfg with
    | none => simp
    | some place =>
      cases place with
      | matrix entry' => simp
      | encoder entry' =>
        by_cases heq : entry = entry'
        · subst heq
          simpa using read_update_self hentry hbits hlayer s.encoder_source_layers_cache
        · simpa [heq] using read_update_other hentry hbits heq layer s.encoder_source_layers_cache

end

/-! ## Runs -/

/-- A key event, or a change of the layers. -/
inductive Input (cfg : Config) where
  | key (pressed : Bool) (key : Key cfg)
  | layers (layer_state default_layer_state : BitVec cfg.layer_bits)

section

variable {cfg : Config} (keymap : BitVec 8 → keypos_t → UInt16)

def Layers.step (s : Layers cfg) : Input cfg → Layers cfg
  | .key pressed key => (store_or_get_action keymap pressed key s).2
  | .layers layer_state default_layer_state =>
    { s with layer_state := layer_state, default_layer_state := default_layer_state }

/-- A press of the position of the key: of either direction of its encoder. -/
def Presses (key : Key cfg) : Input cfg → Prop
  | .key pressed other => pressed = true ∧ key.val.place cfg = other.val.place cfg
  | .layers _ _ => False

theorem read_step (key : Key cfg) (s : Layers cfg) {x : Input cfg} (h : ¬ Presses key x) :
    read_source_layers_cache key (s.step keymap x) = read_source_layers_cache key.val s := by
  cases x with
  | layers layer_state default_layer_state => rfl
  | key pressed other =>
    cases pressed with
    | false => rfl
    | true =>
      have hne : key.val.place cfg ≠ other.val.place cfg := by simpa [Presses] using h
      unfold Layers.step store_or_get_action
      simp [read_update key.property (layer_fits keymap other s) s, hne]

theorem read_run (key : Key cfg) (s : Layers cfg) {inputs : List (Input cfg)}
    (h : ∀ x ∈ inputs, ¬ Presses key x) :
    read_source_layers_cache key (inputs.foldl (Layers.step keymap) s) =
      read_source_layers_cache key.val s := by
  induction inputs generalizing s with
  | nil => rfl
  | cons x inputs ih =>
    rw [List.foldl_cons, ih _ fun y hy => h y (List.mem_cons_of_mem x hy)]
    exact read_step keymap key s (h x List.mem_cons_self)

/-- A key goes down, and then other keys change and layers switch. Its release
has the action of the layer that it went down on. -/
theorem a_release_has_the_layer_of_its_press (s : Layers cfg) (pressed released : Key cfg)
    (hsame : released.val.place cfg = pressed.val.place cfg) (inputs : List (Input cfg))
    (hno : ∀ x ∈ inputs, ¬ Presses released x) :
    (store_or_get_action keymap false released
      (inputs.foldl (Layers.step keymap) (s.step keymap (.key true pressed)))).1 =
      keymap (layer_switch_get_layer keymap pressed s) released := by
  have hread : read_source_layers_cache released (s.step keymap (.key true pressed)) =
      layer_switch_get_layer keymap pressed s := by
    unfold Layers.step store_or_get_action
    simp [read_update released.property (layer_fits keymap pressed s) s, hsame]
  unfold store_or_get_action
  simp [read_run keymap released _ hno, hread]

end

/-- Two rows of nine keys, one encoder and eight layers. -/
def smallBoard : Config where
  MATRIX_ROWS := 2
  MATRIX_COLS := 9
  ENCODER_MAP_ENABLE := true
  NUM_ENCODERS := 1
  layer_bits := 8
  MAX_LAYER := 8
  MAX_LAYER_BITS := 3
  rows_le := by decide
  cols_le := by decide
  encoders_le := by decide
  layers_le := by decide
  bits_le := by decide

/-- A key goes down on layer 5, its neighbour on layer 2, and the key comes up. -/
theorem the_neighbour_of_a_key_goes_down :
    let keymap := fun layer (_ : keypos_t) => 10 + UInt16.ofNat layer.toNat
    let key : Key smallBoard := ⟨⟨0, 3⟩, .inl (by decide)⟩
    let neighbour : Key smallBoard := ⟨⟨0, 4⟩, .inl (by decide)⟩
    (store_or_get_action keymap false key
      ([.layers 4#8 0#8, .key true neighbour].foldl (Layers.step keymap)
        (Layers.step keymap { Layers.zero smallBoard with layer_state := 32#8 }
          (.key true key)))).1 = 15 := by
  intro keymap key neighbour
  refine (a_release_has_the_layer_of_its_press keymap _ key key rfl _ ?_).trans ?_
  · intro x hx
    simp only [List.mem_cons, List.not_mem_nil, or_false] at hx
    rcases hx with rfl | rfl
    · exact id
    · rintro ⟨-, hplace⟩
      revert hplace
      decide
  · decide

end keychron_qmk.action_layer
