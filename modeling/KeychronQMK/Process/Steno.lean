-- Steno chords, after `process_steno.c`: the keys of a chord gather in a packet until the
-- last one is released, in the format of Gemini PR or of TX Bolt.
import KeychronQMK.Lib.NamedBits
import KeychronQMK.Lib.Runs
import Mathlib.Algebra.BigOperators.Group.List.Basic
import Mathlib.Algebra.Ring.Nat
import Mathlib.Data.List.GetD

namespace keychron_qmk.chords

open runs named_bits

/-! ## Keycodes -/

def QK_STENO : Nat := 0x74C0

def QK_STENO_MAX : Nat := 0x74FF

def QK_STENO_BOLT : Nat := 0x74F0

def QK_STENO_GEMINI : Nat := 0x74F1

def QK_STENO_COMB : Nat := 0x74F2

def QK_STENO_COMB_MAX : Nat := 0x74FC

/-- The keys from `STN__MIN` to `STN__MAX`, in their order. -/
inductive steno_key where
  | FN | N1 | N2 | N3 | N4 | N5 | N6
  | S1 | S2 | TL | KL | PL | WL | HL
  | RL | A | O | ST1 | ST2 | RES1 | RES2
  | PWR | ST3 | ST4 | E | U | FR | RR
  | PR | BR | LR | GR | TR | SR | DR
  | N7 | N8 | N9 | NA | NB | NC | ZR
  deriving DecidableEq

def STN (k : steno_key) : Nat := QK_STENO + k.ctorIdx

/-! ## The code -/

inductive steno_mode_t where
  | STENO_MODE_GEMINI
  | STENO_MODE_BOLT
  deriving DecidableEq

/-- `STENO_PROTOCOL`, with the mode that is read from the EEPROM where both are built in. -/
inductive protocol where
  | geminipr
  | txbolt
  | all (eeconfig : steno_mode_t)

/-- What the firmware is built with. -/
structure build where
  STENO_PROTOCOL : protocol
  STENO_COMBINEDMAP : Bool

def MAX_STROKE_SIZE (b : build) : Nat :=
  match b.STENO_PROTOCOL with
  | .txbolt => 4
  | .geminipr | .all _ => 6

/-- The codes `TXB_S_L` and so on. -/
inductive bolt_key where
  | S_L | T_L | K_L | P_L | W_L | H_L
  | R_L | A_L | O_L | STR | E_R | U_R
  | F_R | R_R | P_R | B_R | L_R | G_R
  | T_R | S_R | D_R | Z_R | NUM
  deriving DecidableEq

def TXB_NUL : BitVec 8 := 0

def TXB : bolt_key → BitVec 8
  | .S_L => 0b00000001
  | .T_L => 0b00000010
  | .K_L => 0b00000100
  | .P_L => 0b00001000
  | .W_L => 0b00010000
  | .H_L => 0b00100000
  | .R_L => 0b01000001
  | .A_L => 0b01000010
  | .O_L => 0b01000100
  | .STR => 0b01001000
  | .E_R => 0b01010000
  | .U_R => 0b01100000
  | .F_R => 0b10000001
  | .R_R => 0b10000010
  | .P_R => 0b10000100
  | .B_R => 0b10001000
  | .L_R => 0b10010000
  | .G_R => 0b10100000
  | .T_R => 0b11000001
  | .S_R => 0b11000010
  | .D_R => 0b11000100
  | .Z_R => 0b11001000
  | .NUM => 0b11010000

/-- The entries that are given. All behind them are 0. -/
def boltmap : List (BitVec 8) :=
  [TXB_NUL, TXB .NUM, TXB .NUM, TXB .NUM, TXB .NUM, TXB .NUM, TXB .NUM, TXB .S_L, TXB .S_L,
    TXB .T_L, TXB .K_L, TXB .P_L, TXB .W_L, TXB .H_L, TXB .R_L, TXB .A_L, TXB .O_L, TXB .STR,
    TXB .STR, TXB_NUL, TXB_NUL, TXB_NUL, TXB .STR, TXB .STR, TXB .E_R, TXB .U_R, TXB .F_R,
    TXB .R_R, TXB .P_R, TXB .B_R, TXB .L_R, TXB .G_R, TXB .T_R, TXB .S_R, TXB .D_R, TXB .NUM,
    TXB .NUM, TXB .NUM, TXB .NUM, TXB .NUM, TXB .NUM, TXB .Z_R]

def TXB_GET_GROUP (code : BitVec 8) : Nat := ((code &&& 0b11000000) >>> 6).toNat

def combinedmap_first : List Nat :=
  [STN .S1, STN .TL, STN .PL, STN .HL, STN .FR, STN .PR, STN .LR, STN .TR, STN .DR, STN .A,
    STN .E]

def combinedmap_second : List Nat :=
  [STN .S2, STN .KL, STN .WL, STN .RL, STN .RR, STN .BR, STN .GR, STN .SR, STN .ZR, STN .O,
    STN .U]

structure steno where
  chord : List (BitVec 8)
  n_pressed_keys : BitVec 8
  mode : steno_mode_t

def steno_init (b : build) : steno where
  chord := List.replicate (MAX_STROKE_SIZE b) 0#8
  n_pressed_keys := 0
  mode := match b.STENO_PROTOCOL with
    | .geminipr => .STENO_MODE_GEMINI
    | .txbolt => .STENO_MODE_BOLT
    | .all eeconfig => eeconfig

inductive keyevent_type_t where
  | TICK_EVENT
  | KEY_EVENT
  | ENCODER_CW_EVENT
  | ENCODER_CCW_EVENT
  | COMBO_EVENT
  | DIP_SWITCH_ON_EVENT
  | DIP_SWITCH_OFF_EVENT
  deriving DecidableEq

/-- The event of a key, which is only told apart from other ones. -/
structure keyrecord (κ : Type*) where
  key : κ
  type : keyevent_type_t
  pressed : Bool

/-- What a call leaves, the bytes that are given to `virtser_send`, and what it returns. -/
structure outcome where
  state : steno
  sent : List (BitVec 8)
  result : Bool

namespace steno

variable (s : steno)

def steno_clear_chord : steno := { s with chord := List.replicate s.chord.length 0#8 }

def steno_set_mode (new_mode : steno_mode_t) : steno :=
  { s.steno_clear_chord with mode := new_mode }

def send_steno_chord_gemini : List (BitVec 8) := (s.chord.modify 0 (· ||| 0x80)).take 6

def add_gemini_key_to_chord (key : Nat) : steno :=
  let group_idx := key / 7
  let intra_group_idx := key - group_idx * 7
  let bit := 1#8 <<< (6 - intra_group_idx)
  { s with chord := s.chord.modify group_idx (· ||| bit) }

def send_steno_chord_bolt : List (BitVec 8) := (s.chord.take 4).filter (· ≠ 0) ++ [0]

def add_bolt_key_to_chord (key : Nat) : steno :=
  let boltcode := boltmap.getD key 0
  { s with chord := s.chord.modify (TXB_GET_GROUP boltcode) (· ||| boltcode) }

def add_key_to_chord (key : Nat) : steno :=
  match s.mode with
  | .STENO_MODE_BOLT => s.add_bolt_key_to_chord key
  | .STENO_MODE_GEMINI => s.add_gemini_key_to_chord key

def send_steno_chord : List (BitVec 8) :=
  match s.mode with
  | .STENO_MODE_BOLT => s.send_steno_chord_bolt
  | .STENO_MODE_GEMINI => s.send_steno_chord_gemini

def press (keycode : Nat) : outcome where
  state := { s with n_pressed_keys := s.n_pressed_keys + 1 }.add_key_to_chord (keycode - QK_STENO)
  sent := []
  result := false

def release : outcome :=
  if 0 < (s.n_pressed_keys - 1).toInt then
    ⟨{ s with n_pressed_keys := s.n_pressed_keys - 1 }, [], false⟩
  else ⟨{ s with n_pressed_keys := 0 }.steno_clear_chord, s.send_steno_chord, false⟩

/-- The case of the keys from `STN__MIN` to `STN__MAX`. -/
def process_key (keycode : Nat) (pressed : Bool) : outcome :=
  if pressed then s.press keycode else s.release

def process_mode_key (b : build) (keycode : Nat) (pressed : Bool) : outcome :=
  match b.STENO_PROTOCOL, pressed with
  | .all _, true =>
    let new_mode := if keycode = QK_STENO_BOLT then .STENO_MODE_BOLT else .STENO_MODE_GEMINI
    ⟨s.steno_set_mode new_mode, [], false⟩
  | _, _ => ⟨s, [], false⟩

/-- The case of the combined keys. Their two keys pass the checks before the switch, so that
the calls for them are those of their case. -/
def process_combined_key (keycode : Nat) (pressed : Bool) : outcome :=
  let first := s.process_key (combinedmap_first.getD (keycode - QK_STENO_COMB) 0) pressed
  let second := first.state.process_key (combinedmap_second.getD (keycode - QK_STENO_COMB) 0)
    pressed
  ⟨second.state, first.sent ++ second.sent, first.result && second.result⟩

/-- No hook is defined. -/
def process_steno {κ : Type*} (b : build) (keycode : Nat) (record : keyrecord κ) : outcome :=
  if keycode < QK_STENO ∨ QK_STENO_MAX < keycode then ⟨s, [], true⟩
  else if record.type = .TICK_EVENT then ⟨s, [], true⟩
  else if keycode = QK_STENO_BOLT ∨ keycode = QK_STENO_GEMINI then
    s.process_mode_key b keycode record.pressed
  else if b.STENO_COMBINEDMAP ∧ QK_STENO_COMB ≤ keycode ∧ keycode ≤ QK_STENO_COMB_MAX then
    s.process_combined_key keycode record.pressed
  else if keycode ≤ STN .ZR then s.process_key keycode record.pressed
  else ⟨s, [], false⟩

end steno

/-! ## The protocols -/

/-- The packet of Gemini PR, with the keys of each byte behind its first bit. -/
def gemini_format : List (List steno_key) :=
  [[.FN, .N1, .N2, .N3, .N4, .N5, .N6],
    [.S1, .S2, .TL, .KL, .PL, .WL, .HL],
    [.RL, .A, .O, .ST1, .ST2, .RES1, .RES2],
    [.PWR, .ST3, .ST4, .E, .U, .FR, .RR],
    [.PR, .BR, .LR, .GR, .TR, .SR, .DR],
    [.N7, .N8, .N9, .NA, .NB, .NC, .ZR]]

/-- Six bytes of which the first one alone begins with 1. -/
def decode_gemini (packet : List (BitVec 8)) : Option (List steno_key) :=
  if packet.map BitVec.msb = [true, false, false, false, false, false] then
    some (all_named gemini_format packet)
  else none

/-- The groups of TX Bolt, with the keys of each byte behind the number of its group. -/
def bolt_format : List (List bolt_key) :=
  [[.H_L, .W_L, .P_L, .K_L, .T_L, .S_L],
    [.U_R, .E_R, .STR, .O_L, .A_L, .R_L],
    [.G_R, .L_R, .B_R, .P_R, .R_R, .F_R],
    [.NUM, .Z_R, .D_R, .S_R, .T_R]]

/-- Bytes of groups that ascend, from some group on, and a null at the end. -/
def decode_bolt : Nat → List (BitVec 8) → Option (List bolt_key)
  | _, [] => none
  | group, x :: packet =>
    if x = 0 then if packet = [] then some [] else none
    else if x.toNat / 64 < group then none
    else (decode_bolt (x.toNat / 64 + 1) packet).map
      (named (bolt_format.getD (x.toNat / 64) []) x ++ ·)

def nearest : steno_key → Option bolt_key
  | .N1 | .N2 | .N3 | .N4 | .N5 | .N6 | .N7 | .N8 | .N9 | .NA | .NB | .NC => some .NUM
  | .S1 | .S2 => some .S_L
  | .TL => some .T_L
  | .KL => some .K_L
  | .PL => some .P_L
  | .WL => some .W_L
  | .HL => some .H_L
  | .RL => some .R_L
  | .A => some .A_L
  | .O => some .O_L
  | .ST1 | .ST2 | .ST3 | .ST4 => some .STR
  | .E => some .E_R
  | .U => some .U_R
  | .FR => some .F_R
  | .RR => some .R_R
  | .PR => some .P_R
  | .BR => some .B_R
  | .LR => some .L_R
  | .GR => some .G_R
  | .TR => some .T_R
  | .SR => some .S_R
  | .DR => some .D_R
  | .ZR => some .Z_R
  | .FN | .RES1 | .RES2 | .PWR => none

def Decodes : steno_mode_t → List (BitVec 8) → List steno_key → Prop
  | .STENO_MODE_GEMINI, packet, stroke =>
    ∃ keys, decode_gemini packet = some keys ∧ ∀ k, k ∈ keys ↔ k ∈ stroke
  | .STENO_MODE_BOLT, packet, stroke =>
    ∃ keys, decode_bolt 0 packet = some keys ∧ ∀ k, k ∈ keys ↔ ∃ l ∈ stroke, nearest l = some k

def combined_keys : List (List steno_key) :=
  [[.S1, .S2], [.TL, .KL], [.PL, .WL], [.HL, .RL], [.FR, .RR], [.PR, .BR], [.LR, .GR],
    [.TR, .SR], [.DR, .ZR], [.A, .O], [.E, .U]]

def steno_keys (b : build) (keycode : Nat) : List steno_key :=
  if QK_STENO ≤ keycode ∧ keycode ≤ STN .ZR then
    (gemini_format.flatten[keycode - QK_STENO]?).toList
  else if b.STENO_COMBINEDMAP ∧ QK_STENO_COMB ≤ keycode then
    combined_keys.getD (keycode - QK_STENO_COMB) []
  else []

/-! ## Sessions -/

/-- A press or a release of a key, with its keycode. -/
structure event (κ : Type*) extends keyrecord κ where
  keycode : Nat

/-- The firmware, with the steno keys that are down and what the ones that were pressed since
the last packet stand for, which are history. -/
structure session (κ : Type*) extends steno where
  held : List (κ × Nat)
  stroke : List steno_key

variable {κ : Type*} [DecidableEq κ]

def start (b : build) : session κ := ⟨steno_init b, [], []⟩

variable (b : build) (s : session κ) (e : event κ)

def event.keys : List steno_key :=
  if e.type = .TICK_EVENT then [] else steno_keys b e.keycode

def call : outcome := s.process_steno b e.keycode e.tokeyrecord

/-- What is down behind an event. -/
def held_after : List (κ × Nat) :=
  if e.keys b = [] then s.held
  else if e.pressed then (e.key, e.keycode) :: s.held
  else s.held.erase (e.key, e.keycode)

def session_step : session κ where
  tosteno := (call b s e).state
  held := held_after b s e
  stroke :=
    if (call b s e).sent ≠ [] then []
    else if e.pressed then s.stroke ++ e.keys b
    else s.stroke

/-- A key is pressed while it is up, and released with its keycode while it is down, and no
mode key is pressed while a steno key is down. -/
def WellFormed : Prop :=
  (e.keys b ≠ [] → if e.pressed then e.key ∉ s.held.map Prod.fst
    else (e.key, e.keycode) ∈ s.held) ∧
  (e.pressed → e.keycode = QK_STENO_BOLT ∨ e.keycode = QK_STENO_GEMINI → s.held = [])

def ReleasesLast : Prop := e.keys b ≠ [] ∧ e.pressed = false ∧ held_after b s e = []

/-- A packet is sent exactly when the last key is released, and it stands for the keys that
were pressed since the last one. -/
def SendsChord : Prop :=
  ((call b s e).sent ≠ [] ↔ ReleasesLast b s e) ∧
    ((call b s e).sent ≠ [] → Decodes s.mode (call b s e).sent s.stroke)

/-- How many keys of the protocol are down. -/
def pressed_keys (held : List (κ × Nat)) : Nat :=
  (held.map fun h => (steno_keys b h.2).length).sum

/-- The counter shows that keys are down, of which there are so many. -/
def Shows (n : Nat) : Prop := 0 < n % 256 ∧ n % 256 < 128

/-- When keys of the protocol are released, one after another, no others are down, or the
counter shows them. -/
def OthersShow : Prop :=
  e.keys b ≠ [] → e.pressed = false → ∀ i < (e.keys b).length,
    pressed_keys b s.held - (i + 1) = 0 ∨ Shows (pressed_keys b s.held - (i + 1))

/-! ## Keycodes and keys -/

theorem steno_keys_STN (k : steno_key) : steno_keys b (STN k) = [k] := by
  cases k <;> rfl

theorem exists_STN {keycode : Nat} (h : QK_STENO ≤ keycode) (hle : keycode ≤ STN .ZR) :
    ∃ k, keycode = STN k := by
  have hindex : gemini_format.flatten.map steno_key.ctorIdx = List.range 42 := rfl
  have hlast : STN .ZR = QK_STENO + 41 := rfl
  have hmem : keycode - QK_STENO ∈ List.range 42 := List.mem_range.mpr (by omega)
  rw [← hindex, List.mem_map] at hmem
  obtain ⟨k, -, hk⟩ := hmem
  exact ⟨k, by rw [STN, hk, Nat.add_sub_cancel' h]⟩

theorem combined_keys_eq {i : Nat} (hi : i ≤ 10) : ∃ k l, combined_keys.getD i [] = [k, l] ∧
    combinedmap_first.getD i 0 = STN k ∧ combinedmap_second.getD i 0 = STN l := by
  have htables : ∀ i : Fin 11, (combined_keys.getD i.val []).map STN =
      [combinedmap_first.getD i.val 0, combinedmap_second.getD i.val 0] := by
    decide
  obtain ⟨k, rest, hkeys, hk, hrest⟩ :=
    List.map_eq_cons_iff.mp (htables ⟨i, Nat.lt_succ_of_le hi⟩)
  obtain ⟨l, rest, rfl, hl, hnil⟩ := List.map_eq_cons_iff.mp hrest
  obtain rfl := List.map_eq_nil_iff.mp hnil
  exact ⟨k, l, hkeys, hk.symm, hl.symm⟩

/-! ## Packets -/

def Written (chord : List (BitVec 8)) (stroke : List steno_key) : steno_mode_t → Prop
  | .STENO_MODE_GEMINI => chord.length = 6 ∧ (∀ x ∈ chord, x.msb = false) ∧
    ∀ k, k ∈ all_named gemini_format chord ↔ k ∈ stroke
  | .STENO_MODE_BOLT => 4 ≤ chord.length ∧
    (∀ i x, i < 4 → chord[i]? = some x → x = 0 ∨ x.toNat / 64 = i) ∧
    ∀ k, k ∈ all_named bolt_format chord ↔ ∃ l ∈ stroke, nearest l = some k

variable {mode : steno_mode_t} {chord : List (BitVec 8)} {stroke : List steno_key} {f : steno}

theorem Written.clear {n : Nat} (hn : 4 ≤ n) (hmode : mode = .STENO_MODE_GEMINI → n = 6) :
    Written (List.replicate n 0#8) [] mode := by
  cases mode with
  | STENO_MODE_GEMINI =>
    refine ⟨by rw [List.length_replicate, hmode rfl], fun x hx => ?_, fun k => ?_⟩
    · rw [List.eq_of_mem_replicate hx]
      rfl
    · rw [all_named_zero]
  | STENO_MODE_BOLT =>
    refine ⟨by rwa [List.length_replicate], fun i x _ hx => .inl ?_, fun k => ?_⟩
    · exact List.eq_of_mem_replicate (List.mem_of_getElem? hx)
    · rw [all_named_zero]
      simp

theorem gemini_bit (k : steno_key) : ∃ names, gemini_format[k.ctorIdx / 7]? = some names ∧
    (1#8 <<< (6 - (k.ctorIdx - k.ctorIdx / 7 * 7))).msb = false ∧
    named names (1#8 <<< (6 - (k.ctorIdx - k.ctorIdx / 7 * 7))) = [k] := by
  cases k <;> exact ⟨_, rfl, rfl, rfl⟩

theorem bolt_code (k : steno_key) : ∃ names,
    bolt_format[TXB_GET_GROUP (boltmap.getD k.ctorIdx 0)]? = some names ∧
    (boltmap.getD k.ctorIdx 0).toNat / 64 = TXB_GET_GROUP (boltmap.getD k.ctorIdx 0) ∧
    named names (boltmap.getD k.ctorIdx 0) = (nearest k).toList := by
  cases k <;> exact ⟨_, rfl, rfl, rfl⟩

theorem Written.add_gemini (h : Written chord stroke .STENO_MODE_GEMINI) (k : steno_key) :
    Written (chord.modify (k.ctorIdx / 7)
      (· ||| 1#8 <<< (6 - (k.ctorIdx - k.ctorIdx / 7 * 7)))) (stroke ++ [k])
      .STENO_MODE_GEMINI := by
  obtain ⟨hlength, hmsb, hkeys⟩ := h
  obtain ⟨names, hnames, hbit, hnamed⟩ := gemini_bit k
  have hrow : k.ctorIdx / 7 < chord.length := by
    rw [hlength]
    exact (List.getElem?_eq_some_iff.mp hnames).1
  refine ⟨by rwa [List.length_modify], fun x hx => ?_, fun l => ?_⟩
  · obtain ⟨i, hi⟩ := List.mem_iff_getElem?.mp hx
    rw [List.getElem?_modify, Option.map_eq_map, Option.map_eq_some_iff] at hi
    obtain ⟨y, hy, rfl⟩ := hi
    have hclear := hmsb y (List.mem_of_getElem? hy)
    split
    · rw [BitVec.msb_or, hclear, hbit, Bool.or_false]
    · exact hclear
  · rw [mem_all_named_modify hnames hrow, hkeys, hnamed, List.mem_append]

theorem Written.add_bolt (h : Written chord stroke .STENO_MODE_BOLT) (k : steno_key) :
    Written (chord.modify (TXB_GET_GROUP (boltmap.getD k.ctorIdx 0))
      (· ||| boltmap.getD k.ctorIdx 0)) (stroke ++ [k]) .STENO_MODE_BOLT := by
  obtain ⟨hlength, hgroup, hkeys⟩ := h
  obtain ⟨names, hnames, hcode, hnamed⟩ := bolt_code k
  have hrow : TXB_GET_GROUP (boltmap.getD k.ctorIdx 0) < chord.length :=
    Nat.lt_of_lt_of_le (List.getElem?_eq_some_iff.mp hnames).1 hlength
  refine ⟨by rwa [List.length_modify], fun i x hi hx => ?_, fun l => ?_⟩
  · rw [List.getElem?_modify, Option.map_eq_map, Option.map_eq_some_iff] at hx
    obtain ⟨y, hy, rfl⟩ := hx
    have hclear := hgroup i y hi hy
    split
    · -- Both the byte and the code have the bits of the group, or are clear.
      rename_i hsame
      refine .inr ?_
      rcases hclear with rfl | hclear
      · have hzero : 0 ||| boltmap.getD k.ctorIdx 0 = boltmap.getD k.ctorIdx 0 := BitVec.zero_or
        rw [hzero, hcode, hsame]
      · rw [BitVec.toNat_or, ← Nat.shiftRight_eq_div_pow _ 6, Nat.shiftRight_or_distrib,
          Nat.shiftRight_eq_div_pow, Nat.shiftRight_eq_div_pow, hclear, hcode, hsame, Nat.or_self]
    · exact hclear
  · rw [mem_all_named_modify hnames hrow, hkeys, hnamed]
    simp [or_and_right, exists_or]

theorem Written.add (h : Written f.chord stroke f.mode) (k : steno_key) :
    Written (f.add_key_to_chord k.ctorIdx).chord (stroke ++ [k]) f.mode := by
  unfold steno.add_key_to_chord
  cases hmode : f.mode with
  | STENO_MODE_GEMINI => exact (hmode ▸ h).add_gemini k
  | STENO_MODE_BOLT => exact (hmode ▸ h).add_bolt k

theorem Written.sends_gemini (h : Written f.chord stroke .STENO_MODE_GEMINI) :
    Decodes .STENO_MODE_GEMINI f.send_steno_chord_gemini stroke := by
  obtain ⟨hlength, hmsb, hkeys⟩ := h
  have hall : f.send_steno_chord_gemini = f.chord.modify 0 (· ||| 0x80) := by
    refine List.take_of_length_le ?_
    rw [List.length_modify, hlength]
  have hstart : f.send_steno_chord_gemini.map BitVec.msb =
      [true, false, false, false, false, false] := by
    rw [hall]
    obtain ⟨x, chord, hchord⟩ := List.exists_cons_of_length_eq_add_one hlength
    rw [hchord] at hlength hmsb ⊢
    have hrest : chord.map BitVec.msb = List.replicate 5 false := by
      refine List.eq_replicate_iff.mpr ⟨?_, fun y hy => ?_⟩
      · rw [List.length_map]
        exact Nat.succ.inj hlength
      · obtain ⟨z, hz, rfl⟩ := List.mem_map.mp hy
        exact hmsb z (List.mem_cons_of_mem x hz)
    rw [List.modify_zero_cons, List.map_cons, hrest, BitVec.msb_or]
    have hbit : (0x80 : BitVec 8).msb = true := rfl
    rw [hbit, Bool.or_true]
    rfl
  refine ⟨_, if_pos hstart, fun k => ?_⟩
  have hrow : 0 < f.chord.length := by omega
  obtain ⟨names, hnames, hnone⟩ : ∃ names, gemini_format[0]? = some names ∧
      named names (0x80 : BitVec 8) = [] := ⟨_, rfl, rfl⟩
  rw [hall, mem_all_named_modify hnames hrow, hkeys, hnone]
  simp

/-- The groups from one on that are not clear, and the null, denote the keys that are set. -/
theorem decode_groups {i j : Nat} (hj : j ≤ i) {words : List (BitVec 8)}
    (hlength : words.length + i = 4)
    (hwords : ∀ n x, words[n]? = some x → x = 0 ∨ x.toNat / 64 = i + n) :
    decode_bolt j (words.filter (· ≠ 0) ++ [0]) = some (all_named (bolt_format.drop i) words) := by
  induction words generalizing i j with
  | nil => rw [all_named_nil]; rfl
  | cons x words ih =>
    have hi : i < bolt_format.length := by
      have hfour : bolt_format.length = 4 := rfl
      rw [List.length_cons] at hlength
      omega
    have hrest : ∀ {j}, j ≤ i + 1 → decode_bolt j (words.filter (· ≠ 0) ++ [0]) =
        some (all_named (bolt_format.drop (i + 1)) words) := by
      intro j hj
      refine ih hj (by rw [List.length_cons] at hlength; omega) fun n y hy => ?_
      have hnext := hwords (n + 1) y hy
      rwa [← Nat.add_assoc, Nat.add_right_comm] at hnext
    rw [List.drop_eq_getElem_cons hi, all_named]
    by_cases hx : x = 0
    · subst hx
      have hclear : named bolt_format[i] (0 : BitVec 8) = [] := named_zero _
      rw [List.filter_cons_of_neg (by simp), hrest (by omega), hclear, List.nil_append]
    · have hgroup : x.toNat / 64 = i := (hwords 0 x rfl).resolve_left hx
      rw [List.filter_cons_of_pos (by simpa using hx), List.cons_append, decode_bolt, if_neg hx,
        hgroup, if_neg (Nat.not_lt.mpr hj), hrest (Nat.le_refl _),
        List.getD_eq_getElem?_getD, List.getElem?_eq_getElem hi]
      rfl

theorem Written.sends_bolt (h : Written f.chord stroke .STENO_MODE_BOLT) :
    Decodes .STENO_MODE_BOLT f.send_steno_chord_bolt stroke := by
  obtain ⟨hlength, hgroup, hkeys⟩ := h
  have hdecode : decode_bolt 0 f.send_steno_chord_bolt =
      some (all_named (bolt_format.drop 0) (f.chord.take 4)) := by
    refine decode_groups (Nat.le_refl 0) ?_ fun n x hx => ?_
    · rw [List.length_take, Nat.min_eq_left hlength]
    · rw [List.getElem?_take] at hx
      split at hx
      · rw [Nat.zero_add]
        exact hgroup n x ‹_› hx
      · cases hx
  refine ⟨_, hdecode, fun k => ?_⟩
  rw [List.drop_zero, all_named_take (Nat.le_refl 4), hkeys]

theorem Written.sends (h : Written f.chord stroke f.mode) :
    f.send_steno_chord ≠ [] ∧ Decodes f.mode f.send_steno_chord stroke := by
  unfold steno.send_steno_chord
  cases hmode : f.mode with
  | STENO_MODE_GEMINI =>
    rw [hmode] at h
    refine ⟨fun hnil => ?_, h.sends_gemini⟩
    have hlength := congrArg List.length hnil
    rw [steno.send_steno_chord_gemini, List.length_take, List.length_modify, h.1] at hlength
    exact absurd hlength (by decide)
  | STENO_MODE_BOLT =>
    rw [hmode] at h
    exact ⟨List.append_ne_nil_of_right_ne_nil _ (List.cons_ne_nil 0 []), h.sends_bolt⟩

/-! ## The counter -/

theorem counter_pos (n : Nat) : 0 < (BitVec.ofNat 8 n).toInt ↔ Shows n := by
  rw [Shows, BitVec.toInt_eq_toNat_cond, BitVec.toNat_ofNat]
  split <;> omega

theorem counter_pred {n : Nat} (hn : 0 < n) :
    BitVec.ofNat 8 n - 1 = BitVec.ofNat 8 (n - 1) := by
  obtain ⟨n, rfl⟩ := Nat.exists_eq_add_one.mpr hn
  rw [BitVec.ofNat_add, Nat.add_sub_cancel]
  exact BitVec.add_sub_cancel _ _

/-! ## Events -/

variable {b s e}

omit [DecidableEq κ] in
/-- A call for a steno key is one for its key, or for its two keys. -/
theorem call_keys (h : e.keys b ≠ []) :
    (∃ k, e.keys b = [k] ∧ call b s e = s.process_key (STN k) e.pressed) ∨
      ∃ k l, e.keys b = [k, l] ∧
        (call b s e).state =
          ((s.process_key (STN k) e.pressed).state.process_key (STN l) e.pressed).state ∧
        (call b s e).sent = (s.process_key (STN k) e.pressed).sent ++
          ((s.process_key (STN k) e.pressed).state.process_key (STN l) e.pressed).sent := by
  unfold event.keys at h ⊢
  split at h
  · exact absurd rfl h
  rename_i htype
  rw [if_neg htype]
  have hlast : STN .ZR = 0x74E9 := rfl
  by_cases hkey : QK_STENO ≤ e.keycode ∧ e.keycode ≤ STN .ZR
  · obtain ⟨k, hk⟩ := exists_STN hkey.1 hkey.2
    refine .inl ⟨k, by rw [hk, steno_keys_STN], ?_⟩
    unfold call steno.process_steno
    unfold QK_STENO at hkey
    rw [if_neg (by unfold QK_STENO QK_STENO_MAX; omega), if_neg htype,
      if_neg (by unfold QK_STENO_BOLT QK_STENO_GEMINI; omega),
      if_neg (by unfold QK_STENO_COMB; omega), if_pos hkey.2, hk]
  · rw [steno_keys, if_neg hkey] at h
    split at h
    · rename_i hcombined
      have hlength : combined_keys.length = 11 := rfl
      have hindex : e.keycode - QK_STENO_COMB ≤ 10 := by
        by_contra hlarge
        exact h (List.getD_eq_default _ _ (by omega))
      obtain ⟨k, l, hkeys, hk, hl⟩ := combined_keys_eq hindex
      have hcall : call b s e = s.process_combined_key e.keycode e.pressed := by
        unfold call steno.process_steno
        unfold QK_STENO_COMB at hcombined hindex
        rw [if_neg (by unfold QK_STENO QK_STENO_MAX; omega), if_neg htype,
          if_neg (by unfold QK_STENO_BOLT QK_STENO_GEMINI; omega),
          if_pos ⟨hcombined.1, hcombined.2, by unfold QK_STENO_COMB_MAX; omega⟩]
      rw [steno.process_combined_key, hk, hl] at hcall
      refine .inr ⟨k, l, ?_, by rw [hcall], by rw [hcall]⟩
      rw [steno_keys, if_neg hkey, if_pos hcombined, hkeys]
    · exact absurd rfl h

theorem process_mode_key_cases (f : steno) (b : build) (keycode : Nat) (pressed : Bool) :
    (f.process_mode_key b keycode pressed).sent = [] ∧
      ((f.process_mode_key b keycode pressed).state = f ∨
        pressed ∧ MAX_STROKE_SIZE b = 6 ∧
          ∃ m, (f.process_mode_key b keycode pressed).state = f.steno_set_mode m) := by
  unfold steno.process_mode_key
  split
  · rename_i hbuild
    exact ⟨rfl, .inr ⟨rfl, by rw [MAX_STROKE_SIZE, hbuild], _, rfl⟩⟩
  · exact ⟨rfl, .inl rfl⟩

omit [DecidableEq κ] in
theorem call_other (h : e.keys b = []) : (call b s e).sent = [] ∧
    ((call b s e).state = s.tosteno ∨
      (e.pressed ∧ (e.keycode = QK_STENO_BOLT ∨ e.keycode = QK_STENO_GEMINI)) ∧
        MAX_STROKE_SIZE b = 6 ∧ ∃ m, (call b s e).state = s.steno_set_mode m) := by
  unfold call steno.process_steno
  split
  · exact ⟨rfl, .inl rfl⟩
  rename_i hrange
  split
  · exact ⟨rfl, .inl rfl⟩
  rename_i htype
  rw [event.keys, if_neg htype] at h
  split
  · rename_i hmode
    obtain ⟨hsent, hstate | ⟨hp, hsize, hstate⟩⟩ :=
      process_mode_key_cases s.tosteno b e.keycode e.pressed
    · exact ⟨hsent, .inl hstate⟩
    · exact ⟨hsent, .inr ⟨⟨hp, hmode⟩, hsize, hstate⟩⟩
  split
  · rename_i hcombined
    have hmax : QK_STENO_COMB_MAX = QK_STENO_COMB + 10 := rfl
    have hlast : STN .ZR + 9 = QK_STENO_COMB := rfl
    obtain ⟨k, l, hkeys, -⟩ :=
      combined_keys_eq (by omega : e.keycode - QK_STENO_COMB ≤ 10)
    rw [steno_keys, if_neg (by omega), if_pos ⟨hcombined.1, hcombined.2.1⟩, hkeys] at h
    cases h
  split
  · rename_i hkey
    obtain ⟨k, hk⟩ := exists_STN (Nat.not_lt.mp fun hlt => hrange (.inl hlt)) hkey
    rw [hk, steno_keys_STN] at h
    cases h
  · exact ⟨rfl, .inl rfl⟩

/-! ## The invariant -/

/-- So many keys are down, as far as the counter reaches, and the chord has the keys of the
stroke. -/
structure Gathers (b : build) (n : Nat) (stroke : List steno_key) (f : steno) : Prop where
  counter : f.n_pressed_keys = BitVec.ofNat 8 n
  written : Written f.chord stroke f.mode
  size : f.chord.length = MAX_STROKE_SIZE b
  built_in : f.mode = .STENO_MODE_GEMINI → MAX_STROKE_SIZE b = 6

theorem four_le_size (b : build) : 4 ≤ MAX_STROKE_SIZE b := by
  unfold MAX_STROKE_SIZE
  split <;> decide

namespace Gathers

variable {n : Nat}

theorem set_mode (h : Gathers b n [] f) (hsize : MAX_STROKE_SIZE b = 6) (m : steno_mode_t) :
    Gathers b n [] (f.steno_set_mode m) where
  counter := h.counter
  written := .clear (h.size ▸ four_le_size b) fun _ => h.size.trans hsize
  size := List.length_replicate.trans h.size
  built_in := fun _ => hsize

theorem add (h : Gathers b n stroke f) (k : steno_key) :
    Gathers b n (stroke ++ [k]) (f.add_key_to_chord k.ctorIdx) := by
  have hwritten := h.written.add k
  unfold steno.add_key_to_chord at hwritten ⊢
  cases hmode : f.mode with
  | STENO_MODE_GEMINI | STENO_MODE_BOLT =>
    exact ⟨h.counter, hmode.symm ▸ hwritten, (List.length_modify ..).trans h.size, h.built_in⟩

theorem press (h : Gathers b n stroke f) (k : steno_key) :
    (f.process_key (STN k) true).sent = [] ∧
      Gathers b (n + 1) (stroke ++ [k]) (f.process_key (STN k) true).state := by
  have hcounter : f.n_pressed_keys + 1 = BitVec.ofNat 8 (n + 1) := by
    rw [h.counter, BitVec.ofNat_add]
    rfl
  rw [steno.process_key, if_pos rfl, steno.press, STN, Nat.add_sub_cancel_left]
  exact ⟨rfl, add (f := ⟨f.chord, f.n_pressed_keys + 1, f.mode⟩)
    ⟨hcounter, h.written, h.size, h.built_in⟩ k⟩

theorem release (h : Gathers b n stroke f) (hn : 0 < n) (hshows : Shows (n - 1)) :
    f.release.sent = [] ∧ f.release.state.send_steno_chord = f.send_steno_chord ∧
      Gathers b (n - 1) stroke f.release.state := by
  rw [steno.release, h.counter, counter_pred hn, if_pos ((counter_pos _).mpr hshows)]
  exact ⟨rfl, rfl, ⟨rfl, h.written, h.size, h.built_in⟩⟩

theorem send (h : Gathers b n stroke f) (hn : 0 < n) (hshows : ¬ Shows (n - 1)) :
    f.release.sent = f.send_steno_chord ∧ Gathers b 0 [] f.release.state := by
  rw [steno.release, h.counter, counter_pred hn, if_neg fun h => hshows ((counter_pos _).mp h)]
  exact ⟨rfl, rfl, .clear (h.size ▸ four_le_size b) fun hmode => h.size.trans (h.built_in hmode),
    List.length_replicate.trans h.size, h.built_in⟩

end Gathers

/-- The firmware gathers what the keys that are down and the ones pressed since the last
packet stand for. -/
structure Inv (b : build) (s : session κ) : Prop where
  gathers : Gathers b (pressed_keys b s.held) s.stroke s.tosteno
  keys : ∀ h ∈ s.held, steno_keys b h.2 ≠ []
  stroke : s.held = [] → s.stroke = []

omit [DecidableEq κ] in
theorem Inv.start (b : build) : Inv b (start b : session κ) := by
  have hbuilt : (steno_init b).mode = .STENO_MODE_GEMINI → MAX_STROKE_SIZE b = 6 := by
    unfold steno_init MAX_STROKE_SIZE
    cases b.STENO_PROTOCOL with
    | geminipr | all => exact fun _ => rfl
    | txbolt => exact fun h => nomatch h
  refine ⟨⟨rfl, ?_, List.length_replicate, hbuilt⟩, fun h hmem => absurd hmem List.not_mem_nil,
    fun _ => rfl⟩
  exact .clear (four_le_size b) hbuilt

/-! ## Steps -/

theorem pressed_keys_erase {h : κ × Nat} {held : List (κ × Nat)} (hmem : h ∈ held) :
    pressed_keys b held = (steno_keys b h.2).length + pressed_keys b (held.erase h) :=
  ((List.perm_cons_erase hmem).map fun (h : κ × Nat) => (steno_keys b h.2).length).sum_eq

omit [DecidableEq κ] in
theorem keys_eq (h : e.keys b ≠ []) : e.keys b = steno_keys b e.keycode := by
  unfold event.keys at h ⊢
  split at h
  · exact absurd rfl h
  · rw [if_neg ‹_›]

omit [DecidableEq κ] in
theorem pressed_keys_eq_zero {held : List (κ × Nat)} (hkeys : ∀ h ∈ held, steno_keys b h.2 ≠ []) :
    pressed_keys b held = 0 ↔ held = [] := by
  cases held with
  | nil => exact iff_of_true rfl rfl
  | cons h held =>
    refine iff_of_false (fun hzero => ?_) (List.cons_ne_nil _ _)
    rw [pressed_keys, List.map_cons, List.sum_cons, Nat.add_eq_zero_iff] at hzero
    exact hkeys h List.mem_cons_self (List.length_eq_zero_iff.mp hzero.1)

namespace Inv

theorem other (hinv : Inv b s) (hwf : WellFormed b s e) (h : e.keys b = []) :
    SendsChord b s e ∧ Inv b (session_step b s e) := by
  obtain ⟨hsent, hstate⟩ := call_other (s := s) h
  have hheld : (session_step b s e).held = s.held := if_pos h
  have hstroke : (session_step b s e).stroke = s.stroke := by
    simp [session_step, hsent, h]
  refine ⟨⟨iff_of_false (not_not.mpr hsent) fun hlast => hlast.1 h, fun hne => absurd hsent hne⟩,
    ?_, ?_, ?_⟩
  · rw [hheld, hstroke, session_step]
    rcases hstate with hstate | ⟨hmode, hsize, m, hstate⟩
    · rw [hstate]
      exact hinv.gathers
    · have hgathers := hinv.gathers
      rw [hinv.stroke (hwf.2 hmode.1 hmode.2)] at hgathers ⊢
      rw [hstate]
      exact hgathers.set_mode hsize m
  · rw [hheld]
    exact hinv.keys
  · rw [hheld, hstroke]
    exact hinv.stroke

theorem press (hinv : Inv b s) (h : e.keys b ≠ []) (hp : e.pressed = true) :
    SendsChord b s e ∧ Inv b (session_step b s e) := by
  have hheld : (session_step b s e).held = (e.key, e.keycode) :: s.held := by
    rw [session_step, held_after, if_neg h, if_pos hp]
  have hcall : (call b s e).sent = [] ∧
      Gathers b ((e.keys b).length + pressed_keys b s.held) (s.stroke ++ e.keys b)
        (call b s e).state := by
    rcases call_keys (s := s) h with ⟨k, hkeys, hcall⟩ | ⟨k, l, hkeys, hstate, hsent⟩
    · rw [hcall, hkeys, hp, Nat.add_comm]
      exact hinv.gathers.press k
    · obtain ⟨hfirst, hgathers⟩ := hinv.gathers.press k
      obtain ⟨hsecond, hgathers⟩ := hgathers.press l
      rw [hstate, hsent, hkeys, hp, hfirst, hsecond, Nat.add_comm]
      rw [List.append_assoc] at hgathers
      exact ⟨rfl, hgathers⟩
  obtain ⟨hsent, hgathers⟩ := hcall
  refine ⟨⟨iff_of_false (not_not.mpr hsent) fun hlast => ?_, fun hne => absurd hsent hne⟩,
    ?_, ?_, ?_⟩
  · exact Bool.noConfusion (hp.symm.trans hlast.2.1)
  · have hstroke : (session_step b s e).stroke = s.stroke ++ e.keys b := by
      simp [session_step, hsent, hp]
    rw [hheld, hstroke, pressed_keys, List.map_cons, List.sum_cons, ← keys_eq h]
    exact hgathers
  · rw [hheld]
    intro held hmem
    rcases List.mem_cons.mp hmem with rfl | hmem
    · exact keys_eq h ▸ h
    · exact hinv.keys held hmem
  · rw [hheld]
    exact fun hnil => absurd hnil (List.cons_ne_nil _ _)

omit [DecidableEq κ] in
/-- The release of a steno key while so many others are down: nothing is sent while they show,
and the chord is sent when they do not. Of a combined key the second one can be such another
one, and the chord is sent too early. -/
theorem release_cases (hinv : Inv b s) (h : e.keys b ≠ []) (hp : e.pressed = false) {m : Nat}
    (hcount : pressed_keys b s.held = (e.keys b).length + m) :
    ((call b s e).sent = [] ∧ Gathers b m s.stroke (call b s e).state ∧ m ≠ 0 ∧
        OthersShow b s e) ∨
      ((call b s e).sent = s.send_steno_chord ∧ Gathers b 0 [] (call b s e).state ∧
        (OthersShow b s e ↔ m = 0)) ∨
      (call b s e).sent ≠ [] ∧ m ≠ 0 ∧ ¬ OthersShow b s e := by
  have hgathers := hinv.gathers
  have hrelease : ∀ f : steno, ∀ k, f.process_key (STN k) false = f.release := fun f k => rfl
  have hshow : OthersShow b s e ↔ ∀ i < (e.keys b).length,
      (e.keys b).length + m - (i + 1) = 0 ∨ Shows ((e.keys b).length + m - (i + 1)) := by
    rw [OthersShow, hcount]
    exact ⟨fun hall => hall h hp, fun hall _ _ => hall⟩
  rw [hcount] at hgathers
  rcases call_keys (s := s) h with ⟨k, hkeys, hcall⟩ | ⟨k, l, hkeys, hstate, hsent⟩
  · rw [hcall, hp, hrelease, hshow, hkeys]
    rw [hkeys, List.length_singleton] at hgathers
    rw [List.length_singleton]
    by_cases hm : Shows m
    · obtain ⟨hsent, -, hrest⟩ := hgathers.release (by omega) (by rwa [Nat.add_sub_cancel_left])
      rw [Nat.add_sub_cancel_left] at hrest
      refine .inl ⟨hsent, hrest, fun hzero => ?_, fun i hi => .inr ?_⟩
      · subst hzero
        exact Nat.lt_irrefl 0 hm.1
      · rwa [Nat.lt_one_iff.mp hi, Nat.add_sub_cancel_left]
    · obtain ⟨hsent, hrest⟩ := hgathers.send (by omega) (by rwa [Nat.add_sub_cancel_left])
      refine .inr (.inl ⟨hsent, hrest, fun hall => ?_, fun hzero i hi => .inl ?_⟩)
      · have hlast := hall 0 Nat.one_pos
        rw [Nat.add_sub_cancel_left] at hlast
        exact hlast.resolve_right hm
      · rw [Nat.lt_one_iff.mp hi, hzero]
  · rw [hp, hrelease, hrelease] at hstate hsent
    rw [hstate, hsent, hshow, hkeys]
    rw [hkeys] at hgathers
    have htwo : [k, l].length = 2 := rfl
    rw [htwo] at hgathers ⊢
    have hpred : 2 + m - 1 = m + 1 := by omega
    by_cases hnext : Shows (m + 1)
    · obtain ⟨hfirst, hsame, hrest⟩ := hgathers.release (by omega) (by rwa [hpred])
      rw [hpred] at hrest
      by_cases hm : Shows m
      · obtain ⟨hsecond, -, hrest⟩ := hrest.release (Nat.succ_pos m) (by rwa [Nat.add_sub_cancel])
        refine .inl ⟨by rw [hfirst, hsecond]; rfl, hrest, fun hzero => ?_, fun i hi => .inr ?_⟩
        · subst hzero
          exact Nat.lt_irrefl 0 hm.1
        · obtain rfl | rfl : i = 0 ∨ i = 1 := by omega
          · rwa [hpred]
          · rwa [Nat.add_sub_cancel_left]
      · obtain ⟨hsecond, hrest⟩ := hrest.send (Nat.succ_pos m) (by rwa [Nat.add_sub_cancel])
        refine .inr (.inl ⟨by rw [hfirst, hsecond, hsame]; rfl, hrest, fun hall => ?_,
          fun hzero i hi => ?_⟩)
        · have hlast := hall 1 (Nat.lt_succ_self 1)
          rw [Nat.add_sub_cancel_left] at hlast
          exact hlast.resolve_right hm
        · obtain rfl | rfl : i = 0 ∨ i = 1 := by omega
          · exact .inr (by rwa [hpred])
          · exact .inl (by rw [hzero])
    · obtain ⟨hfirst, -⟩ := hgathers.send (by omega) (by rwa [hpred])
      refine .inr (.inr ⟨?_, fun hzero => ?_, fun hall => ?_⟩)
      · rw [hfirst]
        exact List.append_ne_nil_of_left_ne_nil hgathers.written.sends.1 _
      · subst hzero
        exact hnext ⟨Nat.one_pos, by decide⟩
      · have hsecond := hall 0 Nat.two_pos
        rw [hpred] at hsecond
        exact absurd (hsecond.resolve_right hnext) (Nat.succ_ne_zero m)

theorem release (hinv : Inv b s) (hwf : WellFormed b s e) (h : e.keys b ≠ [])
    (hp : e.pressed = false) : (OthersShow b s e ↔ SendsChord b s e) ∧
      (SendsChord b s e → Inv b (session_step b s e)) := by
  have hmem : (e.key, e.keycode) ∈ s.held := by
    have hkey := hwf.1 h
    rwa [hp, if_neg Bool.false_ne_true] at hkey
  have hafter : held_after b s e = s.held.erase (e.key, e.keycode) := by
    rw [held_after, if_neg h, hp, if_neg Bool.false_ne_true]
  have hcount := pressed_keys_erase (b := b) hmem
  rw [← keys_eq h] at hcount
  have hkeys : ∀ held ∈ s.held.erase (e.key, e.keycode), steno_keys b held.2 ≠ [] :=
    fun held hheld => hinv.keys held (List.mem_of_mem_erase hheld)
  have hlast : ReleasesLast b s e ↔
      pressed_keys b (s.held.erase (e.key, e.keycode)) = 0 := by
    rw [ReleasesLast, hafter, pressed_keys_eq_zero hkeys]
    exact ⟨fun hlast => hlast.2.2, fun hnil => ⟨h, hp, hnil⟩⟩
  rw [SendsChord, hlast]
  obtain ⟨hsent, hrest, hne, hshow⟩ | ⟨hsent, hrest, hshow⟩ | ⟨hsent, hne, hshow⟩ :=
    hinv.release_cases h hp hcount
  · have hstroke : (session_step b s e).stroke = s.stroke := by
      simp [session_step, hsent, hp]
    refine ⟨iff_of_true hshow ⟨iff_of_false (not_not.mpr hsent) hne, fun hs => absurd hsent hs⟩,
      fun _ => ⟨?_, ?_, ?_⟩⟩
    · rw [hstroke, session_step, hafter]
      exact hrest
    · rw [session_step, hafter]
      exact hkeys
    · rw [session_step, hafter]
      exact fun hnil => absurd ((pressed_keys_eq_zero hkeys).mpr hnil) hne
  · obtain ⟨hne, hdecodes⟩ := hinv.gathers.written.sends
    rw [← hsent] at hne hdecodes
    have hstroke : (session_step b s e).stroke = [] := by
      simp [session_step, hne]
    rw [hshow]
    refine ⟨⟨fun hzero => ⟨iff_of_true hne hzero, fun _ => hdecodes⟩, fun hs => hs.1.mp hne⟩,
      fun hs => ⟨?_, ?_, fun _ => hstroke⟩⟩
    · rw [hstroke, session_step, hafter, hs.1.mp hne]
      exact hrest
    · rw [session_step, hafter]
      exact hkeys
  · exact ⟨iff_of_false hshow fun hs => hne (hs.1.mp hsent), fun hs => absurd (hs.1.mp hsent) hne⟩

theorem step (hinv : Inv b s) (hwf : WellFormed b s e) :
    (OthersShow b s e ↔ SendsChord b s e) ∧ (SendsChord b s e → Inv b (session_step b s e)) := by
  by_cases h : e.keys b = []
  · obtain ⟨hsends, hnext⟩ := hinv.other hwf h
    exact ⟨iff_of_true (fun hne => absurd h hne) hsends, fun _ => hnext⟩
  cases hp : e.pressed with
  | true =>
    obtain ⟨hsends, hnext⟩ := hinv.press h hp
    exact ⟨iff_of_true (fun _ hup => Bool.noConfusion (hup.symm.trans hp)) hsends, fun _ => hnext⟩
  | false => exact hinv.release hwf h hp

end Inv

/-! ## Runs -/

instance (b : build) (s : session κ) (e : event κ) : Decidable (WellFormed b s e) :=
  inferInstanceAs (Decidable (_ ∧ _))

instance (n : Nat) : Decidable (Shows n) := inferInstanceAs (Decidable (_ ∧ _))

instance (b : build) (s : session κ) (e : event κ) : Decidable (OthersShow b s e) :=
  inferInstanceAs (Decidable (_ ≠ _ → _ = _ → ∀ i < (e.keys b).length, _ ∨ _))

/-- In a run of presses and releases every chord is sent once, when its last key is released,
and is complete, exactly when at each release the counter shows the other keys that are down. -/
theorem chords_are_sent_iff (b : build) (events : List (event κ))
    (h : Along (session_step b) (WellFormed b) (start b) events) :
    Along (session_step b) (SendsChord b) (start b) events ↔
      Along (session_step b) (OthersShow b) (start b) events :=
  Along.iff_of_along (I := Inv b) (fun _ _ hinv hwf => (hinv.step hwf).1)
    (fun _ _ hinv hwf => (hinv.step hwf).2) (.start b) h

def bolt_build : build := ⟨.txbolt, true⟩

def down (key keycode : Nat) : event Nat := ⟨⟨key, .KEY_EVENT, true⟩, keycode⟩

def up (key keycode : Nat) : event Nat := ⟨⟨key, .KEY_EVENT, false⟩, keycode⟩

/-- A combined key, an ordinary one and two more steno keys, one of which TX Bolt lacks. -/
def chord_events : List (event Nat) :=
  [down 0 (QK_STENO_COMB + 1), down 1 4, down 2 (STN .FN), up 0 (QK_STENO_COMB + 1),
    down 0 (STN .E), up 1 4, up 2 (STN .FN), up 0 (STN .E)]

theorem a_chord_of_four_keys_is_sent :
    Along (session_step bolt_build) (SendsChord bolt_build) (start bolt_build) chord_events :=
  (chords_are_sent_iff bolt_build chord_events (by decide)).mpr (by decide)

def held_keys (n : Nat) : List (event Nat) := (List.range n).map (down · QK_STENO_COMB)

def holding (n : Nat) : session Nat :=
  (held_keys n).foldl (session_step bolt_build) (start bolt_build)

theorem a_chord_is_sent_while_keys_are_down :
    Along (session_step bolt_build) (WellFormed bolt_build) (start bolt_build)
        (held_keys 65 ++ [up 0 QK_STENO_COMB]) ∧
      ¬ Along (session_step bolt_build) (SendsChord bolt_build) (start bolt_build)
        (held_keys 65 ++ [up 0 QK_STENO_COMB]) := by
  refine ⟨by decide, fun h => ?_⟩
  have hlast := (Along.append.mp h).2.1.1
  have hsent : (call bolt_build (holding 65) (up 0 QK_STENO_COMB)).sent ≠ [] := by
    decide +kernel
  have hothers : held_after bolt_build (holding 65) (up 0 QK_STENO_COMB) ≠ [] := by
    decide +kernel
  exact hothers (hlast.mp hsent).2.2

end keychron_qmk.chords
