-- The key functions of `tmk_core/protocol/report.c`, with NKRO_ENABLE and
-- APDAPTIVE_NKRO_ENABLE: the report of six keys, the NKRO bitmap, and the
-- counters over both.
import KeychronQMK.Lib.Bitmap
import Mathlib.Data.List.FinRange
import Mathlib.Data.Fintype.Fin

namespace keychron_qmk.report

open bitmap

def KEYBOARD_REPORT_KEYS : Nat := 6

def NKRO_REPORT_BITS : Nat := 30

/-- The dirty bits of `kb_report_changed`. -/
def KB_RPT_MASK (n : UInt8) : UInt8 := 1 <<< n

def KB_RPT_STD : UInt8 := KB_RPT_MASK 0

def KB_RPT_NKRO : UInt8 := KB_RPT_MASK 1

/-- `keyboard_report->keys`, `nkro_report->bits`, and the dirty bits and the
counters of `action_util.c`. -/
structure Report where
  keys : Fin KEYBOARD_REPORT_KEYS → UInt8
  bits : Fin NKRO_REPORT_BITS → UInt8
  kb_report_changed : UInt8
  kb_keys_count : UInt8
  nkro_bit_count : UInt8
  deriving DecidableEq

/-- No key, nothing changed. -/
def Report.empty : Report := ⟨fun _ => 0, fun _ => 0, 0, 0, 0⟩

def has_anykey (r : Report) : UInt8 := r.kb_keys_count + r.nkro_bit_count

def is_key_pressed (host_can_send_nkro : Bool) (key : UInt8) (r : Report) : Bool :=
  if key = 0 then false
  else if host_can_send_nkro ∧ r.nkro_bit_count ≠ 0 ∧
      ∃ h : (key >>> 3).toNat < NKRO_REPORT_BITS, r.bits ⟨_, h⟩ &&& bitOf key ≠ 0 then true
  else ∃ i, r.keys i = key

/-- The loop looks for the code, and remembers the first empty slot. -/
def add_key_byte (code : UInt8) (r : Report) : Report :=
  if ∃ i, r.keys i = code then r
  else
    match (List.finRange KEYBOARD_REPORT_KEYS).find? fun i => r.keys i = 0 with
    | some empty =>
      { r with
        keys := Function.update r.keys empty code
        kb_report_changed := r.kb_report_changed ||| KB_RPT_STD
        kb_keys_count := r.kb_keys_count + 1 }
    | none => r

def del_key_slot (code : UInt8) (r : Report) (i : Fin KEYBOARD_REPORT_KEYS) : Report :=
  if r.keys i = code then
    { r with
      keys := Function.update r.keys i 0
      kb_report_changed := r.kb_report_changed ||| KB_RPT_STD
      kb_keys_count := r.kb_keys_count - 1 }
  else r

def del_key_byte (code : UInt8) (r : Report) : Report :=
  (List.finRange KEYBOARD_REPORT_KEYS).foldl (del_key_slot code) r

def add_key_bit (code : UInt8) (r : Report) : Report :=
  if h : (code >>> 3).toNat < NKRO_REPORT_BITS then
    let bits := Function.update r.bits ⟨_, h⟩ (r.bits ⟨_, h⟩ ||| bitOf code)
    if r.bits ⟨_, h⟩ &&& bitOf code = 0 then
      { r with
        bits := bits
        kb_report_changed := r.kb_report_changed ||| KB_RPT_NKRO
        nkro_bit_count := r.nkro_bit_count + 1 }
    else { r with bits := bits }
  else r

def del_key_bit (code : UInt8) (r : Report) : Bool × Report :=
  if h : (code >>> 3).toNat < NKRO_REPORT_BITS then
    let bits := Function.update r.bits ⟨_, h⟩ (r.bits ⟨_, h⟩ &&& ~~~(bitOf code))
    if r.bits ⟨_, h⟩ &&& bitOf code ≠ 0 then
      (true, { r with
        bits := bits
        kb_report_changed := r.kb_report_changed ||| KB_RPT_NKRO
        nkro_bit_count := r.nkro_bit_count - 1 })
    else (false, { r with bits := bits })
  else (false, r)

def add_key_to_report (host_can_send_nkro : Bool) (key : UInt8) (r : Report) : Report :=
  if host_can_send_nkro ∧ r.kb_keys_count = KEYBOARD_REPORT_KEYS.toUInt8 then add_key_bit key r
  else add_key_byte key r

def del_key_from_report (host_can_send_nkro : Bool) (key : UInt8) (r : Report) : Report :=
  if host_can_send_nkro ∧ r.nkro_bit_count ≠ 0 then
    match del_key_bit key r with
    | (true, r) => r
    | (false, r) => del_key_byte key r
  else del_key_byte key r

def clear_keys_from_report (host_can_send_nkro : Bool) (r : Report) : Report :=
  let r := if host_can_send_nkro then
      { r with bits := fun _ => 0, kb_report_changed := r.kb_report_changed ||| KB_RPT_NKRO }
    else r
  { r with keys := fun _ => 0, kb_report_changed := r.kb_report_changed ||| KB_RPT_STD }

/-! ## What the functions do -/

def Report.hasBit (r : Report) (key : UInt8) : Bool := test r.bits key.toNat

theorem byte_index (code : UInt8) : (code >>> 3).toNat = code.toNat / 8 := by
  simp [UInt8.toNat_shiftRight, Nat.shiftRight_eq_div_pow]

theorem and_bitOf_hasBit (r : Report) (code : UInt8) (h : (code >>> 3).toNat < NKRO_REPORT_BITS) :
    r.bits ⟨_, h⟩ &&& bitOf code = 0 ↔ r.hasBit code = false :=
  and_bitOf_test r.bits (byte_index code)

theorem hasBit_lt {r : Report} {code : UInt8} (h : r.hasBit code = true) :
    (code >>> 3).toNat < NKRO_REPORT_BITS := by
  have := test_lt h
  rw [byte_index]
  omega

theorem add_key_byte_cases (code : UInt8) (r : Report) :
    (add_key_byte code r = r ∧ ((∃ i, r.keys i = code) ∨ ∀ i, r.keys i ≠ 0)) ∨
    ∃ e, r.keys e = 0 ∧ (∀ i, r.keys i ≠ code) ∧ add_key_byte code r =
      { r with
        keys := Function.update r.keys e code
        kb_report_changed := r.kb_report_changed ||| KB_RPT_STD
        kb_keys_count := r.kb_keys_count + 1 } := by
  unfold add_key_byte
  split
  · rename_i h
    exact .inl ⟨rfl, .inl h⟩
  · rename_i h
    split
    · rename_i e he
      have hz := List.find?_some he
      exact .inr ⟨e, by simpa using hz, by simpa using h, rfl⟩
    · rename_i he
      refine .inl ⟨rfl, .inr fun i => ?_⟩
      simpa using List.find?_eq_none.mp he i (List.mem_finRange i)

theorem del_key_slot_keys (code : UInt8) (r : Report) (i j : Fin KEYBOARD_REPORT_KEYS) :
    (del_key_slot code r j).keys i = if i = j ∧ r.keys i = code then 0 else r.keys i := by
  unfold del_key_slot
  by_cases hi : i = j
  · subst hi
    split <;> simp_all
  · split <;> simp [hi]

theorem foldl_del_key_slot_keys (code : UInt8) (l : List (Fin KEYBOARD_REPORT_KEYS)) (r : Report)
    (i : Fin KEYBOARD_REPORT_KEYS) : (l.foldl (del_key_slot code) r).keys i =
      if i ∈ l ∧ r.keys i = code then 0 else r.keys i := by
  induction l generalizing r with
  | nil => simp
  | cons j l ih =>
    rw [List.foldl_cons, ih]
    simp only [del_key_slot_keys, List.mem_cons]
    grind

theorem del_key_byte_keys (code : UInt8) (r : Report) (i : Fin KEYBOARD_REPORT_KEYS) :
    (del_key_byte code r).keys i = if r.keys i = code then 0 else r.keys i := by
  unfold del_key_byte
  rw [foldl_del_key_slot_keys]
  simp

theorem del_key_byte_nkro (code : UInt8) (r : Report) :
    (del_key_byte code r).bits = r.bits ∧
      (del_key_byte code r).nkro_bit_count = r.nkro_bit_count := by
  unfold del_key_byte
  generalize List.finRange KEYBOARD_REPORT_KEYS = l
  induction l generalizing r with
  | nil => exact ⟨rfl, rfl⟩
  | cons j l ih =>
    obtain ⟨h1, h2⟩ := ih (del_key_slot code r j)
    rw [List.foldl_cons, h1, h2]
    unfold del_key_slot
    split <;> exact ⟨rfl, rfl⟩

theorem add_key_bit_cases (code : UInt8) (r : Report) :
    add_key_bit code r = r ∨ ∃ h : (code >>> 3).toNat < NKRO_REPORT_BITS,
      r.hasBit code = false ∧ add_key_bit code r =
        { r with
          bits := Function.update r.bits ⟨_, h⟩ (r.bits ⟨_, h⟩ ||| bitOf code)
          kb_report_changed := r.kb_report_changed ||| KB_RPT_NKRO
          nkro_bit_count := r.nkro_bit_count + 1 } := by
  unfold add_key_bit
  split
  · rename_i hlt
    split
    · rename_i hclear
      exact .inr ⟨hlt, (and_bitOf_hasBit r code hlt).mp hclear, rfl⟩
    · rename_i hset
      rw [or_bitOf_self hset, Function.update_eq_self]
      exact .inl rfl
  · exact .inl rfl

theorem del_key_bit_cases (code : UInt8) (r : Report) :
    del_key_bit code r = (false, r) ∨ ∃ h : (code >>> 3).toNat < NKRO_REPORT_BITS,
      r.hasBit code = true ∧ del_key_bit code r = (true,
        { r with
          bits := Function.update r.bits ⟨_, h⟩ (r.bits ⟨_, h⟩ &&& ~~~(bitOf code))
          kb_report_changed := r.kb_report_changed ||| KB_RPT_NKRO
          nkro_bit_count := r.nkro_bit_count - 1 }) := by
  unfold del_key_bit
  split
  · rename_i hlt
    split
    · rename_i hset
      exact .inr ⟨hlt, by simpa using mt (and_bitOf_hasBit r code hlt).mpr hset, rfl⟩
    · rename_i hclear
      rw [and_not_eq_left (not_not.mp hclear), Function.update_eq_self]
      exact .inl rfl
  · exact .inl rfl

theorem add_key_bit_hasBit {code : UInt8} (h : (code >>> 3).toNat < NKRO_REPORT_BITS) (r : Report)
    (k : UInt8) : (add_key_bit code r).hasBit k = (r.hasBit k || decide (code = k)) ∧
      (add_key_bit code r).keys = r.keys := by
  have hset := test_set r.bits (i := ⟨_, h⟩) (k := code) (byte_index code) k.toNat
  unfold add_key_bit
  rw [dif_pos h]
  simp only [UInt8.toNat_inj] at hset
  split <;> exact ⟨hset, rfl⟩

theorem del_key_bit_hasBit {code : UInt8} (h : (code >>> 3).toNat < NKRO_REPORT_BITS) (r : Report)
    (k : UInt8) : (del_key_bit code r).2.hasBit k = (r.hasBit k && !decide (code = k)) ∧
      (del_key_bit code r).2.keys = r.keys ∧ (del_key_bit code r).1 = r.hasBit code := by
  have hclear := test_clear r.bits (i := ⟨_, h⟩) (k := code) (byte_index code) k.toNat
  have hzero := and_bitOf_hasBit r code h
  unfold del_key_bit
  rw [dif_pos h]
  simp only [UInt8.toNat_inj] at hclear
  split
  · rename_i hset
    exact ⟨hclear, rfl, (Bool.not_eq_false _ ▸ mt hzero.mpr hset).symm⟩
  · rename_i hset
    exact ⟨hclear, rfl, (hzero.mp (not_not.mp hset)).symm⟩

/-! ## Calls -/

/-- A call of the keyboard code. The key that it names is valid. -/
inductive Op (valid : UInt8 → Prop) where
  | add_key_to_report (key : UInt8) (h : valid key)
  | del_key_from_report (key : UInt8) (h : valid key)
  | clear_keys_from_report

/-- A call, and what `host_can_send_nkro` answers while it runs. -/
structure Call (valid : UInt8 → Prop) where
  host_can_send_nkro : Bool
  op : Op valid

def step {valid : UInt8 → Prop} (r : Report) (c : Call valid) : Report :=
  match c.op with
  | .add_key_to_report key _ => add_key_to_report c.host_can_send_nkro key r
  | .del_key_from_report key _ => del_key_from_report c.host_can_send_nkro key r
  | .clear_keys_from_report => clear_keys_from_report c.host_can_send_nkro r

end keychron_qmk.report
