-- The OLED frame buffer, after `oled_driver.c`: characters at a cursor and bytes at an
-- index, of which the last five columns and the byte behind the buffer are too many.
import KeychronQMK.Lib.Store
import KeychronQMK.Lib.Runs
import Mathlib.Data.List.Basic

namespace keychron_qmk.oled

open bounded runs

/-! ## Displays -/

/-- The displays that `oled_driver.h` has values for. -/
inductive display
  | OLED_DISPLAY_128X64
  | OLED_DISPLAY_64X32
  | OLED_DISPLAY_64X48
  | OLED_DISPLAY_64X128
  | OLED_DISPLAY_128X128
  | OLED_DISPLAY_128X32

namespace display

def OLED_DISPLAY_WIDTH : display → Nat
  | OLED_DISPLAY_128X64 | OLED_DISPLAY_128X128 | OLED_DISPLAY_128X32 => 128
  | OLED_DISPLAY_64X32 | OLED_DISPLAY_64X48 | OLED_DISPLAY_64X128 => 64

def OLED_DISPLAY_HEIGHT : display → Nat
  | OLED_DISPLAY_64X32 | OLED_DISPLAY_128X32 => 32
  | OLED_DISPLAY_64X48 => 48
  | OLED_DISPLAY_128X64 => 64
  | OLED_DISPLAY_64X128 | OLED_DISPLAY_128X128 => 128

def OLED_BLOCK_TYPE : display → Nat
  | OLED_DISPLAY_64X32 => 8
  | OLED_DISPLAY_128X64 | OLED_DISPLAY_64X128 | OLED_DISPLAY_128X32 => 16
  | OLED_DISPLAY_64X48 | OLED_DISPLAY_128X128 => 32

def OLED_BLOCK_COUNT : display → Nat
  | OLED_DISPLAY_64X48 => 24
  | d => d.OLED_BLOCK_TYPE

variable (d : display)

def OLED_MATRIX_SIZE : Nat := d.OLED_DISPLAY_HEIGHT / 8 * d.OLED_DISPLAY_WIDTH

def OLED_BLOCK_SIZE : Nat := d.OLED_MATRIX_SIZE / d.OLED_BLOCK_COUNT

def OLED_ALL_BLOCKS_MASK : BitVec d.OLED_BLOCK_TYPE :=
  ((1 <<< (d.OLED_BLOCK_COUNT - 1) - 1) <<< 1) ||| 1

end display

inductive oled_rotation_t
  | OLED_ROTATION_0
  | OLED_ROTATION_90
  | OLED_ROTATION_180
  | OLED_ROTATION_270

def oled_rotation_t.has_90 : oled_rotation_t → Bool
  | OLED_ROTATION_0 | OLED_ROTATION_180 => false
  | OLED_ROTATION_90 | OLED_ROTATION_270 => true

def OLED_FONT_START : UInt8 := 0

def OLED_FONT_END : UInt8 := 223

def OLED_FONT_WIDTH : Nat := 6

namespace display

variable (d : display) (r : oled_rotation_t)

def oled_rotation_width : Nat :=
  if r.has_90 then d.OLED_DISPLAY_HEIGHT else d.OLED_DISPLAY_WIDTH

theorem width_le : d.oled_rotation_width r ≤ 128 := by
  cases d <;> cases r <;> decide

theorem font_fits : OLED_FONT_WIDTH ≤ d.oled_rotation_width r := by
  cases d <;> cases r <;> decide

theorem width_dvd : d.oled_rotation_width r ∣ d.OLED_MATRIX_SIZE := by
  cases d <;> cases r <;> decide

theorem size_le : d.OLED_MATRIX_SIZE ≤ 2048 := by
  cases d <;> decide

theorem size_pos : 0 < d.OLED_MATRIX_SIZE := by
  cases d <;> decide

end display

/-- A display, its rotation, and the bytes of its font. -/
structure build where
  display : display
  oled_rotation : oled_rotation_t
  font : Nat → UInt8

def build.oled_rotation_width (b : build) : Nat := b.display.oled_rotation_width b.oled_rotation

/-! ## The buffer -/

/-- The buffer, the index that the cursor points at, and the blocks to be sent. -/
structure State (d : display) where
  oled_buffer : List UInt8
  oled_cursor : Nat
  oled_dirty : BitVec d.OLED_BLOCK_TYPE

def oled_clear (d : display) : State d :=
  ⟨List.replicate d.OLED_MATRIX_SIZE 0, 0, d.OLED_ALL_BLOCKS_MASK⟩

namespace State

variable (b : build) (s : State b.display)

def mark (index : Nat) : State b.display :=
  { s with oled_dirty := s.oled_dirty ||| 1 <<< (index / b.display.OLED_BLOCK_SIZE) }

def oled_set_cursor (col line : UInt8) : State b.display :=
  let index := (line.toNat * b.oled_rotation_width + col.toNat * OLED_FONT_WIDTH) % 2 ^ 16
  { s with oled_cursor := if b.display.OLED_MATRIX_SIZE ≤ index then 0 else index }

def oled_advance_char : State b.display :=
  let nextIndex := (s.oled_cursor + OLED_FONT_WIDTH) % 2 ^ 16
  let remainingSpace := (b.oled_rotation_width - nextIndex % b.oled_rotation_width) % 2 ^ 8
  let nextIndex :=
    if remainingSpace < OLED_FONT_WIDTH then (nextIndex + remainingSpace) % 2 ^ 16 else nextIndex
  { s with oled_cursor := if b.display.OLED_MATRIX_SIZE ≤ nextIndex then 0 else nextIndex }

def InvertCharacter (oled_buffer : List UInt8) (cursor : Nat) : Option (List UInt8) :=
  (List.range OLED_FONT_WIDTH).foldlM (fun oled_buffer i => do
    let x ← read oled_buffer (cursor + i)
    write oled_buffer (cursor + i : Nat) (~~~ x)) oled_buffer

def invert_if (invert : Bool) (oled_buffer : List UInt8) (cursor : Nat) : Option (List UInt8) :=
  if invert then InvertCharacter oled_buffer cursor else some oled_buffer

/-- The bytes of a character. -/
def glyph (data : UInt8) : List UInt8 :=
  if data < OLED_FONT_START ∨ OLED_FONT_END < data then List.replicate OLED_FONT_WIDTH 0
  else (List.range OLED_FONT_WIDTH).map fun i =>
    b.font ((data - OLED_FONT_START).toNat * OLED_FONT_WIDTH + i)

def write_glyph (data : UInt8) (invert : Bool) : Option (State b.display) := do
  let oled_temp_buffer ← load s.oled_buffer s.oled_cursor OLED_FONT_WIDTH
  let oled_buffer ← store s.oled_buffer s.oled_cursor (glyph b data)
  let oled_buffer ← invert_if invert oled_buffer s.oled_cursor
  let written ← load oled_buffer s.oled_cursor OLED_FONT_WIDTH
  let s := { s with oled_buffer }
  if oled_temp_buffer = written then some (s.oled_advance_char b)
  else
    -- What is written may span two blocks.
    let s := (s.mark b s.oled_cursor).mark b (s.oled_cursor + OLED_FONT_WIDTH - 1)
    some (s.oled_advance_char b)

def oled_advance_page (clearPageRemainder : Bool) : Option (State b.display) :=
  let index := s.oled_cursor % 2 ^ 16
  let remaining := (b.oled_rotation_width - index % b.oled_rotation_width) % 2 ^ 8
  if clearPageRemainder then
    (List.range (remaining / OLED_FONT_WIDTH)).foldlM (fun s _ => s.write_glyph b 0x20 false) s
  else if b.display.OLED_MATRIX_SIZE ≤ index + remaining then some { s with oled_cursor := 0 }
  else some { s with oled_cursor := index + remaining }

def oled_write_char (data : UInt8) (invert : Bool) : Option (State b.display) :=
  if data = 0x0A then s.oled_advance_page b true
  else if data = 0x0D then s.oled_advance_page b false
  else s.write_glyph b data invert

def pan_row (d : display) (left : Bool) (oled_buffer : List UInt8) (y : Nat) :
    Option (List UInt8) :=
  let row := y * d.OLED_DISPLAY_WIDTH
  if left then
    (List.range (d.OLED_DISPLAY_WIDTH - 1)).foldlM (fun oled_buffer x =>
      (read oled_buffer (row + x + 1)).bind (write oled_buffer (row + x : Nat))) oled_buffer
  else
    (List.range (d.OLED_DISPLAY_WIDTH - 1)).reverse.foldlM (fun oled_buffer x =>
      (read oled_buffer (row + x)).bind (write oled_buffer (row + x + 1 : Nat))) oled_buffer

def oled_pan (left : Bool) : Option (State b.display) :=
  ((List.range (b.display.OLED_DISPLAY_HEIGHT / 8)).foldlM (pan_row b.display left)
    s.oled_buffer).map fun oled_buffer =>
      { s with oled_buffer, oled_dirty := b.display.OLED_ALL_BLOCKS_MASK }

/-- A byte is compared with the one at its index, and written when it is another. -/
def put (index : Nat) (data : UInt8) : Option (State b.display) := do
  let old ← read s.oled_buffer index
  if old = data then some s
  else
    let oled_buffer ← write s.oled_buffer index data
    some ({ s with oled_buffer }.mark b index)

def oled_write_raw_byte (data : UInt8) (index : UInt16) : Option (State b.display) :=
  let size := b.display.OLED_MATRIX_SIZE
  s.put b (if size < index.toNat then size else index.toNat) data

def oled_write_raw (data : Nat → UInt8) (size : UInt16) : Option (State b.display) :=
  let start := s.oled_cursor % 2 ^ 16
  let size :=
    if b.display.OLED_MATRIX_SIZE < size.toNat + start then
      (b.display.OLED_MATRIX_SIZE - start) % 2 ^ 16
    else size.toNat
  (List.range size).foldlM (fun s i => s.put b (start + i) (data i)) s

def oled_write_pixel (x y : UInt8) (on : Bool) : Option (State b.display) :=
  let index := (x.toNat + y.toNat / 8 * b.oled_rotation_width) % 2 ^ 16
  if b.oled_rotation_width ≤ x.toNat then some s
  else if b.display.OLED_MATRIX_SIZE ≤ index then some s
  else (read s.oled_buffer index).bind fun data =>
    s.put b index (if on then data ||| 1 <<< (y % 8) else data &&& ~~~ (1 <<< (y % 8)))

end State

inductive call
  | oled_set_cursor (col line : UInt8)
  | oled_write_char (data : UInt8) (invert : Bool)
  | oled_advance_page (clearPageRemainder : Bool)
  | oled_write_raw (data : Nat → UInt8) (size : UInt16)
  | oled_write_raw_byte (data : UInt8) (index : UInt16)
  | oled_write_pixel (x y : UInt8) (on : Bool)
  | oled_pan (left : Bool)

/-- A call has no outcome when it accesses a byte outside of the buffer. -/
def State.step (b : build) (s : State b.display) : call → Option (State b.display)
  | .oled_set_cursor col line => some (s.oled_set_cursor b col line)
  | .oled_write_char data invert => s.oled_write_char b data invert
  | .oled_advance_page clearPageRemainder => s.oled_advance_page b clearPageRemainder
  | .oled_write_raw data size => s.oled_write_raw b data size
  | .oled_write_raw_byte data index => s.oled_write_raw_byte b data index
  | .oled_write_pixel x y on => s.oled_write_pixel b x y on
  | .oled_pan left => s.oled_pan b left

/-! ## What each call keeps -/

namespace State

variable {b : build} {s : State b.display}

/-- The buffer has its size, and the cursor points into it. -/
structure Sound (b : build) (s : State b.display) : Prop where
  size : s.oled_buffer.length = b.display.OLED_MATRIX_SIZE
  inside : s.oled_cursor < b.display.OLED_MATRIX_SIZE

def Roomy (b : build) (s : State b.display) : Prop :=
  s.oled_cursor + OLED_FONT_WIDTH ≤ b.display.OLED_MATRIX_SIZE

variable {i : Nat}

theorem room_in_line {w n k : Nat} (hi : i < w * n) (hk : i % w + k ≤ w) : i + k ≤ w * n := by
  have hline : i / w + 1 ≤ n := Nat.div_lt_of_lt_mul hi
  calc
    i + k = w * (i / w) + (i % w + k) := by rw [← Nat.add_assoc, Nat.div_add_mod]
    _ ≤ w * (i / w) + w := Nat.add_le_add_left hk _
    _ = w * (i / w + 1) := (Nat.mul_succ _ _).symm
    _ ≤ w * n := Nat.mul_le_mul_left w hline

theorem roomy_first (b : build) : 0 + OLED_FONT_WIDTH ≤ b.display.OLED_MATRIX_SIZE := by
  exact Nat.le_trans (b.display.font_fits b.oled_rotation)
    (Nat.le_of_dvd b.display.size_pos (b.display.width_dvd b.oled_rotation))

theorem Sound.clear (b : build) : Sound b (oled_clear b.display) :=
  ⟨List.length_replicate, b.display.size_pos⟩

theorem index_eq (b : build) (col line : UInt8) :
    (line.toNat * b.oled_rotation_width + col.toNat * OLED_FONT_WIDTH) % 2 ^ 16 =
      line.toNat * b.oled_rotation_width + col.toNat * OLED_FONT_WIDTH := by
  refine Nat.mod_eq_of_lt ?_
  have hline : line.toNat * b.oled_rotation_width ≤ 255 * 128 :=
    Nat.mul_le_mul (Nat.le_of_lt_succ line.toNat_lt) (b.display.width_le b.oled_rotation)
  have hcol := col.toNat_lt
  unfold OLED_FONT_WIDTH
  omega

theorem Sound.set_cursor (h : Sound b s) (col line : UInt8) :
    Sound b (s.oled_set_cursor b col line) := by
  refine ⟨h.size, ?_⟩
  dsimp only [oled_set_cursor]
  split
  · exact b.display.size_pos
  · omega

theorem wrapped_roomy (b : build)
    (hi : i % b.oled_rotation_width + OLED_FONT_WIDTH ≤ b.oled_rotation_width) :
    (if b.display.OLED_MATRIX_SIZE ≤ i then 0 else i) + OLED_FONT_WIDTH ≤
      b.display.OLED_MATRIX_SIZE := by
  obtain ⟨n, hn⟩ := b.display.width_dvd b.oled_rotation
  split
  · exact roomy_first b
  · rename_i hle
    rw [hn] at hle ⊢
    exact room_in_line (Nat.lt_of_not_le hle) hi

theorem next_line_roomy (b : build) (i : Nat) :
    (if b.display.OLED_MATRIX_SIZE ≤ i + (b.oled_rotation_width - i % b.oled_rotation_width) then 0
      else i + (b.oled_rotation_width - i % b.oled_rotation_width)) + OLED_FONT_WIDTH ≤
      b.display.OLED_MATRIX_SIZE := by
  have hfont : OLED_FONT_WIDTH ≤ b.oled_rotation_width := b.display.font_fits b.oled_rotation
  have hmod : i % b.oled_rotation_width < b.oled_rotation_width :=
    Nat.mod_lt _ (Nat.lt_of_lt_of_le (by decide) hfont)
  have hline := Nat.div_add_mod i b.oled_rotation_width
  have hstart : i + (b.oled_rotation_width - i % b.oled_rotation_width) =
      b.oled_rotation_width * (i / b.oled_rotation_width + 1) := by
    rw [Nat.mul_succ]
    omega
  refine wrapped_roomy b ?_
  rw [hstart, Nat.mul_mod_right, Nat.zero_add]
  exact hfont

theorem Sound.move (h : Sound b s) (hroom : i + OLED_FONT_WIDTH ≤ b.display.OLED_MATRIX_SIZE) :
    Sound b { s with oled_cursor := i } ∧ Roomy b { s with oled_cursor := i } :=
  ⟨⟨h.size, Nat.lt_of_lt_of_le (Nat.lt_add_of_pos_right (by decide)) hroom⟩, hroom⟩

theorem Sound.advance_char (h : Sound b s) :
    Sound b (s.oled_advance_char b) ∧ Roomy b (s.oled_advance_char b) := by
  have hw : b.oled_rotation_width ≤ 128 := b.display.width_le b.oled_rotation
  have hfont : OLED_FONT_WIDTH ≤ b.oled_rotation_width := b.display.font_fits b.oled_rotation
  have hsize := b.display.size_le
  have hinside := h.inside
  unfold OLED_FONT_WIDTH at hfont
  have hnext : (s.oled_cursor + OLED_FONT_WIDTH) % 2 ^ 16 = s.oled_cursor + OLED_FONT_WIDTH :=
    Nat.mod_eq_of_lt (by unfold OLED_FONT_WIDTH; omega)
  have hrem : (s.oled_cursor + OLED_FONT_WIDTH) % b.oled_rotation_width < b.oled_rotation_width :=
    Nat.mod_lt _ (by omega)
  refine h.move ?_
  rw [hnext, Nat.mod_eq_of_lt (b := 2 ^ 8) (by omega)]
  split
  · rw [Nat.mod_eq_of_lt (b := 2 ^ 16) (by unfold OLED_FONT_WIDTH at *; omega)]
    exact next_line_roomy b _
  · exact wrapped_roomy b (by omega)

variable {buffer : List UInt8}

theorem read_some (hi : i < buffer.length) : ∃ x, read buffer i = some x :=
  ⟨_, List.getElem?_eq_getElem hi⟩

theorem write_some (hi : i < buffer.length) (x : UInt8) :
    ∃ buffer', write buffer (i : Nat) x = some buffer' ∧ buffer'.length = buffer.length := by
  rw [write_nat, if_pos hi]
  exact ⟨_, rfl, List.length_set⟩

theorem InvertCharacter_some {cursor : Nat} (hroom : cursor + OLED_FONT_WIDTH ≤ buffer.length) :
    ∃ buffer', InvertCharacter buffer cursor = some buffer' ∧ buffer'.length = buffer.length := by
  refine foldlM_keeps (I := fun r : List UInt8 => r.length = buffer.length)
    (fun r hr i hi => ?_) rfl
  rw [List.mem_range] at hi
  have hin : cursor + i < r.length := by omega
  obtain ⟨x, hx⟩ := read_some hin
  obtain ⟨r', hr', hlen⟩ := write_some hin (~~~ x)
  refine ⟨r', ?_, hlen.trans hr⟩
  rw [hx]
  exact hr'

theorem glyph_length (b : build) (data : UInt8) : (glyph b data).length = OLED_FONT_WIDTH := by
  unfold glyph
  split <;> simp

/-- With room for it a character is written, and the next one has room. -/
theorem Sound.write_glyph (h : Sound b s) (hroom : Roomy b s) (data : UInt8) (invert : Bool) :
    ∃ s', s.write_glyph b data invert = some s' ∧ Sound b s' ∧ Roomy b s' := by
  have hlen : s.oled_cursor + OLED_FONT_WIDTH ≤ s.oled_buffer.length := h.size ▸ hroom
  have hload := load_eq s.oled_buffer s.oled_cursor (n := OLED_FONT_WIDTH) (by decide)
  rw [if_pos hlen] at hload
  have hne : glyph b data ≠ [] := by
    intro hnil
    have := glyph_length b data
    rw [hnil] at this
    cases this
  obtain ⟨drawn, hstore, hdrawn⟩ : ∃ drawn, store s.oled_buffer s.oled_cursor (glyph b data) =
      some drawn ∧ drawn.length = s.oled_buffer.length := by
    rw [store_nat _ _ hne, glyph_length, if_pos hlen]
    refine ⟨_, rfl, ?_⟩
    simp only [List.length_append, List.length_take, glyph_length, List.length_drop]
    omega
  obtain ⟨shown, hshown, hsize⟩ : ∃ shown,
      invert_if invert drawn s.oled_cursor = some shown ∧
        shown.length = b.display.OLED_MATRIX_SIZE := by
    unfold invert_if
    split
    · obtain ⟨shown, hinv, hsame⟩ := InvertCharacter_some (hdrawn ▸ hlen)
      exact ⟨shown, hinv, hsame.trans (hdrawn.trans h.size)⟩
    · exact ⟨drawn, rfl, hdrawn.trans h.size⟩
  have hreload := load_eq shown s.oled_cursor (n := OLED_FONT_WIDTH) (by decide)
  rw [if_pos (hsize ▸ hroom)] at hreload
  unfold State.write_glyph
  simp only [hload, hstore, hshown, hreload, Option.bind_eq_bind, Option.bind_some]
  split
  · exact ⟨_, rfl, Sound.advance_char (s := { s with oled_buffer := shown }) ⟨hsize, h.inside⟩⟩
  · exact ⟨_, rfl, Sound.advance_char ⟨hsize, h.inside⟩⟩

theorem Sound.write_glyph_none (h : Sound b s) (hroom : ¬ Roomy b s) (data : UInt8)
    (invert : Bool) : s.write_glyph b data invert = none := by
  have hload := load_eq s.oled_buffer s.oled_cursor (n := OLED_FONT_WIDTH) (by decide)
  unfold Roomy at hroom
  rw [h.size, if_neg hroom] at hload
  unfold State.write_glyph
  rw [hload, Option.bind_eq_bind, Option.bind_none]

/-! ## The other calls -/

theorem Sound.put (h : Sound b s) (hi : i < b.display.OLED_MATRIX_SIZE) (data : UInt8) :
    ∃ s', s.put b i data = some s' ∧ Sound b s' ∧ s'.oled_cursor = s.oled_cursor := by
  rw [← h.size] at hi
  obtain ⟨old, hold⟩ := read_some hi
  obtain ⟨buffer, hbuffer, hlen⟩ := write_some hi data
  unfold State.put
  simp only [hold, hbuffer, Option.bind_eq_bind, Option.bind_some]
  split
  · exact ⟨s, rfl, h, rfl⟩
  · exact ⟨_, rfl, ⟨hlen.trans h.size, h.inside⟩, rfl⟩

theorem Sound.put_none (h : Sound b s) (hi : ¬ i < b.display.OLED_MATRIX_SIZE) (data : UInt8) :
    s.put b i data = none := by
  have hread : read s.oled_buffer i = none := List.getElem?_eq_none (by rw [h.size]; omega)
  unfold State.put
  rw [hread, Option.bind_eq_bind, Option.bind_none]

theorem Sound.write_raw (h : Sound b s) (data : Nat → UInt8) (size : UInt16) :
    ∃ s', s.oled_write_raw b data size = some s' ∧ Sound b s' ∧ s'.oled_cursor = s.oled_cursor := by
  have hsize := b.display.size_le
  have hinside := h.inside
  refine foldlM_keeps (I := fun r => Sound b r ∧ r.oled_cursor = s.oled_cursor)
    (fun r hr i hi => ?_) ⟨h, rfl⟩
  have hstart : s.oled_cursor % 2 ^ 16 = s.oled_cursor := Nat.mod_eq_of_lt (by omega)
  rw [List.mem_range, hstart] at hi
  rw [hstart]
  have hput : s.oled_cursor + i < b.display.OLED_MATRIX_SIZE := by
    split at hi
    · have := Nat.mod_le (b.display.OLED_MATRIX_SIZE - s.oled_cursor) (2 ^ 16)
      omega
    · omega
  obtain ⟨r', hr', hsound, hcursor⟩ := hr.1.put hput (data i)
  exact ⟨r', hr', hsound, hcursor.trans hr.2⟩

theorem Sound.write_pixel (h : Sound b s) (x y : UInt8) (on : Bool) :
    ∃ s', s.oled_write_pixel b x y on = some s' ∧ Sound b s' ∧
      s'.oled_cursor = s.oled_cursor := by
  unfold oled_write_pixel
  dsimp only
  split
  · exact ⟨s, rfl, h, rfl⟩
  · split
    · exact ⟨s, rfl, h, rfl⟩
    · rename_i hin
      rw [Nat.not_le] at hin
      obtain ⟨old, hold⟩ := read_some (h.size.symm ▸ hin)
      rw [hold, Option.bind_some]
      exact h.put hin _

theorem move_some (buffer : List UInt8) {j : Nat} (hi : i < buffer.length)
    (hj : j < buffer.length) :
    ∃ buffer', (read buffer i).bind (write buffer (j : Nat)) =
      some buffer' ∧ buffer'.length = buffer.length := by
  obtain ⟨x, hx⟩ := read_some hi
  rw [hx, Option.bind_some]
  exact write_some hj x

theorem pan_row_some (d : display) (left : Bool) (hsize : buffer.length = d.OLED_MATRIX_SIZE)
    {y : Nat} (hy : y < d.OLED_DISPLAY_HEIGHT / 8) :
    ∃ buffer', pan_row d left buffer y = some buffer' ∧ buffer'.length = d.OLED_MATRIX_SIZE := by
  have hrow : y * d.OLED_DISPLAY_WIDTH + d.OLED_DISPLAY_WIDTH ≤ d.OLED_MATRIX_SIZE :=
    Nat.succ_mul y _ ▸ Nat.mul_le_mul_right _ hy
  unfold pan_row
  split
  · refine foldlM_keeps (fun r hr x hx => ?_) hsize
    rw [List.mem_range] at hx
    obtain ⟨r', hr', hlen⟩ := move_some r (i := y * d.OLED_DISPLAY_WIDTH + x + 1)
      (j := y * d.OLED_DISPLAY_WIDTH + x) (by omega) (by omega)
    exact ⟨r', hr', hlen.trans hr⟩
  · refine foldlM_keeps (fun r hr x hx => ?_) hsize
    rw [List.mem_reverse, List.mem_range] at hx
    obtain ⟨r', hr', hlen⟩ := move_some r (i := y * d.OLED_DISPLAY_WIDTH + x)
      (j := y * d.OLED_DISPLAY_WIDTH + x + 1) (by omega) (by omega)
    exact ⟨r', hr', hlen.trans hr⟩

theorem Sound.pan (h : Sound b s) (left : Bool) :
    ∃ s', s.oled_pan b left = some s' ∧ Sound b s' ∧ s'.oled_cursor = s.oled_cursor := by
  obtain ⟨buffer, hbuffer, hsize⟩ := foldlM_keeps (f := pan_row b.display left)
    (I := fun r => r.length = b.display.OLED_MATRIX_SIZE)
    (fun r hr y hy => pan_row_some b.display left hr (List.mem_range.mp hy)) h.size
  unfold oled_pan
  rw [hbuffer]
  exact ⟨_, rfl, ⟨hsize, h.inside⟩, rfl⟩

theorem Sound.next_page (h : Sound b s) :
    ∃ s', s.oled_advance_page b false = some s' ∧ Sound b s' ∧ Roomy b s' := by
  have hw : b.oled_rotation_width ≤ 128 := b.display.width_le b.oled_rotation
  have hsize := b.display.size_le
  have hinside := h.inside
  have hcursor : s.oled_cursor % 2 ^ 16 = s.oled_cursor := Nat.mod_eq_of_lt (by omega)
  refine ⟨_, ?_, h.move (next_line_roomy b s.oled_cursor)⟩
  unfold oled_advance_page
  dsimp only
  rw [hcursor, Nat.mod_eq_of_lt (b := 2 ^ 8) (by omega), if_neg (by simp)]
  split <;> rfl

theorem Sound.rest_of_page (h : Sound b s) :
    ∃ s', s.oled_advance_page b true = some s' ∧ Sound b s' ∧ (Roomy b s' ↔ Roomy b s) := by
  have hsize := b.display.size_le
  have hinside := h.inside
  have hcursor : s.oled_cursor % 2 ^ 16 = s.oled_cursor := Nat.mod_eq_of_lt (by omega)
  unfold oled_advance_page
  rw [if_pos rfl, hcursor]
  by_cases hroom : Roomy b s
  · obtain ⟨s', hs', hsound, hroom'⟩ := foldlM_keeps (I := fun r => Sound b r ∧ Roomy b r)
      (f := fun r (_ : Nat) => r.write_glyph b 0x20 false)
      (fun r hr _ _ => hr.1.write_glyph hr.2 0x20 false) ⟨h, hroom⟩
    exact ⟨s', hs', hsound, iff_of_true hroom' hroom⟩
  · have hshort : (b.oled_rotation_width - s.oled_cursor % b.oled_rotation_width) % 2 ^ 8 /
        OLED_FONT_WIDTH = 0 := by
      obtain ⟨n, hn⟩ := b.display.width_dvd b.oled_rotation
      have hnone : ¬ s.oled_cursor % b.oled_rotation_width + OLED_FONT_WIDTH ≤
          b.oled_rotation_width := by
        intro hline
        refine hroom ?_
        unfold Roomy
        rw [hn] at hinside ⊢
        exact room_in_line hinside hline
      have hfont : 0 < OLED_FONT_WIDTH := by decide
      exact Nat.div_eq_of_lt (by omega)
    rw [hshort]
    exact ⟨s, rfl, h, Iff.rfl⟩

end State

/-! ## Runs -/

/-- Whether the cursor was set to one of the last columns of the buffer, which have no
room for a character, and has not been moved since. -/
def tight_after (b : build) (tight : Bool) : call → Bool
  | .oled_set_cursor col line =>
    let index := line.toNat * b.oled_rotation_width + col.toNat * OLED_FONT_WIDTH
    index < b.display.OLED_MATRIX_SIZE && b.display.OLED_MATRIX_SIZE < index + OLED_FONT_WIDTH
  | .oled_write_char data _ => tight && data = 0x0A
  | .oled_advance_page clearPageRemainder => tight && clearPageRemainder
  | _ => tight

/-- No character is drawn where the cursor was set without room for it, and the index of
a byte is one of the buffer. -/
def Fits (b : build) (tight : Bool) : call → Prop
  | .oled_write_char data _ => data = 0x0A ∨ data = 0x0D ∨ tight = false
  | .oled_write_raw_byte _ index => index.toNat < b.display.OLED_MATRIX_SIZE
  | _ => True

namespace State

variable {b : build} {s : State b.display} {tight : Bool}

/-- The buffer and the cursor are sound, and the cursor has room unless it was set so. -/
def Tracked (b : build) (s : State b.display) (tight : Bool) : Prop :=
  Sound b s ∧ (Roomy b s ↔ tight = false)

theorem Tracked.step_some (h : Tracked b s tight) {x : call} (hx : Fits b tight x) :
    ∃ s', s.step b x = some s' ∧ Tracked b s' (tight_after b tight x) := by
  obtain ⟨hsound, htight⟩ := h
  have hsame : ∀ {s' : State b.display}, s'.oled_cursor = s.oled_cursor →
      (Roomy b s' ↔ tight = false) := by
    intro s' hs'
    unfold Roomy at htight ⊢
    rw [hs']
    exact htight
  have hrest : ∃ s', s.oled_advance_page b true = some s' ∧ Tracked b s' tight := by
    obtain ⟨s', hs', hkept, hroom⟩ := hsound.rest_of_page
    exact ⟨s', hs', hkept, hroom.trans htight⟩
  have hnext : ∃ s', s.oled_advance_page b false = some s' ∧ Tracked b s' false := by
    obtain ⟨s', hs', hkept, hroom⟩ := hsound.next_page
    exact ⟨s', hs', hkept, iff_of_true hroom rfl⟩
  cases x with
  | oled_set_cursor col line =>
    refine ⟨_, rfl, hsound.set_cursor col line, ?_⟩
    have hpos := roomy_first b
    rw [Roomy, oled_set_cursor, tight_after, index_eq]
    split
    · rename_i hout
      simpa [Nat.not_lt_of_le hout] using hpos
    · rename_i hin
      simp [Nat.lt_of_not_le hin]
  | oled_write_char data invert =>
    unfold step oled_write_char tight_after
    by_cases hnewline : data = 0x0A
    · simpa [hnewline] using hrest
    · by_cases hreturn : data = 0x0D
      · simpa [hreturn] using hnext
      · have hroom : Roomy b s := htight.mpr ((hx.resolve_left hnewline).resolve_left hreturn)
        obtain ⟨s', hs', hkept, hroom'⟩ := hsound.write_glyph hroom data invert
        simpa [hnewline, hreturn] using ⟨s', hs', hkept, iff_of_true hroom' rfl⟩
  | oled_advance_page clearPageRemainder =>
    cases clearPageRemainder with
    | true => simpa [step, tight_after] using hrest
    | false => simpa [step, tight_after] using hnext
  | oled_write_raw data size =>
    obtain ⟨s', hs', hkept, hcursor⟩ := hsound.write_raw data size
    exact ⟨s', hs', hkept, hsame hcursor⟩
  | oled_write_raw_byte data index =>
    obtain ⟨s', hs', hkept, hcursor⟩ := hsound.put hx data
    refine ⟨s', ?_, hkept, hsame hcursor⟩
    change s.put b (if b.display.OLED_MATRIX_SIZE < index.toNat then _ else _) data = some s'
    rwa [if_neg (Nat.lt_asymm hx)]
  | oled_write_pixel x y on =>
    obtain ⟨s', hs', hkept, hcursor⟩ := hsound.write_pixel x y on
    exact ⟨s', hs', hkept, hsame hcursor⟩
  | oled_pan left =>
    obtain ⟨s', hs', hkept, hcursor⟩ := hsound.pan left
    exact ⟨s', hs', hkept, hsame hcursor⟩

theorem Tracked.clear (b : build) : Tracked b (oled_clear b.display) false :=
  ⟨.clear b, iff_of_true (roomy_first b) rfl⟩

theorem Tracked.step_none (h : Tracked b s tight) {x : call} (hx : ¬ Fits b tight x) :
    s.step b x = none := by
  obtain ⟨hsound, htight⟩ := h
  cases x with
  | oled_write_char data invert =>
    obtain ⟨hnewline, hx⟩ := not_or.mp hx
    obtain ⟨hreturn, hfull⟩ := not_or.mp hx
    change s.oled_write_char b data invert = none
    rw [oled_write_char, if_neg hnewline, if_neg hreturn]
    exact hsound.write_glyph_none (fun hroom => hfull (htight.mp hroom)) data invert
  | oled_write_raw_byte data index =>
    refine hsound.put_none ?_ data
    split
    · exact Nat.lt_irrefl _
    · exact hx
  | oled_set_cursor | oled_advance_page | oled_write_raw | oled_write_pixel | oled_pan =>
    exact absurd trivial hx

end State

/-- In every run of the calls all that is accessed lies in the buffer, exactly when no
character is drawn where the cursor was set without room for it, and no byte is written
at an index behind the buffer. -/
theorem calls_stay_in_the_buffer_while_they_fit (b : build) (calls : List call) :
    (calls.foldlM (State.step b) (oled_clear b.display)).isSome ↔
      Along (tight_after b) (Fits b) false calls :=
  foldlM_isSome_iff (f := State.step b) (R := State.Tracked b) (C := Fits b)
    (fun _ _ _ h hx => h.step_some hx) (fun _ _ _ h hx => h.step_none hx) (.clear b)

/-- The display that is used without a definition of another. -/
def default_build : build := ⟨.OLED_DISPLAY_128X32, .OLED_ROTATION_0, fun _ => 0⟩

/-- In the last two bytes of the last line a letter is written, and a byte behind them. -/
theorem a_letter_and_a_byte_behind_the_buffer :
    [call.oled_set_cursor 21 3, .oled_write_char 0x41 false].foldlM (State.step default_build)
        (oled_clear default_build.display) = none ∧
      [call.oled_write_raw_byte 1 512].foldlM (State.step default_build)
        (oled_clear default_build.display) = none := by
  have hclear := State.Tracked.clear default_build
  obtain ⟨s, hset, htight⟩ := hclear.step_some (x := .oled_set_cursor 21 3) trivial
  have hletter := htight.step_none (x := .oled_write_char 0x41 false) (by unfold Fits; decide)
  have hbyte := hclear.step_none (x := .oled_write_raw_byte 1 512) (by unfold Fits; decide)
  constructor
  · rw [List.foldlM_cons, hset, Option.bind_eq_bind, Option.bind_some, List.foldlM_cons, hletter]
    rfl
  · rw [List.foldlM_cons, hbyte]
    rfl

end keychron_qmk.oled
