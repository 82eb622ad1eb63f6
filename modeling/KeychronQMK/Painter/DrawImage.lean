-- Loading and drawing images (`quantum/painter/qp_draw_image.c`) with the
-- palettes of `qp_draw_core.c` and the appenders of `qp_draw_codec.c`. What
-- must not happen ends a drawing as a fault.
import KeychronQMK.Painter.Qgf

namespace keychron_qmk.painter

/-! ## The build and the display -/

/-- The build options, with the static assertion on the pixel buffer. -/
structure Build where
  SUPPORTS_256_PALETTE : Bool
  SUPPORTS_NATIVE_COLORS : Bool
  PIXDATA_BUFFER_SIZE : Nat
  size_pos : 0 < PIXDATA_BUFFER_SIZE
  size_mod : PIXDATA_BUFFER_SIZE % 16 = 0

/-- The display, with what the calls of its driver return: `append` and
`pixdata` by the number of the pixels or bytes that were appended before. -/
structure painter_driver_t where
  native_bits_per_pixel : Nat
  bits_pos : 0 < native_bits_per_pixel
  bits_le : native_bits_per_pixel ≤ 128
  palette_convert : Bool
  comms_start : Bool
  viewport : Bool
  append : Nat → Bool
  pixdata : Nat → Bool

/-- What must not happen in a drawing. -/
inductive Fault where
  | division_by_zero
  | lookup_table
  | pixel_buffer
  | endless
  deriving DecidableEq

structure hsv888 where
  h : UInt8
  s : UInt8
  v : UInt8
  deriving DecidableEq

/-! ## Images -/

structure qgf_image_handle_t where
  width : Nat
  height : Nat
  frame_count : Nat
  stream : qp_memory_stream_t

/-- `qp_load_image_mem` with a free slot. A length of the type `int32_t` that is
negative leaves nothing to read. -/
def qp_load_image_mem (buffer : List UInt8) : Option qgf_image_handle_t :=
  let (total, s) := qgf_get_total_size (qp_make_memory_stream (buffer.take 23))
  let length := if total < 0x80000000 then total else 0
  let s := { s with buffer := buffer.take length, position := 0 }
  match qgf_validate_stream s with
  | (false, _) => none
  | (true, s) =>
    match qgf_read_graphics_descriptor s with
    | (none, s) => some ⟨0, 0, 0, s⟩
    | (some desc, s) => some ⟨desc.image_width, desc.image_height, desc.frame_count, s⟩

/-! ## Palettes -/

section

variable (build : Build)

/-- The entries of `qp_internal_global_pixel_lookup_table`. -/
def Build.table_size : Nat := if build.SUPPORTS_256_PALETTE then 256 else 16

def qp_internal_bpp_capable (bits_per_pixel : Nat) : Bool :=
  if !build.SUPPORTS_NATIVE_COLORS then
    if !build.SUPPORTS_256_PALETTE && 4 < bits_per_pixel then false
    else if 8 < bits_per_pixel then false
    else true
  else true

def write_table (table : List hsv888) (i : Nat) (entry : hsv888) : Except Fault (List hsv888) :=
  if i < table.length then .ok (table.set i entry) else .error .lookup_table

/-- One component between two colors, with the division of C. -/
def interpolate (fg bg : Int) (i steps : Nat) : UInt8 :=
  UInt8.ofInt (((fg - bg) * i).tdiv ((steps : Int) - 1) + bg)

def nearest_hue (hue_fg hue_bg : Int) : Int :=
  if hue_fg - hue_bg ≥ 128 then hue_bg + 256
  else if hue_fg - hue_bg ≤ -128 then hue_bg - 256
  else hue_bg

def interpolate_entries (fg bg : hsv888) (steps : Nat) :
    Nat → Nat → List hsv888 → Except Fault (List hsv888)
  | 0, _, table => .ok table
  | more + 1, i, table =>
    if steps = 1 then .error .division_by_zero
    else
      let entry : hsv888 :=
        { h := interpolate fg.h.toNat (nearest_hue fg.h.toNat bg.h.toNat) i steps
          s := interpolate fg.s.toNat bg.s.toNat i steps
          v := interpolate fg.v.toNat bg.v.toNat i steps }
      (write_table table i entry).bind (interpolate_entries fg bg steps more (i + 1))

def qp_internal_interpolate_palette (fg bg : hsv888) (steps : Nat) (table : List hsv888) :
    Except Fault (List hsv888) :=
  interpolate_entries fg bg steps steps 0 table

/-- The loop over the palette entries of a file. -/
def load_entries : Nat → Nat → List hsv888 → qp_memory_stream_t →
    Except Fault (Bool × List hsv888 × qp_memory_stream_t)
  | 0, _, table, s => .ok (true, table, s)
  | more + 1, i, table, s =>
    match qp_stream_read 3 s with
    | (none, s) => .ok (false, table, s)
    | (some block, s) =>
      (write_table table i ⟨block.getD 0 0, block.getD 1 0, block.getD 2 0⟩).bind fun table =>
        load_entries more (i + 1) table s

def qp_internal_load_qgf_palette (s : qp_memory_stream_t) (bpp : Nat) (table : List hsv888) :
    Except Fault (Bool × List hsv888 × qp_memory_stream_t) :=
  match qp_stream_read 5 s with
  | (none, s) => .ok (false, table, s)
  | (some _, s) => load_entries (2 ^ bpp) 0 table s

/-! ## The frame -/

variable (driver : painter_driver_t)

def prepare_palette (info : qgf_frame_info_t) (fg bg : hsv888) (table : List hsv888)
    (s : qp_memory_stream_t) : Except Fault (Bool × List hsv888 × qp_memory_stream_t) :=
  if info.format.has_palette then
    (qp_internal_load_qgf_palette s info.format.bpp table).bind fun (loaded, table, s) =>
      .ok (loaded && driver.palette_convert, table, s)
  else if info.format.bpp ≤ 8 then
    (qp_internal_interpolate_palette fg bg (2 ^ info.format.bpp) table).bind fun table =>
      .ok (driver.palette_convert, table, s)
  else .ok (true, table, s)

/-- The blocks between the palette and the pixels. -/
def read_delta_and_data (info : qgf_frame_info_t) (s : qp_memory_stream_t) :
    Option qgf_frame_info_t × qp_memory_stream_t :=
  let (info, s) : Option qgf_frame_info_t × qp_memory_stream_t :=
    if info.is_delta then
      match qp_stream_read 13 s with
      | (none, s) => (none, s)
      | (some block, s) =>
        let delta := delta_descriptor block
        (some { info with
          left := delta.left
          top := delta.top
          right := delta.right
          bottom := delta.bottom }, s)
    else (some info, s)
  match info with
  | none => (none, s)
  | some info =>
    match qp_stream_read 5 s with
    | (none, s) => (none, s)
    | (some _, s) => (some info, s)

def qp_drawimage_prepare_frame_for_stream_read (image : qgf_image_handle_t) (frame_number : Nat)
    (fg bg : hsv888) (table : List hsv888) :
    Except Fault (Option qgf_frame_info_t × List hsv888 × qp_memory_stream_t) :=
  match qp_stream_read 11 (qgf_seek_to_frame_descriptor image.stream frame_number) with
  | (none, s) => .ok (none, table, s)
  | (some block, s) =>
    let info := qgf_parse_frame_descriptor (frame_descriptor block)
    if !qp_internal_bpp_capable build info.format.bpp then .ok (none, table, s)
    else
      (prepare_palette driver info fg bg table s).bind fun (ready, table, s) =>
        if !ready then .ok (none, table, s)
        else
          let (info, s) := read_delta_and_data info s
          .ok (info, table, s)

/-! ## Appenders -/

def qp_internal_num_pixels_in_buffer : Nat :=
  build.PIXDATA_BUFFER_SIZE * 8 / driver.native_bits_per_pixel

theorem buffer_pos : driver.native_bits_per_pixel ≤ build.PIXDATA_BUFFER_SIZE * 8 := by
  have hmod := build.size_mod
  have hpos := build.size_pos
  have hbits := driver.bits_le
  omega

theorem num_pixels_pos : 0 < qp_internal_num_pixels_in_buffer build driver :=
  Nat.div_pos (buffer_pos build driver) driver.bits_pos

/-- The state of an appender, in pixels or in bytes. The calls are counted, and a
write or a read that is not in range is kept. -/
structure appender_t where
  write_pos : Nat
  calls : Nat
  fault : Option Fault
  deriving DecidableEq

/-- The end of both appenders: the buffer is sent when it is full. -/
def transmit (max : Nat) (state : appender_t) : Bool × appender_t :=
  if state.write_pos = max then
    if driver.pixdata state.calls then (true, { state with write_pos := 0 }) else (false, state)
  else (true, state)

def qp_internal_pixel_appender (table_size index : Nat) (state : appender_t) :
    Bool × appender_t :=
  let fault :=
    if table_size ≤ index then some .lookup_table
    else if build.PIXDATA_BUFFER_SIZE * 8 < (state.write_pos + 1) * driver.native_bits_per_pixel then
      some .pixel_buffer
    else state.fault
  let appended := driver.append state.calls
  let state : appender_t := ⟨state.write_pos + 1, state.calls + 1, fault⟩
  if !appended then (false, state)
  else transmit driver (qp_internal_num_pixels_in_buffer build driver) state

def qp_internal_byte_appender (state : appender_t) : Bool × appender_t :=
  let fault :=
    if build.PIXDATA_BUFFER_SIZE ≤ state.write_pos then some .pixel_buffer else state.fault
  let appended := driver.append state.calls
  let state : appender_t := ⟨state.write_pos + 1, state.calls + 1, fault⟩
  if !appended then (false, state)
  else transmit driver
    (qp_internal_num_pixels_in_buffer build driver * driver.native_bits_per_pixel / 8) state

def qp_internal_send_bytes {σ τ : Type*} (input_callback : σ → Int × σ)
    (output_callback : τ → Bool × τ) : Nat → σ → τ → Bool × σ × τ
  | 0, inp, out => (true, inp, out)
  | remaining_bytes + 1, inp, out =>
    let (byteval, inp) := input_callback inp
    if byteval < 0 then (false, inp, out)
    else match output_callback out with
      | (false, out) => (false, inp, out)
      | (true, out) =>
        qp_internal_send_bytes input_callback output_callback remaining_bytes inp out

/-- Any leftovers need transmission as well. -/
def finish (ret : Bool) (inp : qp_internal_byte_input_state_t) (out : appender_t) :
    Except Fault (Bool × qp_memory_stream_t) :=
  match out.fault with
  | some fault => .error fault
  | none =>
    let flushed := if ret && 0 < out.write_pos then driver.pixdata out.calls else true
    .ok (ret && flushed, inp.src_stream)

def qp_internal_appender (bpp pixel_count : Nat)
    (input_callback : qp_internal_byte_input_state_t → Int × qp_internal_byte_input_state_t)
    (input_state : qp_internal_byte_input_state_t) : Except Fault (Bool × qp_memory_stream_t) :=
  if bpp ≤ 8 then
    match qp_internal_decode_palette input_callback
        (qp_internal_pixel_appender build driver build.table_size) pixel_count bpp input_state
        ⟨0, 0, none⟩ with
    | none => .error .endless
    | some (ret, inp, out) => finish driver ret inp out
  else if bpp ≠ driver.native_bits_per_pixel then .ok (false, input_state.src_stream)
  else
    let (ret, inp, out) := qp_internal_send_bytes input_callback
      (qp_internal_byte_appender build driver) (pixel_count * bpp % 0x100000000 / 8) input_state
      ⟨0, 0, none⟩
    finish driver ret inp out

/-! ## Drawing -/

/-- The callback for a compression scheme. -/
def prepare_input (compression : Nat) :
    Option (qp_internal_byte_input_state_t → Int × qp_internal_byte_input_state_t) :=
  match compression with
  | 0 => some qp_drawimage_byte_uncompressed_decoder
  | 1 => some qp_drawimage_byte_rle_decoder
  | _ => none

/-- The pixels between two edges, with the subtraction of `int` and the product of
`uint32_t`. -/
def pixels_between (l t r b : Nat) : Nat :=
  (((r : Int) - l + 1) * ((b : Int) - t + 1) % 0x100000000).toNat

def pixel_count (image : qgf_image_handle_t) (x y : Nat) (info : qgf_frame_info_t) : Nat :=
  let u16 (n : Nat) := n % 0x10000
  if info.is_delta then
    pixels_between (u16 (x + info.left)) (u16 (y + info.top)) (u16 (x + info.right))
      (u16 (y + info.bottom))
  else
    pixels_between (u16 x) (u16 y) (u16 (x + image.width + 0xffff))
      (u16 (y + image.height + 0xffff))

/-- Whether the frame has been drawn, and the stream after it. -/
def qp_drawimage_recolor_impl (x y : Nat) (image : qgf_image_handle_t) (frame_number : Nat)
    (fg bg : hsv888) (table : List hsv888) : Except Fault (Bool × qp_memory_stream_t) :=
  (qp_drawimage_prepare_frame_for_stream_read build driver image frame_number fg bg table).bind
    fun (info, _, s) =>
      match info with
      | none => .ok (false, s)
      | some info =>
        if !driver.comms_start then .ok (false, s)
        else if !driver.viewport then .ok (false, s)
        else
          match prepare_input info.compression_scheme with
          | none => .ok (false, s)
          | some input_callback =>
            qp_internal_appender build driver info.format.bpp (pixel_count image x y info)
              input_callback (qp_internal_prepare_input_state s)

end

end keychron_qmk.painter
