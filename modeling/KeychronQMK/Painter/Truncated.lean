-- Streams that end before the data of an image: which decoder says so. The byte
-- sources are those of `qp_draw_codec.c` over any stream; the memory streams of
-- the other modules are one kind.
import KeychronQMK.Painter.DecodeLoops

namespace keychron_qmk.painter.any_stream

/-! ## Byte sources -/

inductive painter_compression_t where
  | IMAGE_UNCOMPRESSED
  | IMAGE_COMPRESSED_RLE
  deriving DecidableEq

structure byte_input_state (σ : Type*) where
  src_stream : σ
  curr : Int
  mode : qp_internal_rle_mode_t
  remain : UInt8
  deriving DecidableEq

section

variable {σ : Type*} (get : σ → Int × σ)

def qp_drawimage_byte_uncompressed_decoder (state : byte_input_state σ) :
    Int × byte_input_state σ :=
  let (c, src_stream) := get state.src_stream
  (c, { state with src_stream, curr := c })

def parse_marker_byte (state : byte_input_state σ) : byte_input_state σ :=
  let (marker, src_stream) := get state.src_stream
  let c := UInt8.ofInt marker
  let (curr, src_stream) := get src_stream
  if c ≥ 128 then ⟨src_stream, curr, .NON_REPEATING_RUN, c - 127⟩
  else ⟨src_stream, curr, .REPEATING_RUN, c⟩

def qp_drawimage_byte_rle_decoder (state : byte_input_state σ) : Int × byte_input_state σ :=
  let state := if state.mode = .MARKER_BYTE then parse_marker_byte get state else state
  -- the end of the stream in `curr` becomes the byte 255 here
  let c := UInt8.ofInt state.curr
  let remain := state.remain - 1
  if remain > 0 then
    if state.mode = .NON_REPEATING_RUN then
      let (curr, src_stream) := get state.src_stream
      (c.toNat, { state with remain, curr, src_stream })
    else (c.toNat, { state with remain })
  else (c.toNat, { state with remain, mode := .MARKER_BYTE })

def qp_internal_prepare_input_state (src_stream : σ) : byte_input_state σ :=
  ⟨src_stream, 0, .MARKER_BYTE, 0⟩

def input_callback : painter_compression_t → byte_input_state σ → Int × byte_input_state σ
  | .IMAGE_UNCOMPRESSED => qp_drawimage_byte_uncompressed_decoder get
  | .IMAGE_COMPRESSED_RLE => qp_drawimage_byte_rle_decoder get

end

def qp_internal_send_bytes {σ τ : Type*} (input_callback : σ → Int × σ)
    (output_callback : UInt8 → τ → Bool × τ) : Nat → σ → τ → Bool × σ × τ
  | 0, inp, out => (true, inp, out)
  | remaining_bytes + 1, inp, out =>
    let (byteval, inp) := input_callback inp
    if byteval < 0 then (false, inp, out)
    else match output_callback (UInt8.ofInt byteval) out with
      | (false, out) => (false, inp, out)
      | (true, out) =>
        qp_internal_send_bytes input_callback output_callback remaining_bytes inp out

theorem send_bytes_eq {σ τ : Type*} (input_callback : σ → Int × σ) (output_callback : τ → Bool × τ)
    (byte_count : Nat) (inp : σ) (out : τ) :
    qp_internal_send_bytes input_callback (fun _ => output_callback) byte_count inp out =
      painter.qp_internal_send_bytes input_callback output_callback byte_count inp out := by
  induction byte_count generalizing inp out with
  | zero => rfl
  | succ byte_count ih =>
    unfold qp_internal_send_bytes painter.qp_internal_send_bytes
    dsimp only
    split
    · rfl
    · rcases output_callback out with ⟨_ | _, out⟩
      · rfl
      · exact ih _ _

/-! ## Memory streams -/

def of_memory (state : qp_internal_byte_input_state_t) : byte_input_state qp_memory_stream_t :=
  ⟨state.src_stream, state.curr, state.mode, state.remain⟩

theorem uncompressed_memory (state : qp_internal_byte_input_state_t) :
    qp_drawimage_byte_uncompressed_decoder qp_stream_get (of_memory state) =
      ((painter.qp_drawimage_byte_uncompressed_decoder state).1,
        of_memory (painter.qp_drawimage_byte_uncompressed_decoder state).2) := rfl

theorem parse_marker_memory (state : qp_internal_byte_input_state_t) :
    parse_marker_byte qp_stream_get (of_memory state) =
      of_memory (painter.parse_marker_byte state) := by
  unfold parse_marker_byte painter.parse_marker_byte of_memory
  dsimp only
  split <;> rfl

theorem rle_memory (state : qp_internal_byte_input_state_t) :
    qp_drawimage_byte_rle_decoder qp_stream_get (of_memory state) =
      ((painter.qp_drawimage_byte_rle_decoder state).1,
        of_memory (painter.qp_drawimage_byte_rle_decoder state).2) := by
  have hparsed : (if (of_memory state).mode = .MARKER_BYTE then
        parse_marker_byte qp_stream_get (of_memory state) else of_memory state) =
      of_memory (if state.mode = .MARKER_BYTE then painter.parse_marker_byte state else state) := by
    rw [parse_marker_memory]
    exact (apply_ite of_memory _ _ _).symm
  unfold qp_drawimage_byte_rle_decoder painter.qp_drawimage_byte_rle_decoder
  dsimp only
  rw [hparsed]
  unfold of_memory
  split_ifs <;> rfl

/-! ## Streams that end -/

section

variable {σ τ : Type*} {get : σ → Int × σ} {data : List UInt8}

/-- The stream gives the data and then a negative value. -/
def Ends (get : σ → Int × σ) : List UInt8 → σ → Prop
  | [], s => (get s).1 < 0
  | b :: data, s => (get s).1 = b.toNat ∧ Ends get data (get s).2

/-- The bytes that the data of a stream stand for. -/
def expand : painter_compression_t → List UInt8 → List UInt8
  | .IMAGE_UNCOMPRESSED, data => data
  | .IMAGE_COMPRESSED_RLE, data => rle_expand data

def draw_bytes (output_callback : Nat → τ → Bool × τ) (bits_per_pixel : Nat) :
    List UInt8 → τ → τ
  | [], out => out
  | b :: bytes, out =>
    match decode_loop_pixels output_callback bits_per_pixel (8 / bits_per_pixel) b.toNat out with
    | (false, out) => out
    | (true, out) => draw_bytes output_callback bits_per_pixel bytes out

def push_bytes (output_callback : UInt8 → τ → Bool × τ) : List UInt8 → τ → τ
  | [], out => out
  | b :: bytes, out =>
    match output_callback b out with
    | (false, out) => out
    | (true, out) => push_bytes output_callback bytes out

theorem memory_ends (front data : List UInt8) :
    Ends qp_stream_get data ⟨front ++ data, front.length, false⟩ := by
  induction data generalizing front with
  | nil =>
    unfold Ends qp_stream_get
    simp [STREAM_EOF]
  | cons b data ih =>
    have hget : qp_stream_get ⟨front ++ b :: data, front.length, false⟩ =
        ((b.toNat : Int), (⟨front ++ b :: data, front.length + 1, false⟩ : qp_memory_stream_t)) := by
      unfold qp_stream_get
      simp
    have hrest := ih (front ++ [b])
    rw [List.append_assoc, List.length_append] at hrest
    unfold Ends
    rw [hget]
    exact ⟨rfl, hrest⟩

/-! ## Without compression -/

variable {bits_per_pixel : Nat}

/-- The decoder of pixels stops where the data end, and has drawn them. -/
theorem remaining_pixels_ends (output_callback : Nat → τ → Bool × τ)
    (hbits : 0 < 8 / bits_per_pixel) {turns remaining : Nat} (hturns : remaining ≤ turns)
    {state : byte_input_state σ} (hends : Ends get data state.src_stream)
    (hmore : data.length < pixel_bytes bits_per_pixel remaining) (out : τ) :
    ∃ inp, decode_remaining_pixels (qp_drawimage_byte_uncompressed_decoder get) output_callback
        bits_per_pixel turns remaining state out =
      some (false, inp, draw_bytes output_callback bits_per_pixel data out) := by
  induction turns generalizing remaining data state out with
  | zero =>
    rw [show remaining = 0 by omega, pixel_bytes_zero hbits] at hmore
    omega
  | succ turns ih =>
    cases remaining with
    | zero =>
      rw [pixel_bytes_zero hbits] at hmore
      omega
    | succ remaining =>
      rw [pixel_bytes_step hbits] at hmore
      have hcall : qp_drawimage_byte_uncompressed_decoder get state = ((get state.src_stream).1,
          { state with
            src_stream := (get state.src_stream).2, curr := (get state.src_stream).1 }) := rfl
      unfold decode_remaining_pixels
      dsimp only
      rw [hcall]
      cases data with
      | nil =>
        have hend : (get state.src_stream).1 < 0 := hends
        rw [if_pos hend]
        exact ⟨_, rfl⟩
      | cons b data =>
        obtain ⟨hbyte, hrest⟩ := hends
        rw [List.length_cons] at hmore
        -- the data go on behind this byte, so it has all of its pixels
        have hfull : min (remaining + 1) (8 / bits_per_pixel) = 8 / bits_per_pixel := by
          refine Nat.min_eq_right (Nat.le_of_not_lt fun hlast => ?_)
          rw [Nat.min_eq_left (by omega), Nat.sub_self, pixel_bytes_zero hbits] at hmore
          omega
        rw [hfull] at hmore
        rw [if_neg (by omega), hbyte, Int.toNat_natCast, hfull]
        unfold draw_bytes
        rcases decode_loop_pixels output_callback bits_per_pixel (8 / bits_per_pixel) b.toNat out
          with ⟨_ | _, out⟩
        · exact ⟨_, rfl⟩
        · exact ih (by omega) hrest (by omega) _

theorem send_bytes_ends (output_callback : UInt8 → τ → Bool × τ) {byte_count : Nat}
    {state : byte_input_state σ} (hends : Ends get data state.src_stream)
    (hmore : data.length < byte_count) (out : τ) :
    ∃ inp, qp_internal_send_bytes (qp_drawimage_byte_uncompressed_decoder get) output_callback
        byte_count state out = (false, inp, push_bytes output_callback data out) := by
  induction byte_count generalizing data state out with
  | zero => omega
  | succ byte_count ih =>
    have hcall : qp_drawimage_byte_uncompressed_decoder get state = ((get state.src_stream).1,
        { state with
          src_stream := (get state.src_stream).2, curr := (get state.src_stream).1 }) := rfl
    unfold qp_internal_send_bytes
    dsimp only
    rw [hcall]
    cases data with
    | nil =>
      have hend : (get state.src_stream).1 < 0 := hends
      rw [if_pos hend]
      exact ⟨_, rfl⟩
    | cons b data =>
      obtain ⟨hbyte, hrest⟩ := hends
      rw [List.length_cons] at hmore
      rw [if_neg (by omega), hbyte, ofInt_toNat]
      unfold push_bytes
      rcases output_callback b out with ⟨_ | _, out⟩
      · exact ⟨_, rfl⟩
      · exact ih hrest (by omega) _

/-! ## With RLE compression -/

theorem rle_never_ends (get : σ → Int × σ) (state : byte_input_state σ) :
    0 ≤ (qp_drawimage_byte_rle_decoder get state).1 := by
  unfold qp_drawimage_byte_rle_decoder
  dsimp only
  split_ifs <;> exact Int.natCast_nonneg _

/-- Whatever the stream gives, all pixels are drawn on an output that takes them. -/
theorem rle_draws_all (get : σ → Int × σ) (hbits : 0 < 8 / bits_per_pixel)
    (output_callback : Nat → τ → Bool × τ)
    (hall : ∀ index out, (output_callback index out).1 = true) (pixel_count : Nat)
    (state : byte_input_state σ) (out : τ) :
    ∃ inp out', qp_internal_decode_palette (qp_drawimage_byte_rle_decoder get) output_callback
      pixel_count bits_per_pixel state out = some (true, inp, out') := by
  have hzero : bits_per_pixel ≠ 0 := by
    rintro rfl
    exact absurd hbits (by decide)
  obtain ⟨ret, inp, out', hrun, -, -, -, htrue⟩ : ∃ ret inp' out',
      decode_remaining_pixels (qp_drawimage_byte_rle_decoder get) output_callback bits_per_pixel
          pixel_count pixel_count state out = some (ret, inp', out') ∧ True ∧ True ∧ (_ → _) ∧
        (Gives (qp_drawimage_byte_rle_decoder get) (pixel_bytes bits_per_pixel pixel_count) state →
          (∀ index out, (output_callback index out).1 = true) → ret = true) :=
    remaining_pixels_spec (I := fun _ => True) (O := fun _ => True) (E := fun _ => True) hbits
      (fun _ _ => trivial) (fun _ _ => trivial) (fun _ _ _ _ => ⟨fun _ => trivial, trivial⟩)
      le_rfl trivial trivial
  rw [htrue (gives_of_never_ends (rle_never_ends get) _ _) hall] at hrun
  unfold qp_internal_decode_palette
  rw [if_neg hzero]
  exact ⟨inp, out', hrun⟩

theorem rle_sends_all (get : σ → Int × σ) (output_callback : UInt8 → τ → Bool × τ)
    (hall : ∀ b out, (output_callback b out).1 = true) (byte_count : Nat)
    (state : byte_input_state σ) (out : τ) :
    ∃ inp out', qp_internal_send_bytes (qp_drawimage_byte_rle_decoder get) output_callback
      byte_count state out = (true, inp, out') := by
  induction byte_count generalizing state out with
  | zero => exact ⟨state, out, rfl⟩
  | succ byte_count ih =>
    have hnever := rle_never_ends get state
    unfold qp_internal_send_bytes
    dsimp only
    rw [if_neg (by omega)]
    have htrue := hall (UInt8.ofInt (qp_drawimage_byte_rle_decoder get state).1) out
    rcases hcall : output_callback (UInt8.ofInt (qp_drawimage_byte_rle_decoder get state).1) out with
      ⟨_ | _, out'⟩
    · rw [hcall] at htrue
      cases htrue
    · exact ih _ _

end

/-! ## Truncated data -/

section

variable {σ : Type*} (get : σ → Int × σ) (compression : painter_compression_t) (s : σ)
  (data : List UInt8)

/-- On every output the decoder of pixels returns false and has drawn no more than the
data. -/
def PixelsReported (pixel_count bits_per_pixel : Nat) : Prop :=
  ∀ (τ : Type) (output_callback : Nat → τ → Bool × τ) (out : τ), ∃ inp,
    qp_internal_decode_palette (input_callback get compression) output_callback pixel_count
        bits_per_pixel (qp_internal_prepare_input_state s) out =
      some (false, inp, draw_bytes output_callback bits_per_pixel (expand compression data) out)

def BytesReported (byte_count : Nat) : Prop :=
  ∀ (τ : Type) (output_callback : UInt8 → τ → Bool × τ) (out : τ), ∃ inp,
    qp_internal_send_bytes (input_callback get compression) output_callback byte_count
        (qp_internal_prepare_input_state s) out =
      (false, inp, push_bytes output_callback (expand compression data) out)

/-- A stream that ends before the data of all pixels, or of all bytes: the end is
reported exactly when the data are not compressed. -/
theorem truncated_data_are_reported_exactly_without_compression (hends : Ends get data s) :
    (∀ pixel_count bits_per_pixel, 0 < 8 / bits_per_pixel →
      (expand compression data).length < pixel_bytes bits_per_pixel pixel_count →
      (PixelsReported get compression s data pixel_count bits_per_pixel ↔
        compression = .IMAGE_UNCOMPRESSED)) ∧
    ∀ byte_count, (expand compression data).length < byte_count →
      (BytesReported get compression s data byte_count ↔ compression = .IMAGE_UNCOMPRESSED) := by
  cases compression with
  | IMAGE_UNCOMPRESSED =>
    refine ⟨fun pixel_count bits_per_pixel hbits hmore =>
      ⟨fun _ => rfl, fun _ τ output_callback out => ?_⟩,
      fun byte_count hmore => ⟨fun _ => rfl, fun _ τ output_callback out => ?_⟩⟩
    · have hzero : bits_per_pixel ≠ 0 := by
        rintro rfl
        exact absurd hbits (by decide)
      unfold qp_internal_decode_palette
      rw [if_neg hzero]
      exact remaining_pixels_ends output_callback hbits le_rfl hends hmore out
    · exact send_bytes_ends output_callback hends hmore out
  | IMAGE_COMPRESSED_RLE =>
    refine ⟨fun pixel_count bits_per_pixel hbits hmore => ⟨fun hreported => ?_, fun hnone => ?_⟩,
      fun byte_count hmore => ⟨fun hreported => ?_, fun hnone => ?_⟩⟩
    · obtain ⟨inp, hfalse⟩ := hreported Unit (fun _ out => (true, out)) ()
      obtain ⟨inp', out', htrue⟩ := rle_draws_all get hbits (fun _ out => (true, out))
        (fun _ _ => rfl) pixel_count
        (qp_internal_prepare_input_state s) ()
      have hboth := hfalse.symm.trans htrue
      cases hboth
    · cases hnone
    · obtain ⟨inp, hfalse⟩ := hreported Unit (fun _ out => (true, out)) ()
      obtain ⟨inp', out', htrue⟩ := rle_sends_all get (fun _ out => (true, out))
        (fun _ _ => rfl) byte_count
        (qp_internal_prepare_input_state s) ()
      have hboth := hfalse.symm.trans htrue
      cases hboth
    · cases hnone

end

/-- An image of two pixels of eight bits, of which the file has the first marker. -/
theorem a_cut_memory_stream_is_reported_or_compressed :
    (∀ pixel_count bits_per_pixel, 0 < 8 / bits_per_pixel →
      (expand .IMAGE_UNCOMPRESSED [2]).length < pixel_bytes bits_per_pixel pixel_count →
      (PixelsReported qp_stream_get .IMAGE_UNCOMPRESSED (qp_make_memory_stream [2]) [2] pixel_count
        bits_per_pixel ↔ painter_compression_t.IMAGE_UNCOMPRESSED = .IMAGE_UNCOMPRESSED)) ∧
    ∀ byte_count, (expand .IMAGE_UNCOMPRESSED [2]).length < byte_count →
      (BytesReported qp_stream_get .IMAGE_UNCOMPRESSED (qp_make_memory_stream [2]) [2] byte_count ↔
        painter_compression_t.IMAGE_UNCOMPRESSED = .IMAGE_UNCOMPRESSED) :=
  truncated_data_are_reported_exactly_without_compression qp_stream_get .IMAGE_UNCOMPRESSED
    (qp_make_memory_stream [2]) [2] (memory_ends [] [2])

/-- With RLE compression that image is drawn with two pixels of colour 255, and the
result is true. -/
theorem a_cut_run_is_made_up :
    Ends qp_stream_get [2] (qp_make_memory_stream [2]) ∧
      (expand .IMAGE_COMPRESSED_RLE [2]).length < pixel_bytes 8 2 ∧
      (qp_internal_decode_palette (input_callback qp_stream_get .IMAGE_COMPRESSED_RLE)
          (fun index drawn => (true, drawn ++ [index])) 2 8
          (qp_internal_prepare_input_state (qp_make_memory_stream [2])) []).map
        (fun result => (result.1, result.2.2)) = some (true, [255, 255]) ∧
      (qp_internal_send_bytes (input_callback qp_stream_get .IMAGE_COMPRESSED_RLE)
          (fun b sent => (true, sent ++ [b])) 2
          (qp_internal_prepare_input_state (qp_make_memory_stream [2])) []).1 = true := by
  refine ⟨memory_ends [] [2], ?_, by decide, by decide⟩
  unfold expand rle_expand
  decide

end keychron_qmk.painter.any_stream
