-- The decoders of `quantum/painter/qp_draw_codec.c`, over the memory
-- streams of `qp_stream.c`: bytes are pulled one by one, and each byte gives
-- the indices of its pixels.
import Mathlib.Tactic.Common
import Mathlib.Data.Nat.Digits.Defs
import Mathlib.Algebra.Ring.Nat

namespace keychron_qmk.painter

/-! ## Memory streams -/

structure qp_memory_stream_t where
  buffer : List UInt8
  position : Nat
  is_eof : Bool
  deriving DecidableEq

def qp_make_memory_stream (buffer : List UInt8) : qp_memory_stream_t := ⟨buffer, 0, false⟩

def STREAM_EOF : Int := -1

def qp_stream_get (s : qp_memory_stream_t) : Int × qp_memory_stream_t :=
  if s.buffer.length ≤ s.position then (STREAM_EOF, { s with is_eof := true })
  else ((s.buffer.getD s.position 0).toNat, { s with position := s.position + 1 })

/-- What the stream still has to give, when no read went past its end. -/
structure qp_memory_stream_t.Holds (s : qp_memory_stream_t) (rest : List UInt8) : Prop where
  rest : s.buffer.drop s.position = rest
  is_eof : s.is_eof = false

theorem holds_make (buffer : List UInt8) : (qp_make_memory_stream buffer).Holds buffer :=
  ⟨rfl, rfl⟩

theorem qp_memory_stream_t.Holds.get {s : qp_memory_stream_t} {x : UInt8} {rest : List UInt8}
    (h : s.Holds (x :: rest)) : (qp_stream_get s).1 = x.toNat ∧ (qp_stream_get s).2.Holds rest := by
  obtain ⟨hrest, heof⟩ := h
  have hlt : s.position < s.buffer.length := by
    by_contra hge
    rw [List.drop_eq_nil_of_le (Nat.le_of_not_lt hge)] at hrest
    cases hrest
  rw [List.drop_eq_getElem_cons hlt] at hrest
  obtain ⟨hx, htail⟩ := List.cons.inj hrest
  unfold qp_stream_get
  rw [if_neg (Nat.not_le.mpr hlt)]
  refine ⟨?_, htail, heof⟩
  simp [List.getD, hlt, hx]

/-! ## Progressive pull of bytes -/

inductive qp_internal_rle_mode_t where
  | MARKER_BYTE
  | REPEATING_RUN
  | NON_REPEATING_RUN
  deriving DecidableEq

structure qp_internal_byte_input_state_t where
  src_stream : qp_memory_stream_t
  curr : Int
  mode : qp_internal_rle_mode_t
  remain : UInt8
  deriving DecidableEq

def qp_internal_prepare_input_state (src_stream : qp_memory_stream_t) :
    qp_internal_byte_input_state_t :=
  ⟨src_stream, 0, .MARKER_BYTE, 0⟩

def qp_drawimage_byte_uncompressed_decoder (state : qp_internal_byte_input_state_t) :
    Int × qp_internal_byte_input_state_t :=
  let (c, src_stream) := qp_stream_get state.src_stream
  (c, { state with src_stream, curr := c })

/-- The part of the RLE decoder that parses the marker byte. The marker is a
`uint8_t`, so the end of the stream reads as 255. -/
def parse_marker_byte (state : qp_internal_byte_input_state_t) : qp_internal_byte_input_state_t :=
  let (marker, src_stream) := qp_stream_get state.src_stream
  let c := UInt8.ofInt marker
  let (curr, src_stream) := qp_stream_get src_stream
  if c ≥ 128 then ⟨src_stream, curr, .NON_REPEATING_RUN, c - 127⟩
  else ⟨src_stream, curr, .REPEATING_RUN, c⟩

def qp_drawimage_byte_rle_decoder (state : qp_internal_byte_input_state_t) :
    Int × qp_internal_byte_input_state_t :=
  let state := if state.mode = .MARKER_BYTE then parse_marker_byte state else state
  -- the byte to return is a `uint8_t` too
  let c := UInt8.ofInt state.curr
  let remain := state.remain - 1
  if remain > 0 then
    if state.mode = .NON_REPEATING_RUN then
      -- queue up the next byte
      let (curr, src_stream) := qp_stream_get state.src_stream
      (c.toNat, { state with remain, curr, src_stream })
    else (c.toNat, { state with remain })
  else (c.toNat, { state with remain, mode := .MARKER_BYTE })

/-! ## Palette decoding -/

section Palette

variable {σ τ : Type*} (input_callback : σ → Int × σ) (output_callback : Nat → τ → Bool × τ)

def decode_loop_pixels (bits_per_pixel : Nat) : Nat → Nat → τ → Bool × τ
  | 0, _, out => (true, out)
  | q + 1, byteval, out =>
    match output_callback (byteval &&& ((1 <<< bits_per_pixel) - 1) % 256) out with
    | (false, out) => (false, out)
    | (true, out) => decode_loop_pixels bits_per_pixel q (byteval >>> bits_per_pixel) out

def decode_remaining_pixels (bits_per_pixel : Nat) :
    Nat → Nat → σ → τ → Option (Bool × σ × τ)
  | _, 0, inp, out => some (true, inp, out)
  | 0, _ + 1, _, _ => none
  | turns + 1, remaining_pixels + 1, inp, out =>
    let (byteval, inp) := input_callback inp
    if byteval < 0 then some (false, inp, out)
    else
      let loop_pixels := min (remaining_pixels + 1) (8 / bits_per_pixel)
      match decode_loop_pixels output_callback bits_per_pixel loop_pixels byteval.toNat out with
      | (false, out) => some (false, inp, out)
      | (true, out) =>
        decode_remaining_pixels bits_per_pixel turns (remaining_pixels + 1 - loop_pixels) inp out

/-- The result, the input and the output after it. It is `none` for a
division by zero, and for more than `pixel_count` turns: a turn that takes
no pixel is repeated for ever. -/
def qp_internal_decode_palette (pixel_count bits_per_pixel : Nat) (inp : σ) (out : τ) :
    Option (Bool × σ × τ) :=
  if bits_per_pixel = 0 then none
  else decode_remaining_pixels input_callback output_callback bits_per_pixel pixel_count
    pixel_count inp out

/-- `n` calls of the callback: the bytes, and the input after them. -/
def pull : Nat → σ → List Int × σ
  | 0, inp => ([], inp)
  | n + 1, inp =>
    let (c, inp) := input_callback inp
    let (cs, inp) := pull n inp
    (c :: cs, inp)

end Palette

end keychron_qmk.painter
