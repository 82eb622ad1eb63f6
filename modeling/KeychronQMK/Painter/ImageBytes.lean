-- The pixels of an image with a palette: `convert_image_bytes` packs their
-- indices into bytes, and `qp_internal_decode_palette` gives them back.
import KeychronQMK.Painter.Rle

namespace keychron_qmk.painter

/-- The formats with a palette, by their bits per pixel. -/
inductive Depth where
  | one
  | two
  | four
  | eight
  deriving DecidableEq

def Depth.bpp : Depth → Nat
  | one => 1
  | two => 2
  | four => 4
  | eight => 8

def Depth.num_colors (d : Depth) : Nat := 2 ^ d.bpp

def PaletteIndex (d : Depth) := { i : UInt8 // i.toNat < d.num_colors }

/-! ## Packing -/

def packed_byte (ncolors : Nat) (image_bytes : List UInt8) (x : Nat) : Nat :=
  let shifter := Nat.log2 ncolors
  let pixels_per_byte := 8 / shifter
  (List.range pixels_per_byte).foldl (fun byte n =>
    let byte_offset := x * pixels_per_byte + n
    if byte_offset < image_bytes.length then
      byte ||| ((image_bytes.getD byte_offset 0).toNat &&& (ncolors - 1)) <<< (n * shifter)
    else byte) 0

def convert_image_bytes (ncolors : Nat) (image_bytes : List UInt8) : List UInt8 :=
  let pixels_per_byte := 8 / Nat.log2 ncolors
  let expected_byte_count := (image_bytes.length + (pixels_per_byte - 1)) / pixels_per_byte
  (List.range expected_byte_count).map fun x => UInt8.ofNat (packed_byte ncolors image_bytes x)

section

variable (d : Depth)

/-- `pixels_per_byte` -/
def Depth.ppb : Nat := 8 / d.bpp

theorem Depth.log2_num_colors : Nat.log2 d.num_colors = d.bpp := by
  exact Nat.log2_two_pow

theorem Depth.bpp_pos : 0 < d.bpp := by
  cases d <;> decide

theorem Depth.ppb_pos : 0 < d.ppb := by
  cases d <;> decide

theorem Depth.bpp_mul_ppb : d.bpp * d.ppb = 8 := by
  cases d <;> decide

theorem Depth.pixel_bitmask : ((1 <<< d.bpp) - 1) % 256 = d.num_colors - 1 := by
  cases d <;> decide

theorem Depth.one_lt_num_colors : 1 < d.num_colors := by
  cases d <;> decide

/-- The digits that the loop packs. -/
def indices (d : Depth) (pixels : List UInt8) : List Nat :=
  pixels.map fun p => p.toNat % d.num_colors

theorem indices_lt (pixels : List UInt8) : ∀ i ∈ indices d pixels, i < d.num_colors := by
  intro i hi
  obtain ⟨p, -, rfl⟩ := List.mem_map.mp hi
  exact Nat.mod_lt _ (Nat.lt_trans Nat.zero_lt_one d.one_lt_num_colors)

theorem pack_loop (image_bytes : List UInt8) (start n : Nat) :
    (List.range n).foldl (fun byte n =>
      if start + n < image_bytes.length then
        byte ||| ((image_bytes.getD (start + n) 0).toNat &&& (d.num_colors - 1)) <<< (n * d.bpp)
      else byte) 0 =
    Nat.ofDigits d.num_colors (indices d ((image_bytes.drop start).take n)) := by
  induction n with
  | zero => simp [indices]
  | succ n ih =>
    rw [List.range_succ, List.foldl_append, ih]
    simp only [List.foldl_cons, List.foldl_nil]
    split
    · rename_i hlt
      have htake : (image_bytes.drop start).take (n + 1) =
          (image_bytes.drop start).take n ++ [image_bytes.getD (start + n) 0] := by
        rw [List.take_add_one, List.getElem?_drop, List.getElem?_eq_getElem hlt, List.getD,
          List.getElem?_eq_getElem hlt]
        rfl
      have hlen : (indices d ((image_bytes.drop start).take n)).length = n := by
        simp [indices]
        omega
      have hbound := Nat.ofDigits_lt_base_pow_length d.one_lt_num_colors
        (indices_lt d ((image_bytes.drop start).take n))
      have hpow : d.num_colors ^ n = 2 ^ (n * d.bpp) := by
        rw [Depth.num_colors, ← Nat.pow_mul, Nat.mul_comm]
      rw [hlen, hpow] at hbound
      have hsplit : indices d ((image_bytes.drop start).take n ++ [image_bytes.getD (start + n) 0]) =
          indices d ((image_bytes.drop start).take n) ++
            [(image_bytes.getD (start + n) 0).toNat % d.num_colors] := by
        simp [indices]
      rw [htake, hsplit, Nat.ofDigits_append, hlen, hpow, Nat.ofDigits_singleton, Nat.or_comm,
        ← Nat.shiftLeft_add_eq_or_of_lt hbound, Nat.shiftLeft_eq, Depth.num_colors,
        Nat.and_two_pow_sub_one_eq_mod]
      ring
    · rename_i hge
      rw [List.take_of_length_le (by simp; omega), List.take_of_length_le (by simp; omega)]

theorem packed_byte_eq (image_bytes : List UInt8) (x : Nat) :
    packed_byte d.num_colors image_bytes x =
      Nat.ofDigits d.num_colors (indices d ((image_bytes.drop (x * d.ppb)).take d.ppb)) := by
  unfold packed_byte
  rw [d.log2_num_colors]
  exact pack_loop d image_bytes (x * d.ppb) d.ppb

theorem packed_byte_lt (image_bytes : List UInt8) (x : Nat) :
    packed_byte d.num_colors image_bytes x < 256 := by
  rw [packed_byte_eq]
  refine Nat.lt_of_lt_of_le (Nat.ofDigits_lt_base_pow_length d.one_lt_num_colors (indices_lt d _)) ?_
  have hlen : (indices d ((image_bytes.drop (x * d.ppb)).take d.ppb)).length ≤ d.ppb := by
    simp [indices]
  calc d.num_colors ^ _ ≤ d.num_colors ^ d.ppb :=
        Nat.pow_le_pow_right (Nat.lt_trans Nat.zero_lt_one d.one_lt_num_colors) hlen
    _ = 256 := by rw [Depth.num_colors, ← Nat.pow_mul, d.bpp_mul_ppb]

/-- The first packed byte holds the first pixels, and the others are the
packed bytes of the other pixels. -/
theorem convert_cons {image_bytes : List UInt8} (h : image_bytes ≠ []) :
    convert_image_bytes d.num_colors image_bytes =
      UInt8.ofNat (packed_byte d.num_colors image_bytes 0) ::
        convert_image_bytes d.num_colors (image_bytes.drop d.ppb) := by
  have hppb := d.ppb_pos
  have hpos := List.length_pos_iff.mpr h
  have hcount : (image_bytes.length + (d.ppb - 1)) / d.ppb =
      ((image_bytes.drop d.ppb).length + (d.ppb - 1)) / d.ppb + 1 := by
    rw [List.length_drop]
    generalize image_bytes.length = n at *
    generalize d.ppb = k at *
    rcases Nat.lt_or_ge k n with hlt | hge
    · rw [show n + (k - 1) = n - k + (k - 1) + k by omega, Nat.add_div_right _ hppb]
    · have hlast : (n + (k - 1)) / k = 1 := Nat.div_eq_of_lt_le (by omega) (by omega)
      have hnone : (n - k + (k - 1)) / k = 0 := Nat.div_eq_of_lt (by omega)
      rw [hlast, hnone]
  unfold convert_image_bytes
  rw [d.log2_num_colors]
  change (List.range ((image_bytes.length + (d.ppb - 1)) / d.ppb)).map _ =
    _ :: (List.range (((image_bytes.drop d.ppb).length + (d.ppb - 1)) / d.ppb)).map _
  rw [hcount, List.range_succ_eq_map, List.map_cons, List.map_map]
  refine congrArg _ (List.map_congr_left fun x _ => ?_)
  simp only [Function.comp_apply, packed_byte_eq, List.drop_drop]
  rw [Nat.succ_mul, Nat.add_comm]

/-! ## Unpacking -/

/-- The output of a decoder, pixel by pixel. -/
def collect (index : Nat) (out : List Nat) : Bool × List Nat := (true, out ++ [index])

theorem decode_loop_pixels_digits (digits out : List Nat) (h : ∀ i ∈ digits, i < d.num_colors) :
    decode_loop_pixels collect d.bpp digits.length (Nat.ofDigits d.num_colors digits) out =
      (true, out ++ digits) := by
  induction digits generalizing out with
  | nil => simp [decode_loop_pixels]
  | cons i digits ih =>
    have hi := h i List.mem_cons_self
    have hmask : Nat.ofDigits d.num_colors (i :: digits) &&& (d.num_colors - 1) = i := by
      rw [Nat.ofDigits_cons, Depth.num_colors, Nat.and_two_pow_sub_one_eq_mod,
        Nat.add_mul_mod_self_left]
      exact Nat.mod_eq_of_lt hi
    have hshift : Nat.ofDigits d.num_colors (i :: digits) >>> d.bpp =
        Nat.ofDigits d.num_colors digits := by
      rw [Nat.ofDigits_cons, Nat.shiftRight_eq_div_pow, ← Depth.num_colors,
        Nat.add_mul_div_left _ _ (Nat.lt_trans Nat.zero_lt_one d.one_lt_num_colors),
        Nat.div_eq_of_lt hi, Nat.zero_add]
    rw [List.length_cons, decode_loop_pixels, d.pixel_bitmask, hmask, hshift]
    simp only [collect]
    rw [ih (out ++ [i]) fun j hj => h j (List.mem_cons_of_mem i hj)]
    simp

variable {σ : Type*} {input_callback : σ → Int × σ}

theorem convert_nil : convert_image_bytes d.num_colors [] = [] := by
  have hppb := d.ppb_pos
  unfold convert_image_bytes
  rw [d.log2_num_colors]
  change (List.range ((0 + (d.ppb - 1)) / d.ppb)).map _ = []
  rw [Nat.div_eq_of_lt (by omega)]
  rfl

theorem decode_no_pixels (turns : Nat) {inp last : σ} (out : List Nat)
    (h : Pulls input_callback inp (convert_image_bytes d.num_colors []) last) :
    decode_remaining_pixels input_callback collect d.bpp turns 0 inp out =
      some (true, last, out ++ indices d []) := by
  rw [convert_nil] at h
  cases h
  simp [decode_remaining_pixels, indices]

/-- Whatever gives the packed bytes, the decoder gives the indices. -/
theorem decode_remaining_pixels_packed (image_bytes : List UInt8) (turns : Nat) {inp last : σ}
    (out : List Nat) (hturns : image_bytes.length ≤ turns)
    (h : Pulls input_callback inp (convert_image_bytes d.num_colors image_bytes) last) :
    decode_remaining_pixels input_callback collect d.bpp turns image_bytes.length inp out =
      some (true, last, out ++ indices d image_bytes) := by
  induction turns generalizing image_bytes inp out with
  | zero =>
    have hnil := List.eq_nil_of_length_eq_zero (Nat.le_zero.mp hturns)
    subst hnil
    exact decode_no_pixels d 0 out h
  | succ turns ih =>
    cases image_bytes with
    | nil => exact decode_no_pixels d (turns + 1) out h
    | cons p ps =>
      have hppb := d.ppb_pos
      rw [convert_cons d (List.cons_ne_nil p ps)] at h
      have hbyte : (UInt8.ofNat (packed_byte d.num_colors (p :: ps) 0)).toNat =
          Nat.ofDigits d.num_colors (indices d ((p :: ps).take d.ppb)) := by
        rw [UInt8.toNat_ofNat', Nat.mod_eq_of_lt (packed_byte_lt d _ _), packed_byte_eq,
          Nat.zero_mul, List.drop_zero]
      have hlen : min (ps.length + 1) (8 / d.bpp) =
          (indices d ((p :: ps).take d.ppb)).length := by
        simp [indices, Depth.ppb, Nat.min_comm]
      cases h with
      | cons call rest =>
        rw [List.length_cons] at hturns
        have htail := ih ((p :: ps).drop d.ppb) (out ++ indices d ((p :: ps).take d.ppb))
          (by rw [List.length_drop, List.length_cons]; omega) rest
        rw [List.length_cons, decode_remaining_pixels, call]
        simp only [hbyte, Int.natCast_nonneg, not_lt.mpr, if_false, hlen, Int.toNat_natCast,
          decode_loop_pixels_digits d _ out (indices_lt d _)]
        have hrest : ps.length + 1 - (indices d ((p :: ps).take d.ppb)).length =
            ((p :: ps).drop d.ppb).length := by
          simp [indices]
          omega
        have hall : indices d (p :: ps) =
            indices d ((p :: ps).take d.ppb) ++ indices d ((p :: ps).drop d.ppb) := by
          rw [indices, indices, indices, ← List.map_append, List.take_append_drop]
        rw [hrest, htail, hall, List.append_assoc]

theorem decode_palette_packed (image_bytes : List UInt8) {inp last : σ}
    (h : Pulls input_callback inp (convert_image_bytes d.num_colors image_bytes) last) :
    qp_internal_decode_palette input_callback collect image_bytes.length d.bpp inp [] =
      some (true, last, indices d image_bytes) := by
  unfold qp_internal_decode_palette
  rw [if_neg (Nat.pos_iff_ne_zero.mp d.bpp_pos)]
  simpa using decode_remaining_pixels_packed d image_bytes _ [] (Nat.le_refl _) h

end

/-! ## The round trip -/

theorem pulls_uncompressed (bytes rest : List UInt8) {state : qp_internal_byte_input_state_t}
    (h : state.src_stream.Holds (bytes ++ rest)) : ∃ last : qp_internal_byte_input_state_t,
    Pulls qp_drawimage_byte_uncompressed_decoder state bytes last ∧
      last.src_stream.Holds rest := by
  induction bytes generalizing state with
  | nil => exact ⟨state, .nil state, h⟩
  | cons x bytes ih =>
    obtain ⟨hx, hstream⟩ := h.get
    have hnext : (qp_drawimage_byte_uncompressed_decoder state).2.src_stream.Holds
        (bytes ++ rest) := hstream
    obtain ⟨last, hpulls, hlast⟩ := ih hnext
    refine ⟨last, .cons ?_ hpulls, hlast⟩
    rw [← hx]
    rfl

def indexBytes {d : Depth} (pixels : List (PaletteIndex d)) : List UInt8 := pixels.map fun i => i.1

theorem indices_indexBytes {d : Depth} (pixels : List (PaletteIndex d)) :
    indices d (indexBytes pixels) = pixels.map fun i => i.1.toNat := by
  simp only [indices, indexBytes, List.map_map]
  exact List.map_congr_left fun i _ => Nat.mod_eq_of_lt i.2

/-- Compressed bytes come back, and packed indices do: from a stream of
packed indices, and from one that is compressed too. No read goes past the
end of the stream, since its flag is only set. -/
theorem the_painter_codec_round_trips :
    (∀ b : List UInt8, ∃ last : qp_internal_byte_input_state_t,
      pull qp_drawimage_byte_rle_decoder b.length
        (qp_internal_prepare_input_state (qp_make_memory_stream (compress_bytes_qmk_rle b))) =
        (b.map fun x => (x.toNat : Int), last) ∧ last.src_stream.is_eof = false) ∧
    ∀ (d : Depth) (pixels : List (PaletteIndex d)),
      let packed := convert_image_bytes d.num_colors (indexBytes pixels)
      (∃ last : qp_internal_byte_input_state_t,
        qp_internal_decode_palette qp_drawimage_byte_uncompressed_decoder collect pixels.length
          d.bpp (qp_internal_prepare_input_state (qp_make_memory_stream packed)) [] =
          some (true, last, pixels.map fun i => i.1.toNat) ∧ last.src_stream.is_eof = false) ∧
      ∃ last : qp_internal_byte_input_state_t,
        qp_internal_decode_palette qp_drawimage_byte_rle_decoder collect pixels.length d.bpp
          (qp_internal_prepare_input_state
            (qp_make_memory_stream (compress_bytes_qmk_rle packed))) [] =
          some (true, last, pixels.map fun i => i.1.toNat) ∧ last.src_stream.is_eof = false := by
  refine ⟨fun b => ?_, fun d pixels => ⟨?_, ?_⟩⟩
  · obtain ⟨last, hpulls, heof⟩ := pulls_compressed b
    exact ⟨last, hpulls.pull, heof⟩
  · have hstart : (qp_internal_prepare_input_state (qp_make_memory_stream
        (convert_image_bytes d.num_colors (indexBytes pixels)))).src_stream.Holds
        (convert_image_bytes d.num_colors (indexBytes pixels) ++ []) := by
      rw [List.append_nil]
      exact holds_make _
    obtain ⟨last, hpulls, hlast⟩ := pulls_uncompressed _ [] hstart
    have hdecoded := decode_palette_packed d (indexBytes pixels) hpulls
    rw [indices_indexBytes, show (indexBytes pixels).length = pixels.length by
      simp [indexBytes]] at hdecoded
    exact ⟨last, hdecoded, hlast.is_eof⟩
  · obtain ⟨last, hpulls, heof⟩ := pulls_compressed
      (convert_image_bytes d.num_colors (indexBytes pixels))
    have hdecoded := decode_palette_packed d (indexBytes pixels) hpulls
    rw [indices_indexBytes, show (indexBytes pixels).length = pixels.length by
      simp [indexBytes]] at hdecoded
    exact ⟨last, hdecoded, heof⟩

end keychron_qmk.painter
