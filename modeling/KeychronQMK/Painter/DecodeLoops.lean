-- The loops of drawing, for any callbacks: the decoder of pixels and the sender
-- of bytes end, call for as many bytes as they need, and have after the last
-- call what each call gives.
import KeychronQMK.Painter.DrawImage

namespace keychron_qmk.painter

section

variable {σ τ : Type*} {input_callback : σ → Int × σ}

def Gives (input_callback : σ → Int × σ) (n : Nat) (inp : σ) : Prop :=
  ∀ c ∈ (pull input_callback n inp).1, 0 ≤ c

theorem gives_zero (inp : σ) : Gives input_callback 0 inp := by
  intro c hc
  cases hc

theorem gives_succ {n : Nat} {inp : σ} : Gives input_callback (n + 1) inp ↔
    0 ≤ (input_callback inp).1 ∧ Gives input_callback n (input_callback inp).2 := by
  exact List.forall_mem_cons

theorem gives_of_never_ends (h : ∀ inp, 0 ≤ (input_callback inp).1) (n : Nat) (inp : σ) :
    Gives input_callback n inp := by
  induction n generalizing inp with
  | zero => exact gives_zero inp
  | succ n ih => exact gives_succ.mpr ⟨h inp, ih _⟩

/-! ## Pixels -/

section

variable {output_callback : Nat → τ → Bool × τ} {bits_per_pixel : Nat} {I : σ → Prop}
  {O E : τ → Prop}

theorem index_lt (byteval : Nat) :
    byteval &&& ((1 <<< bits_per_pixel) - 1) % 256 < 2 ^ bits_per_pixel := by
  have hpos : 0 < 2 ^ bits_per_pixel := Nat.two_pow_pos _
  have hand := Nat.and_le_right (n := byteval) (m := ((1 <<< bits_per_pixel) - 1) % 256)
  omega

theorem loop_pixels_keeps (hOE : ∀ out, O out → E out)
    (hO : ∀ index out, index < 2 ^ bits_per_pixel → O out →
      ((output_callback index out).1 = true → O (output_callback index out).2) ∧
        E (output_callback index out).2) (q byteval : Nat) {out : τ} (h : O out) :
    ((decode_loop_pixels output_callback bits_per_pixel q byteval out).1 = true →
        O (decode_loop_pixels output_callback bits_per_pixel q byteval out).2) ∧
      E (decode_loop_pixels output_callback bits_per_pixel q byteval out).2 := by
  induction q generalizing byteval out with
  | zero => exact ⟨fun _ => h, hOE out h⟩
  | succ q ih =>
    obtain ⟨hkeep, hends⟩ := hO _ out (index_lt byteval) h
    unfold decode_loop_pixels
    split
    · rename_i hcall
      rw [hcall] at hends
      exact ⟨by simp, hends⟩
    · rename_i hcall
      rw [hcall] at hkeep
      exact ih _ (hkeep rfl)

theorem loop_pixels_true (hall : ∀ index out, (output_callback index out).1 = true)
    (q byteval : Nat) (out : τ) :
    (decode_loop_pixels output_callback bits_per_pixel q byteval out).1 = true := by
  induction q generalizing byteval out with
  | zero => rfl
  | succ q ih =>
    unfold decode_loop_pixels
    split
    · rename_i hcall
      have := hall (byteval &&& ((1 <<< bits_per_pixel) - 1) % 256) out
      rw [hcall] at this
      exact this
    · exact ih _ _

def pixel_bytes (bits_per_pixel pixels : Nat) : Nat :=
  (pixels + (8 / bits_per_pixel - 1)) / (8 / bits_per_pixel)

theorem pixel_bytes_zero (h : 0 < 8 / bits_per_pixel) : pixel_bytes bits_per_pixel 0 = 0 := by
  exact Nat.div_eq_of_lt (by omega)

theorem pixel_bytes_step (h : 0 < 8 / bits_per_pixel) (remaining : Nat) :
    pixel_bytes bits_per_pixel (remaining + 1) = pixel_bytes bits_per_pixel
      (remaining + 1 - min (remaining + 1) (8 / bits_per_pixel)) + 1 := by
  unfold pixel_bytes
  generalize 8 / bits_per_pixel = ppb at *
  rcases Nat.le_total (remaining + 1) ppb with hle | hle
  · rw [Nat.min_eq_left hle, Nat.sub_self, Nat.zero_add, Nat.div_eq_of_lt (by omega : ppb - 1 < ppb)]
    rw [show remaining + 1 + (ppb - 1) = ppb + remaining by omega, Nat.add_div_left _ h,
      Nat.div_eq_of_lt (by omega)]
  · rw [Nat.min_eq_right hle,
      show remaining + 1 + (ppb - 1) = (remaining + 1 - ppb + (ppb - 1)) + ppb by omega,
      Nat.add_div_right _ h]

/-- The decoder of pixels ends. It has after it what the calls give, and is true
only when the input gave all bytes. -/
theorem remaining_pixels_spec (hbits : 0 < 8 / bits_per_pixel)
    (hI : ∀ inp, I inp → I (input_callback inp).2) (hOE : ∀ out, O out → E out)
    (hO : ∀ index out, index < 2 ^ bits_per_pixel → O out →
      ((output_callback index out).1 = true → O (output_callback index out).2) ∧
        E (output_callback index out).2)
    {turns remaining : Nat} (hturns : remaining ≤ turns) {inp : σ} {out : τ} (hinp : I inp)
    (hout : O out) :
    ∃ ret inp' out', decode_remaining_pixels input_callback output_callback bits_per_pixel turns
        remaining inp out = some (ret, inp', out') ∧ I inp' ∧ E out' ∧
      (ret = true → Gives input_callback (pixel_bytes bits_per_pixel remaining) inp) ∧
      (Gives input_callback (pixel_bytes bits_per_pixel remaining) inp →
        (∀ index out, (output_callback index out).1 = true) → ret = true) := by
  induction turns generalizing remaining inp out with
  | zero =>
    have hzero : remaining = 0 := by omega
    subst hzero
    refine ⟨true, inp, out, rfl, hinp, hOE out hout, fun _ => ?_, fun _ _ => rfl⟩
    rw [pixel_bytes_zero hbits]
    exact gives_zero inp
  | succ turns ih =>
    cases remaining with
    | zero =>
      refine ⟨true, inp, out, rfl, hinp, hOE out hout, fun _ => ?_, fun _ _ => rfl⟩
      rw [pixel_bytes_zero hbits]
      exact gives_zero inp
    | succ remaining =>
      have hnext := hI inp hinp
      rw [pixel_bytes_step hbits, gives_succ]
      unfold decode_remaining_pixels
      dsimp only
      split
      · rename_i hend
        exact ⟨false, _, out, rfl, hnext, hOE out hout, by simp,
          fun hgives => absurd hgives.1 (by omega)⟩
      · rename_i hgiven
        generalize hloop : min (remaining + 1) (8 / bits_per_pixel) = loop_pixels
        obtain ⟨hkept, hends⟩ := loop_pixels_keeps hOE hO loop_pixels
          (input_callback inp).1.toNat hout
        split
        · rename_i hcall
          rw [hcall] at hends
          refine ⟨false, _, _, rfl, hnext, hends, by simp, fun _ hall => ?_⟩
          have htrue : (decode_loop_pixels output_callback bits_per_pixel loop_pixels
              (input_callback inp).1.toNat out).1 = true := loop_pixels_true hall _ _ _
          rw [hcall] at htrue
          exact htrue
        · rename_i hcall
          rw [hcall] at hkept
          have hfewer : remaining + 1 - loop_pixels ≤ turns := by omega
          obtain ⟨ret, inp', out', hrun, hinp', hout', hneeds, hgives⟩ :=
            ih hfewer hnext (hkept rfl)
          refine ⟨ret, inp', out', hrun, hinp', hout', fun hret => ⟨by omega, hneeds hret⟩, ?_⟩
          exact fun hall => hgives hall.2

end

/-! ## Bytes -/

/-- The sender of bytes has after it what the calls give, and is true only when the
input gave all bytes. -/
theorem send_bytes_spec {output_callback : τ → Bool × τ} {I : σ → Prop} {O E : τ → Prop}
    (hI : ∀ inp, I inp → I (input_callback inp).2) (hOE : ∀ out, O out → E out)
    (hO : ∀ out, O out → ((output_callback out).1 = true → O (output_callback out).2) ∧
      E (output_callback out).2)
    (remaining : Nat) {inp : σ} {out : τ} (hinp : I inp) (hout : O out) :
    ∃ ret inp' out', qp_internal_send_bytes input_callback output_callback remaining inp out =
        (ret, inp', out') ∧ I inp' ∧ E out' ∧ (ret = true → Gives input_callback remaining inp) ∧
      (Gives input_callback remaining inp → (∀ out, (output_callback out).1 = true) →
        ret = true) := by
  induction remaining generalizing inp out with
  | zero => exact ⟨true, inp, out, rfl, hinp, hOE out hout, fun _ => gives_zero inp, fun _ _ => rfl⟩
  | succ remaining ih =>
    have hnext := hI inp hinp
    obtain ⟨hkept, hends⟩ := hO out hout
    rw [gives_succ]
    unfold qp_internal_send_bytes
    dsimp only
    split
    · rename_i hend
      exact ⟨false, _, out, rfl, hnext, hOE out hout, by simp,
        fun hgives => absurd hgives.1 (by omega)⟩
    · rename_i hgiven
      split
      · rename_i hcall
        rw [hcall] at hends
        refine ⟨false, _, _, rfl, hnext, hends, by simp, fun _ hall => ?_⟩
        have htrue := hall out
        rw [hcall] at htrue
        exact htrue
      · rename_i hcall
        rw [hcall] at hkept
        obtain ⟨ret, inp', out', hrun, hinp', hout', hneeds, hgives⟩ := ih hnext (hkept rfl)
        refine ⟨ret, inp', out', hrun, hinp', hout', fun hret => ⟨by omega, hneeds hret⟩, ?_⟩
        exact fun hall => hgives hall.2

end

/-! ## Bytes of a file -/

section

variable {file : List UInt8} {state : qp_internal_byte_input_state_t}

theorem uncompressed_within (h : Within file state.src_stream) :
    Within file (qp_drawimage_byte_uncompressed_decoder state).2.src_stream := h.get

theorem uncompressed_gives_iff (h : Within file state.src_stream) (n : Nat) :
    Gives qp_drawimage_byte_uncompressed_decoder n state ↔
      state.src_stream.position + n ≤ file.length := by
  induction n generalizing state with
  | zero =>
    have := h.position
    exact ⟨fun _ => by omega, fun _ => gives_zero state⟩
  | succ n ih =>
    rw [gives_succ]
    by_cases hmore : state.src_stream.position < file.length
    · have hnext := ih (uncompressed_within h)
      have hget := get_fits h hmore
      unfold qp_drawimage_byte_uncompressed_decoder at hnext ⊢
      rw [hget] at hnext ⊢
      dsimp only at hnext ⊢
      rw [hnext]
      omega
    · have hend := get_end h (by omega)
      unfold qp_drawimage_byte_uncompressed_decoder
      rw [hend]
      constructor
      · rintro ⟨hpos, -⟩
        exact absurd hpos (by decide)
      · omega

theorem parse_marker_within (h : Within file state.src_stream) :
    Within file (parse_marker_byte state).src_stream := by
  unfold parse_marker_byte
  dsimp only
  split <;> exact h.get.get

theorem rle_within (h : Within file state.src_stream) :
    Within file (qp_drawimage_byte_rle_decoder state).2.src_stream := by
  have hparsed := parse_marker_within h
  unfold qp_drawimage_byte_rle_decoder
  dsimp only
  split_ifs
  all_goals first
    | exact hparsed.get
    | exact hparsed
    | exact h.get
    | exact h

theorem rle_never_ends (state : qp_internal_byte_input_state_t) :
    0 ≤ (qp_drawimage_byte_rle_decoder state).1 := by
  unfold qp_drawimage_byte_rle_decoder
  dsimp only
  split_ifs <;> exact Int.natCast_nonneg _

end

/-! ## RLE data -/

/-- The bytes that RLE data stand for up to their end: the marker 0 is a run of 256,
and literal bytes may be cut. -/
def rle_expand : List UInt8 → List UInt8
  | [] => []
  | [_] => []
  | marker :: b :: rest =>
    if marker ≥ 128 then
      (b :: rest).take (marker.toNat - 127) ++ rle_expand ((b :: rest).drop (marker.toNat - 127))
    else List.replicate (if marker = 0 then 256 else marker.toNat) b ++ rle_expand rest
termination_by rest => rest.length
decreasing_by
  all_goals
    simp only [List.length_drop, List.length_cons]
    omega

theorem pulls_cut (l : List UInt8) (n : Nat) (hl : l.length + 1 < n) (hn : n < 256)
    (stream : qp_memory_stream_t) (x : UInt8) (h : stream.Holds l) :
    ∃ last, Pulls qp_drawimage_byte_rle_decoder
      ⟨stream, x.toNat, .NON_REPEATING_RUN, UInt8.ofNat n⟩ (x :: l) last := by
  obtain ⟨n, rfl⟩ : ∃ m, n = m + 1 := ⟨n - 1, by omega⟩
  induction l generalizing stream x n with
  | nil =>
    refine ⟨⟨(qp_stream_get stream).2, (qp_stream_get stream).1, .NON_REPEATING_RUN,
      UInt8.ofNat n⟩, .cons ?_ (.nil _)⟩
    simp only [qp_drawimage_byte_rle_decoder, reduceCtorEq, if_false, ofInt_toNat,
      ofNat_succ_sub_one, ofNat_pos (by omega : n < 256), show 0 < n by omega, if_true]
  | cons y l ih =>
    obtain ⟨hy, hstream⟩ := h.get
    rw [List.length_cons] at hl
    obtain ⟨n, rfl⟩ : ∃ m, n = m + 1 := ⟨n - 1, by omega⟩
    obtain ⟨last, hpulls⟩ := ih (qp_stream_get stream).2 y hstream n (by omega) (by omega)
    refine ⟨last, .cons ?_ hpulls⟩
    simp only [qp_drawimage_byte_rle_decoder, reduceCtorEq, if_false, ofInt_toNat,
      ofNat_succ_sub_one, ofNat_pos (by omega : n + 1 < 256), Nat.succ_pos, if_true, hy]

theorem parse_held {state : qp_internal_byte_input_state_t} {marker b : UInt8} {rest : List UInt8}
    (h : state.src_stream.Holds (marker :: b :: rest)) :
    ∃ stream : qp_memory_stream_t, stream.Holds rest ∧ parse_marker_byte state =
      if marker ≥ 128 then ⟨stream, b.toNat, .NON_REPEATING_RUN, marker - 127⟩
      else ⟨stream, b.toNat, .REPEATING_RUN, marker⟩ := by
  obtain ⟨hmarker, hstream₁⟩ := h.get
  obtain ⟨hb, hstream₂⟩ := hstream₁.get
  refine ⟨_, hstream₂, ?_⟩
  unfold parse_marker_byte
  simp only [hmarker, hb, ofInt_toNat]

theorem pulls_longest_run (stream : qp_memory_stream_t) (x : UInt8) :
    Pulls qp_drawimage_byte_rle_decoder ⟨stream, x.toNat, .REPEATING_RUN, 0⟩
      (List.replicate 256 x) ⟨stream, x.toNat, .MARKER_BYTE, 0⟩ := by
  refine .cons ?_ (pulls_repeating 254 (by omega) stream x)
  have hremain : (0 : UInt8) - 1 = UInt8.ofNat (254 + 1) := rfl
  simp only [qp_drawimage_byte_rle_decoder, reduceCtorEq, if_false, ofInt_toNat, hremain,
    ofNat_pos (by omega : 254 + 1 < 256), Nat.succ_pos, if_true]

section

variable {state : qp_internal_byte_input_state_t} {marker b : UInt8} {l rest : List UInt8}

theorem pulls_literal_run (hliteral : 128 ≤ marker.toNat) (hwhole : marker.toNat - 127 ≤ l.length)
    (h : AtMarker state (marker :: l)) :
    ∃ middle, Pulls qp_drawimage_byte_rle_decoder state (l.take (marker.toNat - 127)) middle ∧
      AtMarker middle (l.drop (marker.toNat - 127)) := by
  have hmax := marker.toNat_lt
  have htaken : (l.take (marker.toNat - 127)).length = marker.toNat - 127 := by
    rw [List.length_take, Nat.min_eq_left hwhole]
  have hvalid : (Run.literal (l.take (marker.toNat - 127))).Valid := by
    change 0 < (l.take (marker.toNat - 127)).length ∧ (l.take (marker.toNat - 127)).length ≤ 128
    omega
  have hmarker : UInt8.ofNat (127 + (marker.toNat - 127)) = marker := by
    rw [show 127 + (marker.toNat - 127) = marker.toNat by omega, UInt8.ofNat_toNat]
  have hbytes : (Run.literal (l.take (marker.toNat - 127))).bytes ++ l.drop (marker.toNat - 127) =
      marker :: l := by
    change UInt8.ofNat (127 + (l.take (marker.toNat - 127)).length) ::
      (l.take (marker.toNat - 127) ++ l.drop (marker.toNat - 127)) = marker :: l
    rw [htaken, hmarker, List.take_append_drop]
  rw [← hbytes] at h
  exact pulls_run hvalid h

theorem pulls_literal_cut (hcut : (b :: rest).length < marker.toNat - 127)
    (h : AtMarker state (marker :: b :: rest)) :
    ∃ last, Pulls qp_drawimage_byte_rle_decoder state (b :: rest) last := by
  have hmax := marker.toNat_lt
  have h128 : (128 : UInt8).toNat = 128 := rfl
  obtain ⟨stream, hstream, hparse⟩ := parse_held h.stream
  rw [if_pos (by rw [ge_iff_le, UInt8.le_iff_toNat_le]; omega)] at hparse
  have hcount : marker - 127 = UInt8.ofNat (marker.toNat - 127) := by
    rw [UInt8.ofNat_sub (by omega : 127 ≤ marker.toNat), UInt8.ofNat_toNat]
    rfl
  rw [hcount] at hparse
  obtain ⟨last, hpulls⟩ := pulls_cut rest _ hcut (by omega) stream b hstream
  refine ⟨last, pulls_of_parse h.mode (List.cons_ne_nil b rest) ?_⟩
  rw [hparse]
  exact hpulls

theorem pulls_repeated_run (hrepeated : marker.toNat < 128)
    (h : AtMarker state (marker :: b :: rest)) :
    ∃ middle, Pulls qp_drawimage_byte_rle_decoder state
      (List.replicate (if marker = 0 then 256 else marker.toNat) b) middle ∧
        AtMarker middle rest := by
  by_cases hzero : marker = 0
  · subst hzero
    obtain ⟨stream, hstream, hparse⟩ := parse_held h.stream
    refine ⟨⟨stream, b.toNat, .MARKER_BYTE, 0⟩, ?_, rfl, hstream⟩
    refine pulls_of_parse h.mode (List.cons_ne_nil _ _) ?_
    rw [hparse]
    exact pulls_longest_run stream b
  · have hpos : 0 < marker.toNat := by
      rcases Nat.eq_zero_or_pos marker.toNat with hnat | hpos
      · exact absurd (UInt8.toNat_inj.mp hnat) hzero
      · exact hpos
    have hvalid : (Run.repeated marker.toNat b).Valid := ⟨hpos, by omega⟩
    have hbytes : (Run.repeated marker.toNat b).bytes ++ rest = marker :: b :: rest := by
      change [UInt8.ofNat marker.toNat, b] ++ rest = marker :: b :: rest
      rw [UInt8.ofNat_toNat]
      rfl
    rw [← hbytes] at h
    rw [if_neg hzero]
    exact pulls_run hvalid h

end

theorem pulls_expanded {state : qp_internal_byte_input_state_t} {rest : List UInt8}
    (h : AtMarker state rest) :
    ∃ last, Pulls qp_drawimage_byte_rle_decoder state (rle_expand rest) last := by
  fun_induction rle_expand rest generalizing state with
  | case1 => exact ⟨state, .nil state⟩
  | case2 => exact ⟨state, .nil state⟩
  | case3 marker b rest hliteral ih =>
    have hmarker : 128 ≤ marker.toNat := UInt8.le_iff_toNat_le.mp hliteral
    by_cases hwhole : marker.toNat - 127 ≤ (b :: rest).length
    · obtain ⟨middle, hpulls, hmiddle⟩ := pulls_literal_run hmarker hwhole h
      obtain ⟨last, hpulls'⟩ := ih hmiddle
      exact ⟨last, hpulls.append hpulls'⟩
    · have hlong : (b :: rest).length ≤ marker.toNat - 127 := by omega
      rw [List.take_of_length_le hlong, List.drop_of_length_le hlong, rle_expand, List.append_nil]
      exact pulls_literal_cut (by omega) h
  | case4 marker b rest hrepeated ih =>
    have hmarker : marker.toNat < 128 := by
      rw [ge_iff_le, UInt8.le_iff_toNat_le, Nat.not_le] at hrepeated
      exact hrepeated
    obtain ⟨middle, hpulls, hmiddle⟩ := pulls_repeated_run hmarker h
    obtain ⟨last, hpulls'⟩ := ih hmiddle
    exact ⟨last, hpulls.append hpulls'⟩

/-- Whatever the data are, cut off at any byte too, the decoder gives what they expand to. -/
theorem any_data_are_expanded (data : List UInt8) :
    (pull qp_drawimage_byte_rle_decoder (rle_expand data).length
        (qp_internal_prepare_input_state (qp_make_memory_stream data))).1 =
      (rle_expand data).map fun x => (x.toNat : Int) := by
  obtain ⟨last, hpulls⟩ := pulls_expanded
    (⟨rfl, holds_make data⟩ : AtMarker (qp_internal_prepare_input_state _) data)
  exact congrArg Prod.fst hpulls.pull

end keychron_qmk.painter
