-- Drawing the frames of accepted images: when it ends without a division by
-- zero and with every write in range, and when it is true only for data that
-- the frame really has.
import KeychronQMK.Painter.DecodeLoops

namespace keychron_qmk.painter

/-! ## Palettes -/

section

variable {fg bg : hsv888} {steps : Nat}

variable {table : List hsv888} {i more : Nat}

theorem write_table_fits (h : i < table.length) (entry : hsv888) :
    write_table table i entry = .ok (table.set i entry) := by
  unfold write_table
  rw [if_pos h]

theorem write_table_past (h : table.length ≤ i) (entry : hsv888) :
    write_table table i entry = .error .lookup_table := by
  unfold write_table
  rw [if_neg (Nat.not_lt.mpr h)]

theorem interpolate_fits (fg bg : hsv888) (hsteps : steps ≠ 1) (h : i + more ≤ table.length) :
    ∃ table', interpolate_entries fg bg steps more i table = .ok table' ∧
      table'.length = table.length := by
  induction more generalizing i table with
  | zero => exact ⟨table, rfl, rfl⟩
  | succ more ih =>
    unfold interpolate_entries
    dsimp only
    rw [if_neg hsteps, write_table_fits (by omega)]
    generalize hset : table.set i _ = table₁
    have hlength : table₁.length = table.length := by rw [← hset, List.length_set]
    have hplace : i + 1 + more ≤ table₁.length := by omega
    obtain ⟨table', hrun, hlength'⟩ := ih hplace
    exact ⟨table', hrun, by omega⟩

theorem interpolate_overflows (hsteps : steps ≠ 1) (hi : i ≤ table.length)
    (h : table.length < i + more) :
    interpolate_entries fg bg steps more i table = .error .lookup_table := by
  induction more generalizing i table with
  | zero => omega
  | succ more ih =>
    unfold interpolate_entries
    dsimp only
    rw [if_neg hsteps]
    by_cases hin : i < table.length
    · rw [write_table_fits hin]
      generalize hset : table.set i _ = table₁
      have hlength : table₁.length = table.length := by rw [← hset, List.length_set]
      have hplace : table₁.length < i + 1 + more := by omega
      exact ih (by omega) hplace
    · rw [write_table_past (Nat.le_of_not_lt hin)]
      rfl

end

section

variable {file : List UInt8} {s : qp_memory_stream_t}

variable {more i : Nat} {table : List hsv888}

theorem load_fits (h : Within file s) (htable : i + more ≤ table.length)
    (hfile : s.position + 3 * more ≤ file.length) :
    ∃ table', load_entries more i table s =
        .ok (true, table', { s with position := s.position + 3 * more }) ∧
      table'.length = table.length := by
  induction more generalizing i table s with
  | zero => exact ⟨table, rfl, rfl⟩
  | succ more ih =>
    have hnext : Within file { s with position := s.position + 3 } :=
      ⟨h.buffer, by dsimp only; omega⟩
    unfold load_entries
    rw [read_fits h (by omega)]
    dsimp only
    rw [write_table_fits (by omega)]
    generalize hset : table.set i _ = table₁
    have hlength : table₁.length = table.length := by rw [← hset, List.length_set]
    have hplace : i + 1 + more ≤ table₁.length := by omega
    obtain ⟨table', hrun, hlength'⟩ := ih hnext hplace (by dsimp only; omega)
    refine ⟨table', ?_, by omega⟩
    rw [show s.position + 3 * (more + 1) = s.position + 3 + 3 * more by omega]
    exact hrun

theorem load_short (h : Within file s)
    (htable : i + more ≤ table.length ∨ file.length < s.position + 3 * (table.length - i + 1))
    (hi : i ≤ table.length) (hfile : file.length < s.position + 3 * more) :
    ∃ table' s', load_entries more i table s = .ok (false, table', s') ∧ Within file s' := by
  induction more generalizing i table s with
  | zero =>
    have := h.position
    omega
  | succ more ih =>
    have hread := read_within 3 h
    unfold load_entries
    by_cases hfits : s.position + 3 ≤ file.length
    · have hnext : Within file { s with position := s.position + 3 } := ⟨h.buffer, hfits⟩
      rw [read_fits h hfits]
      dsimp only
      rw [write_table_fits (by omega)]
      generalize hset : table.set i _ = table₁
      have hlength : table₁.length = table.length := by rw [← hset, List.length_set]
      have hplace : i + 1 ≤ table₁.length := by omega
      exact ih hnext (by dsimp only; omega) hplace (by dsimp only; omega)
    · have hnone := read_short h (Nat.lt_of_not_le hfits)
      split
      · rename_i hnothing
        rw [hnothing] at hread
        exact ⟨table, _, rfl, hread⟩
      · rename_i hblock
        rw [hblock] at hnone
        cases hnone

theorem load_overflows (h : Within file s) (hi : i ≤ table.length)
    (htable : table.length < i + more)
    (hfile : s.position + 3 * (table.length - i + 1) ≤ file.length) :
    load_entries more i table s = .error .lookup_table := by
  induction more generalizing i table s with
  | zero => omega
  | succ more ih =>
    have hnext : Within file { s with position := s.position + 3 } :=
      ⟨h.buffer, by dsimp only; omega⟩
    unfold load_entries
    rw [read_fits h (by omega)]
    dsimp only
    by_cases hin : i < table.length
    · rw [write_table_fits hin]
      generalize hset : table.set i _ = table₁
      have hlength : table₁.length = table.length := by rw [← hset, List.length_set]
      have hplace : table₁.length < i + 1 + more := by omega
      exact ih hnext (by omega) hplace (by dsimp only; omega)
    · rw [write_table_past (Nat.le_of_not_lt hin)]
      rfl

end

/-! ## Formats -/

theorem parsed_format {k : Nat} {format : format_t} (h : qgf_parse_format k = some format) :
    0 < format.bpp ∧ (format.has_palette = true → format.bpp ≤ 8) ∧
      (format.bpp ≤ 8 → 0 < 8 / format.bpp) := by
  unfold qgf_parse_format at h
  split at h
  · cases h
  · have hmem := List.mem_of_getElem? h
    simp only [formats, List.mem_cons, List.not_mem_nil, or_false] at hmem
    rcases hmem with rfl | rfl | rfl | rfl | rfl | rfl | rfl | rfl | rfl | rfl <;> simp

theorem steps_ne_one {bpp : Nat} (h : 0 < bpp) : 2 ^ bpp ≠ 1 := by
  have := Nat.one_lt_two_pow (Nat.pos_iff_ne_zero.mp h)
  omega

/-! ## The frame -/

section

variable {build : Build} {driver : painter_driver_t} {fg bg : hsv888} {table : List hsv888}
  {file : List UInt8} {s : qp_memory_stream_t} {info : qgf_frame_info_t} {k : Nat}

theorem prepare_unknown (h : info.format = empty_format) :
    prepare_palette driver info fg bg table s = .error .division_by_zero := by
  unfold prepare_palette
  rw [h]
  rfl

theorem prepare_overflows (hs : Within file s) (hformat : qgf_parse_format k = some info.format)
    (hbpp : info.format.bpp ≤ 8) (htable : table.length < 2 ^ info.format.bpp)
    (hfile : info.format.has_palette = true →
      s.position + 5 + 3 * (table.length + 1) ≤ file.length) :
    prepare_palette driver info fg bg table s = .error .lookup_table := by
  obtain ⟨hpos, -, -⟩ := parsed_format hformat
  unfold prepare_palette
  cases hkind : info.format.has_palette with
  | false =>
    have hrun : interpolate_entries fg bg (2 ^ info.format.bpp) (2 ^ info.format.bpp) 0 table =
        .error .lookup_table := interpolate_overflows (steps_ne_one hpos) (Nat.zero_le _) (by omega)
    rw [if_neg (by simp), if_pos hbpp]
    unfold qp_internal_interpolate_palette
    rw [hrun]
    rfl
  | true =>
    have hentries := hfile hkind
    have hnext : Within file { s with position := s.position + 5 } :=
      ⟨hs.buffer, by dsimp only; omega⟩
    have hrun : load_entries (2 ^ info.format.bpp) 0 table { s with position := s.position + 5 } =
        .error .lookup_table :=
      load_overflows hnext (Nat.zero_le _) (by omega) (by dsimp only; omega)
    unfold qp_internal_load_qgf_palette
    rw [read_fits hs (by omega)]
    dsimp only
    rw [hrun]
    rfl

structure Prepared (driver : painter_driver_t) (file : List UInt8) (format : format_t)
    (position : Nat) (ready : Bool) (s' : qp_memory_stream_t) : Prop where
  within : Within file s'
  behind : ready = true → position + format.palette_length ≤ file.length ∧
    s'.position = position + format.palette_length
  converted : position + format.palette_length ≤ file.length → driver.palette_convert = true →
    ready = true

/-- The palette is in range of the table. -/
theorem prepare_fits (driver : painter_driver_t) (fg bg : hsv888) (hs : Within file s)
    (hformat : qgf_parse_format k = some info.format)
    (hfits : info.format.bpp ≤ 8 → table.length < 2 ^ info.format.bpp →
      info.format.has_palette = true ∧ file.length < s.position + 5 + 3 * (table.length + 1)) :
    ∃ ready table' s', prepare_palette driver info fg bg table s = .ok (ready, table', s') ∧
      Prepared driver file info.format s.position ready s' := by
  obtain ⟨hpos, hbits, -⟩ := parsed_format hformat
  have hposition := hs.position
  unfold prepare_palette
  cases hkind : info.format.has_palette with
  | false =>
    have hlength : info.format.palette_length = 0 := by
      unfold format_t.palette_length
      rw [hkind]
      rfl
    rw [if_neg (by simp)]
    by_cases hbpp : info.format.bpp ≤ 8
    · have htable : 2 ^ info.format.bpp ≤ table.length := by
        by_contra hlarge
        obtain ⟨hpalette, -⟩ := hfits hbpp (Nat.lt_of_not_le hlarge)
        rw [hkind] at hpalette
        cases hpalette
      obtain ⟨table', hrun, -⟩ := interpolate_fits fg bg (steps_ne_one hpos)
        (by omega : 0 + 2 ^ info.format.bpp ≤ table.length)
      refine ⟨driver.palette_convert, table', s, ?_, hs, fun _ => by omega, fun _ h => h⟩
      rw [if_pos hbpp]
      unfold qp_internal_interpolate_palette
      rw [hrun]
      rfl
    · refine ⟨true, table, s, ?_, hs, fun _ => by omega, fun _ _ => rfl⟩
      rw [if_neg hbpp]
  | true =>
    have hlength : info.format.palette_length = 5 + 3 * 2 ^ info.format.bpp := by
      unfold format_t.palette_length
      rw [hkind]
      rfl
    rw [if_pos rfl]
    unfold qp_internal_load_qgf_palette
    by_cases hheader : s.position + 5 ≤ file.length
    · have hnext : Within file { s with position := s.position + 5 } := ⟨hs.buffer, hheader⟩
      rw [read_fits hs hheader]
      dsimp only
      by_cases hwhole : s.position + 5 + 3 * 2 ^ info.format.bpp ≤ file.length
      · have htable : 0 + 2 ^ info.format.bpp ≤ table.length := by
          by_contra hlarge
          have := (hfits (hbits hkind) (by omega)).2
          omega
        obtain ⟨table', hrun, -⟩ := load_fits hnext htable hwhole
        have hend : Within file
            { s with position := s.position + 5 + 3 * 2 ^ info.format.bpp } := ⟨hs.buffer, hwhole⟩
        refine ⟨driver.palette_convert, table', _, ?_, hend, fun _ => ?_, fun _ h => h⟩
        · rw [hrun]
          rfl
        · dsimp only
          omega
      · have hshort : 0 + 2 ^ info.format.bpp ≤ table.length ∨
            file.length < s.position + 5 + 3 * (table.length - 0 + 1) := by
          by_cases htable : 2 ^ info.format.bpp ≤ table.length
          · exact .inl (by omega)
          · exact .inr (hfits (hbits hkind) (Nat.lt_of_not_le htable)).2
        obtain ⟨table', s', hrun, hs'⟩ := load_short hnext hshort (Nat.zero_le _)
          (Nat.lt_of_not_le hwhole)
        refine ⟨false, table', s', ?_, hs', by simp, fun hpalette => by omega⟩
        rw [hrun]
        rfl
    · have hnone := read_short hs (Nat.lt_of_not_le hheader)
      have hread := read_within 5 hs
      split
      · rename_i hnothing
        rw [hnothing] at hread
        exact ⟨false, table, _, rfl, hread, by simp, fun hpalette => by omega⟩
      · rename_i hblock
        rw [hblock] at hnone
        cases hnone

end

/-! ## Appenders -/

section

variable {build : Build} {driver : painter_driver_t} {file : List UInt8}
  {s : qp_memory_stream_t}

theorem pixels_fit (build : Build) (driver : painter_driver_t) :
    qp_internal_num_pixels_in_buffer build driver * driver.native_bits_per_pixel ≤
      build.PIXDATA_BUFFER_SIZE * 8 := Nat.div_mul_le_self _ _

/-- Nothing was out of range, and there is place in the buffer. -/
structure Appending (max : Nat) (state : appender_t) : Prop where
  fault : state.fault = none
  place : state.write_pos < max

variable {state : appender_t}

theorem transmit_keeps {max : Nat} (hmax : 0 < max) (hfault : state.fault = none)
    (hplace : state.write_pos ≤ max) :
    ((transmit driver max state).1 = true → Appending max (transmit driver max state).2) ∧
      (transmit driver max state).2.fault = none := by
  unfold transmit
  split
  · split
    · exact ⟨fun _ => ⟨hfault, hmax⟩, hfault⟩
    · exact ⟨fun h => by simp at h, hfault⟩
  · rename_i hfull
    exact ⟨fun _ => ⟨hfault, Nat.lt_of_le_of_ne hplace hfull⟩, hfault⟩

theorem pixel_appender_keeps {table_size index : Nat} (hindex : index < table_size)
    (h : Appending (qp_internal_num_pixels_in_buffer build driver) state) :
    ((qp_internal_pixel_appender build driver table_size index state).1 = true →
        Appending (qp_internal_num_pixels_in_buffer build driver)
          (qp_internal_pixel_appender build driver table_size index state).2) ∧
      (qp_internal_pixel_appender build driver table_size index state).2.fault = none := by
  obtain ⟨hfault, hplace⟩ := h
  have hfit : (state.write_pos + 1) * driver.native_bits_per_pixel ≤
      build.PIXDATA_BUFFER_SIZE * 8 :=
    Nat.le_trans (Nat.mul_le_mul_right _ hplace) (pixels_fit build driver)
  unfold qp_internal_pixel_appender
  dsimp only
  rw [if_neg (Nat.not_le.mpr hindex), if_neg (Nat.not_lt.mpr hfit)]
  split
  · exact ⟨fun h => by simp at h, hfault⟩
  · exact transmit_keeps (num_pixels_pos build driver) hfault hplace

theorem byte_appender_keeps {max : Nat}
    (hmax : qp_internal_num_pixels_in_buffer build driver * driver.native_bits_per_pixel / 8 = max)
    (h : Appending max state) :
    ((qp_internal_byte_appender build driver state).1 = true →
        Appending max (qp_internal_byte_appender build driver state).2) ∧
      (qp_internal_byte_appender build driver state).2.fault = none := by
  obtain ⟨hfault, hplace⟩ := h
  have hfit := pixels_fit build driver
  have hin : ¬ build.PIXDATA_BUFFER_SIZE ≤ state.write_pos := by omega
  unfold qp_internal_byte_appender
  dsimp only
  rw [if_neg hin, hmax]
  split
  · exact ⟨fun h => by simp at h, hfault⟩
  · exact transmit_keeps (Nat.lt_of_le_of_lt (Nat.zero_le _) hplace) hfault hplace

/-- Every call of the driver succeeds. -/
structure Willing (driver : painter_driver_t) : Prop where
  palette_convert : driver.palette_convert = true
  comms_start : driver.comms_start = true
  viewport : driver.viewport = true
  append (n : Nat) : driver.append n = true
  pixdata (n : Nat) : driver.pixdata n = true

theorem transmit_true (h : Willing driver) (max : Nat) (state : appender_t) :
    (transmit driver max state).1 = true := by
  unfold transmit
  rw [h.pixdata, if_pos rfl]
  split <;> rfl

theorem pixel_appender_true (h : Willing driver) (table_size index : Nat) (state : appender_t) :
    (qp_internal_pixel_appender build driver table_size index state).1 = true := by
  unfold qp_internal_pixel_appender
  dsimp only
  rw [h.append, if_neg (by simp)]
  exact transmit_true h _ _

theorem byte_appender_true (h : Willing driver) (state : appender_t) :
    (qp_internal_byte_appender build driver state).1 = true := by
  unfold qp_internal_byte_appender
  dsimp only
  rw [h.append, if_neg (by simp)]
  exact transmit_true h _ _

def bytes_needed (bpp pixel_count : Nat) : Nat :=
  if bpp ≤ 8 then pixel_bytes bpp pixel_count else pixel_count * bpp % 0x100000000 / 8

variable {inp : qp_internal_byte_input_state_t}

theorem finish_spec {out : appender_t} (driver : painter_driver_t) (ret : Bool)
    (hinp : Within file inp.src_stream) (hout : out.fault = none) :
    ∃ ok s', finish driver ret inp out = .ok (ok, s') ∧ Within file s' ∧ (ok = true → ret = true) ∧
      (Willing driver → ret = true → ok = true) := by
  unfold finish
  rw [hout]
  refine ⟨_, _, rfl, hinp, fun h => ?_, fun hwilling h => ?_⟩
  · rw [Bool.and_eq_true] at h
    exact h.1
  · rw [h, hwilling.pixdata]
    simp

/-- Appending ends in range, and is true only for a display that shows the format
and for data that give all bytes. -/
theorem appender_spec (driver : painter_driver_t) {k : Nat} {format : format_t}
    (hformat : qgf_parse_format k = some format)
    (htable : format.bpp ≤ 8 → 2 ^ format.bpp ≤ build.table_size) (pixel_count : Nat)
    {input_callback : qp_internal_byte_input_state_t → Int × qp_internal_byte_input_state_t}
    (hinput : ∀ inp, Within file inp.src_stream → Within file (input_callback inp).2.src_stream)
    (hinp : Within file inp.src_stream) :
    ∃ ok s', qp_internal_appender build driver format.bpp pixel_count input_callback inp =
        .ok (ok, s') ∧ Within file s' ∧
      (ok = true → (format.bpp ≤ 8 ∨ format.bpp = driver.native_bits_per_pixel) ∧
        Gives input_callback (bytes_needed format.bpp pixel_count) inp) ∧
      (Willing driver → (format.bpp ≤ 8 ∨ format.bpp = driver.native_bits_per_pixel) →
        Gives input_callback (bytes_needed format.bpp pixel_count) inp → ok = true) := by
  obtain ⟨hpos, -, hpixels⟩ := parsed_format hformat
  unfold qp_internal_appender bytes_needed
  by_cases hbpp : format.bpp ≤ 8
  · rw [if_pos hbpp, if_pos hbpp]
    unfold qp_internal_decode_palette
    rw [if_neg (Nat.pos_iff_ne_zero.mp hpos)]
    have hstart : Appending (qp_internal_num_pixels_in_buffer build driver) ⟨0, 0, none⟩ :=
      ⟨rfl, num_pixels_pos build driver⟩
    have hcalls : ∀ index out, index < 2 ^ format.bpp →
        Appending (qp_internal_num_pixels_in_buffer build driver) out →
        ((qp_internal_pixel_appender build driver build.table_size index out).1 = true →
          Appending (qp_internal_num_pixels_in_buffer build driver)
            (qp_internal_pixel_appender build driver build.table_size index out).2) ∧
        (qp_internal_pixel_appender build driver build.table_size index out).2.fault = none :=
      fun index out hindex h => pixel_appender_keeps (Nat.lt_of_lt_of_le hindex (htable hbpp)) h
    obtain ⟨ret, inp', out', hrun, hinp', hout', hneeds, hgives⟩ :=
      remaining_pixels_spec (hpixels hbpp) hinput (fun out h => h.fault) hcalls
        (Nat.le_refl pixel_count) hinp hstart
    rw [hrun]
    obtain ⟨ok, s', hfinish, hs', hok, hwilling⟩ := finish_spec driver ret hinp' hout'
    refine ⟨ok, s', hfinish, hs', fun h => ⟨.inl hbpp, hneeds (hok h)⟩, fun hw _ hall => ?_⟩
    exact hwilling hw (hgives hall (fun index out => pixel_appender_true hw _ index out))
  · rw [if_neg hbpp, if_neg hbpp]
    by_cases hnative : format.bpp = driver.native_bits_per_pixel
    · rw [if_neg (not_not.mpr hnative)]
      generalize hmax :
        qp_internal_num_pixels_in_buffer build driver * driver.native_bits_per_pixel / 8 = max
      have hmaxpos : 0 < max := by
        have hone := Nat.mul_le_mul_right driver.native_bits_per_pixel (num_pixels_pos build driver)
        omega
      have hstart : Appending max ⟨0, 0, none⟩ := ⟨rfl, hmaxpos⟩
      have hcalls : ∀ out, Appending max out →
          ((qp_internal_byte_appender build driver out).1 = true →
            Appending max (qp_internal_byte_appender build driver out).2) ∧
          (qp_internal_byte_appender build driver out).2.fault = none :=
        fun out h => byte_appender_keeps hmax h
      obtain ⟨ret, inp', out', hrun, hinp', hout', hneeds, hgives⟩ :=
        send_bytes_spec hinput (fun out h => h.fault) hcalls
          (pixel_count * format.bpp % 0x100000000 / 8) hinp hstart
      rw [hrun]
      obtain ⟨ok, s', hfinish, hs', hok, hwilling⟩ := finish_spec driver ret hinp' hout'
      refine ⟨ok, s', hfinish, hs', fun h => ⟨.inr hnative, hneeds (hok h)⟩, fun hw _ hall => ?_⟩
      exact hwilling hw (hgives hall (fun out => byte_appender_true hw out))
    · rw [if_pos hnative]
      refine ⟨false, _, rfl, hinp, by simp, fun _ hcapable => ?_⟩
      rcases hcapable with hsmall | hsame
      · exact absurd hsmall hbpp
      · exact absurd hsame hnative

end

/-! ## Drawing a frame -/

def drawn_info (file : List UInt8) (frame_number : Nat) : qgf_frame_info_t :=
  let info := frame_info file frame_number
  let delta := delta_descriptor ((file.drop (palette_end file frame_number)).take 13)
  if info.is_delta then
    { info with left := delta.left, top := delta.top, right := delta.right, bottom := delta.bottom }
  else info

def data_bytes (file : List UInt8) (frame_number : Nat) : Nat :=
  let rest := file.drop (data_start file frame_number)
  if (frame_info file frame_number).compression_scheme = 1 then (rle_expand rest).length
  else rest.length

def frame_bytes (image : qgf_image_handle_t) (x y : Nat) (file : List UInt8)
    (frame_number : Nat) : Nat :=
  bytes_needed (frame_info file frame_number).format.bpp
    (pixel_count image x y (drawn_info file frame_number))

section

variable (build : Build) (native_bits_per_pixel : Nat) (image : qgf_image_handle_t) (x y : Nat)
  (file : List UInt8) (frame_number : Nat)

def KnownFormat : Prop :=
  (qgf_parse_format (frame_descriptor (frame_block file frame_number)).format).isSome = true

/-- The frame has all that its drawing needs. -/
structure Usable : Prop where
  format : KnownFormat file frame_number
  compression : (frame_info file frame_number).compression_scheme ≤ 1
  palette : palette_end file frame_number ≤ file.length
  data : frame_bytes image x y file frame_number ≤ data_bytes file frame_number

/-- The drawing ends in range, has read only in the file, and is true only for a
frame that is usable. -/
def Safe (result : Except Fault (Bool × qp_memory_stream_t)) : Prop :=
  ∃ ok s, result = .ok (ok, s) ∧ Within file s ∧
    (ok = true → Usable image x y file frame_number)

/-- The build draws a format whose colors have no place in its lookup table, and
the file has a color more than there is place. -/
structure TableTooSmall : Prop where
  capable : qp_internal_bpp_capable build (frame_info file frame_number).format.bpp = true
  palette : (frame_info file frame_number).format.bpp ≤ 8
  colors : build.table_size < 2 ^ (frame_info file frame_number).format.bpp
  entries : (frame_info file frame_number).format.has_palette = true →
    frame_start file frame_number + 16 + 3 * (build.table_size + 1) ≤ file.length

structure RleCut : Prop where
  capable : qp_internal_bpp_capable build (frame_info file frame_number).format.bpp = true
  shown : (frame_info file frame_number).format.bpp ≤ 8 ∨
    (frame_info file frame_number).format.bpp = native_bits_per_pixel
  compression : (frame_info file frame_number).compression_scheme = 1
  palette : palette_end file frame_number ≤ file.length
  data : data_bytes file frame_number < frame_bytes image x y file frame_number

/-- What makes the drawing of a frame safe. -/
structure Drawable : Prop where
  format : KnownFormat file frame_number
  table : ¬ TableTooSmall build file frame_number
  data : ¬ RleCut build native_bits_per_pixel image x y file frame_number

end

section

variable {build : Build} {driver : painter_driver_t} {image : qgf_image_handle_t} {x y : Nat}
  {fg bg : hsv888} {table : List hsv888} {file : List UInt8} {s : qp_memory_stream_t}
  {frame_number : Nat}

theorem prepare_frame (build : Build) (driver : painter_driver_t) (image : qgf_image_handle_t)
    (fg bg : hsv888) (table : List hsv888) (hs : Within file s)
    (hframe : frame_start file frame_number + 11 ≤ file.length) :
    ∃ s₁, Within file s₁ ∧ s₁.position = frame_start file frame_number + 11 ∧
      qp_drawimage_prepare_frame_for_stream_read build driver { image with stream := s }
          frame_number fg bg table =
        if !qp_internal_bpp_capable build (frame_info file frame_number).format.bpp then
          .ok (none, table, s₁)
        else
          (prepare_palette driver (frame_info file frame_number) fg bg table s₁).bind
            fun (ready, table, s) =>
              if !ready then .ok (none, table, s)
              else
                let (info, s) := read_delta_and_data (frame_info file frame_number) s
                .ok (info, table, s) := by
  have hseek := seek_within hs frame_number
  have hstart := seek_position hs frame_number
  unfold qp_drawimage_prepare_frame_for_stream_read frame_info frame_block
  rw [← hstart] at hframe ⊢
  generalize qgf_seek_to_frame_descriptor s frame_number = s₀ at *
  rw [read_fits hseek hframe]
  exact ⟨{ s₀ with position := s₀.position + 11 }, ⟨hseek.buffer, hframe⟩, rfl, rfl⟩

theorem read_blocks (hs : Within file s) (hposition : s.position = palette_end file frame_number)
    (hdata : data_start file frame_number ≤ file.length) :
    ∃ s', read_delta_and_data (frame_info file frame_number) s =
        (some (drawn_info file frame_number), s') ∧ Within file s' ∧
      s'.position = data_start file frame_number := by
  unfold data_start at hdata ⊢
  unfold read_delta_and_data drawn_info
  dsimp only
  cases hdelta : (frame_info file frame_number).is_delta with
  | false =>
    simp only [Bool.false_eq_true, if_false] at hdata ⊢
    rw [← hposition] at hdata ⊢
    have hfits : s.position + 5 ≤ file.length := by omega
    rw [read_fits hs hfits]
    exact ⟨{ s with position := s.position + 5 }, rfl, ⟨hs.buffer, hfits⟩, rfl⟩
  | true =>
    rw [hdelta] at hdata
    simp only [if_true] at hdata ⊢
    rw [← hposition] at hdata ⊢
    have hfits : s.position + 13 ≤ file.length := by omega
    have hnext : Within file { s with position := s.position + 13 } := ⟨hs.buffer, hfits⟩
    rw [read_fits hs hfits]
    dsimp only
    rw [read_fits hnext hdata]
    exact ⟨{ s with position := s.position + 13 + 5 }, rfl, ⟨hs.buffer, hdata⟩, rfl⟩

theorem drawn_info_format (file : List UInt8) (frame_number : Nat) :
    (drawn_info file frame_number).format = (frame_info file frame_number).format ∧
      (drawn_info file frame_number).compression_scheme =
        (frame_info file frame_number).compression_scheme := by
  unfold drawn_info
  generalize frame_info file frame_number = info
  generalize palette_end file frame_number = start
  dsimp only
  split <;> exact ⟨rfl, rfl⟩

theorem known_format (h : KnownFormat file frame_number) :
    ∃ k, qgf_parse_format k = some (frame_info file frame_number).format := by
  refine ⟨(frame_descriptor (frame_block file frame_number)).format, ?_⟩
  obtain ⟨format, hformat⟩ := Option.isSome_iff_exists.mp h
  unfold frame_info qgf_parse_frame_descriptor
  dsimp only
  rw [hformat, Option.getD_some]

theorem unknown_format (h : ¬ KnownFormat file frame_number) :
    (frame_info file frame_number).format = empty_format := by
  have hnone : qgf_parse_format (frame_descriptor (frame_block file frame_number)).format = none := by
    rw [← Option.not_isSome_iff_eq_none]
    exact h
  unfold frame_info qgf_parse_frame_descriptor
  dsimp only
  rw [hnone, Option.getD_none]

variable {input_callback : qp_internal_byte_input_state_t → Int × qp_internal_byte_input_state_t}
  {compression : Nat}

theorem input_spec (h : prepare_input compression = some input_callback) :
    (compression = 0 ∧ input_callback = qp_drawimage_byte_uncompressed_decoder) ∨
      (compression = 1 ∧ input_callback = qp_drawimage_byte_rle_decoder) := by
  unfold prepare_input at h
  split at h
  · exact .inl ⟨rfl, (Option.some.inj h).symm⟩
  · exact .inr ⟨rfl, (Option.some.inj h).symm⟩
  · cases h

theorem data_gives
    (hinput : prepare_input (frame_info file frame_number).compression_scheme = some input_callback)
    (hs : Within file s) (hposition : s.position = data_start file frame_number) (n : Nat) :
    Gives input_callback n (qp_internal_prepare_input_state s) ↔
      (frame_info file frame_number).compression_scheme = 1 ∨
        n ≤ data_bytes file frame_number := by
  unfold data_bytes
  dsimp only
  rcases input_spec hinput with ⟨hcompression, rfl⟩ | ⟨hcompression, rfl⟩
  · have hstart : Within file (qp_internal_prepare_input_state s).src_stream := hs
    have hgives := uncompressed_gives_iff hstart n
    have hlast := hs.position
    rw [hgives, hcompression, if_neg (by decide), List.length_drop, ← hposition]
    change s.position + n ≤ file.length ↔ _
    omega
  · have hgives : Gives qp_drawimage_byte_rle_decoder n (qp_internal_prepare_input_state s) :=
      gives_of_never_ends rle_never_ends n _
    exact ⟨fun _ => .inl hcompression, fun _ => hgives⟩

theorem input_within (hinput : prepare_input compression = some input_callback) :
    ∀ inp, Within file inp.src_stream → Within file (input_callback inp).2.src_stream := by
  intro inp h
  rcases input_spec hinput with ⟨-, rfl⟩ | ⟨-, rfl⟩
  · exact uncompressed_within h
  · exact rle_within h

/-- What a drawing that is true has found. -/
structure Shown (build : Build) (native_bits_per_pixel : Nat) (image : qgf_image_handle_t)
    (x y : Nat) (file : List UInt8) (frame_number : Nat) : Prop where
  capable : qp_internal_bpp_capable build (frame_info file frame_number).format.bpp = true
  shown : (frame_info file frame_number).format.bpp ≤ 8 ∨
    (frame_info file frame_number).format.bpp = native_bits_per_pixel
  compression : (frame_info file frame_number).compression_scheme ≤ 1
  palette : palette_end file frame_number ≤ file.length
  data : (frame_info file frame_number).compression_scheme = 1 ∨
    frame_bytes image x y file frame_number ≤ data_bytes file frame_number

/-- The part of a drawing behind the blocks of the frame. -/
theorem draw_data (driver : painter_driver_t) (image : qgf_image_handle_t) (x y : Nat)
    (hs : Within file s) (hposition : s.position = data_start file frame_number)
    (hknown : KnownFormat file frame_number)
    (hcapable : qp_internal_bpp_capable build (frame_info file frame_number).format.bpp = true)
    (hpalette : palette_end file frame_number ≤ file.length)
    (htable : (frame_info file frame_number).format.bpp ≤ 8 →
      2 ^ (frame_info file frame_number).format.bpp ≤ build.table_size)
   
    (hinput : prepare_input (frame_info file frame_number).compression_scheme = some input_callback) :
    ∃ ok s', qp_internal_appender build driver (frame_info file frame_number).format.bpp
        (pixel_count image x y (drawn_info file frame_number)) input_callback
        (qp_internal_prepare_input_state s) = .ok (ok, s') ∧ Within file s' ∧
      (ok = true → Shown build driver.native_bits_per_pixel image x y file frame_number) ∧
      (Willing driver → Shown build driver.native_bits_per_pixel image x y file frame_number →
        ok = true) := by
  obtain ⟨k, hformat⟩ := known_format hknown
  have hstart : Within file (qp_internal_prepare_input_state s).src_stream := hs
  have hcompression : (frame_info file frame_number).compression_scheme ≤ 1 := by
    rcases input_spec hinput with ⟨h, -⟩ | ⟨h, -⟩ <;> omega
  obtain ⟨ok, s', hrun, hs', hgiven, hok⟩ := appender_spec driver hformat htable
    (pixel_count image x y (drawn_info file frame_number)) (input_within hinput) hstart
  refine ⟨ok, s', hrun, hs', fun h => ?_, fun hwilling hshown => ?_⟩
  · obtain ⟨hshown, hgives⟩ := hgiven h
    exact ⟨hcapable, hshown, hcompression, hpalette, (data_gives hinput hs hposition _).mp hgives⟩
  · exact hok hwilling hshown.shown ((data_gives hinput hs hposition _).mpr hshown.data)

/-- A frame whose table is large enough is drawn in range. The drawing is true only
for what it shows, and with a willing display for all of that. -/
theorem draw_spec (driver : painter_driver_t) (image : qgf_image_handle_t) (x y : Nat)
    (fg bg : hsv888) (hs : Within file s) (hframed : Framed file frame_number)
    (hknown : KnownFormat file frame_number) (htable : table.length = build.table_size)
    (hroom : ¬ TableTooSmall build file frame_number) :
    ∃ ok s', qp_drawimage_recolor_impl build driver x y { image with stream := s } frame_number
        fg bg table = .ok (ok, s') ∧ Within file s' ∧
      (ok = true → Shown build driver.native_bits_per_pixel image x y file frame_number) ∧
      (Willing driver → Shown build driver.native_bits_per_pixel image x y file frame_number →
        ok = true) := by
  obtain ⟨k, hformat⟩ := known_format hknown
  obtain ⟨hbpp, hcompression⟩ := drawn_info_format file frame_number
  obtain ⟨s₁, hs₁, hposition₁, hprepare⟩ := prepare_frame build driver image fg bg table hs
    hframed.descriptor
  unfold qp_drawimage_recolor_impl
  rw [hprepare]
  cases hcapable : qp_internal_bpp_capable build (frame_info file frame_number).format.bpp with
  | false =>
    refine ⟨false, s₁, rfl, hs₁, by simp, fun _ hshown => ?_⟩
    have := hshown.capable
    rw [hcapable] at this
    exact this
  | true =>
    have hfits : (frame_info file frame_number).format.bpp ≤ 8 →
        table.length < 2 ^ (frame_info file frame_number).format.bpp →
        (frame_info file frame_number).format.has_palette = true ∧
          file.length < s₁.position + 5 + 3 * (table.length + 1) := by
      intro hsmall hcolors
      rw [htable] at hcolors ⊢
      by_contra hno
      refine hroom ⟨hcapable, hsmall, hcolors, fun hpalette => ?_⟩
      by_contra hshort
      exact hno ⟨hpalette, by omega⟩
    obtain ⟨ready, table', s₂, hpalette, hs₂, hready, hconverted⟩ :=
      prepare_fits driver fg bg hs₁ hformat hfits
    rw [hpalette]
    rw [hposition₁] at hready hconverted
    cases ready with
    | false =>
      refine ⟨false, s₂, rfl, hs₂, by simp, fun hwilling hshown => ?_⟩
      exact hconverted hshown.palette hwilling.palette_convert
    | true =>
      obtain ⟨hend, hposition₂⟩ := hready rfl
      have hcolors : (frame_info file frame_number).format.bpp ≤ 8 →
          2 ^ (frame_info file frame_number).format.bpp ≤ build.table_size := by
        intro hsmall
        by_contra hlarge
        rw [← htable] at hlarge
        obtain ⟨hkind, hshort⟩ := hfits hsmall (Nat.lt_of_not_le hlarge)
        unfold format_t.palette_length at hend
        rw [if_pos hkind] at hend
        omega
      obtain ⟨s₃, hblocks, hs₃, hposition₃⟩ := read_blocks hs₂ hposition₂ (hframed.blocks hend)
      simp only [Bool.not_true, Bool.false_eq_true, if_false, Except.bind, hblocks]
      rw [hcompression, hbpp]
      split
      · rename_i hcomms
        refine ⟨false, s₃, rfl, hs₃, by simp, fun hwilling _ => ?_⟩
        rw [hwilling.comms_start] at hcomms
        simp at hcomms
      · split
        · rename_i hviewport
          refine ⟨false, s₃, rfl, hs₃, by simp, fun hwilling _ => ?_⟩
          rw [hwilling.viewport] at hviewport
          simp at hviewport
        · cases hinput : prepare_input (frame_info file frame_number).compression_scheme with
          | none =>
            refine ⟨false, s₃, rfl, hs₃, by simp, fun _ hshown => ?_⟩
            rcases Nat.le_one_iff_eq_zero_or_eq_one.mp hshown.compression with hscheme | hscheme
            · rw [hscheme] at hinput
              cases hinput
            · rw [hscheme] at hinput
              cases hinput
          | some input_callback =>
            exact draw_data driver image x y hs₃ hposition₃ hknown hcapable hend hcolors hinput

/-! ## Unsafe drawings -/

theorem unknown_format_divides (driver : painter_driver_t) (image : qgf_image_handle_t) (x y : Nat)
    (fg bg : hsv888) (table : List hsv888) (hs : Within file s)
    (hframe : frame_start file frame_number + 11 ≤ file.length)
    (hunknown : ¬ KnownFormat file frame_number) :
    qp_drawimage_recolor_impl build driver x y { image with stream := s } frame_number fg bg table =
      .error .division_by_zero := by
  have hempty := unknown_format hunknown
  obtain ⟨s₁, -, -, hprepare⟩ := prepare_frame build driver image fg bg table hs hframe
  have hcapable : qp_internal_bpp_capable build empty_format.bpp = true := by
    unfold qp_internal_bpp_capable empty_format
    cases build.SUPPORTS_NATIVE_COLORS <;> cases build.SUPPORTS_256_PALETTE <;> rfl
  unfold qp_drawimage_recolor_impl
  rw [hprepare, hempty, hcapable, prepare_unknown hempty]
  rfl

theorem small_table_overflows (driver : painter_driver_t) (image : qgf_image_handle_t) (x y : Nat)
    (fg bg : hsv888) (htable : table.length = build.table_size) (hs : Within file s)
    (hframe : frame_start file frame_number + 11 ≤ file.length)
    (hknown : KnownFormat file frame_number) (hsmall : TableTooSmall build file frame_number) :
    qp_drawimage_recolor_impl build driver x y { image with stream := s } frame_number fg bg table =
      .error .lookup_table := by
  obtain ⟨k, hformat⟩ := known_format hknown
  obtain ⟨hcapable, hpalette, hcolors, hentries⟩ := hsmall
  obtain ⟨s₁, hs₁, hposition, hprepare⟩ := prepare_frame build driver image fg bg table hs hframe
  have hbehind : (frame_info file frame_number).format.has_palette = true →
      s₁.position + 5 + 3 * (table.length + 1) ≤ file.length := by
    intro hkind
    have := hentries hkind
    omega
  unfold qp_drawimage_recolor_impl
  rw [hprepare, hcapable,
    prepare_overflows hs₁ hformat hpalette (by rw [htable]; exact hcolors) hbehind]
  rfl

/-! ## Accepted images -/

def declared_file (buffer : List UInt8) : List UInt8 := buffer.take (field buffer 9 4)

theorem total_size_declared (buffer : List UInt8) :
    (qgf_get_total_size (qp_make_memory_stream (buffer.take 23))).1 = 0 ∨
      (qgf_get_total_size (qp_make_memory_stream (buffer.take 23))).1 = field buffer 9 4 := by
  unfold qgf_get_total_size
  split
  · exact .inl rfl
  · rename_i desc s₁ hread
    refine .inr ?_
    unfold qgf_read_graphics_descriptor qp_make_memory_stream at hread
    rw [setpos_zero] at hread
    dsimp only at hread ⊢
    by_cases hfits : 23 ≤ (buffer.take 23).length
    · rw [read_fits (within_zero (buffer.take 23)) (by dsimp only; omega)] at hread
      dsimp only at hread
      split at hread
      · cases hread
        change field (((buffer.take 23).drop 0).take 23) 9 4 = field buffer 9 4
        unfold field
        rw [List.drop_zero, List.take_take, List.drop_take, List.take_take]
        rfl
      · cases hread
    · have hnone := read_short (n := 23) (within_zero (buffer.take 23)) (by dsimp only; omega)
      split at hread
      · cases hread
      · rename_i hblock
        rw [hblock] at hnone
        cases hnone

theorem frames_within {frames : List Nat} (h : Within file s) :
    Within file (validate_frames frames s).2 := by
  induction frames generalizing s with
  | nil => exact h
  | cons i frames ih =>
    unfold validate_frames
    dsimp only
    split
    · exact ih (frame_within h i)
    · exact frame_within h i

theorem stream_within (h : Within file s) : Within file (qgf_validate_stream s).2 := by
  have hgraphics := graphics_within h
  unfold qgf_validate_stream
  split <;> rename_i hread <;> rw [hread] at hgraphics
  · exact hgraphics
  · exact frames_within hgraphics

theorem nothing_is_rejected (h : Within [] s) : (qgf_validate_stream s).1 = false := by
  by_contra hok
  rw [Bool.not_eq_false] at hok
  obtain ⟨desc, hdesc, -⟩ := framed_of_stream h hok
  have hlength := (descriptor_in_file hdesc).1
  rw [List.length_nil] at hlength
  omega

/-- An accepted image is read from the declared bytes, and all its frames have
been validated there. -/
theorem accepted {buffer : List UInt8} (h : qp_load_image_mem buffer = some image) :
    Within (declared_file buffer) image.stream ∧
      ∃ desc, file_descriptor (declared_file buffer) = some desc ∧
        ∀ i < desc.frame_count, Framed (declared_file buffer) i := by
  have htotal := total_size_declared buffer
  unfold qp_load_image_mem at h
  dsimp only at h
  generalize (qgf_get_total_size (qp_make_memory_stream (buffer.take 23))).1 = total at h htotal
  generalize (qgf_get_total_size (qp_make_memory_stream (buffer.take 23))).2 = s₀ at h
  generalize hstart : ({ s₀ with
    buffer := buffer.take (if total < 0x80000000 then total else 0)
    position := 0 } : qp_memory_stream_t) = s at h
  have hbuffer : s.buffer = buffer.take (if total < 0x80000000 then total else 0) := by
    rw [← hstart]
  have hs : Within s.buffer s := ⟨rfl, by rw [← hstart]; exact Nat.zero_le _⟩
  have hvalid : (qgf_validate_stream s).1 = true := by
    cases hok : (qgf_validate_stream s).1 with
    | true => rfl
    | false =>
      split at h
      · cases h
      · rename_i hread
        rw [hread] at hok
        cases hok
  have hdeclared : s.buffer = declared_file buffer := by
    by_contra hother
    have hnothing : s.buffer = [] := by
      rw [hbuffer] at hother ⊢
      rcases htotal with hzero | hfield
      · rw [hzero]
        rfl
      · split at hother
        · rw [hfield] at hother
          exact absurd rfl hother
        · rename_i hlarge
          rw [if_neg hlarge]
          rfl
    rw [hnothing] at hs
    rw [nothing_is_rejected hs] at hvalid
    cases hvalid
  rw [hdeclared] at hs
  refine ⟨?_, framed_of_stream hs hvalid⟩
  have hend := graphics_within (stream_within hs)
  split at h
  · cases h
  · rename_i s₁ hread
    rw [hread] at hend
    split at h
    · rename_i s₂ hgraphics
      rw [hgraphics] at hend
      cases h
      exact hend
    · rename_i desc s₂ hgraphics
      rw [hgraphics] at hend
      cases h
      exact hend

variable {desc : qgf_graphics_descriptor_v1_t}

theorem known_frame (h : file_descriptor file = some desc)
    (hknown : KnownFormat file frame_number) :
    frame_number < desc.frame_count := by
  by_contra hbehind
  have hstart := start_behind_frames h (Nat.le_of_not_lt hbehind)
  have hfield := (descriptor_in_file h).2
  unfold KnownFormat frame_block frame_descriptor at hknown
  dsimp only at hknown
  rw [hstart, List.drop_zero, hfield] at hknown
  cases hknown

theorem descriptor_fits (h : file_descriptor file = some desc)
    (hframed : ∀ i < desc.frame_count, Framed file i) (frame_number : Nat) :
    frame_start file frame_number + 11 ≤ file.length := by
  by_cases hlt : frame_number < desc.frame_count
  · exact (hframed frame_number hlt).descriptor
  · have hstart := start_behind_frames h (Nat.le_of_not_lt hlt)
    have hlength := (descriptor_in_file h).1
    omega

/-- A display of which every call succeeds. -/
def willing_driver (bits : Nat) (hpos : 0 < bits) (hle : bits ≤ 128) : painter_driver_t :=
  ⟨bits, hpos, hle, true, true, true, fun _ => true, fun _ => true⟩

theorem willing_driver_willing (bits : Nat) (hpos : 0 < bits) (hle : bits ≤ 128) :
    Willing (willing_driver bits hpos hle) :=
  ⟨rfl, rfl, rfl, fun _ => rfl, fun _ => rfl⟩

/-- Of an accepted image, any frame at any time is drawn safely on every display if
and only if it is drawable. -/
theorem accepted_frames_are_drawn_safely_iff {buffer : List UInt8}
    (h : qp_load_image_mem buffer = some image) :
    Within (declared_file buffer) image.stream ∧
      ∀ (build : Build) (bits : Nat), 0 < bits → bits ≤ 128 → ∀ (x y frame_number : Nat)
        (s : qp_memory_stream_t), Within (declared_file buffer) s →
        ((∀ driver : painter_driver_t, driver.native_bits_per_pixel = bits →
            ∀ (fg bg : hsv888) (table : List hsv888), table.length = build.table_size →
              Safe image x y (declared_file buffer) frame_number
                (qp_drawimage_recolor_impl build driver x y { image with stream := s }
                  frame_number fg bg table)) ↔
          Drawable build bits image x y (declared_file buffer) frame_number) := by
  obtain ⟨hstream, desc, hdesc, hframed⟩ := accepted h
  refine ⟨hstream, fun build bits hpos hle x y frame_number s hs => ⟨fun hsafe => ?_, ?_⟩⟩
  · -- one willing display tells
    have hframe := descriptor_fits hdesc hframed frame_number
    have hblank : (List.replicate build.table_size (⟨0, 0, 0⟩ : hsv888)).length =
        build.table_size := List.length_replicate
    obtain ⟨ok, s', hrun, -, husable⟩ := hsafe (willing_driver bits hpos hle) rfl ⟨0, 0, 0⟩
      ⟨0, 0, 0⟩ _ hblank
    by_cases hknown : KnownFormat (declared_file buffer) frame_number
    · have hroom : ¬ TableTooSmall build (declared_file buffer) frame_number := by
        intro hsmall
        rw [small_table_overflows _ _ _ _ _ _ hblank hs hframe hknown hsmall] at hrun
        cases hrun
      refine ⟨hknown, hroom, fun hcut => ?_⟩
      obtain ⟨ok', s'', hrun', -, -, hok⟩ := draw_spec (willing_driver bits hpos hle) image x y
        ⟨0, 0, 0⟩ ⟨0, 0, 0⟩ hs (hframed frame_number (known_frame hdesc hknown)) hknown hblank hroom
      rw [hrun'] at hrun
      cases hrun
      have hshown : Shown build bits image x y (declared_file buffer) frame_number :=
        ⟨hcut.capable, hcut.shown, Nat.le_of_eq hcut.compression, hcut.palette,
          .inl hcut.compression⟩
      have hdata := (husable (hok (willing_driver_willing bits hpos hle) hshown)).data
      exact absurd hcut.data (Nat.not_lt.mpr hdata)
    · rw [unknown_format_divides _ _ _ _ _ _ _ hs hframe hknown] at hrun
      cases hrun
  · rintro ⟨hknown, hroom, hdata⟩ driver rfl fg bg table htable
    obtain ⟨ok, s', hrun, hs', hshown, -⟩ := draw_spec driver image x y fg bg hs
      (hframed frame_number (known_frame hdesc hknown)) hknown htable hroom
    refine ⟨ok, s', hrun, hs', fun hok => ?_⟩
    obtain ⟨hcapable, hbits, hcompression, hpalette, hgiven⟩ := hshown hok
    refine ⟨hknown, hcompression, hpalette, ?_⟩
    rcases hgiven with hrle | henough
    · by_contra hshort
      exact hdata ⟨hcapable, hbits, hrle, hpalette, Nat.lt_of_not_le hshort⟩
    · exact henough

end

/-! ## Small images -/

/-- An image of one pixel, of a format without a palette and with one byte of data. -/
def small_image (format : UInt8) : List UInt8 :=
  [0x00, 0xff, 18, 0, 0, 0x51, 0x47, 0x46, 1, 49, 0, 0, 0, 0xce, 0xff, 0xff, 0xff, 1, 0, 1, 0, 1, 0,
    0x01, 0xfe, 4, 0, 0, 32, 0, 0, 0,
    0x02, 0xfd, 6, 0, 0, format, 0, 0, 0, 0, 0,
    0x05, 0xfa, 1, 0, 0, 0]

def native_build : Build := ⟨false, true, 32, by decide, by decide⟩

def gray_driver : painter_driver_t := willing_driver 1 (by decide) (by decide)

theorem a_gray_pixel_is_drawn_safely :
    ∃ image, qp_load_image_mem (small_image 0) = some image ∧
      Safe image 0 0 (declared_file (small_image 0)) 0
        (qp_drawimage_recolor_impl native_build gray_driver 0 0 image 0 ⟨0, 0, 255⟩ ⟨0, 0, 0⟩
          (List.replicate 16 ⟨0, 0, 0⟩)) := by
  have hsome : (qp_load_image_mem (small_image 0)).isSome = true := by decide
  obtain ⟨image, himage⟩ := Option.isSome_iff_exists.mp hsome
  refine ⟨image, himage, ?_⟩
  have hdrawable : Drawable native_build 1 image 0 0 (declared_file (small_image 0)) 0 := by
    refine ⟨by unfold KnownFormat; decide, fun hsmall => ?_, fun hcut => ?_⟩
    · exact absurd hsmall.colors (by decide)
    · exact absurd hcut.compression (by decide)
  obtain ⟨hstream, hiff⟩ := accepted_frames_are_drawn_safely_iff himage
  exact (hiff native_build 1 (by decide) (by decide) 0 0 0 image.stream hstream).mpr hdrawable
    gray_driver rfl _ _ _ rfl

/-- A format that is not in the table divides by zero, and an image of 256 grays has no
place in a lookup table of 16. -/
theorem accepted_images_divide_by_zero_and_overflow :
    ((qp_load_image_mem (small_image 10)).map fun image =>
        qp_drawimage_recolor_impl native_build gray_driver 0 0 image 0 ⟨0, 0, 255⟩ ⟨0, 0, 0⟩
          (List.replicate 16 ⟨0, 0, 0⟩)) = some (.error .division_by_zero) ∧
      ((qp_load_image_mem (small_image 3)).map fun image =>
        qp_drawimage_recolor_impl native_build gray_driver 0 0 image 0 ⟨0, 0, 255⟩ ⟨0, 0, 0⟩
          (List.replicate 16 ⟨0, 0, 0⟩)) = some (.error .lookup_table) := by
  constructor <;> rfl

end keychron_qmk.painter
