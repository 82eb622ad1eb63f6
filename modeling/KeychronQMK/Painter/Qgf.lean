-- Graphics files (`quantum/painter/qgf.c`): reading and moving in a memory
-- stream, the blocks of a file, and what its validation knows of a frame.
import KeychronQMK.Painter.Rle

namespace keychron_qmk.painter

/-! ## Reading and moving -/

def qp_stream_read : Nat → qp_memory_stream_t → Option (List UInt8) × qp_memory_stream_t
  | 0, s => (some [], s)
  | n + 1, s =>
    let (c, s) := qp_stream_get s
    if c < 0 then (none, s)
    else
      let (output_buf, s) := qp_stream_read n s
      (output_buf.map (UInt8.ofInt c :: ·), s)

/-- The end of `mem_seek`: a position outside the stream is ignored. A sum of
`int32_t` that overflows is past the end, and is ignored too. -/
def mem_seek (s : qp_memory_stream_t) (position : Int) : qp_memory_stream_t :=
  if position < 0 ∨ s.buffer.length < position then s
  else { s with position := position.toNat, is_eof := false }

/-- The offset is read as an `int32_t`: one that is negative is ignored. -/
def qp_stream_setpos (s : qp_memory_stream_t) (offset : Nat) : qp_memory_stream_t :=
  if offset < 0x80000000 then mem_seek s offset else s

def qp_stream_skip (s : qp_memory_stream_t) (offset : Nat) : qp_memory_stream_t :=
  mem_seek s (s.position + offset)

/-! ## Blocks -/

/-- A number of a few bytes, the lowest first. -/
def le (bytes : List UInt8) : Nat := bytes.foldr (fun b n => b.toNat + 256 * n) 0

/-- The number at some bytes of a block. -/
def field (block : List UInt8) (offset size : Nat) : Nat := le ((block.drop offset).take size)

structure qgf_block_header_v1_t where
  type_id : UInt8
  neg_type_id : UInt8
  length : Nat
  deriving DecidableEq

def block_header (block : List UInt8) : qgf_block_header_v1_t :=
  ⟨block.getD 0 0, block.getD 1 0, field block 2 3⟩

def qgf_validate_block_header (desc : qgf_block_header_v1_t) (expected_typeid : UInt8)
    (expected_length : Option Nat) : Bool :=
  desc.type_id = expected_typeid && desc.neg_type_id = ~~~expected_typeid &&
    expected_length.all (desc.length = ·)

def QGF_MAGIC : Nat := 0x464751

structure qgf_graphics_descriptor_v1_t where
  header : qgf_block_header_v1_t
  magic : Nat
  qgf_version : Nat
  total_file_size : Nat
  neg_total_file_size : Nat
  image_width : Nat
  image_height : Nat
  frame_count : Nat

def graphics_descriptor (block : List UInt8) : qgf_graphics_descriptor_v1_t where
  header := block_header block
  magic := field block 5 3
  qgf_version := field block 8 1
  total_file_size := field block 9 4
  neg_total_file_size := field block 13 4
  image_width := field block 17 2
  image_height := field block 19 2
  frame_count := field block 21 2

structure qgf_frame_v1_t where
  header : qgf_block_header_v1_t
  format : Nat
  flags : UInt8
  compression_scheme : Nat
  delay : Nat

def frame_descriptor (block : List UInt8) : qgf_frame_v1_t where
  header := block_header block
  format := field block 5 1
  flags := block.getD 6 0
  compression_scheme := field block 7 1
  delay := field block 9 2

structure qgf_delta_v1_t where
  header : qgf_block_header_v1_t
  left : Nat
  top : Nat
  right : Nat
  bottom : Nat

def delta_descriptor (block : List UInt8) : qgf_delta_v1_t where
  header := block_header block
  left := field block 5 2
  top := field block 7 2
  right := field block 9 2
  bottom := field block 11 2

/-! ## Frame descriptors -/

structure format_t where
  bpp : Nat
  has_palette : Bool
  is_panel_native : Bool
  deriving DecidableEq

def RGB888_24BPP : Nat := 9

def formats : List format_t :=
  [⟨1, false, false⟩, ⟨2, false, false⟩, ⟨4, false, false⟩, ⟨8, false, false⟩, ⟨1, true, false⟩,
    ⟨2, true, false⟩, ⟨4, true, false⟩, ⟨8, true, false⟩, ⟨16, false, true⟩, ⟨24, false, true⟩]

def qgf_parse_format (format : Nat) : Option format_t :=
  if RGB888_24BPP < format then none else formats[format]?

structure qgf_frame_info_t where
  compression_scheme : Nat
  format : format_t
  is_delta : Bool
  left : Nat
  top : Nat
  right : Nat
  bottom : Nat
  delay : Nat
  deriving DecidableEq

/-- What the callers have in the outputs before the call. -/
def empty_format : format_t := ⟨0, false, false⟩

/-- Whether the format was found is not looked at. -/
def qgf_parse_frame_descriptor (frame_descriptor : qgf_frame_v1_t) : qgf_frame_info_t where
  compression_scheme := frame_descriptor.compression_scheme
  format := (qgf_parse_format frame_descriptor.format).getD empty_format
  is_delta := frame_descriptor.flags &&& 0x02 = 0x02
  left := 0
  top := 0
  right := 0
  bottom := 0
  delay := frame_descriptor.delay

/-! ## Validation -/

section

variable (s : qp_memory_stream_t)

def qgf_read_graphics_descriptor : Option qgf_graphics_descriptor_v1_t × qp_memory_stream_t :=
  match qp_stream_read 23 (qp_stream_setpos s 0) with
  | (none, s) => (none, s)
  | (some block, s) =>
    let desc := graphics_descriptor block
    if qgf_validate_block_header desc.header 0x00 (some 18) = true ∧ desc.magic = QGF_MAGIC ∧
        desc.qgf_version = 0x01 ∧ desc.neg_total_file_size = 0xffffffff - desc.total_file_size then
      (some desc, s)
    else (none, s)

def qgf_read_frame_offset (frame_number : Nat) : Option Nat × qp_memory_stream_t :=
  match qgf_read_graphics_descriptor s with
  | (none, s) => (none, s)
  | (some desc, s) =>
    match qp_stream_read 5 s with
    | (none, s) => (none, s)
    | (some block, s) =>
      if ¬ qgf_validate_block_header (block_header block) 0x01 (some (desc.frame_count * 4)) then
        (none, s)
      else if desc.frame_count ≤ frame_number then (none, s)
      else
        match qp_stream_read 4 (qp_stream_skip s (frame_number * 4)) with
        | (none, s) => (none, s)
        | (some block, s) => (some (le block), s)

def qgf_seek_to_frame_descriptor (frame_number : Nat) : qp_memory_stream_t :=
  let (offset, s) := qgf_read_frame_offset s frame_number
  qp_stream_setpos s (offset.getD 0)

def qgf_validate_frame_descriptor (frame_number : Nat) :
    Option qgf_frame_info_t × qp_memory_stream_t :=
  match qp_stream_read 11 (qgf_seek_to_frame_descriptor s frame_number) with
  | (none, s) => (none, s)
  | (some block, s) =>
    let desc := frame_descriptor block
    if qgf_validate_block_header desc.header 0x02 (some 6) then
      (some (qgf_parse_frame_descriptor desc), s)
    else (none, s)

def validate_block (size : Nat) (typeid : UInt8) (expected_length : Option Nat) :
    Bool × qp_memory_stream_t :=
  match qp_stream_read size s with
  | (none, s) => (false, s)
  | (some block, s) => (qgf_validate_block_header (block_header block) typeid expected_length, s)

def qgf_validate_palette_descriptor (bpp : Nat) : Bool × qp_memory_stream_t :=
  let expected_length := 2 ^ bpp * 3
  let (ok, s) := validate_block s 5 0x03 (some expected_length)
  (ok, if ok then qp_stream_skip s expected_length else s)

def qgf_validate_delta_descriptor : Bool × qp_memory_stream_t := validate_block s 13 0x04 (some 8)

def qgf_validate_frame_data_descriptor : Bool × qp_memory_stream_t := validate_block s 5 0x05 none

def validate_delta_and_data (is_delta : Bool) : Bool × qp_memory_stream_t :=
  let (delta_ok, s) := if is_delta then qgf_validate_delta_descriptor s else (true, s)
  if ¬ delta_ok then (false, s) else qgf_validate_frame_data_descriptor s

def validate_blocks (info : qgf_frame_info_t) : Bool × qp_memory_stream_t :=
  let (palette_ok, s) :=
    if info.format.has_palette then qgf_validate_palette_descriptor s info.format.bpp
    else (true, s)
  if ¬ palette_ok then (false, s) else validate_delta_and_data s info.is_delta

def validate_frame (frame_number : Nat) : Bool × qp_memory_stream_t :=
  match qgf_validate_frame_descriptor s frame_number with
  | (none, s) => (false, s)
  | (some info, s) => validate_blocks s info

def validate_frames : List Nat → qp_memory_stream_t → Bool × qp_memory_stream_t
  | [], s => (true, s)
  | i :: frames, s =>
    let (ok, s) := validate_frame s i
    if ok then validate_frames frames s else (false, s)

def qgf_validate_stream : Bool × qp_memory_stream_t :=
  match qgf_read_graphics_descriptor s with
  | (none, s) => (false, s)
  | (some desc, s) => validate_frames (List.range desc.frame_count) s

def qgf_get_total_size : Nat × qp_memory_stream_t :=
  match qgf_read_graphics_descriptor s with
  | (none, s') => (0, s')
  | (some desc, s') => (desc.total_file_size, qp_stream_setpos s' s.position)

end

/-! ## Inside the file -/

/-- The stream reads the bytes of the file, at a position inside it. -/
structure Within (file : List UInt8) (s : qp_memory_stream_t) : Prop where
  buffer : s.buffer = file
  position : s.position ≤ file.length

section

variable {file : List UInt8} {s : qp_memory_stream_t}

theorem Within.get (h : Within file s) : Within file (qp_stream_get s).2 := by
  obtain ⟨hbuffer, hposition⟩ := h
  unfold qp_stream_get
  split
  · exact ⟨hbuffer, hposition⟩
  · rename_i hmore
    rw [hbuffer] at hmore
    exact ⟨hbuffer, Nat.lt_of_not_le hmore⟩

theorem Within.seek (h : Within file s) (position : Int) : Within file (mem_seek s position) := by
  obtain ⟨hbuffer, hposition⟩ := h
  unfold mem_seek
  split
  · exact ⟨hbuffer, hposition⟩
  · rename_i hin
    rw [hbuffer] at hin
    refine ⟨hbuffer, ?_⟩
    change position.toNat ≤ file.length
    omega

theorem Within.setpos (h : Within file s) (offset : Nat) :
    Within file (qp_stream_setpos s offset) := by
  unfold qp_stream_setpos
  split
  · exact h.seek _
  · exact h

theorem read_within (n : Nat) (h : Within file s) : Within file (qp_stream_read n s).2 := by
  induction n generalizing s with
  | zero => exact h
  | succ n ih =>
    unfold qp_stream_read
    dsimp only
    split
    · exact h.get
    · exact ih h.get

theorem get_fits (h : Within file s) (hfits : s.position < file.length) :
    qp_stream_get s = (((file[s.position]).toNat : Int), { s with position := s.position + 1 }) := by
  obtain ⟨hbuffer, -⟩ := h
  unfold qp_stream_get
  rw [if_neg (by rw [hbuffer]; omega), hbuffer]
  simp [List.getD, hfits]

theorem get_end (h : Within file s) (hend : file.length ≤ s.position) :
    (qp_stream_get s).1 = STREAM_EOF := by
  unfold qp_stream_get
  rw [if_pos (by rw [h.buffer]; exact hend)]

variable {n size frame_number : Nat}

theorem read_fits (h : Within file s) (hfits : s.position + n ≤ file.length) :
    qp_stream_read n s =
      (some ((file.drop s.position).take n), { s with position := s.position + n }) := by
  induction n generalizing s with
  | zero => rfl
  | succ n ih =>
    have hget := get_fits h (by omega)
    have hnext : Within file { s with position := s.position + 1 } :=
      ⟨h.buffer, by dsimp only; omega⟩
    unfold qp_stream_read
    rw [hget]
    dsimp only
    rw [if_neg (by omega), ih hnext (by dsimp only; omega)]
    have hfirst : s.position < file.length := by omega
    rw [Option.map_some, ofInt_toNat, List.drop_eq_getElem_cons hfirst, List.take_succ_cons,
      Nat.add_assoc, Nat.add_comm 1]

theorem read_short (h : Within file s) (hshort : file.length < s.position + n) :
    (qp_stream_read n s).1 = none := by
  induction n generalizing s with
  | zero =>
    have := h.position
    omega
  | succ n ih =>
    unfold qp_stream_read
    dsimp only
    by_cases hmore : s.position < file.length
    · have hnext : Within file { s with position := s.position + 1 } :=
        ⟨h.buffer, by dsimp only; omega⟩
      rw [get_fits h hmore]
      dsimp only
      rw [if_neg (by omega), ih hnext (by dsimp only; omega)]
      rfl
    · rw [get_end h (by omega), if_pos (by decide)]

theorem setpos_zero (s : qp_memory_stream_t) : qp_stream_setpos s 0 = ⟨s.buffer, 0, false⟩ := by
  unfold qp_stream_setpos mem_seek
  rfl

theorem within_zero (file : List UInt8) : Within file ⟨file, 0, false⟩ := ⟨rfl, Nat.zero_le _⟩

theorem skip_fits (h : Within file s) (hfits : s.position + n ≤ file.length) :
    (qp_stream_skip s n).position = s.position + n := by
  unfold qp_stream_skip mem_seek
  rw [if_neg (by rw [h.buffer]; omega)]
  dsimp only
  omega

theorem Within.of_read {block : Option (List UInt8)} {s' : qp_memory_stream_t} (h : Within file s)
    (hread : qp_stream_read n s = (block, s')) : Within file s' := by
  have hwithin := read_within n h
  rwa [hread] at hwithin

theorem graphics_within (h : Within file s) : Within file (qgf_read_graphics_descriptor s).2 := by
  unfold qgf_read_graphics_descriptor
  split
  · rename_i hread
    exact (h.setpos _).of_read hread
  · rename_i hread
    dsimp only
    split_ifs <;> exact (h.setpos _).of_read hread

theorem graphics_eq (h : Within file s) :
    qgf_read_graphics_descriptor s = qgf_read_graphics_descriptor ⟨file, 0, false⟩ := by
  unfold qgf_read_graphics_descriptor
  rw [setpos_zero, setpos_zero, h.buffer]

theorem seek_eq (h : Within file s) (frame_number : Nat) :
    qgf_seek_to_frame_descriptor s frame_number =
      qgf_seek_to_frame_descriptor ⟨file, 0, false⟩ frame_number := by
  unfold qgf_seek_to_frame_descriptor qgf_read_frame_offset
  rw [graphics_eq h]

theorem seek_within (h : Within file s) (frame_number : Nat) :
    Within file (qgf_seek_to_frame_descriptor s frame_number) := by
  unfold qgf_seek_to_frame_descriptor
  dsimp only
  refine Within.setpos ?_ _
  unfold qgf_read_frame_offset
  have hgraphics := graphics_within h
  split
  · rename_i hread
    rwa [hread] at hgraphics
  · rename_i desc s₁ hread
    rw [hread] at hgraphics
    split
    · rename_i hread₂
      exact hgraphics.of_read hread₂
    · rename_i hread₂
      have hoffsets := hgraphics.of_read hread₂
      split_ifs
      · exact hoffsets
      · split <;> rename_i hread₃ <;> exact (hoffsets.seek _).of_read hread₃
      · exact hoffsets

/-! ## What validation knows -/

def frame_start (file : List UInt8) (frame_number : Nat) : Nat :=
  (qgf_seek_to_frame_descriptor ⟨file, 0, false⟩ frame_number).position

def frame_block (file : List UInt8) (frame_number : Nat) : List UInt8 :=
  (file.drop (frame_start file frame_number)).take 11

def frame_info (file : List UInt8) (frame_number : Nat) : qgf_frame_info_t :=
  qgf_parse_frame_descriptor (frame_descriptor (frame_block file frame_number))

def format_t.palette_length (format : format_t) : Nat :=
  if format.has_palette then 5 + 3 * 2 ^ format.bpp else 0

def palette_end (file : List UInt8) (frame_number : Nat) : Nat :=
  frame_start file frame_number + 11 + (frame_info file frame_number).format.palette_length

def data_start (file : List UInt8) (frame_number : Nat) : Nat :=
  palette_end file frame_number + (if (frame_info file frame_number).is_delta then 13 else 0) + 5

variable {expected_length : Option Nat}

theorem validate_block_fits {typeid : UInt8} (h : Within file s)
    (hok : (validate_block s size typeid expected_length).1 = true) :
    s.position + size ≤ file.length ∧
      Within file (validate_block s size typeid expected_length).2 ∧
      (validate_block s size typeid expected_length).2.position = s.position + size := by
  by_cases hfits : s.position + size ≤ file.length
  · unfold validate_block
    rw [read_fits h hfits]
    exact ⟨hfits, ⟨h.buffer, hfits⟩, rfl⟩
  · have hnone := read_short h (Nat.lt_of_not_le hfits)
    unfold validate_block at hok
    split at hok
    · cases hok
    · rename_i hread
      rw [hread] at hnone
      cases hnone

theorem seek_position (h : Within file s) (frame_number : Nat) :
    (qgf_seek_to_frame_descriptor s frame_number).position = frame_start file frame_number := by
  rw [seek_eq h, frame_start]

variable {s₀ : qp_memory_stream_t}

theorem validated_delta (h : Within file s₀) (is_delta : Bool)
    (hok : (validate_delta_and_data s₀ is_delta).1 = true) :
    s₀.position + (if is_delta then 13 else 0) + 5 ≤ file.length := by
  unfold validate_delta_and_data at hok
  cases is_delta with
  | false => exact (validate_block_fits h hok).1
  | true =>
    dsimp only at hok
    rw [if_pos rfl] at hok ⊢
    split at hok
    · cases hok
    · rename_i hdelta
      rw [not_not] at hdelta
      obtain ⟨-, hwithin, hposition⟩ := validate_block_fits h hdelta
      have hfits := (validate_block_fits hwithin hok).1
      rw [hposition] at hfits
      exact hfits

/-- The blocks behind a frame descriptor with a palette that is in the file. -/
theorem validated_blocks (h : Within file s₀) {info : qgf_frame_info_t}
    (hok : (validate_blocks s₀ info).1 = true)
    (hpalette : s₀.position + info.format.palette_length ≤ file.length) :
    s₀.position + info.format.palette_length + (if info.is_delta then 13 else 0) + 5 ≤
      file.length := by
  unfold format_t.palette_length at hpalette ⊢
  unfold validate_blocks at hok
  dsimp only at hok
  cases hkind : info.format.has_palette with
  | false =>
    rw [hkind] at hok
    exact validated_delta h info.is_delta hok
  | true =>
    rw [hkind, if_pos rfl] at hok hpalette
    rw [if_pos rfl]
    split at hok
    · cases hok
    · rename_i hheader
      rw [not_not] at hheader
      obtain ⟨-, hwithin, hposition⟩ := validate_block_fits h hheader
      have hskip := skip_fits (n := 2 ^ info.format.bpp * 3) hwithin (by omega)
      have hentries : (qgf_validate_palette_descriptor s₀ info.format.bpp).2 =
          qp_stream_skip (validate_block s₀ 5 0x03 (some (2 ^ info.format.bpp * 3))).2
            (2 ^ info.format.bpp * 3) := by
        unfold qgf_validate_palette_descriptor at hheader ⊢
        dsimp only at hheader ⊢
        rw [if_pos hheader]
      rw [hentries] at hok
      have hfits := validated_delta (hwithin.seek _) info.is_delta hok
      unfold qp_stream_skip at hskip
      omega

/-- The descriptor of a validated frame is in the file, and so are the blocks
behind a palette that is in the file. -/
theorem validated (h : Within file s) (hok : (validate_frame s frame_number).1 = true) :
    frame_start file frame_number + 11 ≤ file.length ∧
      (palette_end file frame_number ≤ file.length →
        data_start file frame_number ≤ file.length) := by
  have hseek := seek_within h frame_number
  have hstart := seek_position h frame_number
  unfold data_start palette_end frame_info frame_block
  rw [← hstart]
  unfold validate_frame qgf_validate_frame_descriptor at hok
  generalize qgf_seek_to_frame_descriptor s frame_number = s₀ at *
  by_cases hfits : s₀.position + 11 ≤ file.length
  · refine ⟨hfits, fun hpalette => ?_⟩
    rw [read_fits hseek hfits] at hok
    dsimp only at hok
    split at hok
    · cases hok
    · rename_i hdesc
      split at hdesc
      · cases hdesc
        have hbehind : Within file { s₀ with position := s₀.position + 11 } :=
          ⟨hseek.buffer, hfits⟩
        exact validated_blocks hbehind hok hpalette
      · cases hdesc
  · have hnone := read_short hseek (Nat.lt_of_not_le hfits)
    split at hok
    · cases hok
    · rename_i hdesc
      split at hdesc
      · cases hdesc
      · rename_i hread
        rw [hread] at hnone
        cases hnone

/-! ## Accepted files -/

theorem block_within {typeid : UInt8} (h : Within file s) :
    Within file (validate_block s size typeid expected_length).2 := by
  unfold validate_block
  split <;> rename_i hread <;> exact h.of_read hread

theorem palette_within (h : Within file s) (bpp : Nat) :
    Within file (qgf_validate_palette_descriptor s bpp).2 := by
  unfold qgf_validate_palette_descriptor
  dsimp only
  split
  · exact (block_within h).seek _
  · exact block_within h

theorem delta_within (h : Within file s) (is_delta : Bool) :
    Within file (validate_delta_and_data s is_delta).2 := by
  unfold validate_delta_and_data
  cases is_delta with
  | false => exact block_within h
  | true =>
    dsimp only
    rw [if_pos rfl]
    split
    · exact block_within h
    · exact block_within (block_within h)

theorem frame_within (h : Within file s) (frame_number : Nat) :
    Within file (validate_frame s frame_number).2 := by
  have hseek := seek_within h frame_number
  unfold validate_frame qgf_validate_frame_descriptor
  generalize qgf_seek_to_frame_descriptor s frame_number = s₀ at *
  cases hread : qp_stream_read 11 s₀ with
  | mk block s₁ =>
    have hblock := hseek.of_read hread
    cases block with
    | none => exact hblock
    | some block =>
      dsimp only
      split
      · rename_i hdesc
        split at hdesc <;> cases hdesc
        exact hblock
      · rename_i info s₂ hdesc
        split at hdesc <;> cases hdesc
        unfold validate_blocks
        dsimp only
        split <;> split
        · exact palette_within hblock _
        · exact delta_within (palette_within hblock _) _
        · exact hblock
        · exact delta_within hblock _

/-- The descriptor of the frame is in the file, and with its palette all that is
in front of its pixels. -/
structure Framed (file : List UInt8) (frame_number : Nat) : Prop where
  descriptor : frame_start file frame_number + 11 ≤ file.length
  blocks : palette_end file frame_number ≤ file.length → data_start file frame_number ≤ file.length

theorem framed_of_validated {frames : List Nat} (h : Within file s)
    (hok : (validate_frames frames s).1 = true) : ∀ i ∈ frames, Framed file i := by
  induction frames generalizing s with
  | nil => simp
  | cons i frames ih =>
    unfold validate_frames at hok
    dsimp only at hok
    split at hok
    · rename_i hframe
      obtain ⟨hdescriptor, hblocks⟩ := validated h hframe
      exact List.forall_mem_cons.mpr ⟨⟨hdescriptor, hblocks⟩, ih (frame_within h i) hok⟩
    · cases hok

def file_descriptor (file : List UInt8) : Option qgf_graphics_descriptor_v1_t :=
  (qgf_read_graphics_descriptor ⟨file, 0, false⟩).1

theorem framed_of_stream (h : Within file s) (hok : (qgf_validate_stream s).1 = true) :
    ∃ desc, file_descriptor file = some desc ∧ ∀ i < desc.frame_count, Framed file i := by
  have hgraphics := graphics_within h
  unfold qgf_validate_stream at hok
  unfold file_descriptor
  rw [← graphics_eq h]
  split at hok
  · cases hok
  · rename_i desc s₁ hread
    rw [hread] at hgraphics ⊢
    exact ⟨desc, rfl, fun i hi => framed_of_validated hgraphics hok i (List.mem_range.mpr hi)⟩

theorem le_take_one (l : List UInt8) (n : Nat) : le (l.take 1) = le (l.take (n + 1)) % 256 := by
  cases l with
  | nil => rfl
  | cons b l =>
    have hb := b.toNat_lt
    have hdef : le ((b :: l).take (n + 1)) = b.toNat + 256 * le (l.take n) := rfl
    have hone : le ((b :: l).take 1) = b.toNat := rfl
    omega

variable {desc : qgf_graphics_descriptor_v1_t}

/-- The descriptor is in the file, with the letter `Q` where a frame has its
format. -/
theorem descriptor_in_file (h : file_descriptor file = some desc) :
    23 ≤ file.length ∧ field (file.take 11) 5 1 = 0x51 := by
  have hwithin := within_zero file
  unfold file_descriptor qgf_read_graphics_descriptor at h
  rw [setpos_zero] at h
  by_cases hfits : 23 ≤ file.length
  · refine ⟨hfits, ?_⟩
    rw [read_fits hwithin (by omega)] at h
    dsimp only at h
    split at h
    · rename_i hvalid
      obtain ⟨-, hmagic, -⟩ := hvalid
      have hfield : field (file.take 23) 5 3 = 0x464751 := hmagic
      have hsame : ((file.take 11).drop 5).take 1 = ((file.take 23).drop 5).take 1 := by
        rw [List.drop_take, List.drop_take, List.take_take, List.take_take]
        rfl
      unfold field at hfield ⊢
      rw [hsame, le_take_one _ 2, hfield]
    · cases h
  · have hnone := read_short hwithin (by omega : file.length < (0 : Nat) + 23)
    split at h
    · cases h
    · rename_i hread
      rw [hread] at hnone
      cases hnone

theorem start_behind_frames (h : file_descriptor file = some desc)
    (hbehind : desc.frame_count ≤ frame_number) : frame_start file frame_number = 0 := by
  have hnone : (qgf_read_frame_offset ⟨file, 0, false⟩ frame_number).1 = none := by
    unfold file_descriptor at h
    unfold qgf_read_frame_offset
    cases hread : qgf_read_graphics_descriptor ⟨file, 0, false⟩ with
    | mk found s₁ =>
      rw [hread] at h
      change found = some desc at h
      rw [h]
      dsimp only
      split
      · rfl
      · split_ifs <;> rfl
  unfold frame_start qgf_seek_to_frame_descriptor
  dsimp only
  rw [hnone, Option.getD_none, setpos_zero]

end

end keychron_qmk.painter
