-- The RLE of images: what `compress_bytes_qmk_rle` of
-- `lib/python/qmk/painter.py` writes, `qp_drawimage_byte_rle_decoder` reads.
-- Both are said of runs, of which the compressed data are the concatenation.
import KeychronQMK.Painter.Codec

namespace keychron_qmk.painter

/-! ## Runs -/

/-- A run of the compressed data: one byte a number of times, or literal
bytes. -/
inductive Run where
  | repeated (n : Nat) (b : UInt8)
  | literal (l : List UInt8)

namespace Run

/-- What the marker byte can say of the run. -/
def Valid : Run → Prop
  | repeated n _ => 0 < n ∧ n ≤ 127
  | literal l => 0 < l.length ∧ l.length ≤ 128

def bytes : Run → List UInt8
  | repeated n b => [UInt8.ofNat n, b]
  | literal l => UInt8.ofNat (127 + l.length) :: l

/-- The bytes that the run stands for. -/
def expand : Run → List UInt8
  | repeated n b => List.replicate n b
  | literal l => l

end Run

/-! ## Pulls of bytes -/

/-- The callback gives the bytes one by one, and the input goes from `inp`
to the last state. -/
inductive Pulls {σ : Type*} (input_callback : σ → Int × σ) : σ → List UInt8 → σ → Prop
  | nil (inp : σ) : Pulls input_callback inp [] inp
  | cons {inp inp' last : σ} {x : UInt8} {xs : List UInt8}
    (call : input_callback inp = ((x.toNat : Int), inp')) (rest : Pulls input_callback inp' xs last) :
    Pulls input_callback inp (x :: xs) last

section Pulls

variable {σ : Type*} {input_callback : σ → Int × σ} {inp inp' last : σ} {xs ys : List UInt8}

theorem Pulls.append (h : Pulls input_callback inp xs inp')
    (h' : Pulls input_callback inp' ys last) : Pulls input_callback inp (xs ++ ys) last := by
  induction h with
  | nil => exact h'
  | cons call _ ih => exact .cons call (ih h')

theorem Pulls.pull (h : Pulls input_callback inp xs last) :
    pull input_callback xs.length inp = (xs.map fun x => (x.toNat : Int), last) := by
  induction h with
  | nil => rfl
  | cons call _ ih => simp [painter.pull, call, ih]

end Pulls

/-! ## The decoder on runs -/

/-- The decoder waits for a marker byte, and the stream still has `rest`. -/
structure AtMarker (state : qp_internal_byte_input_state_t) (rest : List UInt8) : Prop where
  mode : state.mode = .MARKER_BYTE
  stream : state.src_stream.Holds rest

theorem ofNat_succ_sub_one (n : Nat) : UInt8.ofNat (n + 1) - 1 = UInt8.ofNat n := by
  simp

theorem ofNat_pos {n : Nat} (h : n < 256) : UInt8.ofNat n > 0 ↔ 0 < n := by
  rw [gt_iff_lt, UInt8.lt_iff_toNat_lt, UInt8.toNat_ofNat']
  simp [Nat.mod_eq_of_lt h]

theorem ofInt_toNat (x : UInt8) : UInt8.ofInt (x.toNat : Int) = x := by
  have hlt := x.toNat_lt
  have hmod : (x.toNat : Int) % 2 ^ 8 = x.toNat := by omega
  rw [UInt8.ofInt, hmod, Int.toNat_natCast, UInt8.ofNat_toNat]

variable {state : qp_internal_byte_input_state_t}

theorem rle_decoder_marker (h : state.mode = .MARKER_BYTE) :
    qp_drawimage_byte_rle_decoder state =
      qp_drawimage_byte_rle_decoder (parse_marker_byte state) := by
  have hparsed : (parse_marker_byte state).mode ≠ .MARKER_BYTE := by
    unfold parse_marker_byte
    dsimp only
    split <;> simp
  unfold qp_drawimage_byte_rle_decoder
  rw [if_pos h, if_neg hparsed]

theorem pulls_repeating (n : Nat) (hn : n + 1 < 256) (stream : qp_memory_stream_t) (x : UInt8) :
    Pulls qp_drawimage_byte_rle_decoder ⟨stream, x.toNat, .REPEATING_RUN, UInt8.ofNat (n + 1)⟩
      (List.replicate (n + 1) x) ⟨stream, x.toNat, .MARKER_BYTE, 0⟩ := by
  induction n with
  | zero =>
    refine .cons ?_ (.nil _)
    simp [qp_drawimage_byte_rle_decoder, ofInt_toNat]
  | succ n ih =>
    refine .cons ?_ (ih (by omega))
    simp only [qp_drawimage_byte_rle_decoder, reduceCtorEq, if_false, ofInt_toNat,
      ofNat_succ_sub_one, ofNat_pos (n := n + 1) (by omega), Nat.succ_pos, if_true]

theorem pulls_literal (l : List UInt8) (hl : l.length + 1 < 256) (stream : qp_memory_stream_t)
    (x : UInt8) (rest : List UInt8) (h : stream.Holds (l ++ rest)) :
    ∃ last, Pulls qp_drawimage_byte_rle_decoder
      ⟨stream, x.toNat, .NON_REPEATING_RUN, UInt8.ofNat (l.length + 1)⟩ (x :: l) last ∧
      AtMarker last rest := by
  induction l generalizing stream x with
  | nil =>
    refine ⟨⟨stream, x.toNat, .MARKER_BYTE, 0⟩, .cons ?_ (.nil _), rfl, h⟩
    simp [qp_drawimage_byte_rle_decoder, ofInt_toNat]
  | cons y l ih =>
    obtain ⟨hy, hstream⟩ := h.get
    obtain ⟨last, hpulls, hlast⟩ := ih (by simpa using Nat.lt_of_succ_lt hl)
      (qp_stream_get stream).2 y hstream
    refine ⟨last, .cons ?_ hpulls, hlast⟩
    rw [List.length_cons] at hl ⊢
    simp only [qp_drawimage_byte_rle_decoder, reduceCtorEq, if_false, ofInt_toNat,
      ofNat_succ_sub_one, ofNat_pos (n := l.length + 1) (by omega), Nat.succ_pos, if_true, hy]

theorem pulls_of_parse {last : qp_internal_byte_input_state_t} {bytes : List UInt8}
    (h : state.mode = .MARKER_BYTE) (hne : bytes ≠ [])
    (hpulls : Pulls qp_drawimage_byte_rle_decoder (parse_marker_byte state) bytes last) :
    Pulls qp_drawimage_byte_rle_decoder state bytes last := by
  cases hpulls with
  | nil => exact absurd rfl hne
  | cons call rest => exact .cons (by rw [rle_decoder_marker h, call]) rest

/-- The decoder gives what a run stands for, and reads the run to its end. -/
theorem pulls_run {r : Run} (hr : r.Valid) {state : qp_internal_byte_input_state_t}
    {rest : List UInt8} (h : AtMarker state (r.bytes ++ rest)) :
    ∃ last, Pulls qp_drawimage_byte_rle_decoder state r.expand last ∧ AtMarker last rest := by
  obtain ⟨hmode, hstream⟩ := h
  cases r with
  | repeated n b =>
    obtain ⟨hpos, hle⟩ := hr
    obtain ⟨hmarker, hstream1⟩ := hstream.get
    obtain ⟨hb, hstream2⟩ := hstream1.get
    obtain ⟨k, rfl⟩ := Nat.exists_eq_add_of_lt hpos
    have hparse : parse_marker_byte state =
        ⟨(qp_stream_get (qp_stream_get state.src_stream).2).2, b.toNat, .REPEATING_RUN,
          UInt8.ofNat (k + 1)⟩ := by
      unfold parse_marker_byte
      simp only [hmarker, hb, ofInt_toNat, Nat.zero_add]
      rw [if_neg]
      rw [ge_iff_le, UInt8.le_iff_toNat_le, UInt8.toNat_ofNat']
      simp
      omega
    refine ⟨⟨_, b.toNat, .MARKER_BYTE, 0⟩, pulls_of_parse hmode (by simp [Run.expand]) ?_, rfl,
      hstream2⟩
    rw [hparse, Run.expand, Nat.zero_add]
    exact pulls_repeating k (by omega) _ b
  | literal l =>
    obtain ⟨hpos, hle⟩ := hr
    obtain ⟨hmarker, hstream1⟩ := hstream.get
    cases l with
    | nil => simp at hpos
    | cons x l =>
      rw [List.length_cons] at hle
      obtain ⟨hx, hstream2⟩ := hstream1.get
      have hparse : parse_marker_byte state =
          ⟨(qp_stream_get (qp_stream_get state.src_stream).2).2, x.toNat, .NON_REPEATING_RUN,
            UInt8.ofNat (l.length + 1)⟩ := by
        unfold parse_marker_byte
        simp only [hmarker, hx, ofInt_toNat, List.length_cons]
        rw [if_pos]
        · rw [UInt8.ofNat_add, UInt8.add_comm, show UInt8.ofNat 127 = 127 from rfl,
            UInt8.add_sub_cancel]
        · rw [ge_iff_le, UInt8.le_iff_toNat_le, UInt8.toNat_ofNat']
          simp
          omega
      obtain ⟨last, hpulls, hlast⟩ := pulls_literal l (by omega) _ x rest hstream2
      refine ⟨last, pulls_of_parse hmode (by simp [Run.expand]) ?_, hlast⟩
      rw [hparse]
      exact hpulls

variable {rest b : List UInt8}

theorem pulls_runs {runs : List Run} (hruns : ∀ r ∈ runs, r.Valid)
    (h : AtMarker state (runs.flatMap Run.bytes ++ rest)) :
    ∃ last, Pulls qp_drawimage_byte_rle_decoder state (runs.flatMap Run.expand) last ∧
      AtMarker last rest := by
  induction runs generalizing state with
  | nil => exact ⟨state, .nil state, h⟩
  | cons r runs ih =>
    rw [List.flatMap_cons, List.append_assoc] at h
    obtain ⟨middle, hpulls, hmiddle⟩ := pulls_run (hruns r List.mem_cons_self) h
    obtain ⟨last, hpulls', hlast⟩ := ih (fun r' h' => hruns r' (List.mem_cons_of_mem r h')) hmiddle
    exact ⟨last, hpulls.append hpulls', hlast⟩

/-! ## The encoder -/

/-- The variables of `compress_bytes_qmk_rle`; `repeating` is its `repeat`. -/
structure Compressor where
  output : List UInt8
  temp : List UInt8
  repeating : Bool

def Compressor.start : Compressor := ⟨[], [], false⟩

def fromEnd (k : Nat) (temp : List UInt8) : UInt8 := temp.getD (temp.length - k) 0

def append_range (output r : List UInt8) : List UInt8 :=
  output ++ UInt8.ofNat (127 + r.length) :: r

/-- The loop body after the byte is in `temp`. -/
def compress_temp (last : Bool) (st : Compressor) : Compressor :=
  let length := st.temp.length
  if st.repeating then
    if fromEnd 1 st.temp ≠ fromEnd 2 st.temp ∨ length = 128 ∨ last then
      { output := st.output ++ [UInt8.ofNat (if last then length else length - 1),
          st.temp.getD 0 0]
        temp := [fromEnd 1 st.temp]
        repeating := false }
    else st
  else if 2 ≤ length ∧ fromEnd 1 st.temp = fromEnd 2 st.temp then
    if 2 < length then
      { output := append_range st.output (st.temp.take (length - 2))
        temp := [fromEnd 1 st.temp, fromEnd 1 st.temp]
        repeating := true }
    else { st with repeating := true }
  else if length = 128 ∨ last then
    { output := append_range st.output st.temp, temp := [], repeating := false }
  else st

def compress_byte (st : Compressor) (c : UInt8) : Compressor :=
  let st := { st with temp := st.temp ++ [c] }
  if st.temp.length ≤ 1 then st else compress_temp false st

/-- The loop over the bytes, and the turn at the end of the input. -/
def compress_bytes_qmk_rle (bytearray : List UInt8) : List UInt8 :=
  (compress_temp true (bytearray.foldl compress_byte .start)).output

@[simp] theorem fromEnd_one (l : List UInt8) (c : UInt8) : fromEnd 1 (l ++ [c]) = c := by
  simp [fromEnd]

@[simp] theorem fromEnd_two (l : List UInt8) (y c : UInt8) : fromEnd 2 (l ++ [y] ++ [c]) = y := by
  simp [fromEnd]

/-- What stands in `temp`: equal bytes, or literal bytes that do not end in
two equal ones. -/
inductive Waiting : List UInt8 → Bool → Prop
  | repeated (n : Nat) (x : UInt8) (room : n + 2 < 128) : Waiting (List.replicate (n + 2) x) true
  | literal (l : List UInt8) (room : l.length < 128)
    (differ : 2 ≤ l.length → fromEnd 1 l ≠ fromEnd 2 l) : Waiting l false

structure Compressed (b : List UInt8) (st : Compressor) : Prop where
  runs : ∃ runs : List Run, (∀ r ∈ runs, r.Valid) ∧ st.output = runs.flatMap Run.bytes ∧
    runs.flatMap Run.expand ++ st.temp = b
  waiting : Waiting st.temp st.repeating

theorem Compressed.start : Compressed [] .start :=
  ⟨⟨[], by simp, rfl, rfl⟩, .literal [] (by simp) (by simp)⟩

variable {st : Compressor} {repeating : Bool}

theorem Compressed.emit {temp : List UInt8} (h : Compressed b st) {r : Run} (hr : r.Valid)
    (htemp : st.temp ++ temp = r.expand ++ rest) (hwaiting : Waiting rest repeating) :
    Compressed (b ++ temp) ⟨st.output ++ r.bytes, rest, repeating⟩ := by
  obtain ⟨runs, hruns, hout, hb⟩ := h.runs
  refine ⟨⟨runs ++ [r], ?_, ?_, ?_⟩, hwaiting⟩
  · simpa [or_imp, forall_and] using ⟨hruns, hr⟩
  · simp [hout]
  · simp [← hb, htemp]

theorem Compressed.keep (h : Compressed b st) (c : UInt8)
    (hwaiting : Waiting (st.temp ++ [c]) repeating) :
    Compressed (b ++ [c]) ⟨st.output, st.temp ++ [c], repeating⟩ := by
  obtain ⟨runs, hruns, hout, hb⟩ := h.runs
  exact ⟨⟨runs, hruns, hout, by simp [← hb]⟩, hwaiting⟩

theorem Compressed.byte (h : Compressed b st) (c : UInt8) :
    Compressed (b ++ [c]) (compress_byte st c) := by
  obtain ⟨output, temp, repeating⟩ := st
  have hwaiting := h.waiting
  dsimp only at hwaiting
  unfold compress_byte
  cases hwaiting with
  | repeated n x room =>
    have hlast : fromEnd 2 (List.replicate (n + 2) x ++ [c]) = x := by
      rw [List.replicate_succ', fromEnd_two]
    have hfirst : (List.replicate (n + 2) x ++ [c]).getD 0 0 = x := by simp
    simp only [List.length_append, List.length_replicate, List.length_singleton]
    rw [if_neg (by omega), compress_temp]
    simp only [if_true, fromEnd_one, hlast, hfirst, List.length_append, List.length_replicate,
      List.length_singleton, Bool.false_eq_true, if_false, or_false]
    split
    · -- the run ends before this byte
      exact h.emit (r := .repeated (n + 2) x) ⟨by omega, by omega⟩ rfl
        (.literal [c] (by simp) (by simp))
    · rename_i hgoes
      obtain ⟨rfl, hroom⟩ := not_or.mp hgoes |>.imp not_not.mp id
      refine h.keep c ?_
      rw [← List.replicate_succ']
      exact .repeated (n + 1) c (by omega)
  | literal _ room differ =>
    rcases List.eq_nil_or_concat temp with rfl | ⟨l, y, rfl⟩
    · exact h.keep c (.literal [c] (by simp) (by simp))
    rw [List.concat_eq_append] at *
    simp only [List.length_append, List.length_singleton]
    rw [if_neg (by omega), compress_temp]
    simp only [Bool.false_eq_true, if_false, fromEnd_one, fromEnd_two, List.length_append,
      List.length_singleton, or_false]
    simp only [List.length_append, List.length_singleton] at room
    split
    · -- the last two bytes start a run
      rename_i hsame
      obtain ⟨-, rfl⟩ := hsame
      split
      · have hrun : Run.Valid (.literal l) := ⟨by omega, by omega⟩
        have hpair : Waiting (List.replicate (0 + 2) c) true := .repeated 0 c (by omega)
        have hemit : Compressed (b ++ [c]) _ := h.emit hrun (by simp [Run.expand, List.replicate]) hpair
        simpa [append_range, Run.bytes] using hemit
      · have hnil : l = [] := List.eq_nil_of_length_eq_zero (by omega)
        subst hnil
        exact h.keep c (.repeated 0 c (by omega))
    · rename_i hdiffer
      split
      · have hrun : Run.Valid (.literal (l ++ [y] ++ [c])) := by simp [Run.Valid]; omega
        exact h.emit hrun (by simp [Run.expand]) (.literal [] (by simp) (by simp))
      · refine h.keep c (.literal _ ?_ ?_)
        · simp; omega
        · intro _ hsame
          rw [fromEnd_one, fromEnd_two] at hsame
          exact hdiffer ⟨by omega, hsame⟩

theorem Compressed.bytes (h : Compressed b st) (cs : List UInt8) :
    Compressed (b ++ cs) (cs.foldl compress_byte st) := by
  induction cs generalizing b st with
  | nil => simpa using h
  | cons c cs ih => simpa using ih (h.byte c)

/-- The output is the runs of the bytes. After them comes one marker byte
when the last literal run ends with the input, or when there is no input. -/
theorem compress_runs (b : List UInt8) : ∃ (runs : List Run) (rest : List UInt8),
    (∀ r ∈ runs, r.Valid) ∧ runs.flatMap Run.expand = b ∧
      compress_bytes_qmk_rle b = runs.flatMap Run.bytes ++ rest := by
  have h := Compressed.start.bytes b
  obtain ⟨⟨runs, hruns, hout, hb⟩, hwaiting⟩ := h
  unfold compress_bytes_qmk_rle
  generalize b.foldl compress_byte .start = st at *
  obtain ⟨output, temp, repeating⟩ := st
  dsimp only at *
  subst hout
  cases hwaiting with
  | repeated n x room =>
    refine ⟨runs ++ [.repeated (n + 2) x], [], ?_, ?_, ?_⟩
    · simpa [or_imp, forall_and] using ⟨hruns, by omega, by omega⟩
    · simpa [Run.expand] using hb
    · simp [compress_temp, Run.bytes]
  | literal _ room differ =>
    have hturn : compress_temp true ⟨runs.flatMap Run.bytes, temp, false⟩ =
        ⟨append_range (runs.flatMap Run.bytes) temp, [], false⟩ := by
      simp only [compress_temp, Bool.false_eq_true, if_false]
      rw [if_neg fun h => differ h.1 h.2, if_pos (.inr trivial)]
    rw [hturn]
    rcases Nat.eq_zero_or_pos temp.length with hnil | hpos
    · -- a marker of a run of no bytes
      have hnil := List.eq_nil_of_length_eq_zero hnil
      subst hnil
      exact ⟨runs, [127], hruns, by simpa using hb, rfl⟩
    · refine ⟨runs ++ [.literal temp], [], ?_, ?_, ?_⟩
      · simpa [or_imp, forall_and] using ⟨hruns, hpos, by omega⟩
      · simpa [Run.expand] using hb
      · simp [append_range, Run.bytes]

/-- Every byte list comes back from its compressed data: as many pulls as it
has bytes give them in their order, and never read past the data. -/
theorem pulls_compressed (b : List UInt8) : ∃ last : qp_internal_byte_input_state_t,
    Pulls qp_drawimage_byte_rle_decoder
      (qp_internal_prepare_input_state (qp_make_memory_stream (compress_bytes_qmk_rle b))) b last ∧
    last.src_stream.is_eof = false := by
  obtain ⟨runs, rest, hruns, hb, hout⟩ := compress_runs b
  have hstart : AtMarker
      (qp_internal_prepare_input_state (qp_make_memory_stream (compress_bytes_qmk_rle b)))
      (runs.flatMap Run.bytes ++ rest) := by
    rw [← hout]
    exact ⟨rfl, holds_make _⟩
  obtain ⟨last, hpulls, hlast⟩ := pulls_runs hruns hstart
  rw [hb] at hpulls
  exact ⟨last, hpulls, hlast.stream.is_eof⟩

end keychron_qmk.painter
