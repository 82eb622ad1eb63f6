-- The bridge for firmware updates of the wireless modules, after the functions
-- `dfu_tx`, `dfu_rx` and `send_cmd` of `ckbt51.c` and `lkbt51.c`: what the module
-- answers goes to the host in packets, and what the host sends goes to the module.
import KeychronQMK.Lib.Store

namespace keychron_qmk.dfu

open bounded

def RAW_EPSIZE : Nat := 32

def PACKECT_HEADER_LEN : Nat := 5

inductive Module
  | CKBT51
  | LKBT51
  deriving DecidableEq

/-- The static variables: the buffer of `lkbt51_dfu_tx`, and the serial numbers of the last
frame of the host and of the last command. -/
structure State where
  buf : List UInt8
  rx_sn : UInt8
  cmd_sn : UInt8

/-! ## To the host -/

def zeros : List UInt8 := List.replicate RAW_EPSIZE 0

/-- It has no outcome when it writes outside of the buffer. -/
def memcpy (buf : List UInt8) (i : Nat) (data : List UInt8) (n : Nat) : Option (List UInt8) :=
  store buf i (data.take n)

def tx_header (rsp len sn : UInt8) : List UInt8 := [0x03, 0xAA, 0x57, len, ~~~len, sn, rsp]

/-- The packets that `raw_hid_send` is given. -/
def ckbt51_dfu_tx (rsp : UInt8) (data : List UInt8) (len sn : UInt8) :
    Option (List (List UInt8)) := do
  let buf ← store zeros 0 (tx_header rsp len sn)
  let buf ← memcpy buf 7 data len.toNat
  if 25 < len then
    let next ← store zeros 0 [0x03]
    let next ← memcpy next 1 (data.drop 25) (len.toNat - 25)
    return [buf, next]
  else return [buf]

/-- How much of the rest goes into one packet. -/
def remaining (len offset : UInt8) : UInt8 := if 31 < len - offset then 31 else len - offset

theorem remaining_toNat {len offset : UInt8} (h : offset < len) :
    (remaining len offset).toNat = min 31 (len.toNat - offset.toNat) := by
  have hsub : (len - offset).toNat = len.toNat - offset.toNat :=
    UInt8.toNat_sub_of_le _ _ (UInt8.le_of_lt h)
  unfold remaining
  split
  · rename_i hlong
    have hlong := UInt8.lt_iff_toNat_lt.mp hlong
    simp only [UInt8.reduceToNat, hsub] at hlong ⊢
    omega
  · rename_i hshort
    rw [UInt8.lt_iff_toNat_lt] at hshort
    simp only [UInt8.reduceToNat, hsub] at hshort ⊢
    omega

theorem next_toNat {len offset : UInt8} (h : offset < len) :
    (offset + remaining len offset).toNat =
      offset.toNat + min 31 (len.toNat - offset.toNat) := by
  have hlt := UInt8.lt_iff_toNat_lt.mp h
  have hlen := len.toNat_lt
  rw [UInt8.toNat_add, remaining_toNat h]
  exact Nat.mod_eq_of_lt (by omega)

def send_rest (data : List UInt8) (len : UInt8) (buf : List UInt8) (offset : UInt8) :
    Option (List (List UInt8) × List UInt8) :=
  if offset < len then do
    let next ← store zeros 0 [0x03]
    let next ← memcpy next 1 (data.drop offset.toNat) (remaining len offset).toNat
    let (packets, last) ← send_rest data len next (offset + remaining len offset)
    return (next :: packets, last)
  else return ([], buf)
termination_by len.toNat - offset.toNat
decreasing_by
  have h : offset < len := ‹_›
  have hlt := UInt8.lt_iff_toNat_lt.mp h
  rw [next_toNat h]
  omega

def lkbt51_dfu_tx (buf : List UInt8) (rsp : UInt8) (data : List UInt8) (len sn : UInt8) :
    Option (List (List UInt8) × List UInt8) := do
  let buf ← store buf 0 (tx_header rsp len sn)
  let chunk_len := if 25 < len then 25 else len
  let buf ← memcpy buf 7 data chunk_len.toNat
  let (packets, last) ← send_rest data len buf chunk_len
  return (buf :: packets, last)

def dfu_tx (m : Module) (s : State) (rsp : UInt8) (data : List UInt8) (len sn : UInt8) :
    Option (List (List UInt8) × State) :=
  match m with
  | .CKBT51 => (ckbt51_dfu_tx rsp data len sn).map fun packets => (packets, s)
  | .LKBT51 => (lkbt51_dfu_tx s.buf rsp data len sn).map fun (packets, buf) => (packets, { s with buf })

/-! ## To the module -/

def checksum (payload : List UInt8) : UInt16 :=
  payload.foldl (fun checksum x => checksum + x.toUInt16) 0

/-- The prefix of a command over SPI. -/
def preamble : Module → List UInt8
  | .CKBT51 => []
  | .LKBT51 => [0x84, 0x7E, 0x00, 0x00]

/-- The bytes that are written to the module. -/
def send_cmd (m : Module) (s : State) (payload : List UInt8) (len : UInt8)
    (ack_enable retry : Bool) : List UInt8 × State :=
  let sn := if retry then s.cmd_sn else s.cmd_sn + 1
  let sn := if sn = 0 then sn + 1 else sn
  let sum := checksum (payload.take len.toNat)
  (preamble m ++ [0xAA, if ack_enable then 0x56 else 0x55, len + 2, ~~~(len + 2), sn] ++
    payload.take len.toNat ++ [sum.toUInt8, (sum >>> 8).toUInt8], { s with cmd_sn := sn })

/-- With a length below 2 the bytes of the checksum are those in front of the payload. -/
def dfu_rx (m : Module) (s : State) (data : List UInt8) : Option (List UInt8) × State :=
  let byte (i : Nat) := data.getD i 0
  if byte 0 = 0xAA ∧ (byte 1 = 0x55 ∨ byte 1 = 0x56) ∧ byte 2 = ~~~byte 3 then
    let payload_len := byte 2
    if RAW_EPSIZE - PACKECT_HEADER_LEN < payload_len.toNat then (none, s)
    else
      let payload := data.drop PACKECT_HEADER_LEN
      let sum := checksum (payload.take (payload_len.toNat - 2))
      if sum.toUInt8 ≠ byte (PACKECT_HEADER_LEN + payload_len.toNat - 2) ∨
          (sum >>> 8).toUInt8 ≠ byte (PACKECT_HEADER_LEN + payload_len.toNat - 1) then (none, s)
      else
        let retry := s.rx_sn = byte 4
        let s := { s with rx_sn := byte 4 }
        if payload.headD 0 &&& 0xF0 = 0x60 then
          let (pkt, s) := send_cmd m s payload (payload_len - 2) (byte 1 = 0x56) retry
          (some pkt, s)
        else (none, s)
  else (none, s)

/-! ## What is right -/

/-- Packets of 32 bytes that say, behind the report's own byte, the header, the data and
nothing else that counts. -/
structure Delivers (packets : List (List UInt8)) (rsp : UInt8) (data : List UInt8) (sn : UInt8) :
    Prop where
  sized : ∀ p ∈ packets, p.length = RAW_EPSIZE ∧ p.head? = some 0x03
  said : [0xAA, 0x57, .ofNat data.length, ~~~.ofNat data.length, sn, rsp] ++ data <+:
    packets.flatMap (·.drop 1)

def framing (ack sn : UInt8) (payload tail : List UInt8) : List UInt8 :=
  [0xAA, ack, .ofNat (payload.length + 2), ~~~.ofNat (payload.length + 2), sn] ++
    (payload ++ (checksum payload).toUInt8 :: (checksum payload >>> 8).toUInt8 :: tail)

def Framed (frame : List UInt8) (ack : UInt8) (payload : List UInt8) : Prop :=
  ∃ sn tail, frame = framing ack sn payload tail ∧ payload.length + 2 < 256 ∧
    (ack = 0x55 ∨ ack = 0x56) ∧ payload.headD 0 &&& 0xF0 = 0x60

/-- Nothing is written outside of the buffer, which keeps its length, and the host is given
the response. -/
def TxRight (m : Module) (s : State) (rsp : UInt8) (data : List UInt8) (sn : UInt8) : Prop :=
  ∃ packets s', dfu_tx m s rsp data (.ofNat data.length) sn = some (packets, s') ∧
    s'.buf.length = RAW_EPSIZE ∧ Delivers packets rsp data sn

/-- The module is given the payload of a frame, framed again, and of no other one. -/
def RxRight (m : Module) (s : State) (frame : List UInt8) : Prop :=
  (∀ ack payload, Framed frame ack payload → ∃ pkt,
      (dfu_rx m s frame).1 = some (preamble m ++ pkt) ∧ Framed pkt ack payload) ∧
    ∀ bytes, (dfu_rx m s frame).1 = some bytes → ∃ ack payload, Framed frame ack payload

/-! ## The response is delivered -/

section Tx

variable {buf data : List UInt8} {rsp len sn : UInt8} {i n : Nat}

theorem memcpy_eq (hbuf : buf.length = RAW_EPSIZE) (hroom : i + (data.take n).length ≤ RAW_EPSIZE) :
    memcpy buf i data n =
      some (buf.take i ++ data.take n ++ buf.drop (i + (data.take n).length)) := by
  unfold memcpy
  by_cases hne : data.take n = []
  · simp [hne, store]
  · rw [store_nat buf i hne, if_pos (by omega)]

theorem memcpy_eq_none (hbuf : buf.length = RAW_EPSIZE)
    (hroom : RAW_EPSIZE < i + (data.take n).length) (hne : data.take n ≠ []) :
    memcpy buf i data n = none := by
  unfold memcpy
  rw [store_nat buf i hne, if_neg (by omega)]

variable {pad rest chunk : List UInt8}

theorem prefix_of_padded (chunk : List UInt8) {following : List UInt8} (h : rest <+: following)
    (hfull : rest = [] ∨ pad = []) : chunk ++ rest <+: chunk ++ pad ++ following := by
  rcases hfull with rfl | rfl
  · rw [List.append_nil, List.append_assoc]
    exact List.prefix_append _ _
  · rw [List.append_nil]
    exact (List.prefix_append_right_inj chunk).mpr h

def rest_packet (chunk : List UInt8) : List UInt8 :=
  0x03 :: chunk ++ List.replicate (RAW_EPSIZE - 1 - chunk.length) 0

theorem length_rest_packet (h : chunk.length ≤ RAW_EPSIZE - 1) :
    (rest_packet chunk).length = RAW_EPSIZE := by
  simp only [rest_packet, RAW_EPSIZE, List.cons_append, List.length_cons, List.length_append,
    List.length_replicate] at h ⊢
  omega

/-- The buffer of the rest, with the report's own byte. -/
def cleared : List UInt8 := 0x03 :: List.replicate (RAW_EPSIZE - 1) 0

theorem store_cleared : store zeros 0 [0x03] = some cleared :=
  rfl

theorem memcpy_cleared (hroom : (data.take n).length ≤ RAW_EPSIZE - 1) :
    memcpy cleared 1 data n = some (rest_packet (data.take n)) := by
  have hfits : 1 + (data.take n).length ≤ RAW_EPSIZE := by
    unfold RAW_EPSIZE at hroom ⊢
    omega
  rw [memcpy_eq (by simp [cleared, RAW_EPSIZE]) hfits]
  simp [rest_packet, cleared, Nat.add_comm 1]

/-- What the loop sends of the data from an offset on. -/
theorem send_rest_delivers (hlen : data.length = len.toNat) (hbuf : buf.length = RAW_EPSIZE)
    (offset : UInt8) (hoffset : offset.toNat ≤ len.toNat) :
    ∃ packets last, send_rest data len buf offset = some (packets, last) ∧
      last.length = RAW_EPSIZE ∧ (∀ p ∈ packets, p.length = RAW_EPSIZE ∧ p.head? = some 0x03) ∧
        data.drop offset.toNat <+: packets.flatMap (·.drop 1) := by
  induction hrest : len.toNat - offset.toNat using Nat.strong_induction_on
    generalizing offset buf with
  | _ rest ih =>
    by_cases h : offset < len
    · have hlt := UInt8.lt_iff_toNat_lt.mp h
      have hnext := next_toNat h
      obtain ⟨chunk, hchunk⟩ :
          ∃ chunk, (data.drop offset.toNat).take (remaining len offset).toNat = chunk := ⟨_, rfl⟩
      have hlength : chunk.length = min 31 (len.toNat - offset.toNat) := by
        rw [← hchunk, List.length_take, List.length_drop, remaining_toNat h]
        omega
      have hroom : chunk.length ≤ RAW_EPSIZE - 1 := hlength ▸ Nat.min_le_left _ _
      have hpacket := length_rest_packet hroom
      obtain ⟨packets, last, hsent, hlast, hsized, hsaid⟩ :=
        ih _ (by omega) hpacket (offset + remaining len offset) (by omega) rfl
      refine ⟨rest_packet chunk :: packets, last, ?_, hlast, ?_, ?_⟩
      · rw [send_rest, if_pos h, store_cleared]
        simp only [Option.bind_eq_bind, Option.bind_some]
        rw [memcpy_cleared (hchunk ▸ hroom), hchunk, Option.bind_some, hsent]
        rfl
      · intro p hp
        rcases List.mem_cons.mp hp with rfl | hp
        · exact ⟨hpacket, rfl⟩
        · exact hsized p hp
      · have hdrop : data.drop offset.toNat =
            chunk ++ data.drop (offset + remaining len offset).toNat := by
          rw [← List.take_append_drop (remaining len offset).toNat (data.drop offset.toNat),
            hchunk, List.drop_drop, hnext, remaining_toNat h]
        rw [hdrop, List.flatMap_cons]
        refine prefix_of_padded chunk hsaid ?_
        rw [List.drop_eq_nil_iff, List.replicate_eq_nil_iff, hlength, hnext, hlen]
        unfold RAW_EPSIZE
        omega
    · have hend : len.toNat ≤ offset.toNat := by
        simpa [UInt8.lt_iff_toNat_lt] using h
      refine ⟨[], buf, by rw [send_rest, if_neg h]; rfl, hbuf, by simp, ?_⟩
      rw [List.drop_eq_nil_of_le (by omega)]
      exact List.nil_prefix

theorem store_header (hbuf : buf.length = RAW_EPSIZE) :
    store buf 0 (tx_header rsp len sn) = some (tx_header rsp len sn ++ buf.drop 7) :=
  store_zero buf (by rw [hbuf]; unfold RAW_EPSIZE; exact Nat.le_of_ble_eq_true rfl)

theorem length_header (hbuf : buf.length = RAW_EPSIZE) :
    (tx_header rsp len sn ++ buf.drop 7).length = RAW_EPSIZE := by
  simp [tx_header, hbuf, RAW_EPSIZE]

theorem first_packet (rsp len sn : UInt8) (data : List UInt8) (n : Nat)
    (hbuf : buf.length = RAW_EPSIZE) (hroom : (data.take n).length ≤ 25) :
    memcpy (tx_header rsp len sn ++ buf.drop 7) 7 data n =
      some (tx_header rsp len sn ++ data.take n ++ buf.drop (7 + (data.take n).length)) := by
  rw [memcpy_eq (length_header hbuf) (by unfold RAW_EPSIZE; omega)]
  simp [tx_header, Nat.add_comm 7]

theorem length_first (rsp len sn : UInt8) (hbuf : buf.length = RAW_EPSIZE)
    (hroom : chunk.length ≤ 25) :
    (tx_header rsp len sn ++ chunk ++ buf.drop (7 + chunk.length)).length = RAW_EPSIZE := by
  simp only [tx_header, List.length_append, List.length_cons, List.length_nil, List.length_drop,
    hbuf, RAW_EPSIZE]
  omega

theorem delivers_of_first {packets : List (List UInt8)} (hdata : data = chunk ++ rest)
    (hsized : (tx_header rsp (.ofNat data.length) sn ++ chunk ++ pad).length = RAW_EPSIZE)
    (hpackets : ∀ p ∈ packets, p.length = RAW_EPSIZE ∧ p.head? = some 0x03)
    (hsaid : rest <+: packets.flatMap (·.drop 1)) (hfull : rest = [] ∨ pad = []) :
    Delivers ((tx_header rsp (.ofNat data.length) sn ++ chunk ++ pad) :: packets) rsp data sn where
  sized p hp := by
    rcases List.mem_cons.mp hp with rfl | hp
    · exact ⟨hsized, rfl⟩
    · exact hpackets p hp
  said := by
    have hprefix := prefix_of_padded ((tx_header rsp (.ofNat data.length) sn).drop 1 ++ chunk)
      hsaid hfull
    simpa [tx_header, hdata] using hprefix

theorem ckbt51_tx_right {s : State} (hdata : data.length < 256) (hbuf : s.buf.length = RAW_EPSIZE) :
    TxRight .CKBT51 s rsp data sn ↔ data.length ≤ 25 := by
  have hlen : (UInt8.ofNat data.length).toNat = data.length := UInt8.toNat_ofNat_of_lt' hdata
  have hzeros : zeros.length = RAW_EPSIZE := rfl
  have htake : data.take data.length = data := List.take_length
  unfold TxRight dfu_tx ckbt51_dfu_tx
  simp only [Option.bind_eq_bind, store_header hzeros, Option.bind_some, hlen]
  constructor
  · rintro ⟨packets, s', hsent, -⟩
    by_contra hlong
    rw [memcpy_eq_none (length_header hzeros)] at hsent
    · cases hsent
    · rw [htake]
      unfold RAW_EPSIZE
      omega
    · rw [htake]
      rintro rfl
      simp at hlong
  · intro hshort
    have hone : ¬ (25 : UInt8) < .ofNat data.length := by
      rw [UInt8.lt_iff_toNat_lt, hlen]
      simpa using hshort
    have hpacket := first_packet rsp (.ofNat data.length) sn data data.length hzeros (by rwa [htake])
    rw [hpacket, htake]
    refine ⟨_, s, by rw [Option.bind_some, if_neg hone]; rfl, hbuf, ?_⟩
    exact delivers_of_first (List.append_nil data).symm (length_first _ _ _ hzeros hshort)
      (by simp) List.nil_prefix (.inl rfl)

theorem lkbt51_tx_right {s : State} (hdata : data.length < 256) (hbuf : s.buf.length = RAW_EPSIZE) :
    TxRight .LKBT51 s rsp data sn := by
  have hlen : (UInt8.ofNat data.length).toNat = data.length := UInt8.toNat_ofNat_of_lt' hdata
  obtain ⟨chunk_len, hchunk_len⟩ : ∃ chunk_len : UInt8,
      (if 25 < UInt8.ofNat data.length then 25 else UInt8.ofNat data.length) = chunk_len :=
    ⟨_, rfl⟩
  have hchunk : chunk_len.toNat = min 25 data.length := by
    rw [← hchunk_len]
    split
    · rename_i hlong
      have hlong := UInt8.lt_iff_toNat_lt.mp hlong
      simp only [UInt8.reduceToNat, hlen] at hlong ⊢
      omega
    · rename_i hshort
      rw [UInt8.lt_iff_toNat_lt] at hshort
      simp only [UInt8.reduceToNat, hlen] at hshort ⊢
      omega
  have hroom : (data.take chunk_len.toNat).length ≤ 25 := by
    rw [List.length_take, hchunk]
    omega
  unfold TxRight dfu_tx lkbt51_dfu_tx
  simp only [Option.bind_eq_bind, store_header hbuf, Option.bind_some, hchunk_len]
  rw [first_packet rsp _ sn _ _ hbuf hroom]
  obtain ⟨packets, last, hsent, hlast, hsized, hsaid⟩ :=
    send_rest_delivers hlen.symm (length_first rsp (.ofNat data.length) sn hbuf hroom) chunk_len
      (by omega)
  refine ⟨_, { s with buf := last }, by rw [Option.bind_some, hsent]; rfl, hlast, ?_⟩
  refine delivers_of_first (List.take_append_drop chunk_len.toNat data).symm
    (length_first _ _ _ hbuf hroom) hsized hsaid ?_
  rw [List.drop_eq_nil_iff, List.drop_eq_nil_iff, hbuf, List.length_take, hchunk]
  unfold RAW_EPSIZE
  omega

end Tx

/-! ## The frames that are forwarded -/

section Rx

variable {m : Module} {s : State} {frame payload bytes : List UInt8} {ack : UInt8}

def rx_sum (frame : List UInt8) : UInt16 :=
  checksum ((frame.drop PACKECT_HEADER_LEN).take ((frame.getD 2 0).toNat - 2))

/-- The checks of `dfu_rx`. -/
structure Accepted (frame : List UInt8) : Prop where
  start : frame.getD 0 0 = 0xAA
  ack : frame.getD 1 0 = 0x55 ∨ frame.getD 1 0 = 0x56
  complement : frame.getD 2 0 = ~~~frame.getD 3 0
  len : (frame.getD 2 0).toNat ≤ RAW_EPSIZE - PACKECT_HEADER_LEN
  low : (rx_sum frame).toUInt8 = frame.getD (PACKECT_HEADER_LEN + (frame.getD 2 0).toNat - 2) 0
  high : (rx_sum frame >>> 8).toUInt8 =
    frame.getD (PACKECT_HEADER_LEN + (frame.getD 2 0).toNat - 1) 0
  command : (frame.drop PACKECT_HEADER_LEN).headD 0 &&& 0xF0 = 0x60

theorem dfu_rx_eq_some : (dfu_rx m s frame).1 = some bytes ↔
    Accepted frame ∧ bytes = (send_cmd m { s with rx_sn := frame.getD 4 0 }
      (frame.drop PACKECT_HEADER_LEN) (frame.getD 2 0 - 2) (frame.getD 1 0 = 0x56)
        (s.rx_sn = frame.getD 4 0)).1 := by
  unfold dfu_rx
  dsimp only
  split_ifs with hheader hlen hsum hcommand
  · exact iff_of_false (by simp) fun h => absurd h.1.len (by omega)
  · refine iff_of_false (by simp) fun h => ?_
    exact hsum.elim (fun hlow => hlow h.1.low) fun hhigh => hhigh h.1.high
  · obtain ⟨hlow, hhigh⟩ := not_or.mp hsum
    have haccepted : Accepted frame := ⟨hheader.1, hheader.2.1, hheader.2.2, by omega,
      not_not.mp hlow, not_not.mp hhigh, hcommand⟩
    exact ⟨fun h => ⟨haccepted, (Option.some.inj h).symm⟩, fun h => by rw [h.2]⟩
  · exact iff_of_false (by simp) fun h => hcommand h.1.command
  · exact iff_of_false (by simp) fun h => hheader ⟨h.1.start, h.1.ack, h.1.complement⟩

theorem getD_append (xs ys : List UInt8) (i : Nat) :
    (xs ++ ys).getD (xs.length + i) 0 = ys.getD i 0 := by
  simp [List.getD_eq_getElem?_getD, List.getElem?_append_right]

/-- A frame of the host passes the checks, and what they take for the payload is it. -/
theorem accepted_of_framed (hlen : frame.length = RAW_EPSIZE) (h : Framed frame ack payload) :
    Accepted frame ∧ (frame.getD 2 0).toNat = payload.length + 2 ∧ frame.getD 1 0 = ack ∧
      (frame.drop PACKECT_HEADER_LEN).take payload.length = payload := by
  obtain ⟨sn, tail, rfl, hsize, hack, hcommand⟩ := h
  have hnat : ((framing ack sn payload tail).getD 2 0).toNat = payload.length + 2 :=
    UInt8.toNat_ofNat_of_lt' hsize
  have hdrop : (framing ack sn payload tail).drop PACKECT_HEADER_LEN = payload ++
      (checksum payload).toUInt8 :: (checksum payload >>> 8).toUInt8 :: tail := rfl
  have htake : ((framing ack sn payload tail).drop PACKECT_HEADER_LEN).take payload.length =
      payload := by
    rw [hdrop, List.take_left]
  have hsum : rx_sum (framing ack sn payload tail) = checksum payload := by
    rw [rx_sum, hnat, Nat.add_sub_cancel, htake]
  have hbyte : ∀ i, (framing ack sn payload tail).getD (5 + (payload.length + i)) 0 =
      ((checksum payload).toUInt8 :: (checksum payload >>> 8).toUInt8 :: tail).getD i 0 := by
    intro i
    exact (getD_append [0xAA, ack, _, _, sn] _ _).trans (getD_append _ _ _)
  refine ⟨⟨rfl, hack, UInt8.not_not.symm, ?_, ?_, ?_, ?_⟩, hnat, rfl, htake⟩
  · rw [hnat]
    simp only [framing, List.length_append, List.length_cons, List.length_nil, RAW_EPSIZE,
      PACKECT_HEADER_LEN] at hlen ⊢
    omega
  · rw [hsum, hnat]
    exact (hbyte 0).symm
  · rw [hsum, hnat]
    exact (hbyte 1).symm
  · rw [hdrop]
    cases payload with
    | nil => exact absurd hcommand (by decide)
    | cons x xs => exact hcommand

theorem drop_eq_cons_cons {xs : List UInt8} {k : Nat} (h : k + 2 ≤ xs.length) :
    xs.drop k = xs.getD k 0 :: xs.getD (k + 1) 0 :: xs.drop (k + 2) := by
  have hk : k < xs.length := by omega
  have hnext : k + 1 < xs.length := by omega
  simp [hk, hnext]

theorem Accepted.three_le (h : Accepted frame) : 3 ≤ (frame.getD 2 0).toNat := by
  by_contra hshort
  have hsum : rx_sum frame = 0 := by
    rw [rx_sum, show (frame.getD 2 0).toNat - 2 = 0 by omega]
    rfl
  have hlow := h.low
  have hhigh := h.high
  have hcommand : frame.getD 5 0 ≠ 0 := by
    intro hzero
    have hhead : (frame.drop PACKECT_HEADER_LEN).headD 0 = frame.getD 5 0 := by
      rw [List.headD_eq_head?_getD, List.head?_drop, PACKECT_HEADER_LEN]
      rfl
    have hclass := h.command
    rw [hhead, hzero] at hclass
    exact absurd hclass (by decide)
  rw [hsum] at hlow hhigh
  obtain hn | hn | hn : (frame.getD 2 0).toNat = 0 ∨ (frame.getD 2 0).toNat = 1 ∨
      (frame.getD 2 0).toNat = 2 := by omega
  · rw [hn] at hlow
    have hcomplement := h.complement
    rw [← (show (0 : UInt16).toUInt8 = frame.getD 3 0 from hlow)] at hcomplement
    rw [hcomplement] at hn
    exact absurd hn (by decide)
  · rw [hn] at hhigh
    exact hcommand hhigh.symm
  · rw [hn] at hlow
    exact hcommand hlow.symm

/-- A frame that passes the checks is one of the host. -/
theorem framed_of_accepted (hlen : frame.length = RAW_EPSIZE) (h : Accepted frame) :
    ∃ ack payload, Framed frame ack payload := by
  obtain ⟨a, b, c, d, e, rest, rfl⟩ : ∃ a b c d e rest, frame = a :: b :: c :: d :: e :: rest := by
    rcases frame with - | ⟨a, - | ⟨b, - | ⟨c, - | ⟨d, - | ⟨e, rest⟩⟩⟩⟩⟩
    all_goals first | exact ⟨_, _, _, _, _, _, rfl⟩ | simp [RAW_EPSIZE] at hlen
  have hlong := h.three_le
  obtain ⟨hstart, hack, hcomplement, hsize, hlow, hhigh, hcommand⟩ := h
  simp only [List.getD_cons_zero, List.getD_cons_succ, PACKECT_HEADER_LEN, rx_sum, RAW_EPSIZE,
    List.drop_succ_cons, List.drop_zero, List.length_cons] at *
  have hbyte : ∀ i, (a :: b :: c :: d :: e :: rest).getD (5 + i) 0 = rest.getD i 0 :=
    getD_append [a, b, c, d, e] rest
  rw [show 5 + c.toNat - 2 = 5 + (c.toNat - 2) by omega, hbyte] at hlow
  rw [show 5 + c.toNat - 1 = 5 + (c.toNat - 2 + 1) by omega, hbyte] at hhigh
  have hlength : (rest.take (c.toNat - 2)).length + 2 = c.toNat := by
    rw [List.length_take]
    omega
  refine ⟨b, rest.take (c.toNat - 2), e, rest.drop c.toNat, ?_, ?_, hack, ?_⟩
  · have hrest := List.take_append_drop (c.toNat - 2) rest
    rw [drop_eq_cons_cons (by omega), ← hlow, ← hhigh,
      show c.toNat - 2 + 2 = c.toNat by omega] at hrest
    rw [framing, hlength, UInt8.ofNat_toNat, hrest, ← hstart, hcomplement, UInt8.not_not]
    rfl
  · rw [hlength]
    exact c.toNat_lt
  · obtain ⟨x, xs, hxs⟩ := List.exists_cons_of_length_pos (by omega : 0 < rest.length)
    rw [hxs] at hcommand ⊢
    rw [show c.toNat - 2 = c.toNat - 3 + 1 by omega]
    exact hcommand

theorem send_cmd_framed (hlen : frame.length = RAW_EPSIZE) (h : Framed frame ack payload)
    (s : State) (retry : Bool) :
    ∃ pkt, (send_cmd m s (frame.drop PACKECT_HEADER_LEN) (frame.getD 2 0 - 2)
      (frame.getD 1 0 = 0x56) retry).1 = preamble m ++ pkt ∧ Framed pkt ack payload := by
  obtain ⟨haccepted, hnat, hack, htake⟩ := accepted_of_framed hlen h
  obtain ⟨-, -, -, hsize, hacks, hcommand⟩ := h
  have hlong : (2 : UInt8) ≤ frame.getD 2 0 := by
    rw [UInt8.le_iff_toNat_le, hnat]
    exact Nat.le_add_left _ _
  have hsub : (frame.getD 2 0 - 2).toNat = payload.length := by
    rw [UInt8.toNat_sub_of_le _ _ hlong, hnat]
    rfl
  have hadd : frame.getD 2 0 - 2 + 2 = .ofNat (payload.length + 2) := by
    rw [UInt8.sub_add_cancel, ← hnat, UInt8.ofNat_toNat]
  have hbyte : (if decide (ack = 0x56) then 0x56 else 0x55) = ack := by
    rcases hacks with rfl | rfl <;> rfl
  unfold send_cmd
  simp only [hsub, htake, hadd, hack, hbyte]
  rw [List.append_assoc, List.append_assoc]
  exact ⟨_, rfl, _, [], rfl, hsize, hacks, hcommand⟩

theorem rx_right (m : Module) (s : State) (hlen : frame.length = RAW_EPSIZE) :
    RxRight m s frame := by
  refine ⟨fun ack payload h => ?_, fun bytes h => ?_⟩
  · obtain ⟨pkt, hsent, hframed⟩ := send_cmd_framed (m := m) hlen h
      { s with rx_sn := frame.getD 4 0 } (s.rx_sn = frame.getD 4 0)
    refine ⟨pkt, ?_, hframed⟩
    rw [dfu_rx_eq_some]
    exact ⟨(accepted_of_framed hlen h).1, hsent.symm⟩
  · exact framed_of_accepted hlen (dfu_rx_eq_some.mp h).1

end Rx

/-! ## The bridge -/

/-- The bridge is right in both directions, but for the responses that `ckbt51_dfu_tx` copies
past the end of its packet. -/
theorem the_bridge_is_right_exactly_when_the_response_fits (m : Module) (s : State)
    (rsp sn : UInt8) (data frame : List UInt8) (hdata : data.length < 256)
    (hbuf : s.buf.length = RAW_EPSIZE) (hframe : frame.length = RAW_EPSIZE) :
    TxRight m s rsp data sn ∧ RxRight m s frame ↔ (m = .CKBT51 → data.length ≤ 25) := by
  rw [and_iff_left (rx_right m s hframe)]
  cases m with
  | CKBT51 => simpa using ckbt51_tx_right hdata hbuf
  | LKBT51 => simpa using lkbt51_tx_right hdata hbuf

def boot : State := ⟨zeros, 0, 0⟩

/-- A command of two bytes for the module. -/
def hostFrame : List UInt8 :=
  [0xAA, 0x56, 0x04, 0xFB, 0x01, 0x61, 0x02, 0x63, 0x00] ++ List.replicate 23 0

/-- The longest response reaches the host, and the frame the module. -/
theorem the_longest_response_is_delivered :
    (dfu_rx .LKBT51 boot hostFrame).1 = some
        [0x84, 0x7E, 0x00, 0x00, 0xAA, 0x56, 0x04, 0xFB, 0x01, 0x61, 0x02, 0x63, 0x00] ∧
      TxRight .LKBT51 boot 0xA3 (List.replicate 61 0x07) 0x01 ∧ RxRight .LKBT51 boot hostFrame := by
  refine ⟨by decide, ?_⟩
  exact (the_bridge_is_right_exactly_when_the_response_fits .LKBT51 boot 0xA3 0x01
    (List.replicate 61 0x07) hostFrame (by decide) (by decide) (by decide)).mpr fun h => by cases h

/-- The byte behind the first packet is written. -/
theorem a_response_of_26_bytes_is_written_outside :
    dfu_tx .CKBT51 boot 0xA3 (List.replicate 26 0x07) 26 0x01 = none ∧
      ¬ TxRight .CKBT51 boot 0xA3 (List.replicate 26 0x07) 0x01 := by
  have hnone : dfu_tx .CKBT51 boot 0xA3 (List.replicate 26 0x07) 26 0x01 = none := by decide
  refine ⟨hnone, ?_⟩
  rintro ⟨packets, s', hsent, -⟩
  exact absurd (hnone.symm.trans hsent) (by simp)

end keychron_qmk.dfu
