-- The stream of the CKBT51 module as a whole: how the task cuts it into
-- pieces, whatever the chunks it arrives in and the moments of the calls.
-- Which accesses are in range, and which packets are dispatched, is said of
-- the pieces.
import KeychronQMK.Wireless.Ckbt51
import Mathlib.Data.List.Pairwise

namespace keychron_qmk.ckbt51

open Ckbt51

/-! ## Pieces -/

/-- What the task takes at once from the stream: a byte or two that start no
header, five bytes of which the complement is wrong, or a message. -/
inductive Piece where
  | byte (x : UInt8) (start : x ≠ 0xAA)
  | pair (y : UInt8) (second : y ≠ 0x57)
  | broken (len complement sn : UInt8) (wrong : ~~~len ≠ complement)
  | message (len sn : UInt8) (body : List UInt8) (full : body.length = len.toNat)

namespace Piece

def bytes : Piece → List UInt8
  | byte x _ => [x]
  | pair y _ => [0xAA, y]
  | broken len complement sn _ => [0xAA, 0x57, len, complement, sn]
  | message len sn body _ => [0xAA, 0x57, len, ~~~len, sn] ++ body

def messages (start : Nat) : Piece → List Message
  | message len sn body _ => [⟨start, len, sn, body⟩]
  | _ => []

theorem bytes_length_pos (p : Piece) : 0 < p.bytes.length := by
  cases p <;> simp [bytes]

end Piece

def bytesOf (ps : List Piece) : List UInt8 := ps.flatMap Piece.bytes

def messagesOf : Nat → List Piece → List Message
  | _, [] => []
  | start, p :: ps => p.messages start ++ messagesOf (start + p.bytes.length) ps

/-- The messages that the task finds in a stream, the first byte of which is
the byte `start`. -/
def messages : Nat → List UInt8 → List Message
  | start, b0 :: b1 :: b2 :: b3 :: b4 :: rest =>
    if b0 ≠ 0xAA then messages (start + 1) (b1 :: b2 :: b3 :: b4 :: rest)
    else if b1 ≠ 0x57 then messages (start + 2) (b2 :: b3 :: b4 :: rest)
    else if ~~~b2 ≠ b3 then messages (start + 5) rest
    else if b2.toNat ≤ rest.length then
      ⟨start, b2, b4, rest.take b2.toNat⟩ ::
        messages (start + 5 + b2.toNat) (rest.drop b2.toNat)
    else []
  | _, _ => []
termination_by _ bytes => bytes.length
decreasing_by
  all_goals simp only [List.length_cons, List.length_drop]
  all_goals omega

theorem messages_short (start : Nat) {bytes : List UInt8} (h : bytes.length < 5) :
    messages start bytes = [] := by
  unfold messages
  split
  · simp only [List.length_cons] at h
    omega
  · rfl

variable {rest : List UInt8}

theorem messages_piece (start : Nat) (p : Piece) (h : 5 ≤ (p.bytes ++ rest).length) :
    messages start (p.bytes ++ rest) =
      p.messages start ++ messages (start + p.bytes.length) rest := by
  cases p with
  | byte x hx =>
    rcases rest with _ | ⟨b1, _ | ⟨b2, _ | ⟨b3, _ | ⟨b4, rest⟩⟩⟩⟩
    all_goals simp [Piece.bytes] at h
    conv_lhs => unfold messages
    simp [Piece.bytes, Piece.messages, hx]
  | pair y hy =>
    rcases rest with _ | ⟨b2, _ | ⟨b3, _ | ⟨b4, rest⟩⟩⟩
    all_goals simp [Piece.bytes] at h
    conv_lhs => unfold messages
    simp [Piece.bytes, Piece.messages, hy]
  | broken len complement sn hwrong =>
    conv_lhs => unfold messages
    simp [Piece.bytes, Piece.messages, hwrong]
  | message len sn body hfull =>
    have hstart : start + 5 + len.toNat =
        start + (Piece.message len sn body hfull).bytes.length := by
      simp [Piece.bytes, hfull]
      omega
    conv_lhs => unfold messages
    simp only [Piece.bytes, List.cons_append, List.nil_append, ne_eq, not_true_eq_false, if_false,
      List.length_append, ← hfull, Nat.le_add_right, if_true, List.take_left, List.drop_left,
      Piece.messages] at hstart ⊢
    rw [hstart]

theorem bytesOf_cons (p : Piece) (ps : List Piece) : bytesOf (p :: ps) = p.bytes ++ bytesOf ps :=
  List.flatMap_cons

theorem messages_bytesOf (start : Nat) (ps : List Piece) (h : 5 ≤ rest.length) :
    messages start (bytesOf ps ++ rest) =
      messagesOf start ps ++ messages (start + (bytesOf ps).length) rest := by
  induction ps generalizing start with
  | nil => simp [bytesOf, messagesOf]
  | cons p ps ih =>
    rw [bytesOf_cons, List.append_assoc, messages_piece start p (by simp; omega), ih, messagesOf,
      List.append_assoc, List.length_append, Nat.add_assoc]

/-- The stream, whose first byte is the byte `start`, has the message after
some pieces. -/
def HasMessage (start : Nat) (bytes : List UInt8) (m : Message) : Prop :=
  ∃ ps rest full, bytes = bytesOf ps ++ ((Piece.message m.len m.sn m.body full).bytes ++ rest) ∧
    m.start = start + (bytesOf ps).length

variable {start : Nat}

theorem HasMessage.cons {bytes : List UInt8} {m : Message} (p : Piece)
    (h : HasMessage (start + p.bytes.length) bytes m) : HasMessage start (p.bytes ++ bytes) m := by
  obtain ⟨ps, rest, full, heq, hstart⟩ := h
  refine ⟨p :: ps, rest, full, ?_, ?_⟩
  · rw [bytesOf_cons, heq, List.append_assoc]
  · rw [bytesOf_cons, hstart, List.length_append, Nat.add_assoc]

theorem HasMessage.mem {bytes : List UInt8} {m : Message} (h : HasMessage start bytes m) :
    m ∈ messages start bytes := by
  obtain ⟨ps, rest, full, rfl, hstart⟩ := h
  have hlong : 5 ≤ ((Piece.message m.len m.sn m.body full).bytes ++ rest).length := by
    simp [Piece.bytes]
  rw [messages_bytesOf start ps hlong, messages_piece _ _ hlong, ← hstart]
  simp [Piece.messages]

/-- The messages of a stream are the messages that come after pieces. -/
theorem hasMessage_of_mem {bytes : List UInt8} {m : Message} (h : m ∈ messages start bytes) :
    HasMessage start bytes m := by
  fun_induction messages start bytes with
  | case1 start b0 b1 b2 b3 b4 rest h0 ih => exact (ih h).cons (.byte b0 h0)
  | case2 start b0 b1 b2 b3 b4 rest h0 h1 ih =>
    rw [not_not] at h0
    subst h0
    exact (ih h).cons (.pair b1 h1)
  | case3 start b0 b1 b2 b3 b4 rest h0 h1 h3 ih =>
    rw [not_not] at h0 h1
    subst h0 h1
    exact (ih h).cons (.broken b2 b3 b4 h3)
  | case4 start b0 b1 b2 b3 b4 rest h0 h1 h3 hfull ih =>
    rw [not_not] at h0 h1 h3
    subst h0 h1 h3
    have hlen : (rest.take b2.toNat).length = b2.toNat := List.length_take_of_le hfull
    have hbytes : 0xAA :: 0x57 :: b2 :: ~~~b2 :: b4 :: rest =
        (Piece.message b2 b4 (rest.take b2.toNat) hlen).bytes ++ rest.drop b2.toNat := by
      simp [Piece.bytes]
    rw [hbytes]
    rcases List.mem_cons.mp h with rfl | h
    · exact ⟨[], rest.drop b2.toNat, hlen, rfl, rfl⟩
    · refine HasMessage.cons _ ?_
      have hnext : start + (Piece.message b2 b4 (rest.take b2.toNat) hlen).bytes.length =
          start + 5 + b2.toNat := by
        simp [Piece.bytes, hfull]
        omega
      rw [hnext]
      exact ih h
  | case5 start b0 b1 b2 b3 b4 rest h0 h1 h3 hfull => simp at h
  | case6 => simp at h

theorem mem_messages_iff {bytes : List UInt8} {m : Message} :
    m ∈ messages start bytes ↔ HasMessage start bytes m :=
  ⟨hasMessage_of_mem, HasMessage.mem⟩

theorem start_le_of_mem {bytes : List UInt8} {m : Message} (h : m ∈ messages start bytes) :
    start ≤ m.start := by
  obtain ⟨ps, rest, full, -, hstart⟩ := hasMessage_of_mem h
  omega

theorem lt_of_mem_messagesOf {ps : List Piece} {m : Message} (h : m ∈ messagesOf start ps) :
    m.start < start + (bytesOf ps).length := by
  induction ps generalizing start with
  | nil => simp [messagesOf] at h
  | cons p ps ih =>
    have hpos := p.bytes_length_pos
    rw [bytesOf_cons, List.length_append]
    rcases List.mem_append.mp h with h | h
    · cases p <;> simp [Piece.messages] at h
      subst h
      dsimp only at *
      omega
    · have := ih h
      omega

/-! ## Safety -/

/-- Every access of a buffer is in range, and no dispatch has a length that
wrapped below zero. -/
structure Safe (s : Ckbt51) : Prop where
  in_range : ∀ i ∈ s.accesses, 0 ≤ i ∧ i < BUF_SIZE
  not_wrapped : ∀ d ∈ s.dispatches, d.len.toNat + 3 = d.received.toNat

/-- The length is one that the buffer and the handler can take. A message of
two bytes has no event type: its checksum must not be right. -/
structure Message.Fits (m : Message) : Prop where
  low : 2 ≤ m.len.toNat
  high : m.len.toNat ≤ BUF_SIZE
  typed : m.len.toNat = 2 → m.body ≠ [0, 0]

theorem handler_reads (data : Nat → UInt8) (len sn reg_offset : UInt8) (factory_reset : Bool)
    (evt_type : UInt8) :
    ∀ i ∈ (ckbt51_event_handler data len sn reg_offset factory_reset evt_type).reads,
      i ≤ 4 ∨ i < len.toNat := by
  intro i hi
  unfold ckbt51_event_handler ack_handler connection_handler query_rsp_handler at hi
  split_ifs at hi
  all_goals simp at hi
  all_goals omega

section

variable (outside : Int → UInt8) {m : Message}

theorem Message.Fits.accesses (h : m.Fits) : ∀ i ∈ m.accesses outside, 0 ≤ i ∧ i < BUF_SIZE := by
  obtain ⟨hlow, hhigh, -⟩ := h
  intro i hi
  unfold Message.accesses at hi
  simp only [List.mem_append, List.mem_map, List.mem_range, List.mem_cons] at hi
  rcases hi with (⟨n, hn, rfl⟩ | ⟨n, hn, rfl⟩) | rfl | hi
  · omega
  · omega
  · omega
  · split at hi
    · rw [List.mem_singleton] at hi
      omega
    · simp at hi

/-- A length that does not fit is seen in the accesses, but for a length of
two. -/
theorem two_le_of_accesses (h : ∀ i ∈ m.accesses outside, 0 ≤ i ∧ i < BUF_SIZE) :
    2 ≤ m.len.toNat ∧ m.len.toNat ≤ BUF_SIZE := by
  have hlow := h ((m.len.toNat : Int) - 2) (by simp [Message.accesses])
  refine ⟨by omega, ?_⟩
  by_contra hlong
  have hhigh := h ((m.len.toNat - 1 : Nat) : Int) (by
    simp only [Message.accesses, List.mem_append, List.mem_map, List.mem_range]
    exact .inl (.inl ⟨m.len.toNat - 1, by omega, rfl⟩))
  omega

theorem checksum_ok_of_two (h : m.len.toNat = 2) (hbody : m.body.length = m.len.toNat) :
    m.checksum_ok outside ↔ m.body = [0, 0] := by
  rw [h] at hbody
  obtain ⟨x, y, hxy⟩ := List.length_eq_two.mp hbody
  have hsum : m.checksum outside = 0 := by
    unfold Message.checksum
    rw [h]
    rfl
  unfold Message.checksum_ok Message.low_ok
  rw [hsum, h, hxy]
  simp [Message.buf, h, hxy, eq_comm]

theorem sub_three_toNat (x : UInt8) : (x - 3).toNat + 3 = x.toNat ↔ 3 ≤ x.toNat := by
  have := x.toNat_lt
  rw [UInt8.toNat_sub]
  simp
  omega

/-- The state after a message is safe when the state before it was, and the
message fits. -/
theorem safe_dispatch_message {s s' : Ckbt51} (hbody : m.body.length = m.len.toNat)
    (hacc : s'.accesses = s.accesses ++ m.accesses outside) (hdis : s'.dispatches = s.dispatches) :
    Safe (dispatch_message outside m s') ↔ Safe s ∧ m.Fits := by
  have hwrap : (m.dispatch outside).len.toNat + 3 = (m.dispatch outside).received.toNat ↔
      3 ≤ m.len.toNat := sub_three_toNat m.len
  have htwo := checksum_ok_of_two outside (m := m)
  unfold dispatch_message
  by_cases hok : m.checksum_ok outside
  · rw [if_pos hok]
    constructor
    · rintro ⟨hrange, hnot⟩
      simp only [touch, hacc, hdis, List.append_assoc] at hrange hnot
      obtain ⟨hlow, hhigh⟩ := two_le_of_accesses outside fun i hi =>
        hrange i (List.mem_append_right _ (List.mem_append_left _ hi))
      have hthree := hwrap.mp (hnot _ (List.mem_append_right _ (List.mem_singleton_self _)))
      refine ⟨⟨fun i hi => hrange i (List.mem_append_left _ hi),
        fun d hd => hnot d (List.mem_append_left _ hd)⟩, hlow, hhigh, fun h2 => ?_⟩
      omega
    · rintro ⟨⟨hrange, hnot⟩, hfits⟩
      have hthree : 3 ≤ m.len.toNat := by
        rcases Nat.lt_or_eq_of_le hfits.low with h | h
        · exact h
        · exact absurd ((htwo h.symm hbody).mp hok) (hfits.typed h.symm)
      have hhigh := hfits.high
      have hsub := (sub_three_toNat m.len).mpr hthree
      unfold BUF_SIZE at hhigh
      refine ⟨fun i hi => ?_, fun d hd => ?_⟩
      · simp only [touch, hacc, List.mem_append, List.mem_cons, List.mem_map] at hi
        rcases hi with (hi | hi) | rfl | ⟨n, hn, rfl⟩
        · exact hrange i hi
        · exact hfits.accesses outside i hi
        · exact ⟨Int.le_refl 0, by decide⟩
        · have hn := handler_reads _ _ _ _ _ _ n hn
          unfold BUF_SIZE
          omega
      · simp only [hdis] at hd
        rcases List.mem_append.mp hd with hd | hd
        · exact hnot d hd
        · rw [List.mem_singleton.mp hd]
          exact hwrap.mpr hthree
  · rw [if_neg hok]
    constructor
    · rintro ⟨hrange, hnot⟩
      rw [hacc] at hrange
      rw [hdis] at hnot
      obtain ⟨hlow, hhigh⟩ := two_le_of_accesses outside fun i hi =>
        hrange i (List.mem_append_right _ hi)
      exact ⟨⟨fun i hi => hrange i (List.mem_append_left _ hi), hnot⟩, hlow, hhigh,
        fun h2 hzero => hok ((htwo h2 hbody).mpr hzero)⟩
    · rintro ⟨⟨hrange, hnot⟩, hfits⟩
      refine ⟨fun i hi => ?_, by rw [hdis]; exact hnot⟩
      rw [hacc] at hi
      rcases List.mem_append.mp hi with hi | hi
      · exact hrange i hi
      · exact hfits.accesses outside i hi

end

/-! ## The task on the stream -/

/-- What the task has still to find: in the bytes of the queue, and in those
that are to come. -/
def toCome (s : Ckbt51) (future : List UInt8) : List Message :=
  let bytes := s.iqueue ++ future
  if s.wait_for_new_pkt then messages s.consumed bytes
  else if s.len.toNat ≤ bytes.length then
    ⟨s.consumed - PACKECT_HEADER_LEN, s.len, s.sn, bytes.take s.len.toNat⟩ ::
      messages (s.consumed + s.len.toNat) (bytes.drop s.len.toNat)
  else []

def dispatchesOf (outside : Int → UInt8) (ms : List Message) : List Dispatch :=
  (ms.filter fun m => m.checksum_ok outside).map fun m => m.dispatch outside

/-- The task has found the messages `found` of the whole stream. The rest of
the stream is in its queue, and in `future`. -/
structure Found (outside : Int → UInt8) (whole future : List UInt8) (found : List Message)
    (s : Ckbt51) : Prop where
  split : messages 0 whole = found ++ toCome s future
  dispatches : s.dispatches = dispatchesOf outside found
  safe : Safe s ↔ ∀ m ∈ found, m.Fits
  after_header : s.wait_for_new_pkt = false → PACKECT_HEADER_LEN ≤ s.consumed
  room : s.consumed + (s.iqueue ++ future).length = whole.length

section

variable {outside : Int → UInt8} {whole future : List UInt8} {found : List Message} {s : Ckbt51}

theorem Found.advance {s' : Ckbt51} (h : Found outside whole future found s) (n : Nat)
    (indices : List Int) (hn : n ≤ s.iqueue.length)
    (hqueue : s'.iqueue = s.iqueue.drop n) (hconsumed : s'.consumed = s.consumed + n)
    (hcome : toCome s' future = toCome s future) (hdis : s'.dispatches = s.dispatches)
    (hacc : s'.accesses = s.accesses ++ indices) (hrange : ∀ i ∈ indices, 0 ≤ i ∧ i < BUF_SIZE)
    (hheader : s'.wait_for_new_pkt = false → PACKECT_HEADER_LEN ≤ s'.consumed) :
    Found outside whole future found s' := by
  refine ⟨by rw [hcome]; exact h.split, hdis.trans h.dispatches, ?_, hheader, ?_⟩
  · rw [← h.safe]
    constructor
    · rintro ⟨h1, h2⟩
      rw [hacc] at h1
      rw [hdis] at h2
      exact ⟨fun i hi => h1 i (List.mem_append_left _ hi), h2⟩
    · rintro ⟨h1, h2⟩
      refine ⟨fun i hi => ?_, by rw [hdis]; exact h2⟩
      rw [hacc] at hi
      exact (List.mem_append.mp hi).elim (h1 i) (hrange i)
  · have hroom := h.room
    rw [hqueue, hconsumed, List.length_append, List.length_drop]
    rw [List.length_append] at hroom
    omega

/-- How many turns of the task can still change something. -/
def turnsLeft (s : Ckbt51) : Nat := s.iqueue.length + if s.wait_for_new_pkt then 0 else 1

/-- A header is five bytes, or what comes before it one or two. -/
theorem Found.read_header (h : Found outside whole future found s)
    (hwait : s.wait_for_new_pkt = true) (hroom : PACKECT_HEADER_LEN ≤ s.iqueue.length) :
    Found outside whole future found s.read_header ∧
      turnsLeft s.read_header < turnsLeft s := by
  obtain ⟨b0, b1, b2, b3, b4, rest, hq⟩ : ∃ b0 b1 b2 b3 b4 rest,
      s.iqueue = b0 :: b1 :: b2 :: b3 :: b4 :: rest := by
    rcases hq : s.iqueue with _ | ⟨b0, _ | ⟨b1, _ | ⟨b2, _ | ⟨b3, _ | ⟨b4, rest⟩⟩⟩⟩⟩
    all_goals simp [PACKECT_HEADER_LEN, hq] at hroom ⊢
  have hcome : toCome s future =
      messages s.consumed (b0 :: b1 :: b2 :: b3 :: b4 :: (rest ++ future)) := by
    simp [toCome, hwait, hq]
  rw [messages] at hcome
  simp only [ne_eq, ite_not] at hcome
  unfold Ckbt51.read_header sdGet
  simp only [hq, List.headD_cons, List.tail_cons]
  split_ifs with h0 h1 h3
  · rw [if_pos h0, if_pos h1, if_pos h3] at hcome
    refine ⟨h.advance 5 [0, 1, 2, 0, 1, 0, 2] (by simp [hq]) (by simp [hq, touch]) rfl ?_ rfl
      (by simp [touch]) (by decide) fun _ => ?_, ?_⟩
    · rw [hcome]
      simp [toCome, touch, PACKECT_HEADER_LEN, Nat.add_assoc]
    · simp [touch, PACKECT_HEADER_LEN]
    · simp [turnsLeft, touch, hq, hwait]
  · rw [if_pos h0, if_pos h1, if_neg h3] at hcome
    refine ⟨h.advance 5 [0, 1, 2, 0, 1] (by simp [hq]) (by simp [hq, touch]) rfl ?_ rfl
      (by simp [touch]) (by decide) fun hw => ?_, ?_⟩
    · rw [hcome]
      simp [toCome, touch, hwait]
    · simp [touch, hwait] at hw
    · simp [turnsLeft, touch, hq, hwait]
      omega
  · rw [if_pos h0, if_neg h1] at hcome
    refine ⟨h.advance 2 [] (by simp [hq]) (by simp [hq]) rfl ?_ rfl
      (by simp) (by simp) fun hw => ?_, ?_⟩
    · rw [hcome]
      simp [toCome, hwait]
    · simp [hwait] at hw
    · simp [turnsLeft, hq, hwait]
  · rw [if_neg h0] at hcome
    refine ⟨h.advance 1 [] (by simp [hq]) (by simp [hq]) rfl ?_ rfl
      (by simp) (by simp) fun hw => ?_, ?_⟩
    · rw [hcome]
      simp [toCome, hwait]
    · simp [hwait] at hw
    · simp [turnsLeft, hq, hwait]

theorem dispatch_message_keeps (m : Message) (s : Ckbt51) :
    (dispatch_message outside m s).iqueue = s.iqueue ∧
    (dispatch_message outside m s).consumed = s.consumed ∧
    (dispatch_message outside m s).wait_for_new_pkt = s.wait_for_new_pkt ∧
    (dispatch_message outside m s).dispatches = s.dispatches ++ dispatchesOf outside [m] := by
  unfold dispatch_message dispatchesOf
  by_cases hok : m.checksum_ok outside
  · simp [hok, touch]
  · simp [hok]

theorem Found.read_body (h : Found outside whole future found s)
    (hwait : s.wait_for_new_pkt = false) (hroom : s.len.toNat ≤ s.iqueue.length) :
    ∃ m, Found outside whole future (found ++ [m]) (s.read_body outside) ∧
      turnsLeft (s.read_body outside) < turnsLeft s := by
  have hbody : (s.iqueue.take s.len.toNat).length = s.len.toNat := List.length_take_of_le hroom
  let m : Message := ⟨s.consumed - PACKECT_HEADER_LEN, s.len, s.sn, s.iqueue.take s.len.toNat⟩
  have hcome : toCome s future = m ::
      messages (s.consumed + s.len.toNat) (s.iqueue.drop s.len.toNat ++ future) := by
    simp [toCome, hwait, m, List.take_append_of_le_length hroom,
      List.drop_append_of_le_length hroom]
    omega
  let t : Ckbt51 :=
    { s.touch (m.accesses outside) with
      iqueue := s.iqueue.drop s.len.toNat
      consumed := s.consumed + s.len.toNat
      wait_for_new_pkt := true }
  have hsafe : Safe (dispatch_message outside m t) ↔ Safe s ∧ m.Fits :=
    safe_dispatch_message outside hbody rfl rfl
  have hkeeps : (dispatch_message outside m t).iqueue = t.iqueue ∧ _ := dispatch_message_keeps m t
  obtain ⟨hqueue, hconsumed, hwait', hdis⟩ := hkeeps
  refine ⟨m, ⟨?_, ?_, ?_, ?_, ?_⟩, ?_⟩
  all_goals rw [show s.read_body outside = dispatch_message outside m t from rfl]
  · rw [h.split, hcome, toCome, hwait', hqueue, hconsumed]
    simp [t]
  · rw [hdis, show t.dispatches = s.dispatches from rfl, h.dispatches]
    simp [dispatchesOf]
  · rw [hsafe, h.safe]
    simp [or_imp, forall_and]
  · rw [hwait']
    exact fun hw => absurd hw (by simp [t])
  · have hlen := h.room
    rw [List.length_append] at hlen
    rw [hqueue, hconsumed, List.length_append, show t.iqueue = s.iqueue.drop s.len.toNat from rfl,
      show t.consumed = s.consumed + s.len.toNat from rfl, List.length_drop]
    omega
  · unfold turnsLeft
    rw [hqueue, hwait', show t.iqueue = s.iqueue.drop s.len.toNat from rfl, List.length_drop, hwait,
      show t.wait_for_new_pkt = true from rfl]
    simp only [if_true, Bool.false_eq_true, if_false]
    omega

/-- The task finds nothing to do. -/
def Stuck (s : Ckbt51) : Prop :=
  if s.wait_for_new_pkt then s.iqueue.length < PACKECT_HEADER_LEN
  else s.iqueue.length < s.len.toNat

/-- A call of the task keeps what is known of the stream. It leaves fewer
turns, or finds nothing to do. -/
theorem Found.task (h : Found outside whole future found s) :
    ∃ found', Found outside whole future found' (s.ckbt51_task outside) ∧
      (turnsLeft (s.ckbt51_task outside) < turnsLeft s ∨
        s.ckbt51_task outside = s ∧ Stuck s) := by
  have hbody : ∀ s1, Found outside whole future found s1 → ∃ found',
      Found outside whole future found' (if ¬ s1.wait_for_new_pkt ∧ s1.len.toNat ≤ s1.iqueue.length
        then s1.read_body outside else s1) ∧
      turnsLeft (if ¬ s1.wait_for_new_pkt ∧ s1.len.toNat ≤ s1.iqueue.length
        then s1.read_body outside else s1) ≤ turnsLeft s1 := by
    intro s1 h1
    split
    · rename_i hfull
      obtain ⟨m, hm, hlt⟩ := h1.read_body (by simpa using hfull.1) hfull.2
      exact ⟨found ++ [m], hm, hlt.le⟩
    · exact ⟨found, h1, Nat.le_refl _⟩
  unfold ckbt51_task
  by_cases hheader : s.wait_for_new_pkt = true ∧ PACKECT_HEADER_LEN ≤ s.iqueue.length
  · rw [if_pos hheader]
    obtain ⟨h1, hlt⟩ := h.read_header hheader.1 hheader.2
    obtain ⟨found', h2, hle⟩ := hbody _ h1
    exact ⟨found', h2, .inl (Nat.lt_of_le_of_lt hle hlt)⟩
  · rw [if_neg hheader]
    by_cases hfull : ¬ s.wait_for_new_pkt = true ∧ s.len.toNat ≤ s.iqueue.length
    · rw [if_pos hfull]
      obtain ⟨m, hm, hlt⟩ := h.read_body (by simpa using hfull.1) hfull.2
      exact ⟨found ++ [m], hm, .inl hlt⟩
    · rw [if_neg hfull]
      refine ⟨found, h, .inr ⟨rfl, ?_⟩⟩
      unfold Stuck
      cases hw : s.wait_for_new_pkt
      · simpa [hw] using hfull
      · simpa [hw] using hheader

/-! ## Runs -/

theorem Found.arrived (h : Found outside whole future found s) {queue future' : List UInt8}
    (hqueue : queue ++ future' = s.iqueue ++ future) (reg : UInt8) (reset : Bool) :
    Found outside whole future' found
      { s with iqueue := queue, reg_offset := reg, factory_reset := reset } := by
  obtain ⟨hsplit, hdis, hsafe, hheader, hroom⟩ := h
  refine ⟨?_, hdis, Iff.trans ⟨fun h => ⟨h.1, h.2⟩, fun h => ⟨h.1, h.2⟩⟩ hsafe, hheader, ?_⟩
  · rw [hsplit]
    simp only [toCome, hqueue]
  · rw [hqueue]
    exact hroom

theorem Found.step (event : Event) {future : List UInt8}
    (h : Found outside whole (event.bytes ++ future) found s) :
    ∃ found', Found outside whole future found' (step outside s event) := by
  cases event with
  | rx bytes => exact ⟨found, h.arrived (List.append_assoc _ _ _) _ _⟩
  | task =>
    obtain ⟨found', h', -⟩ := h.task
    exact ⟨found', h'⟩
  | read_state_reg reg => exact ⟨found, h.arrived rfl _ _⟩
  | factory_reset => exact ⟨found, h.arrived rfl _ _⟩

theorem Found.events (events : List Event) (h : Found outside whole (stream events) found s) :
    ∃ found', Found outside whole [] found' (events.foldl (Ckbt51.step outside) s) := by
  induction events generalizing found s with
  | nil => exact ⟨found, h⟩
  | cons event events ih =>
    obtain ⟨found', h'⟩ := Found.step event h
    exact ih h'

/-- Enough calls of the task find everything. -/
theorem Found.tasks (n : Nat) (h : Found outside whole [] found s) (hn : turnsLeft s ≤ n) :
    ∃ s', (List.replicate n Event.task).foldl (Ckbt51.step outside) s = s' ∧
      Found outside whole [] (messages 0 whole) s' := by
  have hstuck : ∀ {s found}, Found outside whole [] found s → Stuck s →
      found = messages 0 whole := by
    intro s found h hs
    rw [h.split, toCome, List.append_nil]
    unfold Stuck at hs
    split
    · rename_i hw
      rw [if_pos hw] at hs
      rw [messages_short _ hs, List.append_nil]
    · rename_i hw
      rw [if_neg hw] at hs
      rw [if_neg (Nat.not_le.mpr hs), List.append_nil]
  induction n generalizing s found with
  | zero =>
    have hs : Stuck s := by
      unfold turnsLeft at hn
      unfold Stuck PACKECT_HEADER_LEN
      split <;> simp_all
    exact ⟨s, rfl, hstuck h hs ▸ h⟩
  | succ n ih =>
    obtain ⟨found', h', hless | ⟨hsame, hs⟩⟩ := h.task
    · exact ih h' (Nat.le_of_lt_succ (Nat.lt_of_lt_of_le hless hn))
    · have hsame' : ∀ k, (List.replicate k Event.task).foldl (Ckbt51.step outside) s = s := by
        intro k
        induction k with
        | zero => rfl
        | succ k ihk =>
          rw [List.replicate_succ, List.foldl_cons, Ckbt51.step, hsame]
          exact ihk
      exact ⟨s, hsame' _, hstuck h hs ▸ h⟩

/-- After a run, and as many calls of the task as bytes have arrived, every
message of the stream was found. -/
theorem run_found (outside : Int → UInt8) (events : List Event) {n : Nat}
    (hn : (stream events).length ≤ n) :
    Found outside (stream events) [] (messages 0 (stream events))
      (run outside (events ++ List.replicate n .task)) := by
  have hstart : Found outside (stream events) (stream events) [] .zero := by
    refine ⟨rfl, rfl, ?_, by simp [Ckbt51.zero], by simp [Ckbt51.zero]⟩
    exact iff_of_true ⟨by simp [Ckbt51.zero], by simp [Ckbt51.zero]⟩ (by simp)
  obtain ⟨found, h⟩ := hstart.events events
  have hturns : turnsLeft (events.foldl (Ckbt51.step outside) .zero) ≤ n := by
    have hroom := h.room
    have hheader := h.after_header
    unfold PACKECT_HEADER_LEN at hheader
    rw [List.append_nil] at hroom
    unfold turnsLeft
    split
    · omega
    · rename_i hw
      have := hheader (by simpa using hw)
      omega
  obtain ⟨s', hs', hfound⟩ := h.tasks n hturns
  rw [run, List.foldl_append, hs']
  exact hfound

end

/-! ## Packets -/

/-- What the module sends: a payload of a type and its data, in a message of
at most 32 bytes. -/
structure Packet where
  payload : List UInt8
  sn : UInt8
  typed : 0 < payload.length
  short : payload.length + 2 ≤ BUF_SIZE

namespace Packet

variable (p : Packet)

def len : UInt8 := UInt8.ofNat (p.payload.length + 2)

def sum : UInt16 := p.payload.foldl (fun sum x => sum + x.toUInt16) 0

def body : List UInt8 := p.payload ++ [p.sum.toUInt8, (p.sum >>> 8).toUInt8]

def bytes : List UInt8 := [0xAA, 0x57, p.len, ~~~p.len, p.sn] ++ p.body

def dispatch (start : Nat) : Dispatch where
  start := start
  received := p.len
  evt_type := p.payload.headD 0
  data := p.payload.tail
  len := UInt8.ofNat (p.payload.length - 1)
  sn := p.sn

def message (start : Nat) : Message := ⟨start, p.len, p.sn, p.body⟩

theorem len_toNat : p.len.toNat = p.payload.length + 2 := by
  have hshort := p.short
  unfold BUF_SIZE at hshort
  exact Nat.mod_eq_of_lt (by omega)

theorem body_length : p.body.length = p.len.toNat := by
  simp [body, len_toNat]

theorem buf_message (outside : Int → UInt8) (start i : Nat) (hi : i < p.payload.length + 2) :
    (p.message start).buf outside i = p.body.getD i 0 := by
  unfold Message.buf
  rw [if_pos]
  · rfl
  · change 0 ≤ (i : Int) ∧ (i : Int) < p.len.toNat
    rw [len_toNat]
    omega

theorem map_buf (outside : Int → UInt8) (start : Nat) :
    (List.range p.payload.length).map (fun i : Nat => (p.message start).buf outside i) =
      p.payload := by
  apply List.ext_getElem (by simp)
  intro i h1 h2
  have hbuf := p.buf_message outside start i (by omega)
  rw [body, List.getD_append _ _ _ _ h2] at hbuf
  simpa [hbuf] using List.getElem_eq_getD 0 |>.symm

theorem checksum_message (outside : Int → UInt8) (start : Nat) :
    (p.message start).checksum outside = p.sum := by
  have hlen : (p.message start).len.toNat - 2 = p.payload.length := by
    change p.len.toNat - 2 = _
    rw [len_toNat]
    omega
  unfold Message.checksum sum
  conv_rhs => rw [← p.map_buf outside start]
  rw [hlen, List.foldl_map]

theorem message_checksum_ok (outside : Int → UInt8) (start : Nat) :
    (p.message start).checksum_ok outside := by
  have hlen : ((p.message start).len.toNat : Int) = p.payload.length + 2 := by
    change (p.len.toNat : Int) = _
    rw [len_toNat]
    rfl
  have hlow := p.buf_message outside start p.payload.length (by omega)
  have hhigh := p.buf_message outside start (p.payload.length + 1) (by omega)
  unfold Message.checksum_ok Message.low_ok
  rw [checksum_message, hlen]
  constructor
  · rw [show (p.payload.length : Int) + 2 - 2 = (p.payload.length : Nat) by omega, hlow]
    simp [body]
  · rw [show (p.payload.length : Int) + 2 - 1 = (p.payload.length + 1 : Nat) by omega, hhigh]
    simp [body]

theorem dispatch_message (outside : Int → UInt8) (start : Nat) :
    (p.message start).dispatch outside = p.dispatch start := by
  have htyped := p.typed
  have hlen : p.len - 3 = UInt8.ofNat (p.payload.length - 1) := by
    rw [len, show p.payload.length + 2 = p.payload.length - 1 + 3 by omega, UInt8.ofNat_add]
    exact UInt8.add_sub_cancel _ _
  have hmap := p.map_buf outside start
  obtain ⟨x, xs, hx⟩ := List.exists_cons_of_length_pos htyped
  rw [hx, List.length_cons, List.range_succ_eq_map, List.map_cons, List.map_map] at hmap
  obtain ⟨hfirst, htail⟩ := List.cons.inj hmap
  have hnat : (UInt8.ofNat (p.payload.length - 1)).toNat = xs.length := by
    have hshort := p.short
    unfold BUF_SIZE at hshort
    rw [UInt8.toNat_ofNat', hx, List.length_cons, Nat.add_sub_cancel]
    rw [hx, List.length_cons] at hshort
    exact Nat.mod_eq_of_lt (by omega)
  rw [hx] at hnat hlen
  unfold Message.dispatch dispatch
  simp only [message, hlen, hnat, hx, List.headD_cons, List.tail_cons, Dispatch.mk.injEq,
    true_and, and_true]
  refine ⟨hfirst, ?_⟩
  conv_rhs => rw [← htail]
  refine List.map_congr_left fun i _ => ?_
  rw [Function.comp_apply, show ((i + 1 : Nat) : Int) = 1 + i by omega]
  rfl

theorem bytes_eq : p.bytes = (Piece.message p.len p.sn p.body p.body_length).bytes := rfl

end Packet

variable {ms : List Message}

theorem mem_dispatchesOf {outside : Int → UInt8} {d : Dispatch} (h : d ∈ dispatchesOf outside ms) :
    ∃ m ∈ ms, d.start = m.start := by
  obtain ⟨m, hm, rfl⟩ := List.mem_map.mp h
  exact ⟨m, (List.mem_filter.mp hm).1, rfl⟩

theorem no_dispatch {outside : Int → UInt8} (h : ∀ m ∈ ms, m.start ≠ start) :
    (dispatchesOf outside ms).filter (·.start = start) = [] := by
  rw [List.filter_eq_nil_iff]
  intro d hd
  obtain ⟨m, hm, hstart⟩ := mem_dispatchesOf hd
  simpa [hstart] using h m hm

/-- A packet after pieces is dispatched once. -/
theorem dispatched_after_pieces (outside : Int → UInt8) (ps : List Piece) (p : Packet)
    (post : List UInt8) :
    (dispatchesOf outside (messages 0 (bytesOf ps ++ (p.bytes ++ post)))).filter
      (·.start = (bytesOf ps).length) = [p.dispatch (bytesOf ps).length] := by
  have hlong : 5 ≤ (p.bytes ++ post).length := by simp [Packet.bytes]
  have hsplit : messages 0 (bytesOf ps ++ (p.bytes ++ post)) = messagesOf 0 ps ++
      ([p.message (bytesOf ps).length] ++
        messages ((bytesOf ps).length + p.bytes.length) post) := by
    rw [messages_bytesOf 0 ps hlong, Nat.zero_add, p.bytes_eq, messages_piece _ _ hlong]
    rfl
  have hbefore : ∀ m ∈ messagesOf 0 ps, m.start ≠ (bytesOf ps).length := by
    intro m hm
    have := lt_of_mem_messagesOf hm
    omega
  have hafter : ∀ m ∈ messages ((bytesOf ps).length + p.bytes.length) post,
      m.start ≠ (bytesOf ps).length := by
    intro m hm
    have hle := start_le_of_mem hm
    have hpos := Piece.bytes_length_pos (.message p.len p.sn p.body p.body_length)
    rw [← p.bytes_eq] at hpos
    omega
  have happend : ∀ ms ms', dispatchesOf outside (ms ++ ms') =
      dispatchesOf outside ms ++ dispatchesOf outside ms' := by
    intro ms ms'
    simp [dispatchesOf]
  rw [hsplit, happend, happend, List.filter_append, List.filter_append, no_dispatch hbefore,
    no_dispatch hafter]
  simp [dispatchesOf, p.message_checksum_ok, p.dispatch_message, Packet.dispatch]

/-- For every stream, cut into any chunks, with calls of the task at any
moments and then as many as bytes have arrived: all accesses are in range
and no dispatch has a wrapped length exactly when every message that comes
after pieces fits, and a packet is dispatched, once and with its own payload
and serial number, exactly when what stands before it is pieces. -/
theorem packets_are_dispatched_after_whole_pieces (outside : Int → UInt8) (events : List Event)
    (k : Nat) :
    let s := run outside (events ++ List.replicate ((stream events).length + k) .task)
    (Safe s ↔ ∀ m : Message, HasMessage 0 (stream events) m → m.Fits) ∧
    ∀ (before after : List UInt8) (p : Packet), stream events = before ++ (p.bytes ++ after) →
      (s.dispatches.filter (·.start = before.length) = [p.dispatch before.length] ↔
        ∃ ps, bytesOf ps = before) := by
  have h := run_found outside events (Nat.le_add_right (stream events).length k)
  refine ⟨?_, fun before after p hstream => ?_⟩
  · rw [h.safe]
    simp only [mem_messages_iff]
  · rw [h.dispatches, hstream]
    constructor
    · intro hdispatched
      have hmem : p.dispatch before.length ∈
          (dispatchesOf outside (messages 0 (before ++ (p.bytes ++ after)))).filter
            (·.start = before.length) := by
        rw [hdispatched]
        exact List.mem_singleton_self _
      obtain ⟨m, hm, hstart⟩ := mem_dispatchesOf (List.mem_filter.mp hmem).1
      obtain ⟨ps, rest, full, heq, hstart'⟩ := hasMessage_of_mem hm
      refine ⟨ps, ?_⟩
      have hlen : before.length = (bytesOf ps).length := by
        rw [Nat.zero_add] at hstart'
        exact hstart.trans hstart'
      exact (List.append_inj_left heq hlen).symm
    · rintro ⟨ps, rfl⟩
      exact dispatched_after_pieces outside ps p after

/-- A header of 33 bytes, and the bytes. -/
def longMessage : List UInt8 := [0xAA, 0x57, 33, 222, 0] ++ List.replicate 33 0

def resetPacket : Packet := ⟨[CKBT51_EVT_RESET, 1], 7, by decide, by decide⟩

def HasHeader (bytes : List UInt8) : Prop :=
  ∃ a len sn b, bytes = a ++ [0xAA, 0x57, len, ~~~len, sn] ++ b

/-- A message of 33 bytes is written past the buffer, and a byte 0xAA before
a packet hides its header. -/
theorem a_long_message_and_a_stray_byte_break_the_parsing :
    (¬ ∀ (outside : Int → UInt8) (events : List Event) (k : Nat),
      Safe (run outside (events ++ List.replicate ((stream events).length + k) .task))) ∧
    ¬ ∀ (outside : Int → UInt8) (events : List Event) (k : Nat) (before after : List UInt8)
      (p : Packet), stream events = before ++ (p.bytes ++ after) → ¬ HasHeader before →
      (run outside (events ++ List.replicate ((stream events).length + k) .task)).dispatches.filter
        (·.start = before.length) = [p.dispatch before.length] := by
  constructor
  · intro h
    have hwritten := (h (fun _ => 0) [.rx longMessage] 0).in_range 32 (by decide +kernel)
    exact absurd hwritten.2 (by decide)
  · intro h
    have hnone : ¬ HasHeader [0xAA] := by
      rintro ⟨a, len, sn, b, heq⟩
      have hlen := congrArg List.length heq
      simp at hlen
      omega
    have hlost := h (fun _ => 0) [.rx (0xAA :: resetPacket.bytes)] 0 [0xAA] [] resetPacket
      (by simp [stream, Event.bytes]) hnone
    revert hlost
    decide +kernel

end keychron_qmk.ckbt51
