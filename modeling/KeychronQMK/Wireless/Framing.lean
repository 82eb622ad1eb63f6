-- The bytes of its buffer that `lkbt51_task` reads, and the buffers in which
-- it finds the packet that they hold.
import KeychronQMK.Wireless.Parser

namespace keychron_qmk.wireless

/-! ## Reads -/

def LK_EVT_MSK_BATT : UInt8 := 4

def LKBT51_EVT_QUERY_RSP : UInt8 := 0xA2
def LKBT51_EVT_OTA_RSP : UInt8 := 0xA3
def LKBT51_CMD_IO_TEST : UInt8 := 0x72

def readsThen (reads : List Nat) (holds : Prop) [Decidable holds] (more : List Nat) : List Nat :=
  reads ++ if holds then more else []

def status_reads (pbuf : Bytes) : List Nat :=
  readsThen [0] (pbuf 0 = 0xAA) (readsThen [1] (pbuf 1 = 0x54)
    (readsThen [4] (pbuf 4 = ~~~0x54) [5])) ++
  if pbuf 0 = 0xAA ∧ pbuf 1 = 0x54 ∧ pbuf 4 = ~~~0x54 ∧ pbuf 5 = ~~~0xAA then [3, 2]
  else
    readsThen [0] (pbuf 0 = 0xAA)
      ([1] ++ (if pbuf 1 &&& LK_EVT_MSK_RESET ≠ 0 then [2] else []) ++
        (if pbuf 1 &&& LK_EVT_MSK_CONNECTION ≠ 0 then [2, 3] else []) ++
        (if pbuf 1 &&& LK_EVT_MSK_LED ≠ 0 then [4] else []) ++
        (if pbuf 1 &&& LK_EVT_MSK_RPT_INTERVAL ≠ 0 then [8, 8] else []) ++
        if pbuf 1 &&& LK_EVT_MSK_BATT ≠ 0 then [6, 5] else [])

def turn_reads (buf : Bytes) (i : Nat) : List Nat :=
  readsThen [i] (buf i = 0xAA) (readsThen [i + 1] (buf (i + 1) = 0x57)
    (readsThen [i + 2, i + 3] (~~~buf (i + 2) = buf (i + 3)) [i + 2, i + 4]))

def search_reads (buf : Bytes) (wait_for_new_pkt : Bool) : List Nat :=
  if wait_for_new_pkt then (List.range' 10 (BUFFER_SIZE - 5 - 10)).flatMap (turn_reads buf) else []

def low_ok (buf : Bytes) (pbuf len : Nat) : Prop :=
  (checksum buf pbuf len).toUInt8 = buf (pbuf + len - 2)

instance (buf : Bytes) (pbuf len : Nat) : Decidable (low_ok buf pbuf len) :=
  inferInstanceAs (Decidable (_ = _))

def checksum_reads (buf : Bytes) (pbuf len : Nat) : List Nat :=
  (List.range (len - 2)).map (pbuf + ·) ++
    readsThen [pbuf + len - 2] (low_ok buf pbuf len) [pbuf + len - 1]

def event_reads (buf : Bytes) (evt_type : UInt8) (data : Nat) (len : UInt8) : List Nat :=
  if evt_type = LKBT51_EVT_ACK then readsThen [data + 1] (buf (data + 1) ∈ reportCommands) [data + 2]
  else if evt_type = LKBT51_EVT_RESET ∨ evt_type = LKBT51_EVT_HID_EVENT then [data]
  else if evt_type = LKBT51_EVT_QUERY_RSP then
    readsThen [data + 2] (buf (data + 2) = 0) (readsThen [data + 1]
      (buf (data + 1) = LKBT51_CMD_IO_TEST) ((List.range len.toNat).map (data + ·)))
  else if evt_type = LKBT51_EVT_OTA_RSP ∨ evt_type = LKBT51_CMD_RAW_HID_RX then
    (List.range len.toNat).map (data + ·)
  else []

namespace Lkbt51

/-- All indices that `lkbt51_task` reads, the bytes of its buffer and those
behind it. -/
def task_reads (s : Lkbt51) (buf : Bytes) : List Nat :=
  let p := search buf ⟨s.wait_for_new_pkt, s.len, s.sn, 0⟩
  (status_reads fun i => buf (VALID_DATA_START_INDEX + i)).map (VALID_DATA_START_INDEX + ·) ++
    search_reads buf s.wait_for_new_pkt ++
    if p.wait_for_new_pkt = false ∧ p.len.toNat ≤ BUFFER_SIZE - 5 then
      checksum_reads buf p.pbuf p.len.toNat ++
        if checksum_ok buf p.pbuf p.len.toNat then
          p.pbuf :: event_reads buf (buf p.pbuf) (p.pbuf + 1) (p.len - 3)
        else []
    else []

end Lkbt51

/-! ## Buffers with a packet -/

/-- A buffer holds a packet at an index that the search covers, and no head
outside of it. -/
structure Framed (buf : Bytes) (i : Nat) : Prop where
  low : 10 ≤ i
  high : i < BUFFER_SIZE - 5
  packet : Packet buf i
  alone : ∀ k, 10 ≤ k → k < BUFFER_SIZE - 5 → is_head buf k →
    k = i ∨ (i < k + 4 ∧ k < i + 5 + (buf (i + 2)).toNat)

/-- The task dispatches the packet that a buffer holds, reads no byte outside
of the buffer, and dispatches no packet that is too short for its event. -/
structure FramesRight (s : Lkbt51) (clock : Nat) (buf : Bytes) : Prop where
  dispatches : ∀ i, Framed buf i → (s.read_buffer clock buf).2 = some (dispatchOf buf i)
  inside : ∀ a ∈ s.task_reads buf, a < BUFFER_SIZE
  not_wrapped : ∀ d, (s.read_buffer clock buf).2 = some d → 3 ≤ (buf (d.pbuf - 3)).toNat

/-- What is at a head is no packet that is too long for the buffer, too short,
or a query response at the end of the buffer without its data. -/
def Harmless (buf : Bytes) (j : Nat) : Prop :=
  (j + 5 + (buf (j + 2)).toNat ≤ BUFFER_SIZE ∨
    (j + 5 + (buf (j + 2)).toNat = BUFFER_SIZE + 1 ∧ ¬ low_ok buf (j + 5) (buf (j + 2)).toNat)) ∧
  (checksum_ok buf (j + 5) (buf (j + 2)).toNat → 3 ≤ (buf (j + 2)).toNat ∧
    ¬ (buf (j + 5) = LKBT51_EVT_QUERY_RSP ∧ j + 8 = BUFFER_SIZE))

/-- The parser waits, and finds no head in a packet, and no harmful one. -/
def FramesCleanly (waits : Prop) (buf : Bytes) : Prop :=
  (∀ i, Framed buf i → waits ∧ ∀ k, i < k → k < BUFFER_SIZE - 5 → ¬ is_head buf k) ∧
  (waits → ∀ j, LastHead buf j → (buf (j + 2)).toNat ≤ BUFFER_SIZE - 5 → Harmless buf j)

/-! ## Reads inside -/

theorem ite_forall {holds : Prop} [Decidable holds] {l l' : List Nat} {P : Nat → Prop} :
    (∀ a ∈ if holds then l else l', P a) ↔
      (holds → ∀ a ∈ l, P a) ∧ (¬ holds → ∀ a ∈ l', P a) := by
  split
  · rename_i h
    simp [h]
  · rename_i h
    simp [h]

theorem readsThen_forall {holds : Prop} [Decidable holds] {reads more : List Nat}
    {P : Nat → Prop} : (∀ a ∈ readsThen reads holds more, P a) ↔
      (∀ a ∈ reads, P a) ∧ (holds → ∀ a ∈ more, P a) := by
  unfold readsThen
  rw [List.forall_mem_append, ite_forall]
  simp

theorem map_range_forall {n k : Nat} {P : Nat → Prop} :
    (∀ a ∈ (List.range n).map (k + ·), P a) ↔ ∀ i < n, P (k + i) := by
  simp

theorem status_reads_inside (pbuf : Bytes) :
    ∀ a ∈ (status_reads pbuf).map (VALID_DATA_START_INDEX + ·), a < BUFFER_SIZE := by
  have hlow : ∀ a ∈ status_reads pbuf, a ≤ 8 := by
    unfold status_reads
    simp only [List.forall_mem_append, readsThen_forall, ite_forall, List.forall_mem_cons,
      List.not_mem_nil, false_imp_iff, implies_true, and_true, Nat.zero_le, Nat.reduceLeDiff]
  intro a ha
  obtain ⟨b, hb, rfl⟩ := List.mem_map.mp ha
  have := hlow b hb
  change 4 + b < 64
  omega

theorem search_reads_inside (buf : Bytes) (wait_for_new_pkt : Bool) :
    ∀ a ∈ search_reads buf wait_for_new_pkt, a < BUFFER_SIZE := by
  unfold search_reads
  rw [ite_forall]
  refine ⟨fun _ a ha => ?_, fun _ a ha => (List.not_mem_nil ha).elim⟩
  obtain ⟨i, hi, ha⟩ := List.mem_flatMap.mp ha
  have hhigh : i < 59 := (List.mem_range'_1.mp hi).2
  have hturn : ∀ a ∈ turn_reads buf i, a ≤ i + 4 := by
    unfold turn_reads
    simp only [readsThen_forall, List.forall_mem_cons, List.not_mem_nil, false_imp_iff,
      implies_true, and_true]
    omega
  have := hturn a ha
  change a < 64
  omega

/-- The checksum of a packet is inside when the packet is, or when it ends with
the byte behind the buffer and that one is not compared. -/
theorem checksum_reads_inside {buf : Bytes} {j len : Nat} :
    (∀ a ∈ checksum_reads buf (j + 5) len, a < BUFFER_SIZE) ↔
      j + 5 + len ≤ BUFFER_SIZE ∨
        (j + 5 + len = BUFFER_SIZE + 1 ∧ ¬ low_ok buf (j + 5) len) := by
  unfold checksum_reads
  rw [List.forall_mem_append, map_range_forall, readsThen_forall]
  simp only [List.forall_mem_cons, List.not_mem_nil, false_imp_iff, implies_true, and_true]
  constructor
  · rintro ⟨-, hlow, hhigh⟩
    by_cases hok : low_ok buf (j + 5) len
    · have := hhigh hok
      omega
    · rcases Nat.lt_or_ge BUFFER_SIZE (j + 5 + len) with hlt | hge
      · exact .inr ⟨by omega, hok⟩
      · exact .inl hge
  · rintro (hle | ⟨heq, hok⟩)
    · exact ⟨fun i hi => by omega, by omega, fun _ => by omega⟩
    · exact ⟨fun i hi => by omega, by omega, fun h => absurd h hok⟩

theorem checksum_of_one (buf : Bytes) (pbuf : Nat) : (checksum buf pbuf 3 >>> 8).toUInt8 = 0 := by
  have hsum : checksum buf pbuf 3 = (buf pbuf).toUInt16 := by
    simp [checksum, List.range_succ]
  have hlt := (buf pbuf).toNat_lt
  rw [hsum]
  apply UInt8.toNat_inj.mp
  simp only [UInt16.toNat_toUInt8, UInt16.toNat_shiftRight, UInt8.toNat_toUInt16,
    UInt16.reduceToNat, UInt8.reduceToNat, Nat.reduceMod, Nat.shiftRight_eq_div_pow]
  omega

/-- The event of a packet inside the buffer reads no byte behind it, unless it
is a query response that ends with the buffer and has no data. -/
theorem event_reads_inside {buf : Bytes} {j : Nat} (hlen : 3 ≤ (buf (j + 2)).toNat)
    (hin : j + 5 + (buf (j + 2)).toNat ≤ BUFFER_SIZE)
    (hok : checksum_ok buf (j + 5) (buf (j + 2)).toNat) :
    (∀ a ∈ event_reads buf (buf (j + 5)) (j + 5 + 1) (buf (j + 2) - 3), a < BUFFER_SIZE) ↔
      ¬ (buf (j + 5) = LKBT51_EVT_QUERY_RSP ∧ j + 8 = BUFFER_SIZE) := by
  have hdata : (buf (j + 2) - 3).toNat = (buf (j + 2)).toNat - 3 :=
    UInt8.toNat_sub_of_le _ _ (UInt8.le_iff_toNat_le.mpr hlen)
  have hall : ∀ i < (buf (j + 2) - 3).toNat, j + 5 + 1 + i < BUFFER_SIZE := by
    intro i hi
    omega
  have hack : buf (j + 5 + 1 + 1) ∈ reportCommands → j + 5 + 1 + 2 < BUFFER_SIZE := by
    intro hcommand
    by_contra hout
    -- The packet has one byte, and what looks like a command is its checksum.
    have hthree : (buf (j + 2)).toNat = 3 := by omega
    rw [hthree] at hok
    have hhigh : buf (j + 5 + 1 + 1) = 0 := hok.2.symm.trans (checksum_of_one buf (j + 5))
    rw [hhigh] at hcommand
    exact absurd hcommand (by decide)
  unfold event_reads
  simp only [ite_forall, readsThen_forall, map_range_forall, List.forall_mem_cons,
    List.not_mem_nil, false_imp_iff, implies_true, and_true]
  constructor
  · rintro ⟨-, hrest⟩ ⟨hquery, hend⟩
    rw [hquery] at hrest
    have := ((hrest (by decide)).2 (by decide)).1 rfl
    omega
  · intro hquery
    refine ⟨fun _ => ⟨by omega, hack⟩, fun _ => ⟨fun _ => by omega, fun _ =>
      ⟨fun h => ⟨?_, fun _ => ⟨by omega, fun _ => hall⟩⟩, fun _ => fun _ => hall⟩⟩⟩
    have hend : j + 8 ≠ BUFFER_SIZE := fun hend => hquery ⟨h, hend⟩
    omega

/-! ## One buffer -/

namespace Lkbt51

variable {s : Lkbt51} {buf : Bytes}

theorem dispatches_iff (h : s.Sane) (clock : Nat) (d : Dispatch) :
    (s.read_buffer clock buf).2 = some d ↔ s.wait_for_new_pkt = true ∧ ∃ j, LastHead buf j ∧
      (buf (j + 2)).toNat ≤ BUFFER_SIZE - 5 ∧
      checksum_ok buf (j + 5) (buf (j + 2)).toNat ∧ d = dispatchOf buf j := by
  have hstatus := read_status_same s clock fun i => buf (VALID_DATA_START_INDEX + i)
  have hdoes := parse_does buf (hstatus.sane h)
  rw [← hstatus.wait_for_new_pkt]
  unfold read_buffer
  generalize s.read_status clock _ = s at hdoes
  generalize s.parse buf = out at hdoes
  cases hdoes with
  | ignores hwait => exact iff_of_false (fun hc => nomatch hc) (by simp [hwait])
  | skips hwait hno => exact iff_of_false (fun hc => nomatch hc) fun ⟨_, j, hj, _⟩ => hno j hj
  | @reads s' j hwait hj hfit hwait' =>
    constructor
    · intro hd
      split at hd
      · rename_i hok
        exact ⟨hwait, j, hj, hfit, hok, (Option.some.inj hd).symm⟩
      · cases hd
    · rintro ⟨-, i, hi, -, hok, rfl⟩
      obtain rfl := hj.unique hi
      exact if_pos hok
  | wedges hwait hj hlong _ _ =>
    refine iff_of_false (fun hc => nomatch hc) fun ⟨_, i, hi, hfit, _⟩ => ?_
    rw [hj.unique hi] at hlong
    exact absurd hfit (Nat.not_le.mpr hlong)

/-- The reads that can leave the buffer are those of the packet at the last
head. -/
theorem task_reads_inside (h : s.Sane) : (∀ a ∈ s.task_reads buf, a < BUFFER_SIZE) ↔
    (s.wait_for_new_pkt = true → ∀ j, LastHead buf j → (buf (j + 2)).toNat ≤ BUFFER_SIZE - 5 →
      (∀ a ∈ checksum_reads buf (j + 5) (buf (j + 2)).toNat, a < BUFFER_SIZE) ∧
      (checksum_ok buf (j + 5) (buf (j + 2)).toNat →
        ∀ a ∈ event_reads buf (buf (j + 5)) (j + 5 + 1) (buf (j + 2) - 3), a < BUFFER_SIZE)) := by
  unfold task_reads
  rw [List.forall_mem_append, List.forall_mem_append, ite_forall,
    and_iff_right (⟨status_reads_inside _, search_reads_inside _ _⟩ : _ ∧ _),
    and_iff_left fun _ _ ha => (List.not_mem_nil ha).elim]
  cases hwait : s.wait_for_new_pkt with
  | false =>
    have hlong := h hwait
    refine iff_of_true (fun hc => ?_) fun hc => Bool.noConfusion hc
    exact absurd hc.2 (Nat.not_le.mpr hlong)
  | true =>
    rcases search_cases buf (p := ⟨true, s.len, s.sn, 0⟩) rfl with ⟨hno, heq⟩ | ⟨j, hj, heq⟩
    · rw [heq]
      exact iff_of_true (fun hc => Bool.noConfusion hc.1) fun _ j hj => absurd hj (hno j)
    · rw [heq]
      have hhead : j + 5 < BUFFER_SIZE := by
        have := hj.high
        omega
      simp only [true_and, forall_const, List.forall_mem_append, ite_forall, List.forall_mem_cons,
        List.not_mem_nil, false_imp_iff, implies_true, and_true, hhead]
      constructor
      · intro hin i hi hfit
        obtain rfl := hj.unique hi
        exact hin hfit
      · intro hin hfit
        exact hin j hj hfit

/-- Under the length that a task must not pass, what the task reads of a packet
is inside the buffer exactly when it is harmless. -/
theorem harmless_iff {j : Nat} :
    ((∀ a ∈ checksum_reads buf (j + 5) (buf (j + 2)).toNat, a < BUFFER_SIZE) ∧
      (checksum_ok buf (j + 5) (buf (j + 2)).toNat →
        (∀ a ∈ event_reads buf (buf (j + 5)) (j + 5 + 1) (buf (j + 2) - 3), a < BUFFER_SIZE) ∧
        3 ≤ (buf (j + 2)).toNat)) ↔ Harmless buf j := by
  rw [checksum_reads_inside]
  refine and_congr_right fun hin => forall_congr' fun hok => ?_
  have hin' : j + 5 + (buf (j + 2)).toNat ≤ BUFFER_SIZE :=
    hin.resolve_right fun hc => hc.2 hok.1
  constructor
  · rintro ⟨hevent, hlen⟩
    exact ⟨hlen, (event_reads_inside hlen hin' hok).mp hevent⟩
  · rintro ⟨hlen, hquery⟩
    exact ⟨(event_reads_inside hlen hin' hok).mpr hquery, hlen⟩

theorem frames_right_iff (h : s.Sane) (clock : Nat) :
    FramesRight s clock buf ↔ FramesCleanly (s.wait_for_new_pkt = true) buf := by
  constructor
  · rintro ⟨hdispatches, hinside, hwrapped⟩
    constructor
    · intro i hi
      obtain ⟨hwait, j, hj, -, -, heq⟩ := (dispatches_iff h clock _).mp (hdispatches i hi)
      have hpbuf : i + 5 = j + 5 := congrArg Dispatch.pbuf heq
      obtain rfl : i = j := by omega
      exact ⟨hwait, hj.last⟩
    · intro hwait j hj hfit
      obtain ⟨hsum, hevent⟩ := (task_reads_inside h).mp hinside hwait j hj hfit
      refine harmless_iff.mp ⟨hsum, fun hok => ⟨hevent hok, ?_⟩⟩
      exact hwrapped (dispatchOf buf j)
        ((dispatches_iff h clock _).mpr ⟨hwait, j, hj, hfit, hok, rfl⟩)
  · rintro ⟨hlast, hharmless⟩
    refine ⟨fun i hi => ?_, (task_reads_inside h).mpr fun hwait j hj hfit => ?_, fun d hd => ?_⟩
    · obtain ⟨hwait, hno⟩ := hlast i hi
      have hinside := hi.packet.inside
      exact (dispatches_iff h clock _).mpr ⟨hwait, i, ⟨hi.low, hi.high, hi.packet.head, hno⟩,
        by unfold BUFFER_SIZE at *; omega, hi.packet.checksum, rfl⟩
    · obtain ⟨hsum, hrest⟩ := harmless_iff.mpr (hharmless hwait j hj hfit)
      exact ⟨hsum, fun hok => (hrest hok).1⟩
    · obtain ⟨hwait, j, hj, hfit, hok, rfl⟩ := (dispatches_iff h clock d).mp hd
      exact ((hharmless hwait j hj hfit).2 hok).1

end Lkbt51

/-! ## Runs -/

/-- After any buffers, the task frames the next one right exactly when no
buffer before has wedged the parser, should it hold a packet, when it has no
head behind that of the packet, and when what is at its last head is harmless. -/
theorem framing_is_right_where_no_head_misleads (s : Lkbt51) (bufs : List (Nat × Bytes))
    (clock : Nat) (buf : Bytes) :
    FramesRight (s.start.read_all bufs) clock buf ↔
      FramesCleanly (∀ x ∈ bufs, ¬ Wedges x.2) buf := by
  have hstart : s.start.Sane := fun hw => nomatch hw
  obtain ⟨hsane, hwait⟩ := read_all_waits hstart bufs
  rw [Lkbt51.frames_right_iff hsane, hwait]
  exact iff_of_eq (congrArg (FramesCleanly · buf) (propext (and_iff_right rfl)))

def misleading_buffer : Bytes :=
  bufferOf [0xAA, 0x57, 7, 0xF8, 1, LKBT51_CMD_RAW_HID_RX, 0xAA, 0x57, 0xFF, 0, 0x92, 2]

/-- The packet of this buffer, the first one, is not dispatched. -/
theorem a_payload_with_a_head_is_lost :
    Framed misleading_buffer 10 ∧ ¬ FramesRight (Lkbt51.zero.start.read_all []) 0 misleading_buffer := by
  have hframed : Framed misleading_buffer 10 := by
    refine ⟨by decide, by decide, by decide +kernel, ?_⟩
    have hall : ∀ k < BUFFER_SIZE - 5, 10 ≤ k → is_head misleading_buffer k →
        k = 10 ∨ (10 < k + 4 ∧ k < 10 + 5 + (misleading_buffer (10 + 2)).toNat) := by
      decide +kernel
    exact fun k hlow hhigh => hall k hhigh hlow
  refine ⟨hframed, fun h => ?_⟩
  have hlost : ((Lkbt51.zero.start.read_all []).read_buffer 0 misleading_buffer).2 = none := by
    decide +kernel
  exact absurd ((h.dispatches 10 hframed).symm.trans hlost) (Option.some_ne_none _)

end keychron_qmk.wireless
