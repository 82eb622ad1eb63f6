-- The packet parser over runs of buffers: which packets are dispatched, and
-- which buffers leave it waiting for ever.
import KeychronQMK.Wireless.Module
import Mathlib.Data.List.Range

namespace keychron_qmk.wireless

open ring Lkbt51

/-! ## Packets -/

/-- A well-formed event packet at an index of a buffer: its head, an event with
a type and its checksum, all inside the buffer. -/
structure Packet (buf : Bytes) (i : Nat) : Prop where
  head : is_head buf i
  length : 3 ≤ (buf (i + 2)).toNat
  inside : i + 5 + (buf (i + 2)).toNat ≤ BUFFER_SIZE
  checksum : checksum_ok buf (i + 5) (buf (i + 2)).toNat

instance (buf : Bytes) (i : Nat) : Decidable (Packet buf i) :=
  decidable_of_iff (_ ∧ _ ∧ _ ∧ _)
    ⟨fun h => ⟨h.1, h.2.1, h.2.2.1, h.2.2.2⟩, fun h => ⟨h.head, h.length, h.inside, h.checksum⟩⟩

def dispatchOf (buf : Bytes) (i : Nat) : Dispatch := ⟨i + 5, buf (i + 2) - 3, buf (i + 4)⟩

structure LastHeadBelow (n : Nat) (buf : Bytes) (j : Nat) : Prop where
  low : 10 ≤ j
  high : j < n
  head : is_head buf j
  last : ∀ k, j < k → k < n → ¬ is_head buf k

instance (n : Nat) (buf : Bytes) (j : Nat) : Decidable (LastHeadBelow n buf j) :=
  decidable_of_iff (10 ≤ j ∧ j < n ∧ is_head buf j ∧ ∀ k, k < n → j < k → ¬ is_head buf k)
    ⟨fun h => ⟨h.1, h.2.1, h.2.2.1, fun k h1 h2 => h.2.2.2 k h2 h1⟩,
      fun h => ⟨h.low, h.high, h.head, fun k h1 h2 => h.last k h2 h1⟩⟩

def LastHead : Bytes → Nat → Prop := LastHeadBelow (BUFFER_SIZE - 5)

/-- The last head of the buffer is one whose packet fits in no buffer. -/
def Wedges (buf : Bytes) : Prop := ∃ j, LastHead buf j ∧ BUFFER_SIZE - 5 < (buf (j + 2)).toNat

theorem LastHeadBelow.unique {n : Nat} {buf : Bytes} {i j : Nat} (hi : LastHeadBelow n buf i)
    (hj : LastHeadBelow n buf j) : i = j := by
  rcases Nat.lt_trichotomy i j with h | h | h
  · exact absurd hj.head (hi.last j h hj.high)
  · exact h
  · exact absurd hi.head (hj.last i h hi.high)

/-! ## The search -/

/-- The search ends with the last head, or finds none. -/
theorem turns_cases (buf : Bytes) (p : Search) (n : Nat) :
    ((∀ k, 10 ≤ k → k < 10 + n → ¬ is_head buf k) ∧
      (List.range' 10 n).foldl (search_turn buf) p = p) ∨
    ∃ j, LastHeadBelow (10 + n) buf j ∧
      (List.range' 10 n).foldl (search_turn buf) p = ⟨false, buf (j + 2), buf (j + 4), j + 5⟩ := by
  induction n with
  | zero => exact .inl ⟨fun k h1 h2 => absurd h1 (by omega), rfl⟩
  | succ n ih =>
    rw [List.range'_1_concat, List.foldl_append, List.foldl_cons, List.foldl_nil]
    by_cases hhead : is_head buf (10 + n)
    · refine .inr ⟨10 + n, ⟨by omega, by omega, hhead, fun k h1 h2 => absurd h1 (by omega)⟩, ?_⟩
      unfold search_turn
      rw [if_pos hhead]
    · have hturn : ∀ q, search_turn buf q (10 + n) = q := fun q => if_neg hhead
      rw [hturn]
      rcases ih with ⟨hno, heq⟩ | ⟨j, hj, heq⟩
      · refine .inl ⟨fun k h1 h2 => ?_, heq⟩
        rcases Nat.lt_or_ge k (10 + n) with hlt | hge
        · exact hno k h1 hlt
        · have hk : k = 10 + n := by omega
          rw [hk]
          exact hhead
      · have hhigh := hj.high
        refine .inr ⟨j, ⟨hj.low, by omega, hj.head, fun k h1 h2 => ?_⟩, heq⟩
        rcases Nat.lt_or_ge k (10 + n) with hlt | hge
        · exact hj.last k h1 hlt
        · have hk : k = 10 + n := by omega
          rw [hk]
          exact hhead

theorem search_cases (buf : Bytes) {p : Search} (h : p.wait_for_new_pkt = true) :
    ((∀ k, ¬ LastHead buf k) ∧ search buf p = p) ∨
    ∃ j, LastHead buf j ∧ search buf p = ⟨false, buf (j + 2), buf (j + 4), j + 5⟩ := by
  unfold search
  rw [if_pos h]
  rcases turns_cases buf p (BUFFER_SIZE - 5 - 10) with ⟨hno, heq⟩ | hfound
  · exact .inl ⟨fun k hk => hno k hk.low hk.high hk.head, heq⟩
  · exact .inr hfound

/-! ## One buffer -/

namespace Lkbt51

variable (s : Lkbt51) (clock : Nat) (buf : Bytes)

/-- A parser that does not wait has a length that no buffer can hold. -/
def Sane : Prop := s.wait_for_new_pkt = false → BUFFER_SIZE - 5 < s.len.toNat

/-- What the parser does with a buffer. -/
inductive ParseDoes (s : Lkbt51) (buf : Bytes) : Lkbt51 × Option Dispatch → Prop
  | ignores (hwait : s.wait_for_new_pkt = false) : ParseDoes s buf (s, none)
  | skips (hwait : s.wait_for_new_pkt = true) (hno : ∀ k, ¬ LastHead buf k) :
      ParseDoes s buf (s, none)
  | reads {s' j} (hwait : s.wait_for_new_pkt = true) (hj : LastHead buf j)
      (hfit : (buf (j + 2)).toNat ≤ BUFFER_SIZE - 5) (hwait' : s'.wait_for_new_pkt = true) :
      ParseDoes s buf
        (s', if checksum_ok buf (j + 5) (buf (j + 2)).toNat then some (dispatchOf buf j) else none)
  | wedges {s' j} (hwait : s.wait_for_new_pkt = true) (hj : LastHead buf j)
      (hlong : BUFFER_SIZE - 5 < (buf (j + 2)).toNat) (hwait' : s'.wait_for_new_pkt = false)
      (hlen : s'.len = buf (j + 2)) : ParseDoes s buf (s', none)

variable {s buf}

variable (buf) in
theorem parse_does (h : s.Sane) : ParseDoes s buf (s.parse buf) := by
  unfold parse
  cases hwait : s.wait_for_new_pkt with
  | false =>
    have hsearch : search buf ⟨false, s.len, s.sn, 0⟩ = ⟨false, s.len, s.sn, 0⟩ := rfl
    have hlong := h hwait
    rw [hsearch, if_neg fun hc => absurd hc.2 (Nat.not_le.mpr hlong)]
    have hsame : { s with wait_for_new_pkt := false, len := s.len, sn := s.sn } = s := by
      rw [← hwait]
    rw [hsame]
    exact .ignores hwait
  | true =>
    rcases search_cases buf (p := ⟨true, s.len, s.sn, 0⟩) rfl with ⟨hno, heq⟩ | ⟨j, hj, heq⟩
    · have hsame : { s with wait_for_new_pkt := true, len := s.len, sn := s.sn } = s := by
        rw [← hwait]
      rw [heq, if_neg fun hc => Bool.noConfusion hc.1, hsame]
      exact .skips hwait hno
    · rw [heq]
      simp only [true_and]
      split
      · rename_i hfit
        exact .reads hwait hj hfit rfl
      · rename_i hlong
        exact .wedges hwait hj (Nat.not_le.mp hlong) rfl rfl

structure SameParser (s s' : Lkbt51) : Prop where
  wait_for_new_pkt : s'.wait_for_new_pkt = s.wait_for_new_pkt
  len : s'.len = s.len

theorem SameParser.sane {s s' : Lkbt51} (h : SameParser s s') (hs : s.Sane) : s'.Sane := by
  intro hw
  rw [h.len]
  exact hs (h.wait_for_new_pkt.symm.trans hw)

theorem enqueue_all_same (events : List wireless_event_t) (s : Lkbt51) :
    SameParser s (events.foldl wireless_event_enqueue s) := by
  induction events generalizing s with
  | nil => exact ⟨rfl, rfl⟩
  | cons event events ih =>
    have h := ih (s.wireless_event_enqueue event)
    exact ⟨h.wait_for_new_pkt, h.len⟩

theorem read_status_same (s : Lkbt51) (clock : Nat) (pbuf : Bytes) :
    SameParser s (s.read_status clock pbuf) := by
  have h := enqueue_all_same (s.status_events clock pbuf) s
  exact ⟨h.wait_for_new_pkt, h.len⟩

theorem event_handler_same (s : Lkbt51) (evt_type : UInt8) (data : Bytes) (len : UInt8) :
    SameParser s (s.lkbt51_event_handler evt_type data len) := by
  unfold lkbt51_event_handler
  simp only
  split
  · split_ifs
    all_goals exact ⟨rfl, rfl⟩
  · split_ifs
    all_goals exact ⟨rfl, rfl⟩

theorem lkbt51_task_same (s : Lkbt51) (clock : Nat) (buf : Bytes) :
    SameParser (s.read_buffer clock buf).1 (s.lkbt51_task clock buf) := by
  unfold lkbt51_task
  generalize s.read_buffer clock buf = out
  obtain ⟨s', d⟩ := out
  cases d with
  | none => exact ⟨rfl, rfl⟩
  | some d => exact event_handler_same _ _ _ _

variable (buf) in
/-- A buffer leaves the parser waiting when it waited, and the buffer does not
wedge it. -/
theorem task_waits (h : s.Sane) (clock : Nat) : (s.lkbt51_task clock buf).Sane ∧
    ((s.lkbt51_task clock buf).wait_for_new_pkt = true ↔
      s.wait_for_new_pkt = true ∧ ¬ Wedges buf) := by
  have hstatus := read_status_same s clock fun i => buf (VALID_DATA_START_INDEX + i)
  have htask := lkbt51_task_same s clock buf
  have hsane := hstatus.sane h
  have hdoes := parse_does buf hsane
  rw [← hstatus.wait_for_new_pkt, htask.wait_for_new_pkt]
  suffices hparse : (s.read_buffer clock buf).1.Sane ∧
      ((s.read_buffer clock buf).1.wait_for_new_pkt = true ↔ _ ∧ ¬ Wedges buf) from
    ⟨htask.sane hparse.1, hparse.2⟩
  unfold read_buffer
  generalize s.read_status clock _ = s at hsane hdoes
  generalize s.parse buf = out at hdoes
  cases hdoes with
  | ignores hwait => exact ⟨hsane, iff_of_false (by simp [hwait]) (by simp [hwait])⟩
  | skips hwait hno => exact ⟨hsane, iff_of_true hwait ⟨hwait, fun ⟨j, hj, _⟩ => hno j hj⟩⟩
  | reads hwait hj hfit hwait' =>
    refine ⟨fun hc => absurd (hwait'.symm.trans hc) (by decide), iff_of_true hwait' ⟨hwait, ?_⟩⟩
    rintro ⟨k, hk, hlong⟩
    rw [hk.unique hj] at hlong
    exact absurd hfit (Nat.not_le.mpr hlong)
  | wedges hwait hj hlong hwait' hlen =>
    refine ⟨fun _ => hlen ▸ hlong, iff_of_false (by simp [hwait']) fun hc => hc.2 ⟨_, hj, hlong⟩⟩

end Lkbt51

/-! ## Runs -/

/-- The parser at power-up; the other variables may be any. -/
def Lkbt51.start (s : Lkbt51) : Lkbt51 := { s with wait_for_new_pkt := true, len := 0xff, sn := 0 }

def Lkbt51.read_all (s : Lkbt51) (bufs : List (Nat × Bytes)) : Lkbt51 :=
  bufs.foldl (fun s x => s.lkbt51_task x.1 x.2) s

theorem read_all_waits {s : Lkbt51} (h : s.Sane) (bufs : List (Nat × Bytes)) :
    (s.read_all bufs).Sane ∧ ((s.read_all bufs).wait_for_new_pkt = true ↔
      s.wait_for_new_pkt = true ∧ ∀ x ∈ bufs, ¬ Wedges x.2) := by
  induction bufs generalizing s with
  | nil => exact ⟨h, (and_iff_left fun _ hx => nomatch hx).symm⟩
  | cons x bufs ih =>
    obtain ⟨hsane, hwait⟩ := task_waits x.2 h x.1
    obtain ⟨hsane', hwait'⟩ := ih hsane
    refine ⟨hsane', hwait'.trans ?_⟩
    rw [hwait, List.forall_mem_cons, and_assoc]

/-- A packet is dispatched by a parser that waits, when its head is the last
that the search can find. -/
theorem dispatched_iff {s : Lkbt51} (h : s.Sane) (clock : Nat) {buf : Bytes} {i : Nat}
    (hp : Packet buf i) : (s.read_buffer clock buf).2 = some (dispatchOf buf i) ↔
      s.wait_for_new_pkt = true ∧ LastHead buf i := by
  have hstatus := read_status_same s clock fun i => buf (VALID_DATA_START_INDEX + i)
  have hdoes := parse_does buf (hstatus.sane h)
  rw [← hstatus.wait_for_new_pkt]
  unfold read_buffer
  generalize s.read_status clock _ = s at hdoes
  generalize s.parse buf = out at hdoes
  have hinside := hp.inside
  have hfit : (buf (i + 2)).toNat ≤ BUFFER_SIZE - 5 := by
    change _ ≤ 64 at hinside
    change _ ≤ 64 - 5
    omega
  cases hdoes with
  | ignores hwait => exact iff_of_false (fun hc => nomatch hc) (by simp [hwait])
  | skips hwait hno => exact iff_of_false (fun hc => nomatch hc) fun hc => hno i hc.2
  | @reads s' j hwait hj hfit' hwait' =>
    constructor
    · intro hd
      split at hd
      · have hpbuf : j + 5 = i + 5 := congrArg Dispatch.pbuf (Option.some.inj hd)
        have hji : j = i := by omega
        exact ⟨hwait, hji ▸ hj⟩
      · cases hd
    · rintro ⟨-, hi⟩
      rw [hj.unique hi, if_pos hp.checksum]
  | wedges hwait hj hlong _ _ =>
    refine iff_of_false (fun hc => nomatch hc) fun hc => ?_
    rw [hj.unique hc.2] at hlong
    exact absurd hfit (Nat.not_le.mpr hlong)

/-- A well-formed packet is dispatched exactly when no buffer before it has
wedged the parser and its head is the last that the search can find. -/
theorem a_packet_is_dispatched_when_no_head_has_wedged_parsing (s : Lkbt51)
    (bufs : List (Nat × Bytes)) (clock : Nat) {buf : Bytes} {i : Nat} (h : Packet buf i) :
    ((s.start.read_all bufs).read_buffer clock buf).2 = some (dispatchOf buf i) ↔
      (∀ x ∈ bufs, ¬ Wedges x.2) ∧ LastHead buf i := by
  have hstart : s.start.Sane := fun hw => nomatch hw
  obtain ⟨hsane, hwait⟩ := read_all_waits hstart bufs
  rw [dispatched_iff hsane clock h, hwait]
  exact and_congr_left fun _ => and_iff_right rfl

def bufferOf (bytes : List UInt8) : Bytes := fun i =>
  if i < 10 then 0 else bytes.getD (i - 10) 0

/-- A reset event is dispatched from the first buffer. -/
theorem a_reset_packet_is_dispatched :
    ((Lkbt51.zero.start.read_all []).read_buffer 0
        (bufferOf [0xAA, 0x57, 4, 0xFB, 1, LKBT51_EVT_RESET, 1, 0xB1, 0])).2 =
      some (dispatchOf (bufferOf [0xAA, 0x57, 4, 0xFB, 1, LKBT51_EVT_RESET, 1, 0xB1, 0]) 10) := by
  have hp : Packet (bufferOf [0xAA, 0x57, 4, 0xFB, 1, LKBT51_EVT_RESET, 1, 0xB1, 0]) 10 := by
    decide +kernel
  have hlast : LastHeadBelow 59
      (bufferOf [0xAA, 0x57, 4, 0xFB, 1, LKBT51_EVT_RESET, 1, 0xB1, 0]) 10 := by
    decide +kernel
  exact (a_packet_is_dispatched_when_no_head_has_wedged_parsing .zero [] 0 hp).mpr
    ⟨fun _ hx => (nomatch hx), hlast⟩

/-- A head with the length 255 in the first buffer, and a well-formed packet,
the only one, in the second. -/
theorem a_head_with_a_long_length_wedges_parsing :
    (∀ i < BUFFER_SIZE, Packet (bufferOf [0xAA, 0x57, 4, 0xFB, 1, LKBT51_EVT_RESET, 1, 0xB1, 0]) i ↔
        i = 10) ∧
      ((Lkbt51.zero.start.read_all [(0, bufferOf [0xAA, 0x57, 0xFF, 0])]).read_buffer 1
        (bufferOf [0xAA, 0x57, 4, 0xFB, 1, LKBT51_EVT_RESET, 1, 0xB1, 0])).2 = none := by
  decide +kernel

end keychron_qmk.wireless
