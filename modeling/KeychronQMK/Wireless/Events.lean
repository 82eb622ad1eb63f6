-- The event queue over runs: the events are handled in order, but for the
-- oldest where more than 15 wait, and a raw HID event with the payload of its
-- packet where no other raw HID packet comes before it is handled.
import KeychronQMK.Wireless.Parser
import KeychronQMK.Lib.Runs
import Mathlib.Data.List.Forall2

namespace keychron_qmk.wireless

open ring runs Lkbt51

/-! ## Runs -/

/-- An event, and the payload of the packet that made it. -/
structure Item where
  event : wireless_event_t
  payload : List UInt8

/-- Of the waiting items and a new one, the last 15 wait. -/
def pend (pending : List Item) (x : Item) : List Item :=
  (if pending.length + 1 = WT_EVENT_QUEUE_SIZE then pending.tail else pending) ++ [x]

def itemOf (buf : Bytes) (d : Dispatch) : Option Item :=
  (packet_event (buf d.pbuf) fun i => buf (d.pbuf + 1 + i)).map fun event =>
    ⟨event, (List.range d.len.toNat).map fun i => buf (d.pbuf + 1 + i)⟩

def items (s : Lkbt51) (clock : Nat) (buf : Bytes) : List Item :=
  (s.status_events clock fun i => buf (VALID_DATA_START_INDEX + i)).map (fun event => ⟨event, []⟩) ++
    ((s.read_buffer clock buf).2.bind (itemOf buf)).toList

/-- The module, and the items that are waiting. -/
structure EventRun where
  lkbt51 : Lkbt51
  pending : List Item

inductive EventInput
  /-- `lkbt51_task`, from `wireless_task` or `send_string_task`. -/
  | lkbt51_task (clock : Nat) (buf : Bytes)
  | wireless_event_task (clock : Nat)

def EventRun.step (s : EventRun) : EventInput → EventRun
  | .lkbt51_task clock buf =>
    ⟨s.lkbt51.lkbt51_task clock buf, (items s.lkbt51 clock buf).foldl pend s.pending⟩
  | .wireless_event_task clock => ⟨(s.lkbt51.wireless_event_task clock).1, []⟩

/-- The module at power-up; the variables that are not set may be any. -/
def EventRun.start (s : Lkbt51) : EventRun where
  lkbt51 := { s.start with
    wireless_event_queue :=
      { s.wireless_event_queue with
        head := Lkbt51.zero.wireless_event_queue.head
        tail := Lkbt51.zero.wireless_event_queue.tail } }
  pending := []

/-- An event is handled as it was put into the queue; of a raw HID event the
handler reads 32 bytes. -/
def Matches (x : Item) (h : Handled) : Prop :=
  h.event = x.event ∧ (x.event.evt_type = .EVT_RAW_HID →
    h.raw_hid_data.take x.payload.length = x.payload.take 32)

instance (x : Item) (h : Handled) : Decidable (Matches x h) :=
  inferInstanceAs (Decidable (_ ∧ (_ → _)))

instance decidableMatches : ∀ xs hs, Decidable (List.Forall₂ Matches xs hs)
  | [], [] => .isTrue .nil
  | [], _ :: _ => .isFalse fun h => nomatch h
  | _ :: _, [] => .isFalse fun h => nomatch h
  | x :: xs, h :: hs =>
    have := decidableMatches xs hs
    decidable_of_iff (Matches x h ∧ List.Forall₂ Matches xs hs) List.forall₂_cons.symm

/-- The events that are handled are those that wait, in order, each with its
own data. -/
def Consumed (s : EventRun) : EventInput → Prop
  | .lkbt51_task _ _ => True
  | .wireless_event_task clock =>
    List.Forall₂ Matches s.pending (s.lkbt51.wireless_event_task clock).2

instance (s : EventRun) : ∀ x, Decidable (Consumed s x)
  | .lkbt51_task _ _ => .isTrue trivial
  | .wireless_event_task clock =>
    decidableMatches s.pending (s.lkbt51.wireless_event_task clock).2

/-- The condition on a step: a raw HID packet finds no raw HID event waiting. -/
def Alone (s : EventRun) : EventInput → Prop
  | .lkbt51_task clock buf =>
    ∀ d ∈ (s.lkbt51.read_buffer clock buf).2, buf d.pbuf = LKBT51_CMD_RAW_HID_RX →
      ∀ event ∈ s.lkbt51.wireless_event_queue.toList, event.evt_type ≠ .EVT_RAW_HID
  | .wireless_event_task _ => True

instance (s : EventRun) : ∀ x, Decidable (Alone s x)
  | .lkbt51_task clock buf => inferInstanceAs (Decidable
    (∀ d ∈ (s.lkbt51.read_buffer clock buf).2, _ → ∀ _ ∈ s.lkbt51.wireless_event_queue.toList, _))
  | .wireless_event_task _ => .isTrue trivial

/-! ## The queue -/

theorem toList_enqueue (s : Lkbt51) (event : wireless_event_t) :
    (s.wireless_event_enqueue event).wireless_event_queue.toList =
      (if s.wireless_event_queue.toList.length + 1 = WT_EVENT_QUEUE_SIZE
        then s.wireless_event_queue.toList.tail else s.wireless_event_queue.toList) ++ [event] :=
  s.wireless_event_queue.toList_pushOver event (by decide)

theorem map_pend (pending : List Item) (x : Item) : (pend pending x).map Item.event =
    (if (pending.map Item.event).length + 1 = WT_EVENT_QUEUE_SIZE
      then (pending.map Item.event).tail else pending.map Item.event) ++ [x.event] := by
  unfold pend
  rw [List.map_append, List.length_map, apply_ite (List.map Item.event), List.map_tail]
  rfl

variable {pending : List Item} {x y : Item}

theorem mem_pend (h : y ∈ pend pending x) : y ∈ pending ∨ y = x := by
  rcases List.mem_append.mp h with hin | hnew
  · split at hin
    · exact .inl (List.mem_of_mem_tail hin)
    · exact .inl hin
  · exact .inr (List.mem_singleton.mp hnew)

theorem mem_pend_all {xs : List Item} (h : y ∈ xs.foldl pend pending) : y ∈ pending ∨ y ∈ xs := by
  induction xs generalizing pending with
  | nil => exact .inl h
  | cons x xs ih =>
    rcases ih h with hin | hin
    · rcases mem_pend hin with hp | heq
      · exact .inl hp
      · exact .inr (heq ▸ List.mem_cons_self)
    · exact .inr (List.mem_cons_of_mem x hin)

def Queued (s : Lkbt51) (pending : List Item) : Prop :=
  s.wireless_event_queue.toList = pending.map Item.event

variable {s : Lkbt51}

theorem queued_enqueue_item (h : Queued s pending) (x : Item) :
    Queued (s.wireless_event_enqueue x.event) (pend pending x) := by
  unfold Queued at h ⊢
  rw [toList_enqueue, map_pend, h]

theorem queued_enqueue_all (h : Queued s pending) (xs : List Item) :
    Queued ((xs.map Item.event).foldl wireless_event_enqueue s)
      (xs.foldl pend pending) := by
  induction xs generalizing s pending with
  | nil => exact h
  | cons x xs ih => exact ih (queued_enqueue_item h x)

theorem enqueue_all_raw (events : List wireless_event_t) (s : Lkbt51) :
    (events.foldl wireless_event_enqueue s).raw_hid_data = s.raw_hid_data := by
  induction events generalizing s with
  | nil => rfl
  | cons event events ih => exact ih _

/-! ## Payloads -/

def rawBytes (raw : Fin 64 → UInt8) : List UInt8 := (List.finRange 64).map raw

def Fits (raw : Fin 64 → UInt8) (x : Item) : Prop :=
  x.event.evt_type = .EVT_RAW_HID → (rawBytes raw).take x.payload.length = x.payload

theorem Fits.of_nil (raw : Fin 64 → UInt8) (event : wireless_event_t) : Fits raw ⟨event, []⟩ :=
  fun _ => rfl

theorem Fits.handled (h : Fits s.raw_hid_data x) : Matches x (s.handled x.event) := by
  refine ⟨rfl, fun hraw => ?_⟩
  have hbytes := h hraw
  have hread : (s.handled x.event).raw_hid_data = (rawBytes s.raw_hid_data).take 32 :=
    List.map_take
  rw [hread, List.take_take, Nat.min_comm, ← List.take_take, hbytes]

/-- What `memcpy` leaves in the raw HID buffer. -/
def copied (raw : Fin 64 → UInt8) (data : Bytes) (len : UInt8) : Fin 64 → UInt8 :=
  fun i => if i < len.toNat then data i else raw i

theorem rawBytes_copied (raw : Fin 64 → UInt8) (data : Bytes) {len : UInt8}
    (h : len.toNat ≤ 64) :
    (rawBytes (copied raw data len)).take len.toNat = (List.range len.toNat).map data := by
  unfold rawBytes copied
  apply List.ext_getElem
  · simp [h]
  · intro i h1 h2
    have hi : i < len.toNat := by simpa using h2
    simp [hi]

/-- The packet of a raw HID event has a type and a checksum, and a payload
that the buffer can hold. -/
theorem raw_packet_len (h : s.Sane) {buf : Bytes} {d : Dispatch} (hd : (s.parse buf).2 = some d)
    (hraw : buf d.pbuf = LKBT51_CMD_RAW_HID_RX) : d.len.toNat ≤ 64 := by
  have hdoes := parse_does buf h
  generalize s.parse buf = out at hd hdoes
  cases hdoes with
  | ignores _ | skips _ _ | wedges _ _ _ _ _ => cases hd
  | @reads s' j _ hj hfit _ =>
    split at hd
    swap
    · cases hd
    rename_i hsum
    obtain ⟨hlow, hhigh⟩ := hsum
    have hdj := Option.some.inj hd
    subst hdj
    have hne : buf (j + 5) ≠ 0 := by
      intro hz
      have hzero := hraw.symm.trans hz
      revert hzero
      decide
    have hinv := hj.head.2.2
    change _ ≤ 59 at hfit
    change (buf (j + 2) - 3).toNat ≤ 64
    have hlen : 3 ≤ (buf (j + 2)).toNat := by
      by_contra hlt
      generalize hn : (buf (j + 2)).toNat = n at hlow hhigh hlt
      match n, hlt with
      | 0, _ =>
        have hz : buf (j + 2) = 0 := UInt8.toNat_inj.mp hn
        rw [hz] at hinv
        change 0 = buf (j + 3) at hlow
        rw [← hlow] at hinv
        revert hinv
        decide
      | 1, _ =>
        have hsum : (checksum buf (j + 5) 1 >>> 8).toUInt8 = 0 := by
          change ((0 : UInt16) >>> 8).toUInt8 = 0
          decide
        exact hne (hhigh.symm.trans hsum)
      | 2, _ =>
        have hz : 0 = buf (j + 5) := hlow
        exact hne hz.symm
      | n + 3, hlt => omega
    have hthree : (3 : UInt8) ≤ buf (j + 2) := UInt8.le_iff_toNat_le.mpr hlen
    rw [UInt8.toNat_sub_of_le _ _ hthree]
    omega

/-! ## wireless_event_task -/

/-- The loop empties the queue, and handles what was in it. -/
theorem event_loop_spec (clock : Nat) {n : Nat} (h : s.wireless_event_queue.toList.length ≤ n) :
    (event_loop clock n s).1.wireless_event_queue.toList = [] ∧
      (event_loop clock n s).1.raw_hid_data = s.raw_hid_data ∧
      SameParser s (event_loop clock n s).1 ∧
      (event_loop clock n s).2 = s.wireless_event_queue.toList.map s.handled := by
  induction n generalizing s with
  | zero =>
    have hnil := List.length_eq_zero_iff.mp (Nat.le_zero.mp h)
    exact ⟨hnil, rfl, ⟨rfl, rfl⟩, by rw [hnil]; rfl⟩
  | succ n ih =>
    unfold event_loop wireless_event_dequeue
    by_cases hempty : s.wireless_event_queue.isEmpty
    · have hnil := s.wireless_event_queue.toList_eq_nil_iff.mpr hempty
      rw [if_pos hempty]
      exact ⟨hnil, rfl, ⟨rfl, rfl⟩, by rw [hnil]; rfl⟩
    · have hdrop := s.wireless_event_queue.toList_drop hempty
      rw [if_neg hempty]
      simp only
      generalize hs' : ({ s with
        wireless_event_queue := s.wireless_event_queue.drop
        radio := handle s.radio clock s.wireless_event_queue.oldest } : Lkbt51) = s'
      have hqueue : s'.wireless_event_queue = s.wireless_event_queue.drop := by rw [← hs']
      have hraw : s'.raw_hid_data = s.raw_hid_data := by rw [← hs']
      have hparser : SameParser s s' := by
        rw [← hs']
        exact ⟨rfl, rfl⟩
      rw [hdrop, List.length_cons] at h
      obtain ⟨h1, h2, h3, h4⟩ := ih (s := s') (by rw [hqueue]; omega)
      have hhandled : s'.handled = s.handled := by
        unfold handled
        rw [hraw]
      refine ⟨h1, h2.trans hraw,
        ⟨h3.wait_for_new_pkt.trans hparser.wait_for_new_pkt, h3.len.trans hparser.len⟩, ?_⟩
      have hrest : (event_loop clock n s').2 =
          s.wireless_event_queue.drop.toList.map s.handled := by
        rw [h4, hqueue, hhandled]
      rw [hdrop, List.map_cons, ← hrest]
      rfl

/-! ## The invariant -/

/-- The waiting items are those of the queue, and the raw HID buffer holds the
payload of each raw HID event among them. -/
structure EventRun.Good (s : EventRun) : Prop where
  queued : Queued s.lkbt51 s.pending
  fits : ∀ x ∈ s.pending, Fits s.lkbt51.raw_hid_data x
  sane : s.lkbt51.Sane

theorem pending_raw {s : EventRun} (h : s.Good)
    (hno : ∀ event ∈ s.lkbt51.wireless_event_queue.toList, event.evt_type ≠ .EVT_RAW_HID)
    (hx : x ∈ s.pending) : x.event.evt_type ≠ .EVT_RAW_HID :=
  hno _ (h.queued ▸ List.mem_map_of_mem hx)

theorem handler_queued (h : Queued s pending) (buf : Bytes) (d : Dispatch) : Queued
      (s.lkbt51_event_handler (buf d.pbuf) (fun i => buf (d.pbuf + 1 + i)) d.len)
      ((itemOf buf d).toList.foldl pend pending) := by
  unfold lkbt51_event_handler itemOf
  generalize hs' : (if buf d.pbuf = LKBT51_EVT_ACK then _ else _ : Lkbt51) = s'
  have hq : Queued s' pending := by
    rw [← hs']
    split_ifs
    all_goals exact h
  cases packet_event (buf d.pbuf) fun i => buf (d.pbuf + 1 + i) with
  | none => exact hq
  | some event => exact queued_enqueue_item hq ⟨event, _⟩

theorem handler_raw (s : Lkbt51) (evt_type : UInt8) (data : Bytes) (len : UInt8) :
    (s.lkbt51_event_handler evt_type data len).raw_hid_data =
      if evt_type = LKBT51_CMD_RAW_HID_RX then copied s.raw_hid_data data len
      else s.raw_hid_data := by
  unfold lkbt51_event_handler
  generalize hs' : (if evt_type = LKBT51_EVT_ACK then _ else _ : Lkbt51) = s'
  have hraw : s'.raw_hid_data = if evt_type = LKBT51_CMD_RAW_HID_RX then
      copied s.raw_hid_data data len else s.raw_hid_data := by
    rw [← hs']
    by_cases hack : evt_type = LKBT51_EVT_ACK
    · rw [if_pos hack, if_neg (by rw [hack]; decide)]
    · rw [if_neg hack]
      split
      · rfl
      · rfl
  rw [← hraw]
  split
  · rfl
  · rfl

/-- The item of a packet other than a raw HID one is no raw HID event, and that
of a raw HID packet has its data. -/
theorem itemOf_fits (h : s.Sane) (buf : Bytes) {d : Dispatch} (hd : (s.parse buf).2 = some d)
    (hx : itemOf buf d = some x) (raw : Fin 64 → UInt8) :
    Fits (if buf d.pbuf = LKBT51_CMD_RAW_HID_RX then
      copied raw (fun i => buf (d.pbuf + 1 + i)) d.len else raw) x := by
  obtain ⟨event, hevent, hx⟩ := Option.map_eq_some_iff.mp hx
  subst hx
  by_cases hraw : buf d.pbuf = LKBT51_CMD_RAW_HID_RX
  · have hlen := raw_packet_len h hd hraw
    rw [if_pos hraw]
    intro _
    rw [List.length_map, List.length_range]
    exact rawBytes_copied raw _ hlen
  · intro htype
    unfold packet_event at hevent
    split at hevent
    · rw [← Option.some.inj hevent] at htype
      cases htype
    · split at hevent
      · rw [← Option.some.inj hevent] at htype
        cases htype
      · cases hevent

theorem read_status_queued (h : Queued s pending) (clock : Nat) (pbuf : Bytes) :
    Queued (s.read_status clock pbuf)
      (((s.status_events clock pbuf).map fun event => ⟨event, []⟩).foldl pend pending) := by
  have hall := queued_enqueue_all h ((s.status_events clock pbuf).map fun event => ⟨event, []⟩)
  rw [List.map_map] at hall
  have hid : (Item.event ∘ fun event => (⟨event, []⟩ : Item)) = id := rfl
  rw [hid, List.map_id] at hall
  exact hall

theorem parse_same (s : Lkbt51) (buf : Bytes) :
    (s.parse buf).1.wireless_event_queue = s.wireless_event_queue ∧
      (s.parse buf).1.raw_hid_data = s.raw_hid_data := by
  unfold parse
  simp only
  split
  · exact ⟨rfl, rfl⟩
  · exact ⟨rfl, rfl⟩

/-! ## Steps -/

theorem task_queued (h : Queued s pending) (clock : Nat) (buf : Bytes) :
    Queued (s.lkbt51_task clock buf) ((items s clock buf).foldl pend pending) := by
  have hstatus := read_status_queued h clock fun i => buf (VALID_DATA_START_INDEX + i)
  have hparse : Queued (s.read_buffer clock buf).1 _ :=
    (congrArg Ring.toList (parse_same _ buf).1).trans hstatus
  unfold lkbt51_task items
  rw [List.foldl_append]
  generalize s.read_buffer clock buf = out at hparse ⊢
  obtain ⟨s', d⟩ := out
  cases d with
  | none => exact hparse
  | some d => exact handler_queued hparse buf d

/-- The raw HID buffer fits the items of a buffer, and is written by a raw HID
packet only. -/
theorem task_fits (h : s.Sane) (clock : Nat) (buf : Bytes) :
    (∀ x ∈ items s clock buf, Fits (s.lkbt51_task clock buf).raw_hid_data x) ∧
      ((s.lkbt51_task clock buf).raw_hid_data = s.raw_hid_data ∨
        ∃ d, (s.read_buffer clock buf).2 = some d ∧ buf d.pbuf = LKBT51_CMD_RAW_HID_RX) := by
  have hsane := (read_status_same s clock fun i => buf (VALID_DATA_START_INDEX + i)).sane h
  have hraw : (s.read_buffer clock buf).1.raw_hid_data = s.raw_hid_data :=
    (parse_same _ buf).2.trans (enqueue_all_raw _ s)
  have hitem := fun d hd x hx => itemOf_fits (x := x) (d := d) hsane buf hd hx
    (s.read_buffer clock buf).1.raw_hid_data
  have hsome : ∀ d, (s.read_buffer clock buf).2 = some d →
      (s.lkbt51_task clock buf).raw_hid_data = if buf d.pbuf = LKBT51_CMD_RAW_HID_RX then
        copied (s.read_buffer clock buf).1.raw_hid_data (fun i => buf (d.pbuf + 1 + i)) d.len
        else (s.read_buffer clock buf).1.raw_hid_data := by
    intro d hd
    unfold lkbt51_task
    generalize s.read_buffer clock buf = out at hd ⊢
    obtain ⟨s', d'⟩ := out
    cases hd
    exact handler_raw _ _ _ _
  refine ⟨fun x hx => ?_, ?_⟩
  · rcases List.mem_append.mp hx with hin | hin
    · obtain ⟨event, -, rfl⟩ := List.mem_map.mp hin
      exact .of_nil _ event
    · obtain ⟨d, hd, hx⟩ := Option.bind_eq_some_iff.mp (Option.mem_toList.mp hin)
      rw [hsome d hd]
      exact hitem d hd x hx
  · cases hd : (s.read_buffer clock buf).2 with
    | none =>
      left
      rw [← hraw]
      unfold lkbt51_task
      generalize s.read_buffer clock buf = out at hd ⊢
      obtain ⟨s', d'⟩ := out
      cases hd
      rfl
    | some d =>
      by_cases htype : buf d.pbuf = LKBT51_CMD_RAW_HID_RX
      · exact .inr ⟨d, rfl, htype⟩
      · rw [hsome d hd, if_neg htype]
        exact .inl hraw

theorem good_read {s : EventRun} (h : s.Good) (clock : Nat) (buf : Bytes)
    (halone : Alone s (.lkbt51_task clock buf)) : (s.step (.lkbt51_task clock buf)).Good := by
  obtain ⟨hitems, hwritten⟩ := task_fits h.sane clock buf
  refine ⟨task_queued h.queued clock buf, fun x hx => ?_, (task_waits buf h.sane clock).1⟩
  rcases mem_pend_all hx with hin | hin
  · rcases hwritten with hsame | ⟨d, hd, hraw⟩
    · exact fun htype => (congrArg (fun raw => (rawBytes raw).take _) hsame).trans
        (h.fits x hin htype)
    · exact fun htype => absurd htype (pending_raw h (halone d hd hraw) hin)
  · exact hitems x hin

theorem event_step {s : EventRun} (h : s.Good) {x : EventInput} (hx : Alone s x) :
    Consumed s x ∧ (s.step x).Good := by
  cases x with
  | lkbt51_task clock buf => exact ⟨trivial, good_read h clock buf hx⟩
  | wireless_event_task clock =>
    have hlen : s.lkbt51.wireless_event_queue.toList.length ≤ WT_EVENT_QUEUE_SIZE := by
      rw [Ring.length_toList]
      exact s.lkbt51.wireless_event_queue.length_lt.le
    obtain ⟨hempty, hraw, hparser, hhandled⟩ := event_loop_spec clock hlen
    refine ⟨?_, hempty, fun _ hx => (nomatch hx), hparser.sane h.sane⟩
    change List.Forall₂ Matches s.pending (event_loop clock WT_EVENT_QUEUE_SIZE s.lkbt51).2
    rw [hhandled, h.queued, List.map_map, List.forall₂_map_right_iff, List.forall₂_same]
    exact fun x hx => (h.fits x hx).handled

theorem event_start (s : Lkbt51) : (EventRun.start s).Good :=
  ⟨(Ring.toList_eq_nil_iff _).mpr rfl, fun _ hx => (nomatch hx), fun hw => nomatch hw⟩

/-- The events are handled in order, all but the oldest where more than 15
wait, and a raw HID event with the payload of its packet, in every run in which
no raw HID packet comes while a raw HID event waits. -/
theorem events_have_their_own_data_where_raw_hid_packets_are_alone {s : Lkbt51}
    {inputs : List EventInput} (h : Along EventRun.step Alone (.start s) inputs) :
    Along EventRun.step Consumed (.start s) inputs :=
  Along.imp (I := EventRun.Good) (C := Alone) (P := Consumed) (fun _ _ hgood hx => event_step hgood hx)
    (event_start s) h

/-- A raw HID packet of 32 bytes is handled before the next one comes. -/
theorem raw_hid_packets_are_handled_one_by_one :
    Along EventRun.step Alone (.start .zero)
        [.lkbt51_task 0 (bufferOf ([0xAA, 0x57, 0x23, 0xDC, 1, LKBT51_CMD_RAW_HID_RX] ++
          List.replicate 32 1 ++ [0xB2, 0])), .wireless_event_task 0,
        .lkbt51_task 1 (bufferOf ([0xAA, 0x57, 0x23, 0xDC, 2, LKBT51_CMD_RAW_HID_RX] ++
          List.replicate 32 2 ++ [0xD2, 0])), .wireless_event_task 1] ∧
      Along EventRun.step Consumed (.start .zero)
        [.lkbt51_task 0 (bufferOf ([0xAA, 0x57, 0x23, 0xDC, 1, LKBT51_CMD_RAW_HID_RX] ++
          List.replicate 32 1 ++ [0xB2, 0])), .wireless_event_task 0,
        .lkbt51_task 1 (bufferOf ([0xAA, 0x57, 0x23, 0xDC, 2, LKBT51_CMD_RAW_HID_RX] ++
          List.replicate 32 2 ++ [0xD2, 0])), .wireless_event_task 1] := by
  have h : Along EventRun.step Alone (.start .zero)
      [.lkbt51_task 0 (bufferOf ([0xAA, 0x57, 0x23, 0xDC, 1, LKBT51_CMD_RAW_HID_RX] ++
        List.replicate 32 1 ++ [0xB2, 0])), .wireless_event_task 0,
      .lkbt51_task 1 (bufferOf ([0xAA, 0x57, 0x23, 0xDC, 2, LKBT51_CMD_RAW_HID_RX] ++
        List.replicate 32 2 ++ [0xD2, 0])), .wireless_event_task 1] := by
    decide +kernel
  exact ⟨h, events_have_their_own_data_where_raw_hid_packets_are_alone h⟩

/-- Two raw HID packets come before the events are handled: both events are
handled with the data of the second. -/
theorem a_raw_hid_packet_overwrites_the_one_before :
    ¬ Along EventRun.step Consumed (.start .zero)
      [.lkbt51_task 0 (bufferOf ([0xAA, 0x57, 0x23, 0xDC, 1, LKBT51_CMD_RAW_HID_RX] ++
        List.replicate 32 1 ++ [0xB2, 0])),
      .lkbt51_task 1 (bufferOf ([0xAA, 0x57, 0x23, 0xDC, 2, LKBT51_CMD_RAW_HID_RX] ++
        List.replicate 32 2 ++ [0xD2, 0])), .wireless_event_task 1] := by
  decide +kernel

end keychron_qmk.wireless
