-- Delivery: the reports that were submitted while the link was connected are
-- those handed to the transport for the first time and those that are still
-- queued, in order, where none finds the queue full or the timer at its start.
import KeychronQMK.Wireless.Calls
import KeychronQMK.Lib.Runs

namespace keychron_qmk.wireless

open ring runs

/-! ## Runs -/

def firsts (events : List LinkEvent) : List report_buffer_t :=
  events.filterMap fun
    | .first report => some report
    | .direct consumer => some (.REPORT_TYPE_CONSUMER consumer)
    | .dequeued _ | .again _ => none

/-- The report that a call submits. On a critically low battery a keyboard
submits none. -/
def Call.submits (w : Wireless) : Call → List report_buffer_t
  | .wireless_send_keyboard report =>
    if w.battery_is_critical_low then [] else [.REPORT_TYPE_KB report]
  | .wireless_send_nkro report =>
    if w.battery_is_critical_low then [] else [.REPORT_TYPE_NKRO report]
  | .wireless_send_consumer data => [.REPORT_TYPE_CONSUMER data]
  | .report_buffer_task => []

structure Link where
  radio : Wireless
  clock : Nat
  submitted : List report_buffer_t
  transmitted : List report_buffer_t

inductive LinkInput
  | wait (ms : Nat)
  | call (c : Call)
  /-- The module acknowledges a command. -/
  | ack (data : Nat → UInt8)
  | battery (critical_low : Bool)

def Link.step (s : Link) : LinkInput → Link
  | .wait ms => { s with clock := s.clock + ms }
  | .call c => {
      radio := (c.run s.radio s.clock).1
      clock := s.clock
      submitted := s.submitted ++ c.submits s.radio
      transmitted := s.transmitted ++ firsts (c.run s.radio s.clock).2 }
  | .ack data => { s with radio := s.radio.ack_handler data }
  | .battery critical_low =>
    { s with radio := { s.radio with battery_is_critical_low := critical_low } }

def Link.start (w : Wireless) (clock : Nat) : Link :=
  ⟨{ w.report_buffer_init clock with wireless_state := .WT_CONNECTED }, clock, [], []⟩

/-! ## Calls on a connected link -/

open Wireless

variable {w : Wireless} {clock : Nat}

theorem send_connected (hc : w.wireless_state = .WT_CONNECTED) (report : report_buffer_t) :
    w.send_buffered clock report = if w.battery_is_critical_low then (w, [])
      else if w.report_buffer_queue.isEmpty then
        (w.report_buffer_enqueue report).report_buffer_task clock
      else (w.report_buffer_enqueue report, []) := by
  have hpairing : ¬ (w.wireless_state = .WT_PARING ∧ w.pincodeEntry = false) := by
    rw [hc]
    exact fun h => nomatch h.1
  have hsends : w.sends := .inl hc
  unfold send_buffered
  rw [if_neg hpairing, if_pos hsends]

/-! ## What a call keeps -/

/-- A report that comes finds a free slot, and one that leaves the queue the
timer above 2. -/
def Call.Keeps (w : Wireless) (clock : Nat) : Call → Prop
  | .wireless_send_keyboard _ | .wireless_send_nkro _ => w.battery_is_critical_low = false →
      ¬ w.report_buffer_queue.isFull ∧
        (w.report_buffer_queue.isEmpty → w.due clock → 2 < timer_read32 clock)
  | .wireless_send_consumer _ =>
    ¬ (w.report_buffer_queue.isEmpty ∧ w.report_buffer_next_inverval clock) →
      ¬ w.report_buffer_queue.isFull
  | .report_buffer_task =>
    ¬ w.report_buffer_queue.isEmpty → w.due clock → 2 < timer_read32 clock

/-- What was queued and comes is what leaves and is queued. -/
def Conserves (before submits firsts after : List report_buffer_t) : Prop :=
  before ++ submits = firsts ++ after

theorem not_conserves {before submits firsts after : List report_buffer_t}
    (h : firsts.length + after.length < before.length + submits.length) :
    ¬ Conserves before submits firsts after := by
  intro heq
  have hlen := congrArg List.length heq
  rw [List.length_append, List.length_append] at hlen
  omega

variable (clock) in
theorem task_conserves (hnone : .REPORT_TYPE_NONE ∉ w.queued) :
    Conserves w.queued [] (firsts (w.report_buffer_task clock).2)
      (w.report_buffer_task clock).1.queued ↔
        (w.queued ≠ [] → w.due clock → 2 < timer_read32 clock) := by
  have htask := task_does w clock
  generalize w.report_buffer_task clock = out at htask
  cases htask with
  | waits hno => exact iff_of_true (List.append_nil _) fun hne hdue => absurd ⟨hne, hdue⟩ hno
  | retries hno _ _ hq =>
    exact iff_of_true ((List.append_nil _).trans hq.symm) fun hne hdue => absurd ⟨hne, hdue⟩ hno
  | sends _ hq _ ht _ => exact iff_of_true ((List.append_nil _).trans hq) fun _ _ => ht
  | @loses w' kb_rpt hdue hq hno _ =>
    have htype : kb_rpt ≠ .REPORT_TYPE_NONE := fun heq => hnone (hq ▸ heq ▸ List.mem_cons_self)
    refine iff_of_false (not_conserves ?_) fun h => ?_
    · rw [hq]
      simp [firsts]
    · exact hno ⟨htype, h (hq ▸ List.cons_ne_nil _ _) hdue⟩

theorem send_conserves (hc : w.wireless_state = .WT_CONNECTED) {report : report_buffer_t}
    (hreport : report ≠ .REPORT_TYPE_NONE) :
    Conserves w.queued (if w.battery_is_critical_low then [] else [report])
      (firsts (w.send_buffered clock report).2) (w.send_buffered clock report).1.queued ↔
        (w.battery_is_critical_low = false → ¬ w.report_buffer_queue.isFull ∧
          (w.report_buffer_queue.isEmpty → w.due clock → 2 < timer_read32 clock)) := by
  rw [send_connected hc]
  by_cases hlow : w.battery_is_critical_low = true
  · rw [if_pos hlow, if_pos hlow]
    refine iff_of_true (List.append_nil _) fun h => ?_
    rw [hlow] at h
    cases h
  have hlow' : w.battery_is_critical_low = false := Bool.not_eq_true _ ▸ hlow
  have hq := queued_enqueue (w := w) report
  rw [if_neg hlow, if_neg hlow]
  by_cases hempty : w.report_buffer_queue.isEmpty
  · -- The report is the only one of the queue, and the task is called.
    have hfull := not_full_of_empty hempty
    rw [if_neg hfull, queued_eq_nil_iff.mpr hempty, List.nil_append] at hq
    have htask := task_conserves clock
      (hq ▸ fun h => hreport (List.mem_singleton.mp h).symm)
    rw [if_pos hempty, queued_eq_nil_iff.mpr hempty]
    rw [hq, enqueue_due] at htask
    simp only [Conserves, List.append_nil, List.nil_append] at htask ⊢
    rw [htask]
    exact ⟨fun h _ => ⟨hfull, fun _ => h (List.cons_ne_nil _ _)⟩, fun h _ => (h hlow').2 hempty⟩
  · rw [if_neg hempty, hq]
    by_cases hfull : w.report_buffer_queue.isFull
    · rw [if_pos hfull]
      refine iff_of_false (not_conserves ?_) fun h => (h hlow').1 hfull
      simp [firsts]
    · rw [if_neg hfull]
      exact iff_of_true rfl fun _ => ⟨hfull, fun he => absurd he hempty⟩

theorem consumer_conserves (hc : w.wireless_state = .WT_CONNECTED) (data : UInt16) :
    Conserves w.queued [.REPORT_TYPE_CONSUMER data]
      (firsts (w.wireless_send_consumer clock data).2)
      (w.wireless_send_consumer clock data).1.queued ↔
        (¬ (w.report_buffer_queue.isEmpty ∧ w.report_buffer_next_inverval clock) →
          ¬ w.report_buffer_queue.isFull) := by
  unfold wireless_send_consumer
  rw [if_pos hc]
  by_cases hdirect : w.report_buffer_queue.isEmpty ∧ w.report_buffer_next_inverval clock
  · rw [if_pos hdirect]
    have hnil : w.queued = [] := queued_eq_nil_iff.mpr hdirect.1
    refine iff_of_true ?_ fun h => absurd hdirect h
    change w.queued ++ _ = _ ++ w.queued
    rw [hnil]
    rfl
  · rw [if_neg hdirect, queued_enqueue]
    by_cases hfull : w.report_buffer_queue.isFull
    · rw [if_pos hfull]
      refine iff_of_false (not_conserves ?_) fun h => h hdirect hfull
      simp [firsts]
    · rw [if_neg hfull]
      exact iff_of_true rfl fun _ => hfull

theorem call_conserves (hc : w.wireless_state = .WT_CONNECTED)
    (hnone : .REPORT_TYPE_NONE ∉ w.queued) (c : Call) :
    Conserves w.queued (c.submits w) (firsts (c.run w clock).2) (c.run w clock).1.queued ↔
      c.Keeps w clock := by
  cases c with
  | wireless_send_keyboard report => exact send_conserves hc (by simp)
  | wireless_send_nkro report => exact send_conserves hc (by simp)
  | wireless_send_consumer data => exact consumer_conserves hc data
  | report_buffer_task =>
    refine (task_conserves _ hnone).trans ?_
    rw [ne_eq, queued_eq_nil_iff]
    rfl

theorem run_state (hc : w.wireless_state = .WT_CONNECTED) (c : Call) :
    (c.run w clock).1.wireless_state = .WT_CONNECTED := by
  have hsend : ∀ report, (w.send_buffered clock report).1.wireless_state = .WT_CONNECTED := by
    intro report
    have henqueue := (enqueue_state (w := w) report).trans hc
    rw [send_connected hc]
    split
    · exact hc
    · split
      · exact task_state.trans henqueue
      · exact henqueue
  cases c with
  | wireless_send_keyboard report => exact hsend _
  | wireless_send_nkro report => exact hsend _
  | wireless_send_consumer data =>
    simp only [Call.run, wireless_send_consumer, if_pos hc]
    split
    · exact hc
    · exact (enqueue_state _).trans hc
  | report_buffer_task => exact task_state.trans hc

theorem submits_type (c : Call) : .REPORT_TYPE_NONE ∉ c.submits w := by
  cases c with
  | wireless_send_keyboard _ | wireless_send_nkro _ =>
    simp only [Call.submits]
    split
    · exact List.not_mem_nil
    · simp
  | wireless_send_consumer data => simp [Call.submits]
  | report_buffer_task => exact List.not_mem_nil

theorem ack_handler_same (data : Nat → UInt8) :
    (w.ack_handler data).report_buffer_queue = w.report_buffer_queue ∧
      (w.ack_handler data).wireless_state = w.wireless_state := by
  unfold Wireless.ack_handler
  split_ifs
  all_goals exact ⟨rfl, rfl⟩

/-! ## Runs -/

/-- The submitted reports are those handed to the transport and those queued. -/
structure Link.Good (s : Link) : Prop where
  connected : s.radio.wireless_state = .WT_CONNECTED
  types : .REPORT_TYPE_NONE ∉ s.radio.queued
  delivered : s.submitted = s.transmitted ++ s.radio.queued

/-- The condition on a step. -/
def Kept (s : Link) : LinkInput → Prop
  | .call c => c.Keeps s.radio s.clock
  | .wait _ | .ack _ | .battery _ => True

/-- No report is dropped, doubled or out of order after a step. -/
def Delivered (s : Link) (x : LinkInput) : Prop :=
  (s.step x).submitted = (s.step x).transmitted ++ (s.step x).radio.queued

instance (s : Link) (x : LinkInput) : Decidable (Delivered s x) :=
  inferInstanceAs (Decidable (_ = _))

theorem delivered_iff {s : Link} (h : s.Good) (x : LinkInput) : Kept s x ↔ Delivered s x := by
  obtain ⟨hc, hnone, hd⟩ := h
  cases x with
  | call c =>
    refine (call_conserves hc hnone c).symm.trans ?_
    unfold Delivered Conserves
    simp only [Link.step]
    rw [hd, List.append_assoc, List.append_assoc, List.append_cancel_left_eq]
  | ack data =>
    refine iff_of_true trivial ?_
    unfold Delivered queued
    simp only [Link.step, (ack_handler_same data).1]
    exact hd
  | wait _ | battery _ => exact iff_of_true trivial hd

theorem link_step {s : Link} (h : s.Good) {x : LinkInput} (hx : Delivered s x) :
    (s.step x).Good := by
  cases x with
  | call c =>
    refine ⟨run_state h.connected c, fun hmem => ?_, hx⟩
    have hconserves : s.radio.queued ++ c.submits s.radio =
        firsts (c.run s.radio s.clock).2 ++ (s.step (.call c)).radio.queued :=
      (call_conserves h.connected h.types c).mpr ((delivered_iff h (.call c)).mpr hx)
    have hin := List.mem_append_right (firsts (c.run s.radio s.clock).2) hmem
    rw [← hconserves] at hin
    exact (List.mem_append.mp hin).elim h.types (submits_type c)
  | ack data =>
    obtain ⟨hq, hs⟩ := ack_handler_same (w := s.radio) data
    refine ⟨hs.trans h.connected, ?_, hx⟩
    unfold queued
    simp only [Link.step, hq]
    exact h.types
  | wait _ | battery _ => exact ⟨h.connected, h.types, hx⟩

theorem link_start (w : Wireless) (clock : Nat) : (Link.start w clock).Good := by
  have hq : (Link.start w clock).radio.queued = [] := queued_init w clock
  exact ⟨rfl, by rw [hq]; exact List.not_mem_nil, by rw [hq]; rfl⟩

/-- While the link is connected, the first transmissions are the submitted
reports in order, up to those queued, exactly when each report that comes
finds a free slot and each that leaves the queue the timer above 2. -/
theorem reports_arrive_in_order_when_they_find_a_slot_and_a_started_timer (w : Wireless)
    (clock : Nat) (inputs : List LinkInput) :
    Along Link.step Delivered (Link.start w clock) inputs ↔
      Along Link.step Kept (Link.start w clock) inputs :=
  Along.iff (I := Link.Good) (fun _ x h => delivered_iff h x) (fun _ _ h hx => link_step h hx)
    (link_start w clock)

/-- Two milliseconds after boot a report leaves the queue, and is not sent. -/
theorem a_report_is_lost_after_boot :
    ¬ Along Link.step Delivered (Link.start .zero 0)
      [.wait 2, .call (.wireless_send_keyboard ⟨0, fun _ => 4⟩)] := by
  decide +kernel

end keychron_qmk.wireless
