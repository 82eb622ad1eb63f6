-- What the calls of the report buffer do: to the queue, to the
-- retransmissions of the report that left it, and to the transport.
import KeychronQMK.Wireless.Funs

namespace keychron_qmk.wireless

open ring

namespace Wireless

variable (w : Wireless) (clock : Nat)

def queued : List report_buffer_t := w.report_buffer_queue.toList

def due : Prop := w.sends ∧ w.retry = 0 ∧ w.report_buffer_next_inverval clock

instance : Decidable (w.due clock) := inferInstanceAs (Decidable (_ ∧ _ ∧ _))

variable {w : Wireless} {clock : Nat}

/-! ## The queue -/

theorem queued_eq_nil_iff : w.queued = [] ↔ w.report_buffer_queue.isEmpty :=
  w.report_buffer_queue.toList_eq_nil_iff

theorem not_full_of_empty (h : w.report_buffer_queue.isEmpty) : ¬ w.report_buffer_queue.isFull := by
  intro hf
  rw [Ring.isEmpty_iff] at h
  rw [Ring.isFull_iff, h] at hf
  cases hf

theorem queued_init (w : Wireless) (clock : Nat) : (w.report_buffer_init clock).queued = [] :=
  queued_eq_nil_iff.mpr rfl

theorem queued_enqueue (report : report_buffer_t) : (w.report_buffer_enqueue report).queued =
    if w.report_buffer_queue.isFull then w.queued else w.queued ++ [report] := by
  unfold report_buffer_enqueue
  split
  · rfl
  · rename_i h
    exact w.report_buffer_queue.toList_push h report

theorem enqueue_cases (report : report_buffer_t) : w.report_buffer_enqueue report = w ∨
    w.report_buffer_enqueue report =
      { w with report_buffer_queue := w.report_buffer_queue.push report } := by
  unfold report_buffer_enqueue
  split
  · exact .inl rfl
  · exact .inr rfl

theorem enqueue_state (report : report_buffer_t) :
    (w.report_buffer_enqueue report).wireless_state = w.wireless_state := by
  rcases enqueue_cases (w := w) report with heq | heq
  · rw [heq]
  · rw [heq]

theorem enqueue_retry (report : report_buffer_t) :
    (w.report_buffer_enqueue report).retry = w.retry := by
  rcases enqueue_cases (w := w) report with heq | heq
  · rw [heq]
  · rw [heq]

theorem enqueue_due (report : report_buffer_t) :
    (w.report_buffer_enqueue report).due clock ↔ w.due clock := by
  rcases enqueue_cases (w := w) report with heq | heq
  · rw [heq]
  · rw [heq]
    rfl

/-! ## The task -/

/-- What `report_buffer_task` does. A report that leaves the queue is handed
over, and then retried, or lost. -/
inductive TaskDoes (w : Wireless) (clock : Nat) : Wireless × List LinkEvent → Prop
  | waits (hno : ¬ (w.queued ≠ [] ∧ w.due clock)) : TaskDoes w clock (w, [])
  | retries {w'} (hno : ¬ (w.queued ≠ [] ∧ w.due clock)) (hretry : w.retry ≠ 0)
      (hless : w'.retry = w.retry - 1) (hq : w'.queued = w.queued) :
      TaskDoes w clock (w', [.again w.kb_rpt])
  | sends {w' kb_rpt} (hdue : w.due clock) (hq : w.queued = kb_rpt :: w'.queued)
      (htype : kb_rpt ≠ .REPORT_TYPE_NONE) (ht : 2 < timer_read32 clock)
      (hretry : w'.retry = RETPORT_RETRY_COUNT) :
      TaskDoes w clock (w', [.dequeued kb_rpt, .first kb_rpt])
  | loses {w' kb_rpt} (hdue : w.due clock) (hq : w.queued = kb_rpt :: w'.queued)
      (hno : ¬ (kb_rpt ≠ .REPORT_TYPE_NONE ∧ 2 < timer_read32 clock)) (hretry : w'.retry = 0) :
      TaskDoes w clock (w', [.dequeued kb_rpt])

theorem task_does (w : Wireless) (clock : Nat) : TaskDoes w clock (w.report_buffer_task clock) := by
  unfold report_buffer_task
  by_cases hrun : w.sends ∧ (¬ w.report_buffer_queue.isEmpty ∨ w.retry ≠ 0) ∧
      w.report_buffer_next_inverval clock
  swap
  · rw [if_neg hrun]
    refine .waits fun h => hrun ⟨h.2.1, .inl fun he => h.1 (queued_eq_nil_iff.mpr he), h.2.2.2⟩
  obtain ⟨hsends, hor, hnext⟩ := hrun
  rw [if_pos ⟨hsends, hor, hnext⟩]
  by_cases hretry : w.retry = 0
  · have hempty : ¬ w.report_buffer_queue.isEmpty := hor.resolve_right fun h => h hretry
    have hq := w.report_buffer_queue.toList_drop hempty
    rw [if_pos hretry]
    simp only
    split
    · rename_i hfirst
      exact .sends ⟨hsends, hretry, hnext⟩ hq hfirst.1 hfirst.2 rfl
    · rename_i hlost
      exact .loses ⟨hsends, hretry, hnext⟩ hq hlost hretry
  · have hno : ¬ (w.queued ≠ [] ∧ w.due clock) := fun h => hretry h.2.2.1
    rw [if_neg hretry]
    split
    · exact .retries hno hretry rfl rfl
    · exact .waits hno

theorem task_state : (w.report_buffer_task clock).1.wireless_state = w.wireless_state := by
  unfold report_buffer_task
  simp only
  split_ifs
  all_goals rfl

end Wireless

end keychron_qmk.wireless
