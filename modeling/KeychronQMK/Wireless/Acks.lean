-- Acknowledgements: a report is given up when the module acknowledged it or
-- all its retransmissions were made, unless an acknowledgement of another
-- transmission arrives first, or the report was never transmitted.
import KeychronQMK.Wireless.Delivery

namespace keychron_qmk.wireless

open ring runs Wireless

/-! ## The link to the module -/

/-- A command on its way to the module. `report` is the number of the report
among those that left the queue, none for one sent past the queue. -/
structure Frame where
  report : Option Nat
  command : UInt8

/-- An acknowledgement on its way from the module, of the transmission of
`report`. -/
structure Ack where
  report : Option Nat
  command : UInt8
  result : UInt8

def command : report_buffer_t → UInt8
  | .REPORT_TYPE_NONE => 0
  | .REPORT_TYPE_KB _ => LKBT51_CMD_SEND_KB
  | .REPORT_TYPE_NKRO _ => LKBT51_CMD_SEND_KB_NKRO
  | .REPORT_TYPE_CONSUMER _ => LKBT51_CMD_SEND_CONSUMER

/-- The module has taken the report. -/
def accepts (result : UInt8) : Prop := result = ACK_SUCCESS ∨ result = ACK_FIFO_HALF_WARNING

instance (result : UInt8) : Decidable (accepts result) := inferInstanceAs (Decidable (_ ∨ _))

/-- The radio, what is in flight, and what became of the report that left the
queue last, the one with the number `current`. -/
structure Traffic where
  radio : Wireless
  clock : Nat
  current : Nat
  acked : Bool
  retransmissions : Nat
  frames : List Frame
  acks : List Ack

inductive TrafficInput
  | wait (ms : Nat)
  | call (c : Call)
  | battery (critical_low : Bool)
  /-- The module receives a frame, and replies to it. -/
  | acknowledge (i : Nat) (result : UInt8)
  | ack_arrives (i : Nat)
  | lose_frame (i : Nat)
  | lose_ack (i : Nat)

namespace Traffic

def note (s : Traffic) : LinkEvent → Traffic
  | .dequeued _ => { s with current := s.current + 1, acked := false, retransmissions := 0 }
  | .first report => { s with frames := s.frames ++ [⟨some s.current, command report⟩] }
  | .again report =>
    { s with
      frames := s.frames ++ [⟨some s.current, command report⟩]
      retransmissions := s.retransmissions + 1 }
  | .direct _ => { s with frames := s.frames ++ [⟨none, LKBT51_CMD_SEND_CONSUMER⟩] }

def data (a : Ack) (i : Nat) : UInt8 := if i = 1 then a.command else if i = 2 then a.result else 0

def step (s : Traffic) : TrafficInput → Traffic
  | .wait ms => { s with clock := s.clock + ms }
  | .call c =>
    (c.run s.radio s.clock).2.foldl note { s with radio := (c.run s.radio s.clock).1 }
  | .battery critical_low =>
    { s with radio := { s.radio with battery_is_critical_low := critical_low } }
  | .acknowledge i result =>
    match s.frames[i]? with
    | some frame =>
      { s with
        frames := s.frames.eraseIdx i
        acks := s.acks ++ [⟨frame.report, frame.command, result⟩]
        acked := s.acked || decide (frame.report = some s.current ∧ accepts result) }
    | none => s
  | .ack_arrives i =>
    match s.acks[i]? with
    | some ack =>
      { s with radio := s.radio.ack_handler (data ack), acks := s.acks.eraseIdx i }
    | none => s
  | .lose_frame i => { s with frames := s.frames.eraseIdx i }
  | .lose_ack i => { s with acks := s.acks.eraseIdx i }

/-- A link on which the report buffer is initialised. -/
def start (w : Wireless) (clock : Nat) : Traffic :=
  ⟨w.report_buffer_init clock, clock, 0, false, 0, [], []⟩

end Traffic

/-! ## Calls -/

def Call.Takes (w : Wireless) (clock : Nat) : Call → Prop
  | .wireless_send_keyboard _ | .wireless_send_nkro _ =>
    w.battery_is_critical_low = false ∧ w.report_buffer_queue.isEmpty ∧ w.due clock
  | .wireless_send_consumer _ => False
  | .report_buffer_task => ¬ w.report_buffer_queue.isEmpty ∧ w.due clock

inductive CallDoes (w : Wireless) (clock : Nat) (takes : Prop) : Wireless × List LinkEvent → Prop
  | quiet {w'} (hno : ¬ takes) (hretry : w'.retry = w.retry) : CallDoes w clock takes (w', [])
  | direct {w' data} (hno : ¬ takes) (hretry : w'.retry = w.retry) :
      CallDoes w clock takes (w', [.direct data])
  | retries {w' report} (hno : ¬ takes) (hretry : w.retry ≠ 0) (hless : w'.retry = w.retry - 1) :
      CallDoes w clock takes (w', [.again report])
  | sends {w' report} (htakes : takes) (ht : 2 < timer_read32 clock)
      (hretry : w'.retry = RETPORT_RETRY_COUNT) :
      CallDoes w clock takes (w', [.dequeued report, .first report])
  | loses {w' report} (htakes : takes) (ht : ¬ 2 < timer_read32 clock) (hretry : w'.retry = 0) :
      CallDoes w clock takes (w', [.dequeued report])

variable {w : Wireless} {clock : Nat}

theorem CallDoes.congr {w₀ : Wireless} {takes : Prop} {out : Wireless × List LinkEvent}
    (h : CallDoes w clock takes out) (hretry : w.retry = w₀.retry) :
    CallDoes w₀ clock takes out := by
  cases h with
  | quiet hno hr => exact .quiet hno (hr.trans hretry)
  | direct hno hr => exact .direct hno (hr.trans hretry)
  | retries hno hr hless => exact .retries hno (hretry ▸ hr) (hretry ▸ hless)
  | sends htakes ht hr => exact .sends htakes ht hr
  | loses htakes ht hr => exact .loses htakes ht hr

variable (clock) in
theorem task_call_does (hnone : .REPORT_TYPE_NONE ∉ w.queued) :
    CallDoes w clock (w.queued ≠ [] ∧ w.due clock) (w.report_buffer_task clock) := by
  have htask := task_does w clock
  generalize w.report_buffer_task clock = out at htask
  cases htask with
  | waits hno => exact .quiet hno rfl
  | retries hno hretry hless _ => exact .retries hno hretry hless
  | sends hdue hq _ ht hretry => exact .sends ⟨hq ▸ List.cons_ne_nil _ _, hdue⟩ ht hretry
  | @loses w' kb_rpt hdue hq hno hretry =>
    have htype : kb_rpt ≠ .REPORT_TYPE_NONE := fun heq => hnone (hq ▸ heq ▸ List.mem_cons_self)
    exact .loses ⟨hq ▸ List.cons_ne_nil _ _, hdue⟩ (fun ht => hno ⟨htype, ht⟩) hretry

theorem connect_retry : (w.wireless_connect clock).retry = w.retry := by
  unfold wireless_connect
  split
  · rfl
  · rfl

variable {report : report_buffer_t}

theorem send_call_does (hreport : report ≠ .REPORT_TYPE_NONE) :
    CallDoes w clock
      (w.battery_is_critical_low = false ∧ w.report_buffer_queue.isEmpty ∧ w.due clock)
      (w.send_buffered clock report) := by
  unfold send_buffered
  by_cases hlow : w.battery_is_critical_low = true
  · rw [if_pos hlow]
    exact .quiet (fun h => Bool.false_ne_true (h.1.symm.trans hlow)) rfl
  rw [if_neg hlow]
  by_cases hsends : w.sends
  · have hpairing : ¬ (w.wireless_state = .WT_PARING ∧ w.pincodeEntry = false) := by
      rintro ⟨hs, hp⟩
      rcases hsends with hc | ⟨-, hp'⟩
      · rw [hs] at hc
        cases hc
      · rw [hp] at hp'
        cases hp'
    rw [if_neg hpairing, if_pos hsends]
    simp only
    split
    · rename_i hempty
      have hq := queued_enqueue (w := w) report
      rw [if_neg (not_full_of_empty hempty), queued_eq_nil_iff.mpr hempty, List.nil_append] at hq
      have htask := task_call_does clock (w := w.report_buffer_enqueue report)
        (hq ▸ fun h => hreport (List.mem_singleton.mp h).symm)
      have htakes : ((w.report_buffer_enqueue report).queued ≠ [] ∧
          (w.report_buffer_enqueue report).due clock) ↔
            (w.battery_is_critical_low = false ∧ w.report_buffer_queue.isEmpty ∧ w.due clock) := by
        rw [hq, enqueue_due]
        exact ⟨fun h => ⟨Bool.not_eq_true _ ▸ hlow, hempty, h.2⟩,
          fun h => ⟨List.cons_ne_nil _ _, h.2.2⟩⟩
      rw [propext htakes] at htask
      exact htask.congr (enqueue_retry report)
    · rename_i hempty
      exact .quiet (fun h => hempty h.2.1) (enqueue_retry report)
  · have hno : ¬ (w.battery_is_critical_low = false ∧ w.report_buffer_queue.isEmpty ∧
        w.due clock) := fun h => hsends h.2.2.1
    split
    · exact .quiet hno rfl
    · split
      · exact .quiet hno connect_retry
      · exact .quiet hno rfl

variable (clock) in
theorem call_does (hnone : .REPORT_TYPE_NONE ∉ w.queued) (c : Call) :
    CallDoes w clock (c.Takes w clock) (c.run w clock) := by
  cases c with
  | wireless_send_keyboard report => exact send_call_does (by simp)
  | wireless_send_nkro report => exact send_call_does (by simp)
  | wireless_send_consumer data =>
    simp only [Call.run, wireless_send_consumer]
    split
    · split
      · exact .direct id rfl
      · exact .quiet id (enqueue_retry _)
    · split
      · exact .quiet id connect_retry
      · exact .quiet id rfl
  | report_buffer_task =>
    have htask := task_call_does clock hnone
    rw [ne_eq, queued_eq_nil_iff] at htask
    exact htask

/-! ## The types of the queued reports -/

theorem task_types (hnone : .REPORT_TYPE_NONE ∉ w.queued) :
    .REPORT_TYPE_NONE ∉ (w.report_buffer_task clock).1.queued := by
  have htask := task_does w clock
  generalize w.report_buffer_task clock = out at htask
  cases htask with
  | waits _ => exact hnone
  | retries _ _ _ hq => exact hq ▸ hnone
  | sends _ hq _ _ _ | loses _ hq _ _ => exact fun hmem => hnone (hq ▸ List.mem_cons_of_mem _ hmem)

theorem enqueue_types (hnone : .REPORT_TYPE_NONE ∉ w.queued)
    (hreport : report ≠ .REPORT_TYPE_NONE) :
    .REPORT_TYPE_NONE ∉ (w.report_buffer_enqueue report).queued := by
  rw [queued_enqueue]
  split
  · exact hnone
  · intro hmem
    rcases List.mem_append.mp hmem with hin | hnew
    · exact hnone hin
    · exact hreport (List.mem_singleton.mp hnew).symm

theorem connect_types (hnone : .REPORT_TYPE_NONE ∉ w.queued) :
    .REPORT_TYPE_NONE ∉ (w.wireless_connect clock).queued := by
  unfold wireless_connect
  split
  · exact hnone
  · exact hnone

variable (clock) in
theorem run_types (hnone : .REPORT_TYPE_NONE ∉ w.queued) (c : Call) :
    .REPORT_TYPE_NONE ∉ (c.run w clock).1.queued := by
  have hsend : ∀ {report}, report ≠ .REPORT_TYPE_NONE →
      .REPORT_TYPE_NONE ∉ (w.send_buffered clock report).1.queued := by
    intro report hreport
    have henqueue := enqueue_types hnone hreport
    unfold send_buffered
    simp only
    split_ifs
    · exact hnone
    · exact hnone
    · exact task_types henqueue
    · exact henqueue
    · exact connect_types hnone
    · exact hnone
  cases c with
  | wireless_send_keyboard report => exact hsend (by simp)
  | wireless_send_nkro report => exact hsend (by simp)
  | wireless_send_consumer data =>
    simp only [Call.run, wireless_send_consumer]
    split_ifs
    · exact hnone
    · exact enqueue_types hnone (by simp)
    · exact connect_types hnone
    · exact hnone
  | report_buffer_task => exact task_types hnone

/-! ## The invariant -/

/-- A report that is no longer retried was acknowledged, or retransmitted as
often as it can be. -/
def GivenUpRightly (s : Traffic) : Prop :=
  s.radio.retry = 0 → s.current = 0 ∨ s.acked = true ∨
    s.retransmissions = RETPORT_RETRY_COUNT.toNat

/-- The next report leaves the queue only if the last one was acknowledged, or
all its retransmissions were made. -/
def NextTakenRightly (s : Traffic) (x : TrafficInput) : Prop :=
  (s.step x).current ≠ s.current → s.current = 0 ∨ s.acked = true ∨
    s.retransmissions = RETPORT_RETRY_COUNT.toNat

instance (s : Traffic) (x : TrafficInput) : Decidable (NextTakenRightly s x) :=
  inferInstanceAs (Decidable (_ → _))

namespace Traffic

structure Good (s : Traffic) : Prop where
  types : .REPORT_TYPE_NONE ∉ s.radio.queued
  retries : s.radio.retry ≠ 0 → s.current ≠ 0 ∧
    s.retransmissions + s.radio.retry.toNat = RETPORT_RETRY_COUNT.toNat
  frames : ∀ f ∈ s.frames, ∀ n, f.report = some n → n ≤ s.current
  acks : ∀ a ∈ s.acks, ∀ n, a.report = some n →
    n ≤ s.current ∧ (n = s.current → accepts a.result → s.acked = true)
  given_up : GivenUpRightly s

end Traffic

/-- The condition on a step: a report does not leave the queue before the
timer is above 2, and the acknowledgement that arrives while a report is
retried is of this report, or this report was acknowledged. -/
def Heard (s : Traffic) : TrafficInput → Prop
  | .call c => c.Takes s.radio s.clock → 2 < timer_read32 s.clock
  | .ack_arrives i => ∀ ack, s.acks[i]? = some ack → ack.command ∈ reportCommands →
      accepts ack.result → s.radio.retry ≠ 0 → ack.report = some s.current ∨ s.acked = true
  | .wait _ | .battery _ | .acknowledge _ _ | .lose_frame _ | .lose_ack _ => True

theorem frames_append {frames : List Frame} {current : Nat} (h : ∀ f ∈ frames, ∀ n,
    f.report = some n → n ≤ current) {frame : Frame} (hf : ∀ n, frame.report = some n → n ≤ current) :
    ∀ f ∈ frames ++ [frame], ∀ n, f.report = some n → n ≤ current := by
  intro f hmem
  rcases List.mem_append.mp hmem with hin | hnew
  · exact h f hin
  · rw [List.mem_singleton.mp hnew]
    exact hf

theorem retry_less {retry : UInt8} (h : retry ≠ 0) : (retry - 1).toNat + 1 = retry.toNat := by
  have hpos : retry.toNat ≠ 0 := fun hz => h (UInt8.toNat_inj.mp hz)
  have hone : (1 : UInt8) ≤ retry := UInt8.le_iff_toNat_le.mpr (Nat.pos_of_ne_zero hpos)
  have hsub := UInt8.toNat_sub_of_le retry 1 hone
  change _ = retry.toNat - 1 at hsub
  omega

variable {s : Traffic}

theorem call_step (h : s.Good) (c : Call) :
    (Heard s (.call c) ↔ GivenUpRightly (s.step (.call c))) ∧
      (GivenUpRightly (s.step (.call c)) → (s.step (.call c)).Good) := by
  obtain ⟨htypes, hretries, hframes, hacks, hgiven⟩ := h
  have hdoes := call_does s.clock htypes c
  have htypes' := run_types s.clock htypes c
  simp only [Heard, Traffic.step]
  generalize c.run s.radio s.clock = out at hdoes htypes'
  cases hdoes with
  | @quiet w' hno hretry =>
    have hp : GivenUpRightly { s with radio := w' } := fun hz => hgiven (hretry ▸ hz)
    exact ⟨iff_of_true (fun ht => absurd ht hno) hp, fun _ =>
      ⟨htypes', fun hne => hretry ▸ hretries (hretry ▸ hne), hframes, hacks, hp⟩⟩
  | @direct w' data hno hretry =>
    have hp : GivenUpRightly (Traffic.note { s with radio := w' } (.direct data)) :=
      fun hz => hgiven (hretry ▸ hz)
    exact ⟨iff_of_true (fun ht => absurd ht hno) hp, fun _ =>
      ⟨htypes', fun hne => hretry ▸ hretries (hretry ▸ hne),
        frames_append hframes (fun n hn => nomatch hn), hacks, hp⟩⟩
  | @retries w' report hno hretry hless =>
    obtain ⟨hcurrent, hsum⟩ := hretries hretry
    have hone := retry_less hretry
    rw [← hless] at hone
    have hp : GivenUpRightly (Traffic.note { s with radio := w' } (.again report)) := by
      intro hz
      change w'.retry = 0 at hz
      rw [hz] at hone
      refine .inr (.inr ?_)
      change 0 + 1 = _ at hone
      change s.retransmissions + 1 = _
      omega
    refine ⟨iff_of_true (fun ht => absurd ht hno) hp, fun _ =>
      ⟨htypes', fun _ => ⟨hcurrent, ?_⟩,
        frames_append hframes (fun n hn => (Option.some.inj hn).ge), hacks, hp⟩⟩
    change s.retransmissions + 1 + w'.retry.toNat = _
    omega
  | @sends w' report htakes ht hretry =>
    have hne : w'.retry ≠ 0 := by
      rw [hretry]
      decide
    refine ⟨iff_of_true (fun _ => ht) fun hz => absurd hz hne, fun hp =>
      ⟨htypes', fun _ => ⟨Nat.succ_ne_zero _, ?_⟩, ?_, fun a ha n hn => ?_, hp⟩⟩
    · change 0 + w'.retry.toNat = _
      rw [hretry, Nat.zero_add]
    · refine frames_append (fun f hf n hn => ?_) fun n hn => (Option.some.inj hn).ge
      exact Nat.le_succ_of_le (hframes f hf n hn)
    · have hle := (hacks a ha n hn).1
      exact ⟨Nat.le_succ_of_le hle, fun heq => absurd heq (Nat.lt_succ_of_le hle).ne⟩
  | @loses w' report htakes ht hretry =>
    have hp : ¬ GivenUpRightly (Traffic.note { s with radio := w' } (.dequeued report)) := by
      intro hp
      rcases hp hretry with hzero | hacked | hall
      · exact Nat.succ_ne_zero _ hzero
      · cases hacked
      · cases hall
    exact ⟨iff_of_false (fun h => ht (h htakes)) hp, fun h => absurd h hp⟩

theorem ack_handler_retry (data : Nat → UInt8) : (w.ack_handler data).retry =
    if data 1 ∈ reportCommands ∧ accepts (data 2) then 0 else w.retry := by
  unfold Wireless.ack_handler accepts
  by_cases hc : data 1 ∈ reportCommands
  · by_cases hs : data 2 = ACK_SUCCESS
    · rw [if_pos hc, if_pos hs, if_pos ⟨hc, .inl hs⟩]
    · by_cases hh : data 2 = ACK_FIFO_HALF_WARNING
      · rw [if_pos hc, if_neg hs, if_pos hh, if_pos ⟨hc, .inr hh⟩]
      · have hno : ¬ (data 1 ∈ reportCommands ∧ (data 2 = ACK_SUCCESS ∨
            data 2 = ACK_FIFO_HALF_WARNING)) := fun h => h.2.elim hs hh
        rw [if_pos hc, if_neg hs, if_neg hh, if_neg hno]
        split
        · rfl
        · rfl
  · rw [if_neg hc, if_neg fun h => hc h.1]

theorem ack_step (h : s.Good) (i : Nat) :
    (Heard s (.ack_arrives i) ↔ GivenUpRightly (s.step (.ack_arrives i))) ∧
      (GivenUpRightly (s.step (.ack_arrives i)) → (s.step (.ack_arrives i)).Good) := by
  cases hack : s.acks[i]? with
  | none =>
    have hstep : s.step (.ack_arrives i) = s := by simp only [Traffic.step, hack]
    rw [hstep]
    refine ⟨iff_of_true (fun a ha => ?_) h.given_up, fun _ => h⟩
    rw [hack] at ha
    cases ha
  | some ack =>
    have hmem : ack ∈ s.acks := List.mem_of_getElem? hack
    have hretry := ack_handler_retry (w := s.radio) (Traffic.data ack)
    have hqueue : (s.radio.ack_handler (Traffic.data ack)).queued = s.radio.queued :=
      congrArg Ring.toList (ack_handler_same _).1
    have hstep : s.step (.ack_arrives i) =
        { s with
          radio := s.radio.ack_handler (Traffic.data ack), acks := s.acks.eraseIdx i } := by
      simp only [Traffic.step, hack]
    have hkeep : GivenUpRightly (s.step (.ack_arrives i)) → (s.step (.ack_arrives i)).Good := by
      intro hp
      rw [hstep] at hp ⊢
      refine ⟨hqueue ▸ h.types, fun hne => ?_, h.frames,
        fun a ha => h.acks a ((List.eraseIdx_sublist _ _).subset ha), hp⟩
      simp only [hretry] at hne ⊢
      split at hne
      · exact absurd rfl hne
      · rename_i hno
        rw [if_neg hno]
        exact h.retries hne
    refine ⟨?_, hkeep⟩
    rw [hstep]
    by_cases hends : ack.command ∈ reportCommands ∧ accepts ack.result
    · have hzero : (s.radio.ack_handler (Traffic.data ack)).retry = 0 := hretry.trans (if_pos hends)
      by_cases hretried : s.radio.retry = 0
      · exact iff_of_true (fun _ _ _ _ hne => absurd hretried hne) fun _ => h.given_up hretried
      · obtain ⟨hcurrent, hsum⟩ := h.retries hretried
        have hpos := retry_less hretried
        constructor
        · intro hheard _
          refine .inr (.inl ?_)
          rcases hheard ack hack hends.1 hends.2 hretried with hcur | hacked
          · exact (h.acks ack hmem _ hcur).2 rfl hends.2
          · exact hacked
        · intro hp a ha _ _ _
          rcases hp hzero with hnone | hacked | hall
          · exact absurd hnone hcurrent
          · exact .inr hacked
          · change s.retransmissions = _ at hall
            omega
    · have hsame : (s.radio.ack_handler (Traffic.data ack)).retry = s.radio.retry :=
        hretry.trans (if_neg hends)
      refine iff_of_true (fun a ha hc hr => ?_) fun hz => h.given_up (hsame ▸ hz)
      rw [hack] at ha
      exact absurd (Option.some.inj ha ▸ ⟨hc, hr⟩) hends

theorem acknowledge_good (h : s.Good) (i : Nat) (result : UInt8) :
    (s.step (.acknowledge i result)).Good := by
  cases hframe : s.frames[i]? with
  | none =>
    have hstep : s.step (.acknowledge i result) = s := by simp only [Traffic.step, hframe]
    rw [hstep]
    exact h
  | some frame =>
    have hmem : frame ∈ s.frames := List.mem_of_getElem? hframe
    simp only [Traffic.step, hframe]
    refine ⟨h.types, h.retries, fun f hf => h.frames f ((List.eraseIdx_sublist _ _).subset hf),
      fun a ha n hn => ?_, fun hz => ?_⟩
    · rcases List.mem_append.mp ha with hin | hnew
      · obtain ⟨hle, hacked⟩ := h.acks a hin n hn
        exact ⟨hle, fun heq hr => by rw [hacked heq hr, Bool.true_or]⟩
      · rw [List.mem_singleton.mp hnew] at hn ⊢
        refine ⟨h.frames frame hmem n hn, fun heq hr => ?_⟩
        rw [decide_eq_true ⟨heq ▸ hn, hr⟩, Bool.or_true]
    · rcases h.given_up hz with hzero | hacked | hall
      · exact .inl hzero
      · exact .inr (.inl (by simp only [hacked, Bool.true_or]))
      · exact .inr (.inr hall)

theorem traffic_step (h : s.Good) (x : TrafficInput) :
    (Heard s x ↔ GivenUpRightly (s.step x)) ∧
      (GivenUpRightly (s.step x) → (s.step x).Good) := by
  cases x with
  | call c => exact call_step h c
  | ack_arrives i => exact ack_step h i
  | acknowledge i result =>
    have hgood := acknowledge_good h i result
    exact ⟨iff_of_true trivial hgood.given_up, fun _ => hgood⟩
  | wait _ | battery _ =>
    exact ⟨iff_of_true trivial h.given_up, fun hp => ⟨h.types, h.retries, h.frames, h.acks, hp⟩⟩
  | lose_frame i =>
    exact ⟨iff_of_true trivial h.given_up, fun hp => ⟨h.types, h.retries,
      fun f hf => h.frames f ((List.eraseIdx_sublist _ _).subset hf), h.acks, hp⟩⟩
  | lose_ack i =>
    exact ⟨iff_of_true trivial h.given_up, fun hp => ⟨h.types, h.retries, h.frames,
      fun a ha => h.acks a ((List.eraseIdx_sublist _ _).subset ha), hp⟩⟩

theorem traffic_start (w : Wireless) (clock : Nat) : (Traffic.start w clock).Good :=
  ⟨queued_init w clock ▸ List.not_mem_nil, fun hne => absurd rfl hne, fun _ hf => (nomatch hf),
    fun _ ha => (nomatch ha), fun _ => .inl rfl⟩

theorem takes_retry {c : Call} (h : c.Takes w clock) : w.retry = 0 := by
  cases c with
  | wireless_send_keyboard _ | wireless_send_nkro _ => exact h.2.2.2.1
  | wireless_send_consumer _ => exact h.elim
  | report_buffer_task => exact h.2.2.1

theorem next_taken (h : s.Good) (x : TrafficInput) : NextTakenRightly s x := by
  intro hne
  refine h.given_up ?_
  cases x with
  | call c =>
    have hdoes := call_does s.clock h.types c
    simp only [Traffic.step] at hne
    generalize c.run s.radio s.clock = out at hdoes hne
    cases hdoes with
    | quiet _ _ | direct _ _ | retries _ _ _ => exact absurd rfl hne
    | sends htakes _ _ | loses htakes _ _ => exact takes_retry htakes
  | acknowledge i result =>
    simp only [Traffic.step] at hne
    split at hne
    · exact absurd rfl hne
    · exact absurd rfl hne
  | ack_arrives i =>
    simp only [Traffic.step] at hne
    split at hne
    · exact absurd rfl hne
    · exact absurd rfl hne
  | wait _ | battery _ | lose_frame _ | lose_ack _ => exact absurd rfl hne

/-- The retransmissions of a report end, and the next one leaves the queue,
only if the module acknowledged it or all retransmissions were made, exactly
when no report leaves the queue before the timer is above 2 and, while one is
retried that was not acknowledged, no acknowledgement of another transmission
arrives. -/
theorem reports_are_given_up_rightly_when_no_other_is_acknowledged (w : Wireless) (clock : Nat)
    (inputs : List TrafficInput) :
    Along Traffic.step (fun s x => NextTakenRightly s x ∧ GivenUpRightly (s.step x))
        (Traffic.start w clock) inputs ↔
      Along Traffic.step Heard (Traffic.start w clock) inputs :=
  Along.iff (I := Traffic.Good)
    (fun _ x h => (traffic_step h x).1.trans (and_iff_right (next_taken h x)).symm)
    (fun _ x h hp => (traffic_step h x).2 hp.2) (traffic_start w clock)

/-- The frame of a key report is lost, and the acknowledgement of a consumer
report that was sent past the queue ends its retransmissions. -/
theorem a_consumer_acknowledgement_gives_up_a_key_report :
    ¬ Along Traffic.step NextTakenRightly
      (Traffic.start { Wireless.zero with wireless_state := .WT_CONNECTED } 0)
      [.wait 10, .call (.wireless_send_keyboard ⟨0, fun _ => 4⟩), .lose_frame 0, .wait 2,
        .call (.wireless_send_consumer 0xE9), .acknowledge 0 ACK_SUCCESS, .ack_arrives 0, .wait 2,
        .call (.wireless_send_keyboard ⟨0, fun _ => 0⟩)] := by
  decide +kernel

end keychron_qmk.wireless
