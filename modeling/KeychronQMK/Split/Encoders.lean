-- Encoder events on their way from the slave half to the master: the slave's
-- queue, the copy it publishes, the copy of the master, and the command that
-- makes the slave drop what was read.
import KeychronQMK.Encoder.Queue
import KeychronQMK.Lib.Runs
import KeychronQMK.Split.Transactions

namespace keychron_qmk.split

open encoder runs

/-- Where `encoder_handlers_master` is between its transactions. -/
inductive HandlerState
  | idle
  /-- The checksum is read, at the time `now`, and the data are to be read. -/
  | wants_data (now : UInt32) (curr_checksum : UInt8)
  | wants_drain
  deriving DecidableEq

/-- Both halves. `log` holds the events that the slave queued and `received`
those of them that the master queued, the oldest first. -/
structure EncoderLink (n : Nat) where
  slave : encoder_events_t n
  signal_queue_drain : Bool
  published : Checked (encoder_events_t n)
  shmem : Checked (encoder_events_t n)
  last_update : UInt32
  last_checksum : UInt8
  master : encoder_events_t n
  handler : HandlerState
  log : List encoder_event_t
  received : List encoder_event_t

variable {n : Nat}

/-! ## The steps -/

/-- The loop of `encoder_handlers_master`: events are moved to the queue of the
master till there is none left, or no room. Last come the events that were moved. -/
def move_events : Nat → encoder_events_t n → encoder_events_t n →
    Bool × encoder_events_t n × encoder_events_t n × List encoder_event_t
  | 0, shmem, master => (true, shmem, master, [])
  | fuel + 1, shmem, master =>
    match shmem.encoder_dequeue_event_advanced with
    | none => (true, shmem, master, [])
    | some (event, shmem) =>
      if (master.encoder_queue_event_advanced event.index event.clockwise).1 then
        let r := move_events fuel shmem
          (master.encoder_queue_event_advanced event.index event.clockwise).2
        (r.1, r.2.1, r.2.2.1, event :: r.2.2.2)
      else (false, shmem, master, [])

/-- What happens on either half between two transactions, or one transaction
of the master's handler. A transaction that does not arrive has no effect. -/
inductive LinkStep
  /-- The driver of the slave makes an event. -/
  | enqueue (index : UInt8) (clockwise : Bool)
  /-- `encoder_task` of the slave, up to its driver. -/
  | encoder_task
  /-- `encoder_handlers_slave` -/
  | publish
  | read_checksum (now : UInt32) (arrives : Bool)
  | read_data (later : UInt32) (arrives : Bool)
  | drain (arrives : Bool)
  /-- `encoder_task` of the master handles its queue. -/
  | master_task

namespace EncoderLink

def boot : EncoderLink n :=
  { slave := .zero
    signal_queue_drain := false
    published := ⟨0, .zero⟩
    shmem := ⟨0, .zero⟩
    last_update := 0
    last_checksum := 0
    master := .zero
    handler := .idle
    log := []
    received := [] }

variable (s : EncoderLink n)

def read (now later : UInt32) (checksum : Option UInt8) (data : Option (encoder_events_t n)) :
    ReadResult (encoder_events_t n) :=
  read_if_checksum_mismatch encoder_events_t.bytes now later checksum data s.last_update s.shmem

/-- The second transaction of the read is made. -/
def WantsData (now : UInt32) (checksum : UInt8) : Prop :=
  FORCED_SYNC_THROTTLE_MS ≤ timer_elapsed32 now s.last_update ∨
    checksum ≠ crc8 s.shmem.data.bytes

instance (now : UInt32) (checksum : UInt8) : Decidable (s.WantsData now checksum) :=
  inferInstanceAs (Decidable (_ ∨ _))

def completes : LinkStep → Option (ReadResult (encoder_events_t n))
  | .read_checksum now arrives =>
    match s.handler with
    | .idle =>
      if arrives then
        if s.WantsData now s.published.checksum then none
        else some (s.read now now (some s.published.checksum) none)
      else some (s.read now now none none)
    | _ => none
  | .read_data later arrives =>
    match s.handler with
    | .wants_data now curr_checksum =>
      some (s.read now later (some curr_checksum)
        (if arrives then some s.published.data else none))
    | _ => none
  | _ => none

def Acts (r : ReadResult (encoder_events_t n)) : Prop :=
  r.okay = true ∧ s.last_checksum ≠ r.shmem.checksum

instance (r : ReadResult (encoder_events_t n)) : Decidable (s.Acts r) :=
  inferInstanceAs (Decidable (_ ∧ _))

/-- `encoder_handlers_master` after its read, up to the drain command. The
checksum is noted whatever becomes of that command. -/
def after_read (r : ReadResult (encoder_events_t n)) : EncoderLink n :=
  let s' := { s with shmem := r.shmem, last_update := r.last_update, handler := .idle }
  if s.Acts r then
    let moved := move_events (n + 1) r.shmem.data s.master
    { s' with
      shmem := ⟨r.shmem.checksum, moved.2.1⟩
      master := moved.2.2.1
      received := s.received ++ moved.2.2.2
      last_checksum := r.shmem.checksum
      handler := if r.shmem.data.contents = [] then .idle else .wants_drain }
  else s'

def step (x : LinkStep) : EncoderLink n :=
  match s.completes x with
  | some r => s.after_read r
  | none =>
    match x, s.handler with
    | .enqueue index clockwise, _ =>
      let (queued, slave) := s.slave.encoder_queue_event_advanced index clockwise
      { s with
        slave := slave
        log := if queued then s.log ++ [s.slave.new_event index clockwise] else s.log }
    | .encoder_task, _ =>
      if s.signal_queue_drain then
        { s with signal_queue_drain := false, slave := s.slave.encoder_queue_drain }
      else s
    | .publish, _ => { s with published := ⟨crc8 s.slave.bytes, s.slave⟩ }
    | .read_checksum now true, .idle =>
      { s with handler := .wants_data now s.published.checksum }
    | .drain arrives, .wants_drain =>
      { s with handler := .idle, signal_queue_drain := s.signal_queue_drain || arrives }
    | .master_task, _ => { s with master := s.master.encoder_queue_drain }
    | _, _ => s

/-! ## The property and the condition -/

/-- The master queued the first events of the slave, each once and in order,
and no other event was dropped from the slave's queue. -/
def ExactlyOnce : Prop :=
  s.received <+: s.log ∧ s.log.map (·.serial) = List.range s.log.length ∧
    s.slave.dequeued ≤ s.received.length

def handed_over (x : LinkStep) : Option (encoder_events_t n) :=
  (s.completes x).bind fun r => if s.Acts r then some r.shmem.data else none

def Roomy (x : LinkStep) : Prop :=
  (∀ events ∈ s.handed_over x, s.master.contents.length + events.contents.length ≤ n) ∧
  match x with
  | .enqueue _ _ => ¬ s.slave.encoder_queue_full_advanced
  | _ => True

/-- An event is queued on the slave only when the master has none of those
that still wait there, and the master takes a batch only while it is all that
the slave has queued. -/
def InTime (x : LinkStep) : Prop :=
  (∀ events ∈ s.handed_over x, events.contents ≠ [] → events.enqueued = s.slave.enqueued) ∧
  match x with
  | .enqueue _ _ => s.slave.dequeued = s.received.length
  | _ => True

/-! ## The invariant -/

/-- The queue holds the events of the log from its first to its last. -/
structure Slice (log : List encoder_event_t) (events : encoder_events_t n) : Prop where
  contents : events.contents = (log.take events.enqueued).drop events.dequeued
  ordered : events.dequeued ≤ events.enqueued
  bound : events.enqueued ≤ log.length

/-- `older` is an earlier state of the queue `newer`, or the same. -/
structure Precedes (older newer : encoder_events_t n) : Prop where
  dequeued : older.dequeued ≤ newer.dequeued
  enqueued : older.enqueued ≤ newer.enqueued
  same : older.dequeued = newer.dequeued → older.enqueued = newer.enqueued → older = newer

/-- The events of a copy with the checksum `checksum` were handed over before. -/
def Noted (checksum : UInt8) (events : encoder_events_t n) : Prop :=
  events.contents ≠ [] → events.dequeued < s.received.length → s.last_checksum = checksum

/-- A copy that the master can have of what the slave published. -/
structure Mirrors (events : encoder_events_t n) : Prop where
  slice : Slice s.log events
  precedes : Precedes events s.published.data
  noted : s.Noted (crc8 events.bytes) events

structure Inv : Prop where
  serials : s.log.map (·.serial) = List.range s.log.length
  received : s.received = s.log.take s.received.length
  slave : Slice s.log s.slave
  newest : s.slave.enqueued = s.log.length
  undropped : s.slave.dequeued ≤ s.received.length
  -- the events in the slave's queue were all handed over, or none was
  unmixed : s.slave.dequeued = s.received.length ∨ s.received.length = s.log.length
  published : Slice s.log s.published.data
  precedes : Precedes s.published.data s.slave
  checked : s.published.data.contents ≠ [] → s.published.checksum = crc8 s.published.data.bytes
  noted : s.Noted s.published.checksum s.published.data
  waiting : s.slave.dequeued < s.received.length →
    s.published.data = s.slave ∧ s.last_checksum = crc8 s.slave.bytes
  mirror : s.shmem.data.contents ≠ [] → s.Mirrors s.shmem.data
  signalled : s.signal_queue_drain = true → s.slave.dequeued < s.received.length
  draining : s.handler = .wants_drain →
    s.signal_queue_drain = false ∧ s.slave.dequeued < s.received.length
  wanting : ∀ now curr_checksum, s.handler = .wants_data now curr_checksum →
    s.WantsData now curr_checksum

variable {log : List encoder_event_t} {events : encoder_events_t n}

theorem Slice.append (h : Slice log events) (event : encoder_event_t) :
    Slice (log ++ [event]) events where
  contents := by rw [List.take_append_of_le_length h.bound, h.contents]
  ordered := h.ordered
  bound := by
    rw [List.length_append]
    exact Nat.le_add_right_of_le h.bound

theorem Slice.length (h : Slice log events) :
    events.contents.length = events.enqueued - events.dequeued := by
  rw [h.contents, List.length_drop, List.length_take, Nat.min_eq_left h.bound]

theorem Slice.ne_nil_iff (h : Slice log events) :
    events.contents ≠ [] ↔ events.dequeued < events.enqueued := by
  rw [← List.length_pos_iff, h.length]
  omega

theorem Precedes.refl (events : encoder_events_t n) : Precedes events events :=
  ⟨Nat.le_refl _, Nat.le_refl _, fun _ _ => rfl⟩

theorem Precedes.trans {a b c : encoder_events_t n} (h : Precedes a b) (h' : Precedes b c) :
    Precedes a c where
  dequeued := h.dequeued.trans h'.dequeued
  enqueued := h.enqueued.trans h'.enqueued
  same := by
    intro hdeq henq
    have hd := h.dequeued
    have hd' := h'.dequeued
    have he := h.enqueued
    have he' := h'.enqueued
    exact (h.same (by omega) (by omega)).trans (h'.same (by omega) (by omega))

theorem inv_boot : (boot : EncoderLink n).Inv where
  serials := rfl
  received := rfl
  slave := ⟨encoder_events_t.contents_zero, Nat.le_refl 0, Nat.le_refl 0⟩
  newest := rfl
  undropped := Nat.le_refl 0
  unmixed := .inl rfl
  published := ⟨encoder_events_t.contents_zero, Nat.le_refl 0, Nat.le_refl 0⟩
  precedes := Precedes.refl _
  checked := fun h => absurd encoder_events_t.contents_zero h
  noted := fun h => absurd encoder_events_t.contents_zero h
  waiting := fun h => absurd h (Nat.lt_irrefl 0)
  mirror := fun h => absurd encoder_events_t.contents_zero h
  signalled := fun h => absurd h Bool.false_ne_true
  draining := fun h => by cases h
  wanting := fun _ _ h => by cases h

/-! ## The slave -/

section

variable {s} (h : s.Inv)
include h

theorem Inv.received_le : s.received.length ≤ s.log.length := by
  have hlen := congrArg List.length h.received
  rw [List.length_take] at hlen
  omega

/-- The slave queues an event while the master has none of its queue. -/
theorem Inv.enqueue (index : UInt8) (clockwise : Bool)
    (hroom : ¬ s.slave.encoder_queue_full_advanced)
    (hfree : s.slave.dequeued = s.received.length) :
    Inv { s with
      slave := (s.slave.encoder_queue_event_advanced index clockwise).2
      log := s.log ++ [s.slave.new_event index clockwise] } := by
  obtain ⟨-, hcontents, henq, hdeq⟩ := encoder_events_t.queue_event index clockwise hroom
  have hslave := h.slave
  have hnewest := h.newest
  have hprecedes := h.precedes
  have hreceived := h.received_le
  refine ⟨?_, ?_, ⟨?_, ?_, ?_⟩, ?_, ?_, .inl ?_, h.published.append _, ⟨?_, ?_, ?_⟩, h.checked,
    h.noted, ?_, ?_, ?_, ?_, h.wanting⟩
  · simp [h.serials, List.range_succ, encoder_events_t.new_event, hnewest]
  · rw [List.take_append_of_le_length hreceived]
    exact h.received
  · -- the new event comes behind those of the queue
    have hall : s.slave.contents = s.log.drop s.slave.dequeued := by
      rw [hslave.contents, hnewest, List.take_length]
    rw [hcontents, henq, hdeq, hnewest, hall, List.take_of_length_le (by simp),
      List.drop_append_of_le_length (by omega)]
  · rw [henq, hdeq]
    omega
  · rw [henq, List.length_append, hnewest]
    exact Nat.le_refl _
  · rw [henq, List.length_append, hnewest]
    rfl
  · rw [hdeq]
    exact h.undropped
  · rw [hdeq]
    exact hfree
  · rw [hdeq]
    exact hprecedes.dequeued
  · rw [henq]
    exact Nat.le_succ_of_le hprecedes.enqueued
  · intro _ hsame
    have hle := hprecedes.enqueued
    exact absurd (hsame.trans henq) (by dsimp only; omega)
  · intro hlt
    rw [hdeq] at hlt
    exact absurd hfree (Nat.ne_of_lt hlt)
  · intro hne
    obtain ⟨hslice, hmirror, hnoted⟩ := h.mirror hne
    exact ⟨hslice.append _, hmirror, hnoted⟩
  · intro hsignal
    exact absurd hfree (Nat.ne_of_lt (h.signalled hsignal))
  · intro hdrain
    exact absurd hfree (Nat.ne_of_lt (h.draining hdrain).2)

/-- The slave drops what the master has. -/
theorem Inv.drop (hsignal : s.signal_queue_drain = true) :
    Inv { s with signal_queue_drain := false, slave := s.slave.encoder_queue_drain } := by
  have hlt := h.signalled hsignal
  have hall : s.received.length = s.log.length := h.unmixed.resolve_left (Nat.ne_of_lt hlt)
  have hprecedes := h.precedes
  have hordered := h.slave.ordered
  have hdeq : s.slave.encoder_queue_drain.dequeued = s.slave.enqueued := rfl
  have henq : s.slave.encoder_queue_drain.enqueued = s.slave.enqueued := rfl
  have hnewest := h.newest
  have hbefore := hprecedes.dequeued
  refine ⟨h.serials, h.received, ⟨?_, Nat.le_refl _, h.slave.bound⟩, h.newest, ?_, .inr hall,
    h.published, ⟨?_, hprecedes.enqueued, ?_⟩, h.checked, h.noted, ?_, ?_, ?_, ?_,
    h.wanting⟩
  · rw [encoder_events_t.contents_drain, hdeq, henq, List.drop_eq_nil_of_le]
    exact List.length_take_le _ _
  · rw [hdeq, hnewest, hall]
  · rw [hdeq]
    exact hbefore.trans hordered
  · intro hsame
    exact absurd (hsame.trans hdeq) (by dsimp only; omega)
  · intro hlt'
    dsimp only at hlt'
    omega
  · intro hne
    obtain ⟨hslice, hmirror, hnoted⟩ := h.mirror hne
    exact ⟨hslice, hmirror, hnoted⟩
  · exact fun hsignal' => absurd hsignal' Bool.false_ne_true
  · intro hdrain
    exact absurd (hsignal.symm.trans (h.draining hdrain).1) Bool.true_eq_false.mp

theorem Inv.publish : Inv { s with published := ⟨crc8 s.slave.bytes, s.slave⟩ } := by
  refine ⟨h.serials, h.received, h.slave, h.newest, h.undropped, h.unmixed, h.slave,
    Precedes.refl _, ?_, ?_, ?_, ?_, h.signalled, h.draining, h.wanting⟩
  · intro _
    dsimp only
  · intro _ hlt
    have hlast := (h.waiting hlt).2
    dsimp only
    exact hlast
  · intro hlt
    exact ⟨rfl, (h.waiting hlt).2⟩
  · intro hne
    obtain ⟨hslice, hmirror, hnoted⟩ := h.mirror hne
    exact ⟨hslice, hmirror.trans h.precedes, hnoted⟩

end

/-! ## The master -/

/-- With room for them all, all events are moved. -/
theorem move_events_all (fuel : Nat) (shmem master : encoder_events_t n)
    (hfuel : shmem.contents.length ≤ fuel)
    (hroom : master.contents.length + shmem.contents.length ≤ n) :
    (move_events fuel shmem master).2.1.contents = [] ∧
      (move_events fuel shmem master).2.2.2 = shmem.contents := by
  induction fuel generalizing shmem master with
  | zero =>
    have hnil := List.length_eq_zero_iff.mp (Nat.le_zero.mp hfuel)
    exact ⟨hnil, hnil.symm⟩
  | succ fuel ih =>
    rcases hcontents : shmem.contents with _ | ⟨event, rest⟩
    · rw [move_events, encoder_events_t.dequeue_event_of_empty hcontents]
      exact ⟨hcontents, rfl⟩
    · obtain ⟨shmem', hrest, -, -, hdequeue⟩ := encoder_events_t.dequeue_event hcontents
      rw [hcontents, List.length_cons] at hfuel hroom
      have hfull : ¬ master.encoder_queue_full_advanced := by
        rw [encoder_events_t.full_iff]
        omega
      obtain ⟨hqueued, hmaster, -, -⟩ :=
        encoder_events_t.queue_event event.index event.clockwise hfull
      have hmoved := ih shmem' (master.encoder_queue_event_advanced event.index
        event.clockwise).2 (by rw [hrest]; omega) (by
          rw [hmaster, hrest, List.length_append, List.length_singleton]
          omega)
      rw [move_events, hdequeue]
      simp only [hqueued, if_true]
      exact ⟨hmoved.1, by rw [hmoved.2, hrest]⟩

theorem move_events_none {shmem : encoder_events_t n} (h : shmem.contents = [])
    (fuel : Nat) (master : encoder_events_t n) :
    move_events (fuel + 1) shmem master = (true, shmem, master, []) := by
  rw [move_events, encoder_events_t.dequeue_event_of_empty h]

section

variable {s} (h : s.Inv)
include h

variable {events shmem : encoder_events_t n}

/-- A batch that is all of the slave's queue and was not handed over is what
the slave published last. -/
theorem Inv.batch (hmirror : s.Mirrors events) (hne : events.contents ≠ [])
    (hnew : s.last_checksum ≠ crc8 events.bytes) (hlast : events.enqueued = s.slave.enqueued) :
    s.slave.dequeued = s.received.length ∧ events = s.slave ∧ s.published.data = s.slave := by
  obtain ⟨hslice, hprecedes, hnoted⟩ := hmirror
  have hfresh : ¬ events.dequeued < s.received.length := fun hlt => hnew (hnoted hne hlt)
  have hdeq := hprecedes.dequeued
  have hdeq' := h.precedes.dequeued
  have hundropped := h.undropped
  have henq := hprecedes.enqueued
  have henq' := h.precedes.enqueued
  exact ⟨by omega, (hprecedes.trans h.precedes).same (by omega) hlast,
    h.precedes.same (by omega) (by omega)⟩

/-- The master hands a batch over to its queue. -/
theorem Inv.hand_over (master : encoder_events_t n) (later : UInt32) (hmirror : s.Mirrors events)
    (hne : events.contents ≠ []) (hnew : s.last_checksum ≠ crc8 events.bytes)
    (hlast : events.enqueued = s.slave.enqueued) (hempty : shmem.contents = []) :
    Inv { s with
      shmem := ⟨crc8 events.bytes, shmem⟩
      master := master
      received := s.received ++ events.contents
      last_checksum := crc8 events.bytes
      last_update := later
      handler := .wants_drain } := by
  obtain ⟨hfree, rfl, hpublished⟩ := h.batch hmirror hne hnew hlast
  have hordered := h.slave.ne_nil_iff.mp hne
  have hnewest := h.newest
  have hsignal : s.signal_queue_drain = false := by
    rw [← Bool.not_eq_true]
    exact fun hsignal => Nat.ne_of_lt (h.signalled hsignal) hfree
  have hall : s.received ++ s.slave.contents = s.log := by
    conv_rhs => rw [← List.take_append_drop s.received.length s.log, ← h.received]
    rw [h.slave.contents, hnewest, List.take_length, hfree]
  have hlen : (s.received ++ s.slave.contents).length = s.log.length := congrArg List.length hall
  refine ⟨h.serials, ?_, h.slave, h.newest, ?_, .inr hlen, h.published, h.precedes, h.checked, ?_,
    ?_, ?_, ?_, ?_, ?_⟩
  · dsimp only
    rw [hlen, List.take_length, hall]
  · dsimp only
    omega
  · intro hne' _
    have hchecked := h.checked hne'
    rw [hchecked, hpublished]
  · intro _
    refine ⟨hpublished, ?_⟩
    dsimp only
  · intro hne'
    exact absurd hempty hne'
  · intro hsignal'
    exact absurd (hsignal'.symm.trans hsignal) Bool.true_eq_false.mp
  · intro _
    refine ⟨hsignal, ?_⟩
    dsimp only
    omega
  · exact fun _ _ hwants => by cases hwants

theorem Inv.note {checksum : UInt8} (later : UInt32) (hempty : shmem.contents = [])
    (hnew : s.last_checksum ≠ checksum)
    (hsource : shmem = s.published.data ∨ checksum = s.published.checksum) :
    Inv { s with
      shmem := ⟨checksum, shmem⟩
      last_checksum := checksum
      last_update := later
      handler := .idle } := by
  -- a batch that was handed over is either still noted, or no longer published
  have hgone : s.published.data.contents ≠ [] →
      ¬ s.published.data.dequeued < s.received.length := by
    intro hne hlt
    rcases hsource with rfl | rfl
    · exact hne hempty
    · exact hnew (h.noted hne hlt)
  refine ⟨h.serials, h.received, h.slave, h.newest, h.undropped, h.unmixed, h.published,
    h.precedes, h.checked, ?_, ?_, ?_, h.signalled, ?_, ?_⟩
  · exact fun hne hlt => absurd hlt (hgone hne)
  · intro hlt
    have hsame := (h.waiting hlt).1
    have hreceived := h.received_le
    have hnewest := h.newest
    dsimp only at hlt
    refine absurd hlt ?_
    rw [← hsame]
    apply hgone
    rw [hsame]
    exact h.slave.ne_nil_iff.mpr (by omega)
  · exact fun hne => absurd hempty hne
  · exact fun hdrain => by cases hdrain
  · exact fun _ _ hwants => by cases hwants

theorem Inv.skip {shmem : Checked (encoder_events_t n)} {later : UInt32}
    (hmirror : shmem.data.contents ≠ [] → s.Mirrors shmem.data) :
    Inv { s with shmem := shmem, last_update := later, handler := .idle } := by
  refine ⟨h.serials, h.received, h.slave, h.newest, h.undropped, h.unmixed, h.published,
    h.precedes, h.checked, h.noted, h.waiting, ?_, h.signalled, ?_, ?_⟩
  · intro hne
    obtain ⟨hslice, hprecedes, hnoted⟩ := hmirror hne
    exact ⟨hslice, hprecedes, hnoted⟩
  · exact fun hdrain => by cases hdrain
  · exact fun _ _ hwants => by cases hwants

variable {r : ReadResult (encoder_events_t n)}

theorem Inv.after_read (hmirror : r.shmem.data.contents ≠ [] → s.Mirrors r.shmem.data)
    (hcrc : r.okay = true → r.shmem.checksum = crc8 r.shmem.data.bytes) (hsource : r.okay = true →
      r.shmem.data = s.published.data ∨ r.shmem.checksum = s.published.checksum)
    (hroom : s.Acts r → s.master.contents.length + r.shmem.data.contents.length ≤ n)
    (htime : s.Acts r → r.shmem.data.contents ≠ [] → r.shmem.data.enqueued = s.slave.enqueued) :
    (s.after_read r).Inv := by
  unfold EncoderLink.after_read
  split
  · rename_i hacts
    by_cases hnil : r.shmem.data.contents = []
    · have hnote := h.note r.last_update hnil hacts.2 (hsource hacts.1)
      dsimp only
      rw [move_events_none hnil, if_pos hnil, List.append_nil]
      exact hnote
    · obtain ⟨hempty, hmoved⟩ := move_events_all (n + 1) r.shmem.data s.master
        (Nat.le_succ_of_le r.shmem.data.contents_length_le) (hroom hacts)
      have hnew := hacts.2
      have hbytes := hcrc hacts.1
      rw [hbytes] at hnew
      have hover := h.hand_over (move_events (n + 1) r.shmem.data s.master).2.2.1 r.last_update
        (hmirror hnil) hnil hnew (htime hacts hnil) hempty
      rw [← hbytes] at hover
      dsimp only
      rw [hmoved, if_neg hnil]
      exact hover
  · exact h.skip hmirror

theorem Inv.mirrors_published (hne : s.published.data.contents ≠ []) :
    s.Mirrors s.published.data where
  slice := h.published
  precedes := Precedes.refl _
  noted := by
    intro _ hlt
    rw [← h.checked hne]
    exact h.noted hne hlt

/-- What a read can leave: the copy of the master, its checksum, and where
they are from. -/
theorem Inv.completes {x : LinkStep} (hr : s.completes x = some r) :
    (r.shmem.data.contents ≠ [] → s.Mirrors r.shmem.data) ∧
    (r.okay = true → r.shmem.checksum = crc8 r.shmem.data.bytes) ∧
    (r.okay = true →
      r.shmem.data = s.published.data ∨ r.shmem.checksum = s.published.checksum) := by
  cases x with
  | read_checksum now arrives =>
    have hkept : ∀ checksum, (s.read now now checksum none).shmem.data = s.shmem.data := by
      intro checksum
      refine (read_keeps_or_reads encoder_events_t.bytes now now s.last_update checksum none
        s.shmem).resolve_right ?_
      exact fun hnone => by cases hnone
    simp only [EncoderLink.completes] at hr
    split at hr
    · split at hr
      · split at hr
        · cases hr
        · obtain rfl := Option.some.inj hr
          refine ⟨fun hne => ?_, fun hokay => ?_, fun _ => .inr (read_checksum _)⟩
          · rw [hkept] at hne ⊢
            exact h.mirror hne
          · have hcrc := (read_okay hokay).2
            unfold read
            rw [read_checksum]
            exact Option.some.inj hcrc
      · obtain rfl := Option.some.inj hr
        refine ⟨fun hne => ?_, fun hokay => ?_, fun hokay => ?_⟩
        · exact h.mirror hne
        · cases hokay
        · cases hokay
    · cases hr
  | read_data later arrives =>
    simp only [EncoderLink.completes] at hr
    split at hr
    · rename_i now curr_checksum hhandler
      obtain rfl := Option.some.inj hr
      have hdata : ∀ d, (if arrives then some s.published.data else none) = some d →
          d = s.published.data := by
        intro d hd
        split at hd
        · exact (Option.some.inj hd).symm
        · cases hd
      refine ⟨fun hne => ?_, fun hokay => ?_, fun hokay => .inl ?_⟩
      · rcases read_keeps_or_reads encoder_events_t.bytes now later s.last_update
          (some curr_checksum) (if arrives then some s.published.data else none) s.shmem
          with hkeep | hread
        · unfold read at hne ⊢
          rw [hkeep] at hne ⊢
          exact h.mirror hne
        · have hpublished := hdata _ hread
          unfold read at hne ⊢
          rw [hpublished] at hne ⊢
          exact h.mirrors_published hne
      · have hcrc := (read_okay hokay).2
        unfold read
        rw [read_checksum]
        exact Option.some.inj hcrc
      · exact hdata _ (read_okay_of_due (h.wanting now curr_checksum hhandler) hokay)
    · cases hr
  | _ => cases hr

theorem Inv.want {now : UInt32} (hwants : s.WantsData now s.published.checksum) :
    Inv { s with handler := .wants_data now s.published.checksum } := by
  refine ⟨h.serials, h.received, h.slave, h.newest, h.undropped, h.unmixed, h.published,
    h.precedes, h.checked, h.noted, h.waiting, ?_, h.signalled, ?_, ?_⟩
  · intro hne
    obtain ⟨hslice, hprecedes, hnoted⟩ := h.mirror hne
    exact ⟨hslice, hprecedes, hnoted⟩
  · exact fun hdrain => by cases hdrain
  · intro now' curr_checksum hsame
    obtain ⟨rfl, rfl⟩ := HandlerState.wants_data.inj hsame
    exact hwants

theorem Inv.command (hdrain : s.handler = .wants_drain) (arrives : Bool) :
    Inv { s with handler := .idle, signal_queue_drain := s.signal_queue_drain || arrives } := by
  refine ⟨h.serials, h.received, h.slave, h.newest, h.undropped, h.unmixed, h.published,
    h.precedes, h.checked, h.noted, h.waiting, ?_, fun _ => (h.draining hdrain).2, ?_, ?_⟩
  · intro hne
    obtain ⟨hslice, hprecedes, hnoted⟩ := h.mirror hne
    exact ⟨hslice, hprecedes, hnoted⟩
  · exact fun hidle => by cases hidle
  · exact fun _ _ hwants => by cases hwants

theorem Inv.master_task : Inv { s with master := s.master.encoder_queue_drain } := by
  refine ⟨h.serials, h.received, h.slave, h.newest, h.undropped, h.unmixed, h.published,
    h.precedes, h.checked, h.noted, h.waiting, ?_, h.signalled, h.draining, h.wanting⟩
  intro hne
  obtain ⟨hslice, hprecedes, hnoted⟩ := h.mirror hne
  exact ⟨hslice, hprecedes, hnoted⟩

theorem Inv.step (x : LinkStep) (hroom : s.Roomy x) (htime : s.InTime x) : (s.step x).Inv := by
  unfold EncoderLink.step
  cases hcompletes : s.completes x with
  | some r =>
    obtain ⟨hmirror, hcrc, hsource⟩ := h.completes hcompletes
    have hover : s.Acts r → s.handed_over x = some r.shmem.data := by
      intro hacts
      unfold handed_over
      rw [hcompletes]
      exact if_pos hacts
    exact h.after_read hmirror hcrc hsource (fun hacts => hroom.1 _ (hover hacts))
      (fun hacts => htime.1 _ (hover hacts))
  | none =>
    cases x with
    | enqueue index clockwise =>
      have hqueued := (encoder_events_t.queue_event index clockwise hroom.2).1
      have henqueue := h.enqueue index clockwise hroom.2 htime.2
      dsimp only
      rw [hqueued, if_pos rfl]
      exact henqueue
    | encoder_task =>
      dsimp only
      split
      · rename_i hsignal
        exact h.drop hsignal
      · exact h
    | publish => exact h.publish
    | read_checksum now arrives =>
      cases arrives with
      | false => exact h
      | true =>
        cases hhandler : s.handler with
        | idle =>
          simp only [EncoderLink.completes, hhandler, if_true] at hcompletes
          split at hcompletes
          · rename_i hwants
            exact h.want hwants
          · cases hcompletes
        | wants_data now curr_checksum => exact h
        | wants_drain => exact h
    | read_data later arrives => exact h
    | drain arrives =>
      cases hhandler : s.handler with
      | idle => exact h
      | wants_data now curr_checksum => exact h
      | wants_drain => exact h.command hhandler arrives
    | master_task => exact h.master_task

end

instance (x : LinkStep) : Decidable (s.Roomy x) :=
  match x with
  | .enqueue _ _ => inferInstanceAs (Decidable (_ ∧ ¬ _))
  | .encoder_task | .publish | .read_checksum .. | .read_data .. | .drain _ | .master_task =>
    inferInstanceAs (Decidable (_ ∧ True))

instance (x : LinkStep) : Decidable (s.InTime x) :=
  match x with
  | .enqueue _ _ => inferInstanceAs (Decidable (_ ∧ _))
  | .encoder_task | .publish | .read_checksum .. | .read_data .. | .drain _ | .master_task =>
    inferInstanceAs (Decidable (_ ∧ True))

instance : Decidable s.ExactlyOnce := inferInstanceAs (Decidable (_ ∧ _ ∧ _))

/-- In every run in time, and without a full queue, each event of the slave
comes to the master once and in order, and none is dropped before. -/
theorem events_arrive_exactly_once (xs : List LinkStep)
    (h : Along step (fun s x => s.Roomy x ∧ s.InTime x) (boot : EncoderLink n) xs) :
    (xs.foldl step (boot : EncoderLink n)).ExactlyOnce := by
  have hinv := Along.invariant (I := Inv) (fun s x hs hx => hs.step x hx.1 hx.2) inv_boot h
  refine ⟨?_, hinv.serials, hinv.undropped⟩
  rw [hinv.received]
  exact List.take_prefix _ _

/-- Two events, each read and dropped before the next. -/
theorem two_events_arrive :
    (List.foldl step (boot : EncoderLink 3) [.enqueue 0 true, .publish, .read_checksum 0 true,
      .read_data 0 true, .drain true, .encoder_task, .enqueue 0 false, .publish, .master_task,
      .read_checksum 1 true, .read_data 1 true, .drain true, .encoder_task]).ExactlyOnce :=
  events_arrive_exactly_once [.enqueue 0 true, .publish, .read_checksum 0 true,
    .read_data 0 true, .drain true, .encoder_task, .enqueue 0 false, .publish, .master_task,
    .read_checksum 1 true, .read_data 1 true, .drain true, .encoder_task] (by decide +kernel)

/-- An event that comes between the read and the drain command is dropped
unread, in a run without a full queue and without two queues of one checksum. -/
theorem a_late_event_is_dropped :
    let xs : List LinkStep := [.enqueue 0 true, .publish, .read_checksum 0 true,
      .read_data 0 true, .enqueue 0 true, .drain true, .encoder_task]
    Along step Roomy (boot : EncoderLink 3) xs ∧
    (((List.scanl step (boot : EncoderLink 3) xs).map (·.slave.bytes)).Pairwise
      fun a b => crc8 a = crc8 b → a = b) ∧
    ¬ (xs.foldl step (boot : EncoderLink 3)).ExactlyOnce := by
  decide +kernel

end EncoderLink

end keychron_qmk.split
