-- The queue of encoder events of `quantum/encoder.c`.
import KeychronQMK.Lib.Ring

namespace keychron_qmk.encoder

open ring

/-- An event. The source has no `serial`: it counts the events of a queue,
from 0, for the statements about which of them arrive. No function reads it. -/
structure encoder_event_t where
  index : UInt8
  clockwise : Bool
  serial : Nat
  deriving DecidableEq

/-- A queue for `n` events, in `MAX_QUEUED_ENCODER_EVENTS = n + 1` slots. The
numbers of the events are those since boot; the source keeps them modulo 256. -/
structure encoder_events_t (n : Nat) where
  enqueued : Nat
  dequeued : Nat
  queue : Ring encoder_event_t (n + 1)

variable {n : Nat}

namespace encoder_events_t

def zero : encoder_events_t n :=
  ⟨0, 0, ⟨fun _ => ⟨0, false, 0⟩, ⟨0, Nat.succ_pos n⟩, ⟨0, Nat.succ_pos n⟩⟩⟩

variable (events : encoder_events_t n)

def contents : List encoder_event_t := events.queue.toList

def encoder_queue_full_advanced : Prop := events.queue.isFull

def encoder_queue_empty_advanced : Prop := events.queue.isEmpty

instance : Decidable events.encoder_queue_full_advanced :=
  inferInstanceAs (Decidable events.queue.isFull)

instance : Decidable events.encoder_queue_empty_advanced :=
  inferInstanceAs (Decidable events.queue.isEmpty)

/-- The bit field `index` has seven bits. -/
def new_event (index : UInt8) (clockwise : Bool) : encoder_event_t :=
  ⟨index &&& 0x7F, clockwise, events.enqueued⟩

def encoder_queue_event_advanced (index : UInt8) (clockwise : Bool) : Bool × encoder_events_t n :=
  if events.encoder_queue_full_advanced then (false, events)
  else (true, { events with
    enqueued := events.enqueued + 1
    queue := events.queue.push (events.new_event index clockwise) })

def encoder_dequeue_event_advanced : Option (encoder_event_t × encoder_events_t n) :=
  if events.encoder_queue_empty_advanced then none
  else some (events.queue.oldest, { events with
    dequeued := events.dequeued + 1
    queue := events.queue.drop })

def encoder_queue_drain : encoder_events_t n :=
  { events with
    dequeued := events.enqueued
    queue := { events.queue with tail := events.queue.head } }

def event_byte (event : encoder_event_t) : UInt8 :=
  event.index ||| if event.clockwise then 0x80 else 0

def bytes : List UInt8 :=
  [.ofNat events.enqueued, .ofNat events.dequeued, .ofNat events.queue.head,
    .ofNat events.queue.tail] ++ (List.ofFn events.queue.slots).map event_byte

/-! ## Contents -/

@[simp] theorem contents_zero : (zero : encoder_events_t n).contents = [] :=
  (Ring.toList_eq_nil_iff _).mpr rfl

theorem contents_eq_nil_iff : events.contents = [] ↔ events.encoder_queue_empty_advanced :=
  Ring.toList_eq_nil_iff _

theorem full_iff : events.encoder_queue_full_advanced ↔ events.contents.length = n := by
  unfold encoder_queue_full_advanced contents
  rw [Ring.isFull_iff, Ring.length_toList]
  omega

theorem contents_length_le : events.contents.length ≤ n := by
  have hlt := events.queue.length_lt
  unfold contents
  rw [Ring.length_toList]
  omega

variable {events}

theorem queue_event (index : UInt8) (clockwise : Bool)
    (h : ¬ events.encoder_queue_full_advanced) :
    (events.encoder_queue_event_advanced index clockwise).1 = true ∧
    (events.encoder_queue_event_advanced index clockwise).2.contents =
      events.contents ++ [events.new_event index clockwise] ∧
    (events.encoder_queue_event_advanced index clockwise).2.enqueued = events.enqueued + 1 ∧
    (events.encoder_queue_event_advanced index clockwise).2.dequeued = events.dequeued := by
  unfold encoder_queue_event_advanced
  rw [if_neg h]
  exact ⟨rfl, Ring.toList_push _ h _, rfl, rfl⟩

theorem dequeue_event_of_empty (h : events.contents = []) :
    events.encoder_dequeue_event_advanced = none := by
  unfold encoder_dequeue_event_advanced
  rw [if_pos (events.contents_eq_nil_iff.mp h)]

theorem dequeue_event {event : encoder_event_t} {rest : List encoder_event_t}
    (h : events.contents = event :: rest) : ∃ events', events'.contents = rest ∧
      events'.dequeued = events.dequeued + 1 ∧ events'.enqueued = events.enqueued ∧
      events.encoder_dequeue_event_advanced = some (event, events') := by
  have hne : ¬ events.encoder_queue_empty_advanced := by
    rw [← contents_eq_nil_iff, h]
    exact fun hnil => absurd hnil (List.cons_ne_nil _ _)
  have hdrop := Ring.toList_drop events.queue hne
  unfold contents at h
  rw [h, List.cons.injEq] at hdrop
  obtain ⟨holdest, hrest⟩ := hdrop
  refine ⟨{ events with dequeued := events.dequeued + 1, queue := events.queue.drop },
    hrest.symm, rfl, rfl, ?_⟩
  unfold encoder_dequeue_event_advanced
  rw [if_neg hne, holdest]

@[simp] theorem contents_drain : events.encoder_queue_drain.contents = [] :=
  (Ring.toList_eq_nil_iff _).mpr rfl

/-! ## Runs -/

inductive Call where
  | encoder_queue_event_advanced (index : UInt8) (clockwise : Bool)
  | encoder_dequeue_event_advanced
  | encoder_queue_drain

/-- A queue, with the events that it took, handed out and threw away. -/
structure Watched (n : Nat) where
  events : encoder_events_t n
  accepted : List encoder_event_t
  removed : List encoder_event_t

def Watched.step (w : Watched n) : Call → Watched n
  | .encoder_queue_event_advanced index clockwise =>
    let (okay, events) := w.events.encoder_queue_event_advanced index clockwise
    { w with
      events
      accepted := w.accepted ++ if okay then [w.events.new_event index clockwise] else [] }
  | .encoder_dequeue_event_advanced =>
    match w.events.encoder_dequeue_event_advanced with
    | none => w
    | some (event, events) => { w with events, removed := w.removed ++ [event] }
  | .encoder_queue_drain =>
    { w with events := w.events.encoder_queue_drain, removed := w.removed ++ w.events.contents }

/-- The queue is the list of what was taken and is not gone yet, by its numbers too. -/
structure Watched.Fifo (w : Watched n) : Prop where
  accepted : w.accepted = w.removed ++ w.events.contents
  enqueued : w.events.enqueued = w.accepted.length
  dequeued : w.events.dequeued = w.removed.length

theorem Watched.Fifo.step {w : Watched n} (h : w.Fifo) (call : Call) : (w.step call).Fifo := by
  obtain ⟨haccepted, henqueued, hdequeued⟩ := h
  cases call with
  | encoder_queue_event_advanced index clockwise =>
    unfold Watched.step
    dsimp only
    by_cases hfull : w.events.encoder_queue_full_advanced
    · have hrefused : w.events.encoder_queue_event_advanced index clockwise = (false, w.events) :=
        if_pos hfull
      rw [hrefused]
      exact ⟨(List.append_nil _).trans haccepted, by simpa using henqueued, hdequeued⟩
    · obtain ⟨hokay, hcontents, hnumber, hgone⟩ := queue_event index clockwise hfull
      rw [hokay, if_pos rfl]
      refine ⟨?_, ?_, hgone.trans hdequeued⟩
      · rw [hcontents, haccepted, List.append_assoc]
      · rw [hnumber, henqueued, List.length_append, List.length_singleton]
  | encoder_dequeue_event_advanced =>
    unfold Watched.step
    cases hcontents : w.events.contents with
    | nil =>
      rw [dequeue_event_of_empty hcontents]
      exact ⟨haccepted, henqueued, hdequeued⟩
    | cons event rest =>
      obtain ⟨events', hrest, hgone, hnumber, hdequeue⟩ := dequeue_event hcontents
      rw [hdequeue]
      refine ⟨?_, hnumber.trans henqueued, ?_⟩
      · rw [haccepted, hcontents, hrest, List.append_assoc, List.singleton_append]
      · rw [hgone, hdequeued, List.length_append, List.length_singleton]
  | encoder_queue_drain =>
    refine ⟨?_, henqueued, ?_⟩
    · change w.accepted = (w.removed ++ w.events.contents) ++ w.events.encoder_queue_drain.contents
      rw [contents_drain, List.append_nil, haccepted]
    · change w.events.enqueued = (w.removed ++ w.events.contents).length
      rw [henqueued, haccepted]

end encoder_events_t

end keychron_qmk.encoder
