-- No event is lost and none is handed over twice. The events that a run was
-- given are those it handed over and those that still wait, and ticks after the
-- tapping term settle all that wait, one tapping key a tick.
import KeychronQMK.Tapping.Turns
import KeychronQMK.Lib.Runs

namespace keychron_qmk.action_tapping

open runs

/-- The record that `action_exec` makes of an event. -/
def keyrecord_t.ofEvent (event : keyevent_t) : keyrecord_t := ⟨event, ⟨false, 0⟩⟩

namespace Tapping

/-- The state in which the new event is looked at. -/
def given (s : Tapping) (e : keyevent_t) : Tapping := { s with record := .ofEvent e }

variable (s : Tapping) (e : keyevent_t)

@[simp] theorem given_pending : (s.given e).pending = s.pending := rfl

@[simp] theorem given_buffered : (s.given e).buffered = s.buffered := rfl

@[simp] theorem given_waiting_buffer : (s.given e).waiting_buffer = s.waiting_buffer := rfl

@[simp] theorem given_unsettled : (s.given e).unsettled = s.unsettled := rfl

@[simp] theorem given_tapping_key : (s.given e).tapping_key = s.tapping_key := rfl

@[simp] theorem given_calls : (s.given e).calls = s.calls := rfl

@[simp] theorem read_given : (s.given e).read .record = .ofEvent e := rfl

@[simp] theorem record_given : (s.given e).record = .ofEvent e := rfl

@[simp] theorem ofEvent_event : (keyrecord_t.ofEvent e).event = e := rfl

end Tapping

section

variable (cfg : Config)

def step (s : Tapping) (event : keyevent_t) : Tapping :=
  action_tapping_process cfg (.ofEvent event) s

/-- The event comes to a full buffer, and is not consumed: everything is cleared. -/
def Overflows (s : Tapping) (event : keyevent_t) : Prop :=
  let out := process_tapping cfg .record (s.given event)
  out.1 = false ∧ waiting_buffer_enq out.2.record out.2 = none

instance (s : Tapping) (event : keyevent_t) : Decidable (Overflows cfg s event) :=
  inferInstanceAs (Decidable (_ = _ ∧ _ = _))

def NoOverflow (stream : List keyevent_t) : Prop :=
  Along (step cfg) (fun s event => ¬ Overflows cfg s event) .zero stream

instance (stream : List keyevent_t) : Decidable (NoOverflow cfg stream) :=
  Along.decidable _ _ _

end

def number (stream : List keyevent_t) : List keyevent_t :=
  stream.mapIdx fun i event => { event with serial := i + 1 }

def arrivals (stream : List keyevent_t) : List keyevent_t := stream.filter IS_EVENT

theorem arrivals_cons (e : keyevent_t) (stream : List keyevent_t) :
    arrivals (e :: stream) = arrival e ++ arrivals stream := by
  rcases h : IS_NOEVENT e with _ | _
  · simp [arrivals, arrival, h, isEvent_iff.mpr h]
  · have : IS_EVENT e ≠ true := by simp [isEvent_iff, h]
    simp [arrivals, arrival, h, this]

/-! ## Moves along the line -/

/-- From `s`, with `line` to hand over, the front of the line is handed over, or one
release passes those before it: the tapping key first, and no press of its key. -/
inductive Moves (s s' : Tapping) (line : List keyevent_t) : Prop
  | serve (es : List keyevent_t) (hands : Hands s s' es) (eq : es ++ s'.held = line)
  | pass (record : keyrecord_t) (before after : List keyevent_t)
      (calls : s'.calls = s.calls ++ [.process_record record s.tapping_key false])
      (unsettled : s.unsettled = true) (fresh : record.event.serial ≠ 0)
      (released : record.event.pressed = false) (eq : line = before ++ record.event :: after)
      (held : s'.held = before ++ after) (first : before.head? = some s.tapping_key.event)
      (press : ∀ q ∈ before, q.key = record.event.key → q.pressed = false)

variable {cfg : Config} {s s' : Tapping}

theorem Moves.hands {line : List keyevent_t} (h : Moves s s' line) :
    ∃ es, Hands s s' es ∧ (es ++ s'.held).Perm line := by
  cases h with
  | serve es hs heq => exact ⟨es, hs, heq ▸ .refl _⟩
  | pass record before after hcalls hu hf hr heq hheld hfirst hpress =>
    refine ⟨[record.event], ?_, ?_⟩
    · obtain ⟨new, hc, hs⟩ := hands_hand (s := s) record hf
      exact ⟨new, by rw [hcalls, ← hc]; rfl, hs⟩
    · rw [heq, hheld]
      change (record.event :: (before ++ after)).Perm _
      exact List.perm_middle.symm

/-- A key event comes when nothing is in the buffer, or the tapping key waits. -/
def Ready (s : Tapping) (event : keyevent_t) : Prop :=
  IS_NOEVENT event = true ∨ s.waiting_buffer = [] ∨ s.unsettled = true

instance (s : Tapping) (event : keyevent_t) : Decidable (Ready s event) :=
  inferInstanceAs (Decidable (_ ∨ _ ∨ _))

variable (hd : cfg.Default)

include hd in
theorem tail_stays (hg : s.Good) (hne : s.waiting_buffer ≠ [])
    (h : process_tapping cfg .tail s = (false, s')) : s'.Good ∧ Moves s s' s.held := by
  obtain ⟨hgood, hbuffered, -, -, hmoves⟩ := process_tapping_turn hd .tail hg fun _ => hne
  rw [h] at hgood hbuffered hmoves
  rcases hmoves with ⟨⟨es, hs, heq⟩, -⟩ | ⟨hout, -⟩
  · refine ⟨hgood, .serve es hs ?_⟩
    have heq : es ++ s'.pending = s.pending := by simpa using heq
    rw [Tapping.held, Tapping.held, hbuffered, ← heq, List.append_assoc]
  · simp at hout

include hd in
/-- One turn of the loop over the buffer that takes the oldest event. -/
theorem tail_moves (hg : s.Good) (hne : s.waiting_buffer ≠ [])
    (h : process_tapping cfg .tail s = (true, s')) :
    (popTail s').Good ∧ Moves s (popTail s') s.held := by
  obtain ⟨r, rest, hb⟩ := List.exists_cons_of_ne_nil hne
  obtain ⟨hgood, hbuffered, -, -, hmoves⟩ := process_tapping_turn hd .tail hg fun _ => hne
  have hread : s.read .tail = r := by simp [Tapping.read, hb]
  obtain ⟨he, hserial, -⟩ := hg.buffer r (by simp [hb])
  have hsb : s.buffered = r.event :: rest.map keyrecord_t.event := by simp [Tapping.buffered, hb]
  rw [h] at hgood hbuffered hmoves
  rw [hread] at hmoves
  have hpop : (popTail s').Good :=
    ⟨hgood.pending, fun r hr => hgood.buffer r (List.mem_of_mem_tail hr), hgood.record⟩
  have hpopped : (popTail s').held = s'.pending ++ rest.map keyrecord_t.event := by
    have hbuffer : (popTail s').buffered = s'.buffered.tail := by simp [Tapping.buffered, popTail]
    rw [Tapping.held, hbuffer, hbuffered, hsb]
    rfl
  refine ⟨hpop, ?_⟩
  rcases hmoves with ⟨⟨es, hs, heq⟩, -⟩ | ⟨hout, hu, -, hp, hkey, -⟩
  · have heq : es ++ s'.pending = s.pending ++ [r.event] := by
      simpa [arrival, isEvent_iff.mp he] using heq
    refine .serve es hs ?_
    rw [hpopped, ← List.append_assoc, heq, Tapping.held, hsb]
    simp
  · have hpending := pending_of_unsettled hu
    obtain rfl : s' = s.hand r := (Prod.mk.inj hout).2
    refine .pass r [s.tapping_key.event] (rest.map keyrecord_t.event) rfl hu hserial hp ?_ ?_ rfl ?_
    · simp [Tapping.held, hpending, hsb]
    · rw [hpopped]
      exact congrArg (· ++ _) hpending
    · intro q hq hk
      rw [List.mem_singleton.mp hq] at hk
      exact absurd hk.symm hkey

/-- What a call of `action_tapping_process` puts on the line. -/
def Joins (s : Tapping) (e : keyevent_t) (line : List keyevent_t) : Prop :=
  line.Perm (s.held ++ arrival e) ∧ (Ready s e → line = s.held ++ arrival e)

theorem Tapping.Good.given {e : keyevent_t} (hg : s.Good)
    (hs : IS_EVENT e = true → e.serial ≠ 0) : (s.given e).Good :=
  ⟨hg.pending, hg.buffer, fun he => ⟨hs he, fun _ => rfl⟩⟩

include hd in
/-- The new event is not consumed, and joins the buffer. -/
theorem arrival_waits {e : keyevent_t} (hg : (s.given e).Good) (hno : ¬ Overflows cfg s e)
    (h : process_tapping cfg .record (s.given e) = (false, s')) :
    ∃ s'', waiting_buffer_enq s'.record s' = some s'' ∧ s''.Good ∧
      Moves s s'' (s.held ++ arrival e) := by
  obtain ⟨hgood, hbuffered, hrecord, -, hmoves⟩ :=
    process_tapping_turn hd .record hg fun h => by simp at h
  simp only [h, Tapping.given_buffered, Tapping.record_given, Tapping.ofEvent_event,
    Tapping.read_given] at hgood hbuffered hrecord hmoves
  obtain ⟨⟨es, hes, heq⟩, -⟩ | ⟨hpass, -⟩ := hmoves
  swap
  · simp at hpass
  have heq : es ++ s'.pending = s.pending := by simpa using heq
  have hheld : es ++ s'.held = s.held := by
    rw [Tapping.held, Tapping.held, hbuffered, ← heq, List.append_assoc]
  rcases he : IS_NOEVENT e with _ | _
  · have hroom : s'.waiting_buffer.length + 1 ≠ WAITING_BUFFER_SIZE := by
      intro hfull
      refine hno ?_
      simp [Overflows, h, waiting_buffer_enq, hrecord, he, hfull]
    refine ⟨{ s' with waiting_buffer := s'.waiting_buffer ++ [s'.record] }, ?_, ?_, .serve es hes ?_⟩
    · simp [waiting_buffer_enq, hrecord, he, hroom]
    · have hevent : IS_EVENT s'.record.event = true := by rw [hrecord, isEvent_iff, he]
      refine ⟨hgood.pending, ?_, hgood.record⟩
      simp only [List.forall_mem_append, List.forall_mem_singleton]
      exact ⟨hgood.buffer, hevent, hgood.record hevent⟩
    · rw [← hheld]
      simp [Tapping.held, Tapping.pending, Tapping.unsettled, Tapping.buffered, arrival, he, hrecord]
  · refine ⟨s', by simp [waiting_buffer_enq, hrecord, he], hgood, .serve es hes ?_⟩
    simp [hheld, arrival, he]

include hd in
/-- The new event is consumed. -/
theorem arrival_consumed {e : keyevent_t} (hg : (s.given e).Good)
    (h : process_tapping cfg .record (s.given e) = (true, s')) :
    s'.Good ∧ ∃ line, Joins s e line ∧ Moves s s' line := by
  obtain ⟨hgood, hbuffered, -, -, hmoves⟩ :=
    process_tapping_turn hd .record hg fun h => by simp at h
  simp only [h, Tapping.given_buffered, Tapping.read_given] at hgood hbuffered hmoves
  refine ⟨hgood, ?_⟩
  rcases hmoves with ⟨⟨es, hes, heq⟩, hwaits⟩ | ⟨hout, hu, he, hp, hkey, htyped⟩
  · have heq : es ++ s'.pending = s.pending ++ arrival e := heq
    refine ⟨s.pending ++ arrival e ++ s.buffered, ⟨?_, ?_⟩, .serve es hes ?_⟩
    · rw [Tapping.held, List.append_assoc, List.append_assoc]
      exact List.perm_append_comm.append_left _
    · rintro (hn | hb | hu)
      · simp [arrival, hn, Tapping.held]
      · simp [Tapping.held, Tapping.buffered, hb]
      · rcases hn : IS_NOEVENT e with _ | _
        · exact absurd (hwaits hu (isEvent_iff.mpr hn)) (by simp)
        · simp [arrival, hn, Tapping.held]
    · rw [Tapping.held, hbuffered, ← List.append_assoc, heq]
  · simp only [Tapping.given_unsettled, Tapping.ofEvent_event, Tapping.given_tapping_key]
      at hu he hp hkey htyped
    have hn : arrival e = [e] := by simp [arrival, isEvent_iff.mp he]
    obtain rfl : s' = (s.given e).hand (.ofEvent e) := (Prod.mk.inj hout).2
    refine ⟨s.held ++ arrival e, ⟨.refl _, fun _ => rfl⟩,
      .pass (.ofEvent e) s.held [] rfl hu (hg.record he).1 hp (by rw [hn]; rfl)
        (List.append_nil _).symm ?_ ?_⟩
    · simp [Tapping.held, pending_of_unsettled hu]
    · intro q hq hk
      rcases List.mem_append.mp hq with hq | hq
      · rw [pending_of_unsettled hu, List.mem_singleton] at hq
        exact absurd (hq ▸ hk).symm hkey
      · obtain ⟨r, hr, rfl⟩ := List.mem_map.mp hq
        have htyped : ∀ r ∈ s.waiting_buffer, e.key = r.event.key → e.pressed = r.event.pressed := by
          simpa [waiting_buffer_typed] using htyped
        rw [← htyped r hr hk.symm]
        exact hp

theorem process_arrival_eq (e : keyevent_t) (s : Tapping) :
    process_arrival cfg (.ofEvent e) s =
      match process_tapping cfg .record (s.given e) with
      | (true, s') => s'
      | (false, s') => (waiting_buffer_enq s'.record s').getD
          (reset (waiting_buffer_clear (clear_keyboard s'))) := by
  change (match process_tapping cfg .record (s.given e) with | (true, s) => s | (false, s) => _) = _
  rcases process_tapping cfg .record (s.given e) with ⟨_ | _, s'⟩
  · dsimp only
    cases waiting_buffer_enq s'.record s' <;> rfl
  · rfl

include hd in
theorem arrival_moves {e : keyevent_t} (hg : s.Good) (hs : IS_EVENT e = true → e.serial ≠ 0)
    (hno : ¬ Overflows cfg s e) :
    (process_arrival cfg (.ofEvent e) s).Good ∧
      ∃ line, Joins s e line ∧ Moves s (process_arrival cfg (.ofEvent e) s) line := by
  have hg' : (s.given e).Good := hg.given hs
  rw [process_arrival_eq]
  rcases h : process_tapping cfg .record (s.given e) with ⟨_ | _, s'⟩
  · obtain ⟨s'', henq, hgood, hmoves⟩ := arrival_waits hd hg' hno h
    simp only [henq, Option.getD_some]
    exact ⟨hgood, _, ⟨.refl _, fun _ => rfl⟩, hmoves⟩
  · exact arrival_consumed hd hg' h

/-- `s'` comes from `s` by moves along the line, one after the other. -/
inductive Advances : Tapping → Tapping → Prop
  | refl (s : Tapping) : Advances s s
  | move {s s' s'' : Tapping} (h : Moves s s' s.held) (rest : Advances s' s'') : Advances s s''

include hd in
theorem waiting_buffer_advances (turns : Nat) (hg : s.Good) :
    (process_waiting_buffer cfg turns s).Good ∧
      Advances s (process_waiting_buffer cfg turns s) := by
  induction turns generalizing s with
  | zero => exact ⟨hg, .refl s⟩
  | succ turns ih =>
    unfold process_waiting_buffer
    split
    · exact ⟨hg, .refl s⟩
    rename_i hne
    rcases h : process_tapping cfg .tail s with ⟨_ | _, s'⟩
    · obtain ⟨hgood, hmoves⟩ := tail_stays hd hg hne h
      exact ⟨hgood, .move hmoves (.refl s')⟩
    · obtain ⟨hgood, hmoves⟩ := tail_moves hd hg hne h
      obtain ⟨hgood', hrest⟩ := ih hgood
      exact ⟨hgood', .move hmoves hrest⟩

include hd in
theorem step_moves {e : keyevent_t} (hg : s.Good) (hs : IS_EVENT e = true → e.serial ≠ 0)
    (hno : ¬ Overflows cfg s e) :
    (step cfg s e).Good ∧ ∃ s' line, Joins s e line ∧ Moves s s' line ∧
      Advances s' (step cfg s e) := by
  obtain ⟨hgood, line, hjoins, hmoves⟩ := arrival_moves hd hg hs hno
  set s' := process_arrival cfg (.ofEvent e) s with hs'
  obtain ⟨hgood', hadvances⟩ := waiting_buffer_advances hd s'.waiting_buffer.length hgood
  have hstep : step cfg s e = process_waiting_buffer cfg s'.waiting_buffer.length s' := by
    simp [step, action_tapping_process, ← hs', hd.flow]
  rw [hstep]
  exact ⟨hgood', s', line, hjoins, hmoves, hadvances⟩

/-! ## Conservation -/

theorem Advances.hands (h : Advances s s') : ∃ es, Hands s s' es ∧ (es ++ s'.held).Perm s.held := by
  induction h with
  | refl s => exact ⟨[], .refl s, .refl _⟩
  | move hmove rest ih =>
    obtain ⟨es, hhands, hperm⟩ := hmove.hands
    obtain ⟨es', hhands', hperm'⟩ := ih
    refine ⟨es ++ es', hhands.trans hhands', ?_⟩
    rw [List.append_assoc]
    exact (hperm'.append_left es).trans hperm

include hd in
theorem step_hands {e : keyevent_t} (hg : s.Good) (hs : IS_EVENT e = true → e.serial ≠ 0)
    (hno : ¬ Overflows cfg s e) :
    (step cfg s e).Good ∧ ∃ es, Hands s (step cfg s e) es ∧
      (es ++ (step cfg s e).held).Perm (s.held ++ arrival e) := by
  obtain ⟨hgood, s', line, ⟨hjoins, -⟩, hmoves, hadvances⟩ := step_moves hd hg hs hno
  obtain ⟨es, hhands, hperm⟩ := hmoves.hands
  obtain ⟨es', hhands', hperm'⟩ := hadvances.hands
  refine ⟨hgood, es ++ es', hhands.trans hhands', ?_⟩
  rw [List.append_assoc]
  exact (hperm'.append_left es).trans (hperm.trans hjoins)

def Numbered (stream : List keyevent_t) : Prop :=
  ∀ e ∈ stream, IS_EVENT e = true → e.serial ≠ 0

include hd in
theorem run_hands {stream : List keyevent_t} (hg : s.Good) (hn : Numbered stream)
    (hno : Along (step cfg) (fun s event => ¬ Overflows cfg s event) s stream) :
    (stream.foldl (step cfg) s).Good ∧ ∃ es, Hands s (stream.foldl (step cfg) s) es ∧
      (es ++ (stream.foldl (step cfg) s).held).Perm (s.held ++ arrivals stream) := by
  induction stream generalizing s with
  | nil => exact ⟨hg, [], .refl s, by simp [arrivals]⟩
  | cons e stream ih =>
    obtain ⟨hgood, es, hhands, hperm⟩ := step_hands hd hg (hn e List.mem_cons_self) hno.1
    obtain ⟨hgood', es', hhands', hperm'⟩ :=
      ih hgood (fun e he => hn e (List.mem_cons_of_mem _ he)) hno.2
    refine ⟨hgood', es ++ es', hhands.trans hhands', ?_⟩
    have hnext := hperm'.append_left es
    rw [← List.append_assoc, ← List.append_assoc] at hnext
    rw [arrivals_cons, ← List.append_assoc]
    exact hnext.trans (hperm.append_right _)

/-! ## Ticks -/

include hd in
theorem tail_buffered (hg : s.Good) (hne : s.waiting_buffer ≠ []) :
    (process_tapping cfg .tail s).2.Good ∧ (process_tapping cfg .tail s).2.waiting_buffer.length =
      s.waiting_buffer.length := by
  obtain ⟨hgood, hbuffered, -⟩ := process_tapping_turn hd .tail hg fun _ => hne
  refine ⟨hgood, ?_⟩
  simpa [Tapping.buffered] using congrArg List.length hbuffered

theorem popTail_length (hne : s.waiting_buffer ≠ []) :
    (popTail s).waiting_buffer.length < s.waiting_buffer.length := by
  have := List.length_pos_of_ne_nil hne
  simp only [popTail, List.length_tail]
  omega

include hd in
/-- The loop ends with an empty buffer, or at an event that stays. -/
theorem waiting_buffer_stops (turns : Nat) (hg : s.Good) (hlen : s.waiting_buffer.length ≤ turns) :
    let s' := process_waiting_buffer cfg turns s
    s'.waiting_buffer.length ≤ s.waiting_buffer.length ∧ (s'.waiting_buffer ≠ [] → s'.NotReleased) := by
  induction turns generalizing s with
  | zero =>
    have hnil : s.waiting_buffer = [] := List.eq_nil_of_length_eq_zero (by omega)
    simp [process_waiting_buffer, hnil]
  | succ turns ih =>
    unfold process_waiting_buffer
    split
    · rename_i hnil
      simp [hnil]
    rename_i hne
    obtain ⟨hgood, hsame⟩ := tail_buffered hd hg hne
    have hturn := process_tapping_turn hd .tail hg fun _ => hne
    rcases h : process_tapping cfg .tail s with ⟨_ | _, s'⟩
    · rw [h] at hsame hturn
      exact ⟨hsame.le, fun _ => hturn.stays rfl⟩
    · rw [h] at hsame hgood
      have hne' : s'.waiting_buffer ≠ [] := by
        intro hnil
        rw [hnil] at hsame
        exact hne (List.eq_nil_of_length_eq_zero hsame.symm)
      have hpop := popTail_length hne'
      obtain ⟨hle, hstop⟩ := ih (s := popTail s')
        ⟨hgood.pending, fun r hr => hgood.buffer r (List.mem_of_mem_tail hr), hgood.record⟩
        (by dsimp only at hsame; omega)
      exact ⟨by dsimp only at hsame hle ⊢; omega, hstop⟩

/-- A state between two calls: what is in the buffer waits for a tapping key that is down,
or for the next call. -/
structure Rests (s : Tapping) : Prop where
  good : s.Good
  stopped : s.waiting_buffer ≠ [] → s.NotReleased
  room : s.waiting_buffer.length < WAITING_BUFFER_SIZE

theorem enq_length {record : keyrecord_t} (hlen : s.waiting_buffer.length < WAITING_BUFFER_SIZE)
    (h : waiting_buffer_enq record s = some s') :
    s'.waiting_buffer.length < WAITING_BUFFER_SIZE := by
  unfold waiting_buffer_enq at h
  split at h
  · exact Option.some.inj h ▸ hlen
  split at h
  · cases h
  · rename_i hroom
    rw [← Option.some.inj h]
    simp only [List.length_append, List.length_singleton]
    omega

include hd in
theorem arrival_length {e : keyevent_t} (hg : s.Good) (hs : IS_EVENT e = true → e.serial ≠ 0)
    (hlen : s.waiting_buffer.length < WAITING_BUFFER_SIZE) :
    (process_arrival cfg (.ofEvent e) s).waiting_buffer.length < WAITING_BUFFER_SIZE := by
  obtain ⟨-, hbuffered, -⟩ :=
    process_tapping_turn hd .record (hg.given hs) fun h => by simp at h
  have hsame := congrArg List.length hbuffered
  simp only [Tapping.buffered, List.length_map, Tapping.given_waiting_buffer] at hsame
  rw [process_arrival_eq]
  rcases h : process_tapping cfg .record (s.given e) with ⟨_ | _, s'⟩ <;> rw [h] at hsame
  · dsimp only at hsame ⊢
    rcases henq : waiting_buffer_enq s'.record s' with _ | s''
    · simp [reset, waiting_buffer_clear, WAITING_BUFFER_SIZE]
    · exact enq_length (by omega) henq
  · dsimp only at hsame ⊢
    omega

include hd in
theorem step_rests {e : keyevent_t} (hr : Rests s) (hs : IS_EVENT e = true → e.serial ≠ 0)
    (hno : ¬ Overflows cfg s e) : Rests (step cfg s e) := by
  obtain ⟨hgood, -⟩ := arrival_moves hd hr.good hs hno
  obtain ⟨hle, hstops⟩ := waiting_buffer_stops hd _ hgood le_rfl
  have hlen := arrival_length hd hr.good hs hr.room
  refine ⟨(step_moves hd hr.good hs hno).1, ?_, ?_⟩ <;>
    simp only [step, action_tapping_process, hd.flow, Bool.and_false, Bool.false_and,
      Bool.false_eq_true, if_false]
  · exact hstops
  · exact lt_of_le_of_lt hle hlen

include hd in
theorem run_rests {stream : List keyevent_t} (hr : Rests s) (hn : Numbered stream)
    (hno : Along (step cfg) (fun s event => ¬ Overflows cfg s event) s stream) :
    Rests (stream.foldl (step cfg) s) := by
  induction stream generalizing s with
  | nil => exact hr
  | cons e stream ih =>
    exact ih (step_rests hd hr (hn e List.mem_cons_self) hno.1)
      (fun e he => hn e (List.mem_cons_of_mem _ he)) hno.2

/-- The tick comes after the term of the tapping key. -/
def Late (cfg : Config) (s : Tapping) (tick : keyevent_t) : Prop :=
  s.unsettled = true → WITHIN_TAPPING_TERM cfg tick s = false

include hd in
/-- A late tick leaves no tapping key that waits, before the loop over the buffer. -/
theorem late_tick_settles {tick : keyevent_t} (hn : IS_NOEVENT tick = true) (hr : Rests s)
    (hlate : Late cfg s tick) :
    let s' := process_arrival cfg (.ofEvent tick) s
    s'.unsettled = false ∧ s'.waiting_buffer = s.waiting_buffer ∧
      (s'.waiting_buffer ≠ [] → s'.NotReleased) := by
  have hreset : ∀ s' : Tapping, s'.waiting_buffer = s.waiting_buffer →
      s'.record.event = tick →
      let s'' := (waiting_buffer_enq (reset s').record (reset s')).getD
        (reset (waiting_buffer_clear (clear_keyboard (reset s'))))
      s''.unsettled = false ∧ s''.waiting_buffer = s.waiting_buffer ∧
        (s''.waiting_buffer ≠ [] → s''.NotReleased) := by
    intro s' hb hrecord
    have henq : waiting_buffer_enq (reset s').record (reset s') = some (reset s') := by
      simp [waiting_buffer_enq, reset, hrecord, hn]
    rw [henq]
    exact ⟨settled_of_none (by rfl), hb, fun _ => .inl rfl⟩
  rw [process_arrival_eq]
  unfold process_tapping
  simp only [take_registered_tap_eq hd, Tapping.read_given, Tapping.ofEvent_event,
    Tapping.given_tapping_key, hn, if_true]
  rcases hnone : IS_NOEVENT s.tapping_key.event with _ | _
  swap
  · simp only [if_true, process_none, Tapping.read_given, Tapping.ofEvent_event, hn]
    exact ⟨settled_of_none hnone, rfl, fun _ => .inl hnone⟩
  rcases hp : s.tapping_key.event.pressed with _ | _
  · rcases hterm : WITHIN_TAPPING_TERM cfg tick (s.given tick) with _ | _
    · exact hreset _ rfl rfl
    · refine ⟨settled_of_released hp, rfl, fun hne => ?_⟩
      rcases hr.stopped hne with h | h
      · simp [hnone] at h
      · simp [hp] at h
  · by_cases hc : s.tapping_key.tap.count = 0
    · have hterm : WITHIN_TAPPING_TERM cfg tick (s.given tick) = false :=
        hlate (unsettled_of hnone hp hc)
      simp only [hterm, Bool.false_eq_true, if_false, hc, if_true]
      refine hreset _ ?_ ?_ <;> unfold process_tapping_key <;>
        rw [process_record_eq hd (by exact isEvent_iff.mpr hnone)] <;> rfl
    · have hkept : (s.given tick).unsettled = false := settled_of_count hc
      rcases hterm : WITHIN_TAPPING_TERM cfg tick (s.given tick) with _ | _ <;>
        simp only [hc, if_true, if_false, Bool.false_eq_true] <;>
        exact ⟨hkept, rfl, fun _ => .inr hp⟩

include hd in
/-- A late tick settles what waits, or takes an event from the buffer. -/
theorem late_tick_progress {tick : keyevent_t} (hn : IS_NOEVENT tick = true) (hr : Rests s)
    (hlate : Late cfg s tick) (hno : ¬ Overflows cfg s tick) :
    (s.waiting_buffer = [] → (step cfg s tick).held = []) ∧
      (s.waiting_buffer ≠ [] →
        (step cfg s tick).waiting_buffer.length < s.waiting_buffer.length) := by
  obtain ⟨hsettled, hb, hstays⟩ := late_tick_settles hd hn hr hlate
  have hevent : IS_EVENT tick = true → tick.serial ≠ 0 := by simp [isEvent_iff, hn]
  obtain ⟨hgood, -⟩ := arrival_moves hd hr.good hevent hno
  have hstep : step cfg s tick = process_waiting_buffer cfg s.waiting_buffer.length
      (process_arrival cfg (.ofEvent tick) s) := by
    simp [step, action_tapping_process, hd.flow, hb]
  rw [hstep]
  set s' := process_arrival cfg (.ofEvent tick) s
  constructor
  · intro hnil
    simp [hnil, process_waiting_buffer, Tapping.held, pending_of_settled hsettled,
      Tapping.buffered, hb]
  · intro hne
    obtain ⟨turns, hturns⟩ := Nat.exists_eq_succ_of_ne_zero
      (Nat.pos_iff_ne_zero.mp (List.length_pos_of_ne_nil hne))
    have hne' : s'.waiting_buffer ≠ [] := hb ▸ hne
    have hconsumes := process_tapping_consumes hd .tail hsettled (hstays hne')
    obtain ⟨hgood', hsame⟩ := tail_buffered hd hgood hne'
    rcases h : process_tapping cfg .tail s' with ⟨done, s''⟩
    rw [h] at hconsumes hsame hgood'
    dsimp only at hconsumes hsame hgood'
    have hne'' : s''.waiting_buffer ≠ [] := by
      intro hnil
      rw [hnil] at hsame
      exact hne' (List.eq_nil_of_length_eq_zero hsame.symm)
    have hpop := popTail_length hne''
    rw [hturns, process_waiting_buffer, if_neg hne', h, hconsumes]
    have hrest := (waiting_buffer_stops hd turns (s := popTail s'')
      ⟨hgood'.pending, fun r hr => hgood'.buffer r (List.mem_of_mem_tail hr), hgood'.record⟩
      (by rw [hb] at hsame; omega)).1
    dsimp only at hrest ⊢
    rw [hb] at hsame
    omega

include hd in
theorem tick_not_overflows {tick : keyevent_t} (hn : IS_NOEVENT tick = true) (hg : s.Good) :
    ¬ Overflows cfg s tick := by
  have hevent : IS_EVENT tick = true → tick.serial ≠ 0 := by simp [isEvent_iff, hn]
  have hrecord : (process_tapping cfg .record (s.given tick)).2.record.event = tick :=
    (process_tapping_turn hd .record (hg.given hevent) fun h => by simp at h).record
  intro h
  simp [Overflows, waiting_buffer_enq, hrecord, hn] at h

def AfterTerm (cfg : Config) (tick : keyevent_t) (es : List keyevent_t) : Prop :=
  IS_NOEVENT tick = true ∧
    ∀ e ∈ es, IS_EVENT e = true → e.time.toNat + cfg.TAPPING_TERM ≤ tick.time.toNat

instance (cfg : Config) (tick : keyevent_t) (es : List keyevent_t) :
    Decidable (AfterTerm cfg tick es) :=
  inferInstanceAs (Decidable (_ = _ ∧ ∀ e ∈ es, _ → _))

theorem late_of_afterTerm {tick : keyevent_t} (h : AfterTerm cfg tick s.held) :
    Late cfg s tick := by
  intro hu
  have hmem : s.tapping_key.event ∈ s.held := by simp [Tapping.held, pending_of_unsettled hu]
  have htime := h.2 _ hmem (of_unsettled hu).1
  have hle : s.tapping_key.event.time ≤ tick.time := by
    rw [UInt16.le_iff_toNat_le]
    omega
  simp only [WITHIN_TAPPING_TERM, TIMER_DIFF_16, UInt16.toNat_sub_of_le _ _ hle,
    decide_eq_false_iff_not]
  omega

include hd in
/-- Each late tick settles a tapping key, so that what waits is gone after as many
ticks as events can wait. -/
theorem ticks_settle {ticks : List keyevent_t} (hr : Rests s)
    (hticks : ∀ tick ∈ ticks, AfterTerm cfg tick s.held)
    (hlen : s.held = [] ∨ s.waiting_buffer.length < ticks.length) :
    (ticks.foldl (step cfg) s).held = [] := by
  induction ticks generalizing s with
  | nil =>
    rcases hlen with h | h
    · exact h
    · simp at h
  | cons tick ticks ih =>
    obtain ⟨hn, -⟩ := hticks tick List.mem_cons_self
    have hlate := late_of_afterTerm (hticks tick List.mem_cons_self)
    have hno := tick_not_overflows hd hn hr.good
    have hevent : IS_EVENT tick = true → tick.serial ≠ 0 := by simp [isEvent_iff, hn]
    obtain ⟨-, es, -, hperm⟩ := step_hands hd hr.good hevent hno
    obtain ⟨hempty, hless⟩ := late_tick_progress hd hn hr hlate hno
    refine ih (step_rests hd hr hevent hno) (fun t ht => ?_) ?_
    · obtain ⟨htn, htime⟩ := hticks t (List.mem_cons_of_mem _ ht)
      refine ⟨htn, fun e he => htime e ?_⟩
      have hmem := hperm.subset (List.mem_append_right es he)
      simpa [arrival, hn] using hmem
    · by_cases hb : s.waiting_buffer = []
      · exact .inl (hempty hb)
      · refine .inr ?_
        have hwaits : s.held ≠ [] := by simp [Tapping.held, Tapping.buffered, hb]
        rcases hlen with h | h
        · exact absurd h hwaits
        · have := hless hb
          simp only [List.length_cons] at h
          omega

/-! ## Runs -/

theorem good_zero : Tapping.zero.Good := by
  refine ⟨?_, ?_, ?_⟩ <;> simp [Tapping.zero, Tapping.unsettled, IS_EVENT, keyrecord_t.zero]

theorem rests_zero : Rests .zero := by
  refine ⟨good_zero, ?_, ?_⟩ <;> simp [Tapping.zero, WAITING_BUFFER_SIZE]

theorem numbered_number (stream : List keyevent_t) : Numbered (number stream) := by
  intro e he _
  obtain ⟨i, hi, rfl⟩ := List.mem_mapIdx.mp he
  simp

/-- The state after the stream was given to `action_tapping_process`, from power-up. -/
def run (cfg : Config) (stream : List keyevent_t) : Tapping :=
  (number stream).foldl (step cfg) .zero

include hd in
/-- The events that were given are those handed over and those that wait. What is handed
over beside them ends an interrupted multi-tap. Ticks after the term, as many as the buffer has
slots, leave nothing that waits. -/
theorem every_event_is_handed_over_or_waits (stream : List keyevent_t)
    (hno : NoOverflow cfg (number stream)) :
    ((run cfg stream).handed ++ (run cfg stream).held).Perm (arrivals (number stream)) ∧
      (∀ call ∈ (run cfg stream).calls, call.Sound) ∧
      ∀ ticks : List keyevent_t, (∀ tick ∈ ticks, AfterTerm cfg tick (number stream)) →
        WAITING_BUFFER_SIZE ≤ ticks.length → (ticks.foldl (step cfg) (run cfg stream)).held = [] := by
  have hn := numbered_number stream
  obtain ⟨hgood, es, hhands, hperm⟩ := run_hands hd good_zero hn hno
  have hrests := run_rests hd rests_zero hn hno
  change Hands _ (run cfg stream) es at hhands
  change (es ++ (run cfg stream).held).Perm ([] ++ _) at hperm
  change Rests (run cfg stream) at hrests
  have hhanded : (run cfg stream).handed = es := hhands.handed
  refine ⟨hhanded ▸ hperm, ?_, ?_⟩
  · obtain ⟨new, hcalls, hsound, -⟩ := hhands
    rw [hcalls]
    exact fun call hc => (hsound call hc).1
  · intro ticks hticks hlen
    refine ticks_settle hd hrests (fun tick ht => ?_) (.inr (lt_of_lt_of_le hrests.room hlen))
    obtain ⟨htn, htime⟩ := hticks tick ht
    refine ⟨htn, fun e he => htime e ?_⟩
    have hmem := hperm.subset (List.mem_append_right es he)
    have harrived : e ∈ arrivals (number stream) := by simpa using hmem
    exact (List.mem_filter.mp harrived).1

/-! ## A tick settles one key -/

def board : Config where
  TAPPING_TERM := 200
  QUICK_TAP_TERM := 200
  PERMISSIVE_HOLD := false
  HOLD_ON_OTHER_KEY_PRESS := false
  CHORDAL_HOLD := false
  FLOW_TAP_TERM := false
  TRI_LAYER_ENABLE := false
  layer_switch_get_action _ key := (if key.row = 0 then 0x2104 else 0x0004) + key.col.toUInt16
  get_record_keycode _ record :=
    (if record.event.key.row = 0 then 0x2104 else 0x0004) + record.event.key.col.toUInt16
  get_chordal_hold _ _ _ _ := true
  get_flow_tap_term _ _ _ _ := 0

theorem board_default : board.Default := ⟨rfl, rfl⟩

def down (row col : UInt8) (time : UInt16) : keyevent_t := ⟨⟨row, col⟩, time, .KEY_EVENT, true, 0⟩

def up (row col : UInt8) (time : UInt16) : keyevent_t := ⟨⟨row, col⟩, time, .KEY_EVENT, false, 0⟩

def tick (time : UInt16) : keyevent_t := ⟨⟨0, 0⟩, time, .TICK_EVENT, false, 0⟩

/-- Two mod-taps are held, and a tick comes after the terms of both: it settles the first. -/
theorem one_tick_leaves_a_key :
    NoOverflow board (number [down 0 1 0, down 0 2 10]) ∧
      AfterTerm board (tick 500) (number [down 0 1 0, down 0 2 10]) ∧
      (step board (run board [down 0 1 0, down 0 2 10]) (tick 500)).held ≠ [] := by
  decide

theorem a_mod_tap_is_handed_over_or_waits :
    ((run board [down 0 1 0, up 0 1 10]).handed ++ (run board [down 0 1 0, up 0 1 10]).held).Perm
      (arrivals (number [down 0 1 0, up 0 1 10])) :=
  (every_event_is_handed_over_or_waits board_default [down 0 1 0, up 0 1 10] (by decide)).1

end keychron_qmk.action_tapping
