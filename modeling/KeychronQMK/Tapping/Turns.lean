-- What one call of `process_tapping` does to the line of events, in a build
-- without Chordal Hold and Flow Tap: it hands events over in their order, or it
-- lets one release pass the tapping key.
import KeychronQMK.Tapping.Funs

namespace keychron_qmk.action_tapping

/-- Neither Chordal Hold nor Flow Tap is built in. -/
structure Config.Default (cfg : Config) : Prop where
  chordal : cfg.CHORDAL_HOLD = false
  flow : cfg.FLOW_TAP_TERM = false

/-! ## The line of events -/

def Call.event? : Call → Option keyevent_t
  | .process_record record _ _ => if record.event.serial = 0 then none else some record.event
  | .process_record_tap_hint _ | .clear_keyboard => none

def events (calls : List Call) : List keyevent_t := calls.filterMap Call.event?

namespace Tapping

variable (s : Tapping)

def handed : List keyevent_t := events s.calls

/-- The tapping key waits, and was not handed over. -/
def unsettled : Bool :=
  IS_EVENT s.tapping_key.event && s.tapping_key.event.pressed && s.tapping_key.tap.count = 0

def pending : List keyevent_t := if s.unsettled then [s.tapping_key.event] else []

def buffered : List keyevent_t := s.waiting_buffer.map keyrecord_t.event

/-- The events that were not handed over yet. -/
def held : List keyevent_t := s.pending ++ s.buffered

end Tapping

def EndsMultiTap (record tapping_key : keyrecord_t) : Prop :=
  tapping_key.event.pressed = true ∧ 1 < tapping_key.tap.count ∧
    ∃ time, record = multi_tap_release time tapping_key

/-- A record that comes from no event is the release of an interrupted multi-tap. -/
def Call.Sound : Call → Prop
  | .process_record record tapping_key _ =>
    record.event.serial = 0 → EndsMultiTap record tapping_key
  | .process_record_tap_hint _ | .clear_keyboard => True

/-- A record of the line: it is numbered, and a press has no tap yet. -/
def keyrecord_t.Fresh (r : keyrecord_t) : Prop :=
  r.event.serial ≠ 0 ∧ (r.event.pressed = true → r.tap.count = 0)

structure Tapping.Good (s : Tapping) : Prop where
  pending : s.unsettled = true → s.tapping_key.event.serial ≠ 0
  buffer : ∀ r ∈ s.waiting_buffer, IS_EVENT r.event = true ∧ r.Fresh
  record : IS_EVENT s.record.event = true → s.record.Fresh

/-! ## Calls -/

theorem isEvent_iff {e : keyevent_t} : IS_EVENT e = true ↔ IS_NOEVENT e = false := by
  simp [IS_EVENT, IS_NOEVENT]

@[simp] theorem events_append (xs ys : List Call) : events (xs ++ ys) = events xs ++ events ys :=
  List.filterMap_append

def Hands (s s' : Tapping) (es : List keyevent_t) : Prop :=
  ∃ new, s'.calls = s.calls ++ new ∧ (∀ c ∈ new, c.Sound ∧ c ≠ .clear_keyboard) ∧ events new = es

theorem Hands.refl (s : Tapping) : Hands s s [] := ⟨[], by simp, by simp, rfl⟩

theorem Hands.of_calls {s s' : Tapping} (h : s'.calls = s.calls) : Hands s s' [] :=
  ⟨[], by simp [h], by simp, rfl⟩

theorem Hands.trans {s s' s'' : Tapping} {es es' : List keyevent_t} (h : Hands s s' es)
    (h' : Hands s' s'' es') : Hands s s'' (es ++ es') := by
  obtain ⟨new, hc, hs, rfl⟩ := h
  obtain ⟨new', hc', hs', rfl⟩ := h'
  refine ⟨new ++ new', by simp [hc', hc], ?_, by simp⟩
  intro c hm
  rcases List.mem_append.mp hm with hm | hm
  · exact hs c hm
  · exact hs' c hm

theorem Hands.handed {s s' : Tapping} {es : List keyevent_t} (h : Hands s s' es) :
    s'.handed = s.handed ++ es := by
  obtain ⟨new, hc, -, rfl⟩ := h
  simp [Tapping.handed, hc]

/-- The state after `process_record` got the record. -/
def Tapping.hand (s : Tapping) (record : keyrecord_t) : Tapping :=
  { s with calls := s.calls ++ [.process_record record s.tapping_key false] }

theorem hands_hand {s : Tapping} (record : keyrecord_t) (h : record.event.serial ≠ 0) :
    Hands s (s.hand record) [record.event] :=
  ⟨[.process_record record s.tapping_key false], rfl, by simp [Call.Sound, h],
    by simp [events, Call.event?, h]⟩

variable {cfg : Config} (hd : cfg.Default)

include hd in
theorem process_record_eq {s : Tapping} {record : keyrecord_t}
    (h : IS_EVENT record.event = true) : process_record cfg record s = s.hand record := by
  simp [process_record, process_record_as, isEvent_iff.mp h, hd.flow, Tapping.hand]

include hd in
theorem take_registered_tap_eq (keyp : Slot) (s : Tapping) :
    take_registered_tap cfg keyp s = s := by
  simp [take_registered_tap, hd.chordal, hd.flow]

/-! ## The tapping key -/

section

variable {s : Tapping}

theorem unsettled_of (hn : IS_NOEVENT s.tapping_key.event = false)
    (hp : s.tapping_key.event.pressed = true) (hc : s.tapping_key.tap.count = 0) :
    s.unsettled = true := by
  simp [Tapping.unsettled, isEvent_iff.mpr hn, hp, hc]

theorem of_unsettled (h : s.unsettled = true) : IS_EVENT s.tapping_key.event = true ∧
    s.tapping_key.event.pressed = true ∧ s.tapping_key.tap.count = 0 := by
  simpa [Tapping.unsettled, and_assoc] using h

theorem settled_of_count (hc : s.tapping_key.tap.count ≠ 0) : s.unsettled = false := by
  simp [Tapping.unsettled, hc]

theorem settled_of_released (hp : s.tapping_key.event.pressed = false) :
    s.unsettled = false := by
  simp [Tapping.unsettled, hp]

theorem settled_of_none (hn : IS_NOEVENT s.tapping_key.event = true) :
    s.unsettled = false := by
  have : IS_EVENT s.tapping_key.event ≠ true := by simp [isEvent_iff, hn]
  simp [Tapping.unsettled, this]

end

/-! ## The scan -/

theorem Tapping.Good.of_eq {s s' : Tapping} (h : s.Good) (hk : s'.tapping_key = s.tapping_key)
    (hb : s'.waiting_buffer = s.waiting_buffer) (hr : s'.record = s.record) : s'.Good := by
  obtain ⟨g1, g2, g3⟩ := h
  refine ⟨?_, hb ▸ g2, hr ▸ g3⟩
  simpa [Tapping.unsettled, hk] using g1

theorem Tapping.Good.hand {s : Tapping} (h : s.Good) (record : keyrecord_t) :
    (s.hand record).Good := h.of_eq rfl rfl rfl

theorem buffer_setCount {s : Tapping} (hg : s.Good) {i : Nat}
    (hi : s.waiting_buffer.findIdx? (is_tap_candidate cfg s) = some i) :
    let buffer := s.waiting_buffer.modify i (keyrecord_t.setCount 1)
    buffer.map keyrecord_t.event = s.buffered ∧
      ∀ r ∈ buffer, IS_EVENT r.event = true ∧ r.Fresh := by
  obtain ⟨hlt, hcand, -⟩ := List.findIdx?_eq_some_iff_getElem.mp hi
  obtain ⟨before, c, after, hsplit, hlen, hmod⟩ :=
    List.exists_of_modify (keyrecord_t.setCount 1) hlt
  have hc : is_tap_candidate cfg s c = true := by simpa [hsplit, ← hlen] using hcand
  have hreleased : c.event.pressed = false := by
    simp only [is_tap_candidate, Bool.and_eq_true, Bool.not_eq_true'] at hc
    exact hc.1.2
  have hgood := hg.buffer
  simp only [hmod]
  rw [Tapping.buffered, hsplit]
  refine ⟨by simp [keyrecord_t.setCount], fun r hr => ?_⟩
  rcases List.mem_append.mp hr with hr | hr
  · exact hgood r (by simp [hsplit, hr])
  · rcases List.mem_cons.mp hr with rfl | hr
    · obtain ⟨he, hs, -⟩ := hgood c (by simp [hsplit])
      exact ⟨he, hs, by simp [keyrecord_t.setCount, hreleased]⟩
    · exact hgood r (by simp [hsplit, hr])

include hd in
theorem scan_hands {s : Tapping} (hg : s.Good) (hu : s.unsettled = true) :
    let s' := waiting_buffer_scan_tap cfg s
    s'.Good ∧ s'.buffered = s.buffered ∧ s'.record = s.record ∧
      ∃ es, Hands s s' es ∧ es ++ s'.pending = s.pending := by
  obtain ⟨hevent, hpressed, hcount⟩ := of_unsettled hu
  unfold waiting_buffer_scan_tap
  rw [if_neg (by simp [hcount, hpressed])]
  rcases hfind : s.waiting_buffer.findIdx? (is_tap_candidate cfg s) with _ | i
  · exact ⟨hg, rfl, rfl, [], .refl s, rfl⟩
  · obtain ⟨hbuffered, hbuffer⟩ := buffer_setCount hg hfind
    simp only [process_tapping_key]
    rw [process_record_eq hd (by exact hevent)]
    refine ⟨⟨?_, hbuffer, hg.record⟩, hbuffered, rfl, [s.tapping_key.event], ?_, ?_⟩
    · intro h
      simp [Tapping.hand, Tapping.unsettled, keyrecord_t.setCount] at h
    · exact hands_hand (s.tapping_key.setCount 1) (hg.pending hu)
    · simp only [Tapping.pending, hu, if_true]
      simp [Tapping.hand, Tapping.unsettled, keyrecord_t.setCount]

/-! ## Turns -/

/-- What an event adds to the line. A tick adds nothing. -/
def arrival (e : keyevent_t) : List keyevent_t := if IS_NOEVENT e then [] else [e]

/-- The turn hands over from the front of the line. The event comes behind the
tapping key if it is consumed, and stays where it was if not. -/
def InOrder (s : Tapping) (e : keyevent_t) (out : Bool × Tapping) : Prop :=
  (∃ es, Hands s out.2 es ∧
    es ++ out.2.pending = s.pending ++ if out.1 then arrival e else []) ∧
  (s.unsettled = true → IS_EVENT e = true → out.1 = false)

/-- The turn hands over a release ahead of the tapping key. The press is not in
the buffer, and is not that of the tapping key. -/
def Passes (s : Tapping) (record : keyrecord_t) (out : Bool × Tapping) : Prop :=
  out = (true, s.hand record) ∧ s.unsettled = true ∧ IS_EVENT record.event = true ∧
    record.event.pressed = false ∧ record.event.key ≠ s.tapping_key.event.key ∧
    waiting_buffer_typed record.event s = false

def Tapping.NotReleased (s : Tapping) : Prop :=
  IS_NOEVENT s.tapping_key.event = true ∨ s.tapping_key.event.pressed = true

structure Turn (s : Tapping) (keyp : Slot) (out : Bool × Tapping) : Prop where
  good : out.2.Good
  buffered : out.2.buffered = s.buffered
  record : out.2.record.event = s.record.event
  stays : out.1 = false → out.2.NotReleased
  moves : InOrder s (s.read keyp).event out ∨ Passes s (s.read keyp) out

section

variable {s s' : Tapping} {keyp : Slot}

theorem pending_of_unsettled (h : s.unsettled = true) : s.pending = [s.tapping_key.event] := by
  simp [Tapping.pending, h]

theorem pending_of_settled (h : s.unsettled = false) : s.pending = [] := by
  simp [Tapping.pending, h]

def Slot.Holds (keyp : Slot) (s : Tapping) : Prop := keyp = .tail → s.waiting_buffer ≠ []

theorem read_fresh (hg : s.Good) (hk : keyp.Holds s) (he : IS_EVENT (s.read keyp).event = true) :
    (s.read keyp).Fresh := by
  cases keyp with
  | record => exact hg.record he
  | tail =>
    obtain ⟨r, rest, hb⟩ := List.exists_cons_of_ne_nil (hk rfl)
    have hr := hg.buffer r (by simp [hb])
    simpa [Tapping.read, hb] using hr.2

theorem turn_wait (es : List keyevent_t) (hg : s'.Good) (hb : s'.buffered = s.buffered)
    (hr : s'.record.event = s.record.event) (hn : s'.NotReleased) (hs : Hands s s' es)
    (hes : es ++ s'.pending = s.pending) : Turn s keyp (false, s') where
  good := hg
  buffered := hb
  record := hr
  stays := fun _ => hn
  moves := .inl ⟨⟨es, hs, by simp [← hes]⟩, fun _ _ => rfl⟩

theorem turn_ite {c : Prop} [Decidable c] {a b : Tapping} (ha : c → Turn s keyp (true, a))
    (hb : ¬ c → Turn s keyp (true, b)) : Turn s keyp (true, if c then a else b) := by
  split
  · exact ha ‹_›
  · exact hb ‹_›

theorem turn_tick (hg : s.Good) (he : IS_NOEVENT (s.read keyp).event = true) :
    Turn s keyp (true, s) where
  good := hg
  buffered := rfl
  record := rfl
  stays := nofun
  moves := .inl ⟨⟨[], .refl s, by simp [arrival, he]⟩, fun _ h => by simp [isEvent_iff, he] at h⟩

theorem turn_serve (hg : s'.Good) (hb : s'.waiting_buffer = s.waiting_buffer)
    (hr : s'.record = s.record) (he : IS_EVENT (s.read keyp).event = true)
    (hs : Hands s s' [(s.read keyp).event]) (hu : s.unsettled = false)
    (hu' : s'.unsettled = false) : Turn s keyp (true, s') where
  good := hg
  buffered := by simp [Tapping.buffered, hb]
  record := by rw [hr]
  stays := nofun
  moves := by
    refine .inl ⟨⟨_, hs, ?_⟩, fun h => by simp [hu] at h⟩
    simp [pending_of_settled hu, pending_of_settled hu', arrival, isEvent_iff.mp he]

include hd in
theorem turn_start (hg : s.Good) (hf : (s.read keyp).Fresh)
    (he : IS_EVENT (s.read keyp).event = true) (hp : (s.read keyp).event.pressed = true)
    (hu : s.unsettled = false) (hs : Hands s s' []) (hk : s'.tapping_key = s.read keyp)
    (hb : s'.waiting_buffer = s.waiting_buffer) (hr : s'.record = s.record) :
    Turn s keyp (true, waiting_buffer_scan_tap cfg s') := by
  have hu' : s'.unsettled = true := by simp [Tapping.unsettled, hk, he, hp, hf.2 hp]
  have hg' : s'.Good := ⟨fun _ => by rw [hk]; exact hf.1, hb ▸ hg.buffer, hr ▸ hg.record⟩
  obtain ⟨hgood, hbuffered, hrecord, es, hhands, hes⟩ := scan_hands hd hg' hu'
  refine ⟨hgood, ?_, ?_, nofun, .inl ⟨⟨[] ++ es, hs.trans hhands, ?_⟩, fun h => by simp [hu] at h⟩⟩
  · rw [hbuffered, Tapping.buffered, hb]; rfl
  · rw [hrecord, hr]
  · rw [pending_of_unsettled hu', hk] at hes
    simp [pending_of_settled hu, hes, arrival, isEvent_iff.mp he]

/-! ## The branches -/

include hd in
theorem process_none_turn (hg : s.Good) (hk : keyp.Holds s)
    (hn : IS_NOEVENT s.tapping_key.event = true) :
    Turn s keyp (true, process_none cfg keyp s) := by
  have hu := settled_of_none hn
  unfold process_none
  simp only [hd.flow, Bool.false_and, Bool.false_eq_true, if_false]
  split
  · rename_i he
    exact turn_tick hg he
  rename_i he
  have he := isEvent_iff.mpr (Bool.eq_false_iff.mpr he)
  have hf := read_fresh hg hk he
  split
  · rename_i hp
    simp only [Bool.and_eq_true] at hp
    refine turn_start hd hg hf he hp.1 hu ?_ ?_ ?_ ?_ <;> unfold process_record_tap_hint
    · split
      · exact ⟨[.process_record_tap_hint _], rfl, by simp [Call.Sound], by simp [events, Call.event?]⟩
      · exact .of_calls rfl
    all_goals split <;> rfl
  · rw [process_record_eq hd he]
    exact turn_serve (hg.hand _) rfl rfl he (hands_hand _ hf.1) hu hu

theorem good_write (keyp : Slot) (hg : s.Good) {r : keyrecord_t} (hr : r.event = (s.read keyp).event)
    (hp : r.event.pressed = false) :
    (s.write r keyp).Good ∧ (s.write r keyp).buffered = s.buffered ∧
      (s.write r keyp).record.event = s.record.event := by
  cases keyp with
  | record =>
    refine ⟨⟨hg.pending, hg.buffer, fun he => ?_⟩, rfl, hr⟩
    have hrecord := hg.record (by simpa [Tapping.write, Tapping.read, hr] using he)
    exact ⟨by simpa [Tapping.write, Tapping.read, hr] using hrecord.1, by simp [Tapping.write, hp]⟩
  | tail =>
    rcases hb : s.waiting_buffer with _ | ⟨first, rest⟩
    · have hw : s.write r .tail = s := by cases s; simp_all [Tapping.write]
      simp [hw, hg]
    · have hbuffer := hg.buffer
      simp only [Tapping.read, hb, List.headD_cons] at hr
      simp only [hb, List.forall_mem_cons] at hbuffer
      obtain ⟨⟨he, hs, -⟩, hrest⟩ := hbuffer
      refine ⟨⟨hg.pending, ?_, hg.record⟩, ?_, rfl⟩
      · simp only [Tapping.write, hb, List.modifyHead_cons, List.forall_mem_cons]
        exact ⟨⟨hr ▸ he, hr ▸ hs, by simp [hp]⟩, hrest⟩
      · simp [Tapping.buffered, Tapping.write, hb, hr]

theorem write_calls (r : keyrecord_t) : (s.write r keyp).calls = s.calls := by
  cases keyp <;> rfl

theorem write_tapping_key (r : keyrecord_t) : (s.write r keyp).tapping_key = s.tapping_key := by
  cases keyp <;> rfl

include hd in
theorem first_tap_turn (hg : s.Good) (hu : s.unsettled = true)
    (hp : (s.read keyp).event.pressed = false) :
    Turn s keyp (false, first_tap cfg keyp s) := by
  obtain ⟨he, hpressed, -⟩ := of_unsettled hu
  unfold first_tap count_first_tap process_tapping_key
  simp only [hd.flow, Bool.false_eq_true, if_false]
  rw [process_record_eq hd (by exact he)]
  set tapped := Tapping.hand { s with tapping_key := s.tapping_key.setCount 1 }
    (s.tapping_key.setCount 1) with htapped
  have hsettled : tapped.unsettled = false := settled_of_count (by simp [htapped, Tapping.hand,
    keyrecord_t.setCount])
  have hgood : tapped.Good := ⟨by simp [hsettled], hg.buffer, hg.record⟩
  have hread : tapped.read keyp = s.read keyp := by cases keyp <;> rfl
  have hwrite := good_write keyp hgood
    (r := { tapped.read keyp with tap := tapped.tapping_key.tap }) rfl (by simp [hread, hp])
  refine turn_wait [s.tapping_key.event] hwrite.1 hwrite.2.1 hwrite.2.2 (.inr ?_) ?_ ?_
  · rw [write_tapping_key]
    exact hpressed
  · obtain ⟨new, hc, hs⟩ := hands_hand (s := { s with tapping_key := s.tapping_key.setCount 1 })
      (s.tapping_key.setCount 1) (hg.pending hu)
    exact ⟨new, by rw [write_calls, htapped, hc], hs⟩
  · rw [pending_of_unsettled hu, pending_of_settled]
    · rfl
    · simp only [Tapping.unsettled, write_tapping_key] at hsettled ⊢
      exact hsettled

include hd in
/-- The tapping key is handed over as a hold, from a state that may mark it as
interrupted. -/
theorem hold_turn {waits : Tapping} (hg : waits.Good) (hu : waits.unsettled = true)
    (hpending : waits.pending = s.pending) (hs : Hands s waits [])
    (hb : waits.buffered = s.buffered) (hr : waits.record = s.record) :
    Turn s keyp (false, reset (process_tapping_key cfg waits)) := by
  obtain ⟨he, -, -⟩ := of_unsettled hu
  unfold process_tapping_key
  rw [process_record_eq hd he]
  have hsettled : (reset (waits.hand waits.tapping_key)).unsettled = false :=
    settled_of_none (by rfl)
  refine turn_wait ([] ++ [waits.tapping_key.event])
    ⟨by simp [hsettled], hg.buffer, hg.record⟩ hb (congrArg _ hr) (.inl rfl)
    (hs.trans (hands_hand _ (hg.pending hu))) ?_
  rw [← hpending, pending_of_unsettled hu, pending_of_settled hsettled]
  rfl

theorem reset_turn (hg : s.Good) (hu : s.unsettled = false) : Turn s keyp (false, reset s) := by
  have hsettled : (reset s).unsettled = false := settled_of_none (by rfl)
  refine turn_wait [] ⟨by simp [hsettled], hg.buffer, hg.record⟩ rfl rfl (.inl rfl)
    (.of_calls rfl) ?_
  rw [pending_of_settled hu, pending_of_settled hsettled, List.append_nil]

include hd in
theorem interrupt_turn (hg : s.Good) (hu : s.unsettled = true) :
    Turn s keyp (false, interrupt cfg (s.read keyp) s) := by
  set waits : Tapping := { s with tapping_key := s.tapping_key.setInterrupted true } with hwaits
  have hu' : waits.unsettled = true := hu
  have hg' : waits.Good := ⟨hg.pending, hg.buffer, hg.record⟩
  have hpending : waits.pending = s.pending := by
    rfl
  have hpress : interfered_by_press cfg waits = reset (process_tapping_key cfg waits) := by
    simp [interfered_by_press, hd.chordal]
  unfold interrupt settle_interrupted
  simp only [chord_is_tap, hd.chordal, Bool.false_and, Bool.false_eq_true, if_false]
  split
  · rw [← hwaits, hpress]
    exact hold_turn hd hg' hu' hpending (.of_calls rfl) rfl rfl
  · exact turn_wait [] hg' rfl rfl (.inr (of_unsettled hu').2.1) (.of_calls rfl) hpending

include hd in
theorem process_unsettled_turn (hg : s.Good) (he : IS_EVENT (s.read keyp).event = true)
    (hu : s.unsettled = true) : Turn s keyp (process_unsettled cfg keyp s) := by
  have hstay : Turn s keyp (false, s) :=
    turn_wait [] hg rfl rfl (.inr (of_unsettled hu).2.1) (.refl s) rfl
  unfold process_unsettled
  simp only [chord_is_tap, hd.chordal, Bool.false_and, Bool.and_false, Bool.false_eq_true, if_false]
  split
  · rename_i htap
    simp only [Bool.and_eq_true, Bool.not_eq_true'] at htap
    exact first_tap_turn hd hg hu htap.2
  rename_i htap
  split
  · have htyping : interfered_by_typing cfg (s.read keyp).event.key s =
        reset (process_tapping_key cfg s) := by
      simp [interfered_by_typing, hd.chordal]
    rw [htyping]
    exact hold_turn hd hg hu rfl (.refl s) rfl rfl
  split
  · rename_i hp
    simp only [Bool.and_eq_true, Bool.not_eq_true'] at hp
    split
    · exact hstay
    · rw [process_record_eq hd he]
      refine ⟨hg.hand _, rfl, rfl, nofun, .inr ⟨rfl, hu, he, hp.1, fun hkey => htap ?_, hp.2⟩⟩
      simp [IS_TAPPING_RECORD, hkey, hp.1]
  · split
    · exact interrupt_turn hd hg hu
    · exact hstay

theorem hands_multi_tap_release {time : UInt16} (hp : s.tapping_key.event.pressed = true)
    (hc : 1 < s.tapping_key.tap.count) :
    Hands s (s.hand (multi_tap_release time s.tapping_key)) [] := by
  refine ⟨[_], rfl, ?_, ?_⟩
  · simp only [List.forall_mem_singleton]
    exact ⟨fun _ => ⟨hp, hc, time, rfl⟩, by simp⟩
  · simp [events, Call.event?, multi_tap_release]

include hd in
theorem process_settled_turn (after_term : Bool) (hg : s.Good) (hk : keyp.Holds s)
    (he : IS_EVENT (s.read keyp).event = true) (hn : IS_NOEVENT s.tapping_key.event = false)
    (hp : s.tapping_key.event.pressed = true) (hc : s.tapping_key.tap.count ≠ 0) :
    Turn s keyp (true, process_settled cfg after_term keyp s) := by
  have hu := settled_of_count hc
  have hf := read_fresh hg hk he
  unfold process_settled
  refine turn_ite (fun htap => ?_) fun _ => turn_ite (fun htap => ?_) fun _ => ?_
  · simp only [Bool.and_eq_true, Bool.not_eq_true'] at htap
    dsimp only
    rw [process_record_eq hd (by exact he)]
    have hs := hands_hand (s := s) { s.read keyp with tap := s.tapping_key.tap } hf.1
    refine turn_ite (fun _ => ?_) fun _ => ?_
    · have hsettled := settled_of_none (s := reset (s.hand
        { s.read keyp with tap := s.tapping_key.tap })) (by rfl)
      exact turn_serve ⟨by simp [hsettled], hg.buffer, hg.record⟩ rfl rfl he hs hu hsettled
    · exact turn_serve ⟨by simp [settled_of_released, htap.2], hg.buffer, hg.record⟩ rfl rfl he hs
        hu (settled_of_released htap.2)
  · simp only [Bool.and_eq_true] at htap
    split
    · rename_i hmulti
      rw [process_record_eq hd (by exact isEvent_iff.mpr hn)]
      exact turn_start hd hg hf he htap.2 hu (hands_multi_tap_release hp hmulti) rfl rfl rfl
    · exact turn_start hd hg hf he htap.2 hu (.of_calls rfl) rfl rfl rfl
  · rw [process_record_eq hd he]
    exact turn_serve (hg.hand _) rfl rfl he (hands_hand _ hf.1) hu hu

include hd in
theorem process_released_turn (hg : s.Good) (hk : keyp.Holds s)
    (he : IS_EVENT (s.read keyp).event = true) (hp : s.tapping_key.event.pressed = false) :
    Turn s keyp (true, process_released cfg keyp s) := by
  have hu := settled_of_released hp
  have hf := read_fresh hg hk he
  unfold process_released
  simp only [hd.flow, Bool.false_and, Bool.false_eq_true, if_false]
  split
  swap
  · rw [process_record_eq hd he]
    exact turn_serve (hg.hand _) rfl rfl he (hands_hand _ hf.1) hu hu
  rename_i hpressed
  split
  · split
    · rename_i hseq
      rw [process_record_eq hd (by exact he)]
      have hsettled : ∀ s' : Tapping, s'.tapping_key.tap.count =
          (if s.tapping_key.tap.count < 15 then s.tapping_key.tap.count + 1
            else s.tapping_key.tap.count) → s'.unsettled = false := by
        intro s' h
        exact settled_of_count (by rw [h]; split <;> omega)
      refine turn_serve ⟨?_, hg.buffer, hg.record⟩ rfl rfl he (hands_hand _ hf.1) hu
        (hsettled _ rfl)
      rw [hsettled _ rfl]
      intro h
      cases h
    · -- the press starts a new tap, and the buffer is not scanned
      have hu' : Tapping.unsettled { s with tapping_key := s.read keyp } = true := by
        simp [Tapping.unsettled, he, hpressed, hf.2 hpressed]
      refine ⟨⟨fun _ => hf.1, hg.buffer, hg.record⟩, rfl, rfl, nofun,
        .inl ⟨⟨[], .of_calls rfl, ?_⟩, fun h => by simp [hu] at h⟩⟩
      simp [pending_of_settled hu, pending_of_unsettled hu', arrival, isEvent_iff.mp he]
  split
  · exact turn_start hd hg hf he hpressed hu (.of_calls rfl) rfl rfl rfl
  · rw [process_record_eq hd he]
    have hsettled : Tapping.unsettled
        { s with tapping_key := s.tapping_key.setInterrupted true } = false := settled_of_released hp
    exact turn_serve ⟨by simp [Tapping.hand, Tapping.unsettled, keyrecord_t.setInterrupted, hp],
      hg.buffer, hg.record⟩ rfl rfl he (hands_hand (s := { s with
        tapping_key := s.tapping_key.setInterrupted true }) _ hf.1) hu hsettled

variable (keyp) in
include hd in
theorem process_tapping_consumes (hu : s.unsettled = false) (hn : s.NotReleased) :
    (process_tapping cfg keyp s).1 = true := by
  unfold process_tapping
  simp only [take_registered_tap_eq hd]
  split
  · rfl
  rename_i hevent
  have hevent := Bool.eq_false_iff.mpr hevent
  have hp : s.tapping_key.event.pressed = true := by
    rcases hn with hn | hp
    · simp [hn] at hevent
    · exact hp
  have hc : s.tapping_key.tap.count ≠ 0 := fun hc => by
    simp [unsettled_of hevent hp hc] at hu
  simp only [hp, hc, if_true, if_false]
  split <;> split <;> rfl

variable (keyp) in
include hd in
theorem process_tapping_turn (hg : s.Good) (hk : keyp.Holds s) :
    Turn s keyp (process_tapping cfg keyp s) := by
  unfold process_tapping
  simp only [take_registered_tap_eq hd]
  split
  · rename_i hn
    exact process_none_turn hd hg hk hn
  rename_i hn
  have hn := Bool.eq_false_iff.mpr hn
  split
  · rename_i hp
    split
    · split
      · rename_i he
        exact turn_tick hg he
      rename_i he
      have he := isEvent_iff.mpr (Bool.eq_false_iff.mpr he)
      split
      · rename_i hc
        exact process_unsettled_turn hd hg he (unsettled_of hn hp hc)
      · rename_i hc
        exact process_settled_turn hd false hg hk he hn hp hc
    · split
      · rename_i hc
        exact hold_turn hd hg (unsettled_of hn hp hc) rfl (.refl s) rfl rfl
      rename_i hc
      split
      · rename_i he
        exact turn_tick hg he
      · rename_i he
        exact process_settled_turn hd true hg hk (isEvent_iff.mpr (Bool.eq_false_iff.mpr he)) hn hp hc
  · rename_i hp
    have hp := Bool.eq_false_iff.mpr hp
    split
    · split
      · rename_i he
        exact turn_tick hg he
      · rename_i he
        exact process_released_turn hd hg hk (isEvent_iff.mpr (Bool.eq_false_iff.mpr he)) hp
    · exact reset_turn hg (settled_of_released hp)

end

end keychron_qmk.action_tapping
