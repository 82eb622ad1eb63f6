-- When a tap-hold key is settled as held: its term ends, or another key is typed while
-- it is down. A key that is released within its term with none typed is tapped. The
-- scan of the buffer breaks this where it sees events that are later than the one
-- looked at, and where it is left out.
import KeychronQMK.Tapping.Outcomes

namespace keychron_qmk.action_tapping

open runs
open action_layer (keypos_t)

/-! ## The decision -/

section

variable (cfg : Config) (es : List keyevent_t) (p : keyevent_t)

/-- The event comes no later than the next event of the key that `p` pressed. -/
def UntilNext (d : keyevent_t) : Prop :=
  ∀ r ∈ arrivals es, r.key = p.key → p.serial < r.serial → d.serial ≤ r.serial

def TermEnds : Prop :=
  ∃ d ∈ es, p.serial < d.serial ∧ cfg.TAPPING_TERM ≤ TIMER_DIFF_16 d.time p.time ∧
    UntilNext es p d

/-- Another key is pressed and released while the key is down. -/
def Nested : Prop :=
  ∃ a ∈ arrivals es, ∃ b ∈ arrivals es, a.key ≠ p.key ∧ b.key = a.key ∧ a.pressed = true ∧
    b.pressed = false ∧ p.serial < a.serial ∧ a.serial < b.serial ∧ UntilNext es p b

instance : Decidable (TermEnds cfg es p) :=
  inferInstanceAs (Decidable (∃ d ∈ es, _ ∧ _ ∧ ∀ r ∈ arrivals es, _ → _ → _))

instance : Decidable (Nested es p) :=
  inferInstanceAs (Decidable (∃ a ∈ arrivals es, ∃ b ∈ arrivals es,
    _ ∧ _ ∧ _ ∧ _ ∧ _ ∧ _ ∧ ∀ r ∈ arrivals es, _ → _ → _))

def ReleasedWithin : Prop :=
  ∃ r ∈ arrivals es, r.key = p.key ∧ r.pressed = false ∧ p.serial < r.serial ∧
    ∀ d ∈ es, p.serial < d.serial → d.serial ≤ r.serial →
      TIMER_DIFF_16 d.time p.time < cfg.TAPPING_TERM

def TapHold (key : keypos_t) : Prop :=
  ∀ calls, is_tap_action (cfg.layer_switch_get_action calls key) = true

end

section

variable {cfg : Config} {es : List keyevent_t} {p e : keyevent_t}

theorem UntilNext.snoc {d : keyevent_t} (h : UntilNext es p d) (hd : d ∈ es)
    (hseq : InSequence (es ++ [e])) : UntilNext (es ++ [e]) p d := by
  intro r hr hkey hlt
  simp only [arrivals, List.filter_append, List.mem_append] at hr
  rcases hr with hr | hr
  · exact h r hr hkey hlt
  · rw [List.mem_singleton.mp (List.mem_filter.mp hr).1]
    rw [InSequence, List.pairwise_append] at hseq
    exact (hseq.2.2 d hd e (by simp)).le

theorem arrivals_snoc : arrivals (es ++ [e]) = arrivals es ++ arrival e := by
  have h : arrivals [e] = arrival e := by simpa [arrivals] using arrivals_cons e []
  rw [← h]
  exact List.filter_append ..

theorem TermEnds.snoc (h : TermEnds cfg es p) (hseq : InSequence (es ++ [e])) :
    TermEnds cfg (es ++ [e]) p := by
  obtain ⟨d, hd, hlt, hterm, hnext⟩ := h
  exact ⟨d, List.mem_append_left _ hd, hlt, hterm, hnext.snoc hd hseq⟩

theorem Nested.snoc (h : Nested es p) (hseq : InSequence (es ++ [e])) :
    Nested (es ++ [e]) p := by
  obtain ⟨a, ha, b, hb, h1, h2, h3, h4, h5, h6, hnext⟩ := h
  rw [Nested, arrivals_snoc]
  exact ⟨a, List.mem_append_left _ ha, b, List.mem_append_left _ hb, h1, h2, h3, h4, h5, h6,
    hnext.snoc (List.mem_filter.mp hb).1 hseq⟩

/-- After a press, the next event of its key is a release. -/
theorem next_is_release {c : keyevent_t} (hw : WellFormed es) (hseq : InSequence es) (hp : p ∈ es)
    (hpressed : p.pressed = true) (hc : c ∈ es) (hkey : c.key = p.key) (hlt : p.serial < c.serial)
    (hfirst : ∀ e ∈ es, e.key = p.key → p.serial < e.serial → c.serial ≤ e.serial) :
    c.pressed = false := by
  have hordered : InSequence (ofKey p.key es) := hseq.filter _
  have hpk : p ∈ ofKey p.key es := mem_ofKey.mpr ⟨hp, rfl⟩
  obtain ⟨before, after, hsplit⟩ := List.append_of_mem (mem_ofKey.mpr ⟨hc, hkey⟩)
  have halt := hw p.key
  rw [hsplit] at halt hordered hpk
  rw [InSequence, List.pairwise_append, List.pairwise_cons] at hordered
  obtain ⟨hbefore, ⟨hafter, -⟩, hcross⟩ := hordered
  have hmem : p ∈ before := by
    rcases List.mem_append.mp hpk with h | h
    · exact h
    rcases List.mem_cons.mp h with rfl | h
    · omega
    · have := hafter p h
      omega
  rw [List.map_append, List.map_cons] at halt
  rcases halt.before with ⟨hnil, -⟩ | ⟨zs, hzs⟩
  · rw [List.map_eq_nil_iff] at hnil
    simp [hnil] at hmem
  obtain ⟨rest, last, rfl, -, hlast⟩ := List.map_eq_append_iff.mp hzs
  obtain ⟨l, rfl, hl⟩ := List.map_eq_singleton_iff.mp hlast
  -- the press is the last event of the key before `c`
  have hlp : l = p := by
    rcases List.mem_append.mp hmem with h | h
    · have hless := (List.pairwise_append.mp hbefore).2.2 p h l (by simp)
      have hles : l ∈ ofKey p.key es := by rw [hsplit]; simp
      have := hfirst l (mem_ofKey.mp hles).1 (mem_ofKey.mp hles).2 hless
      have := hcross l (by simp) c (by simp)
      omega
    · exact (List.mem_singleton.mp h).symm
  rw [hlp, hpressed] at hl
  simpa using hl.symm

end

/-! ## What upsets the decision -/

section

variable (cfg : Config) (key : keypos_t) (keyp : Slot) (s : Tapping)

/-- The oldest event of the buffer is the release of another key, and a later press of that key
is in the buffer. -/
def SeesLater : Prop :=
  keyp = .tail ∧ s.unsettled = true ∧ s.tapping_key.event.key = key ∧
    s.tapping_key.event.key ≠ (s.read keyp).event.key ∧ (s.read keyp).event.pressed = false ∧
    WITHIN_TAPPING_TERM cfg (s.read keyp).event s = true ∧
    waiting_buffer_typed (s.read keyp).event s = true

/-- The key starts a new tap within the term of the last one, and its release is in the buffer
and is not scanned for. -/
def SkipsScan : Prop :=
  IS_EVENT s.tapping_key.event = true ∧ s.tapping_key.event.pressed = false ∧
    s.tapping_key.event.key = key ∧ (s.read keyp).event.key = key ∧
    (s.read keyp).event.pressed = true ∧
    WITHIN_TAPPING_TERM cfg (s.read keyp).event s = true ∧ ¬ ContinuesTap cfg (s.read keyp) s ∧
    ∃ q ∈ s.waiting_buffer, is_tap_candidate cfg { s with tapping_key := s.read keyp } q = true

/-- An event of the key arrives while no tapping key waits, and is looked at before what is in
the buffer: an event of the key, or any event, if it is a press. -/
def ComesAhead : Prop :=
  keyp = .record ∧ IS_EVENT (s.read keyp).event = true ∧ (s.read keyp).event.key = key ∧
    s.unsettled = false ∧ ∃ q ∈ s.waiting_buffer, q.event.key = key ∨
      (s.read keyp).event.pressed = true

/-- The call of `process_tapping` decides in the order of the events. -/
def Regular : Prop :=
  ¬ SeesLater cfg key keyp s ∧ ¬ SkipsScan cfg key keyp s ∧ ¬ ComesAhead key keyp s

instance : Decidable (Regular cfg key keyp s) :=
  inferInstanceAs (Decidable (¬ (_ ∧ _ ∧ _ ∧ _ ∧ _ ∧ _ ∧ _) ∧
    ¬ (_ ∧ _ ∧ _ ∧ _ ∧ _ ∧ _ ∧ ¬ _ ∧ ∃ q ∈ s.waiting_buffer, _) ∧
    ¬ (_ ∧ _ ∧ _ ∧ _ ∧ ∃ q ∈ s.waiting_buffer, _ ∨ _)))

end

/-! ## The line of events -/

/-- The later events of the key are on the line. -/
def Follows (key : keypos_t) (es line : List keyevent_t) (p : keyevent_t) : Prop :=
  ∀ e ∈ arrivals es, e.key = key → p.serial < e.serial → e ∈ line

/-- The event is a release of the key of `t`, within its term. -/
def EndsTap (cfg : Config) (t e : keyevent_t) : Prop :=
  e.key = t.key ∧ e.pressed = false ∧ TIMER_DIFF_16 e.time t.time < cfg.TAPPING_TERM

/-- The press `t` waits as the tapping key, before the line. No event that was looked at
ends its tap. -/
structure Waits (cfg : Config) (key : keypos_t) (es : List keyevent_t) (t : keyevent_t)
    (seen line : List keyevent_t) : Prop where
  arrived : t ∈ arrivals es
  behind : ∀ e ∈ line, t.serial < e.serial
  untapped : ∀ e ∈ seen, ¬ EndsTap cfg t e
  follows : Follows key es line t

def Call.Rightly (cfg : Config) (key : keypos_t) (es : List keyevent_t) : Call → Prop
  | .process_record record tapping_key _ =>
    record.event.key = key → record.event.pressed = true → record.tap.count = 0 →
      record = tapping_key ∨ TapHold cfg key →
        TermEnds cfg es record.event ∨ Nested es record.event
  | .process_record_tap_hint _ | .clear_keyboard => True

structure Decides (cfg : Config) (key : keypos_t) (es : List keyevent_t) (s : Tapping)
    (line : List keyevent_t) : Prop where
  sublist : line.Sublist (arrivals es)
  follows : ∀ p ∈ line, p.key = key → Follows key es line p
  waits : s.unsettled = true → s.tapping_key.event.key = key →
    Waits cfg key es s.tapping_key.event s.buffered line
  calls : ∀ call ∈ s.calls, call.Rightly cfg key es

/-- The event `r` left the line, and no older event of the key stayed. -/
structure Served (key : keypos_t) (r : keyevent_t) (line rest : List keyevent_t) : Prop where
  sublist : rest.Sublist line
  mem : r ∈ line
  stay : ∀ e ∈ line, e ≠ r → e ∈ rest
  older : ∀ p ∈ rest, p.key = key → r.key = key → r.serial < p.serial

section

variable {cfg : Config} {key : keypos_t} {keyp : Slot} {s s' : Tapping} {es line rest : List keyevent_t}
  {r : keyevent_t}

theorem candidate_iff {q : keyrecord_t} : is_tap_candidate cfg s q = true ↔
    IS_EVENT q.event = true ∧ EndsTap cfg s.tapping_key.event q.event := by
  simp [is_tap_candidate, EndsTap, WITHIN_TAPPING_TERM, and_assoc]

theorem Follows.of_served {p : keyevent_t} (h : Follows key es line p)
    (hs : Served key r line rest) (hr : r.key = key → r.serial ≤ p.serial) :
    Follows key es rest p := by
  intro e he hkey hlt
  refine hs.stay e (h e he hkey hlt) ?_
  rintro rfl
  have := hr hkey
  omega

theorem Decides.serve {new : List Call} (h : Decides cfg key es s line)
    (hs : Served key r line rest) (hcalls : s'.calls = s.calls ++ new)
    (hnew : ∀ call ∈ new, call.Rightly cfg key es)
    (hw : s'.unsettled = true → s'.tapping_key.event.key = key →
      Waits cfg key es s'.tapping_key.event s'.buffered rest) : Decides cfg key es s' rest where
  sublist := hs.sublist.trans h.sublist
  follows p hp hkey := (h.follows p (hs.sublist.subset hp) hkey).of_served hs
    fun hr => (hs.older p hp hkey hr).le
  waits := hw
  calls := by
    rw [hcalls, List.forall_mem_append]
    exact ⟨h.calls, hnew⟩

theorem Decides.stay {new : List Call} (h : Decides cfg key es s line)
    (hcalls : s'.calls = s.calls ++ new) (hnew : ∀ call ∈ new, call.Rightly cfg key es)
    (hw : s'.unsettled = true → s'.tapping_key.event.key = key →
      Waits cfg key es s'.tapping_key.event s'.buffered line) : Decides cfg key es s' line where
  sublist := h.sublist
  follows := h.follows
  waits := hw
  calls := by
    rw [hcalls, List.forall_mem_append]
    exact ⟨h.calls, hnew⟩

def Slot.events (keyp : Slot) (s : Tapping) : List keyevent_t := (keyp.line s).map keyrecord_t.event

theorem events_record (he : IS_EVENT s.record.event = true) :
    Slot.record.events s = s.buffered ++ [s.record.event] := by
  simp [Slot.events, Slot.line, isEvent_iff.mp he, Tapping.buffered]

theorem events_tail (hk : Slot.tail.Holds s) : Slot.tail.events s =
    (s.read .tail).event :: (Slot.tail.rest s).map keyrecord_t.event := by
  obtain ⟨q, after, hb⟩ := List.exists_cons_of_ne_nil (hk rfl)
  simp [Slot.events, Slot.line, Slot.rest, Tapping.read, hb]

theorem mem_events (hk : keyp.Holds s) (he : IS_EVENT (s.read keyp).event = true) :
    (s.read keyp).event ∈ keyp.events s := by
  cases keyp with
  | record => rw [events_record he]; simp [Tapping.read]
  | tail => rw [events_tail hk]; simp

theorem served (hk : keyp.Holds s) (he : IS_EVENT (s.read keyp).event = true)
    (hseq : InSequence (keyp.events s))
    (hfirst : keyp = .record → (s.read keyp).event.key = key →
      ∀ q ∈ s.waiting_buffer, q.event.key ≠ key) :
    Served key (s.read keyp).event (keyp.events s) ((keyp.rest s).map keyrecord_t.event) := by
  cases keyp with
  | record =>
    have hevents := events_record (s := s) he
    rw [hevents]
    refine ⟨List.sublist_append_left .., by simp [Tapping.read], fun e hmem hne => ?_,
      fun p hp hkey hr => ?_⟩
    · rcases List.mem_append.mp hmem with h | h
      · exact h
      · exact absurd (List.mem_singleton.mp h) hne
    · obtain ⟨q, hq, rfl⟩ := List.mem_map.mp hp
      exact absurd hkey (hfirst rfl hr q hq)
  | tail =>
    rw [events_tail hk, InSequence, List.pairwise_cons] at hseq
    rw [events_tail hk]
    refine ⟨List.sublist_cons_self .., by simp, fun e hmem hne => ?_, fun p hp _ _ => hseq.1 p hp⟩
    exact (List.mem_cons.mp hmem).resolve_left hne

theorem first_of_settled (hahead : ¬ ComesAhead key keyp s) (he : IS_EVENT (s.read keyp).event = true)
    (hu : s.unsettled = false) (hk : keyp = .record) (hkey : (s.read keyp).event.key = key) :
    ∀ q ∈ s.waiting_buffer, q.event.key ≠ key :=
  fun q hq hqk => hahead ⟨hk, he, hkey, hu, q, hq, .inl hqk⟩

variable {seen : List keyevent_t}

theorem waits_of_press (h : Decides cfg key es s (keyp.events s)) (hk : keyp.Holds s)
    (hahead : ¬ ComesAhead key keyp s) (hseq : InSequence (arrivals es))
    (he : IS_EVENT (s.read keyp).event = true) (hu : s.unsettled = false)
    (hp : (s.read keyp).event.pressed = true) (hkey : (s.read keyp).event.key = key)
    (hseen : ∀ e ∈ seen, ¬ EndsTap cfg (s.read keyp).event e) :
    Waits cfg key es (s.read keyp).event seen ((keyp.rest s).map keyrecord_t.event) := by
  have hsorted : InSequence (keyp.events s) := hseq.sublist h.sublist
  have hmem := mem_events hk he
  have hserved := served hk he hsorted fun hrec hrk => first_of_settled hahead he hu hrec hrk
  refine ⟨h.sublist.subset hmem, fun e hmem' => ?_, hseen,
    (h.follows _ hmem hkey).of_served hserved fun _ => le_rfl⟩
  cases keyp with
  | record =>
    obtain ⟨q, hq, -⟩ := List.mem_map.mp hmem'
    exact absurd ⟨rfl, he, hkey, hu, q, hq, .inr hp⟩ hahead
  | tail =>
    rw [events_tail hk, InSequence, List.pairwise_cons] at hsorted
    exact hsorted.1 e hmem'

variable {t e : keyevent_t}

theorem first_on_line (h : Waits cfg key es t seen line) (hkey : t.key = key)
    (hseq : InSequence line) (hne : ofKey key line ≠ []) :
    ∃ c ∈ line, c.key = key ∧ UntilNext es t c := by
  obtain ⟨c, rest, hrest⟩ := List.exists_cons_of_ne_nil hne
  obtain ⟨hc, hck⟩ := mem_ofKey.mp (hrest ▸ List.mem_cons_self : c ∈ ofKey key line)
  refine ⟨c, hc, hck, fun e he hek hlt => ?_⟩
  have hmem : e ∈ ofKey key line :=
    mem_ofKey.mpr ⟨h.follows e he (hek.trans hkey) hlt, hek.trans hkey⟩
  have hordered : InSequence (ofKey key line) := hseq.filter _
  rw [hrest] at hmem hordered
  rcases List.mem_cons.mp hmem with rfl | hmem
  · exact le_rfl
  · exact ((List.pairwise_cons.mp hordered).1 e hmem).le

theorem untilNext_of_none {d : keyevent_t} (h : Waits cfg key es t seen line) (hkey : t.key = key)
    (hnil : ofKey key line = []) : UntilNext es t d := by
  intro e he hek hlt
  have hmem : e ∈ ofKey key line :=
    mem_ofKey.mpr ⟨h.follows e he (hek.trans hkey) hlt, hek.trans hkey⟩
  simp [hnil] at hmem

/-- A tapping key that is settled as held was held for its term, or with a key typed. -/
theorem held_rightly (hhold : cfg.HOLD_ON_OTHER_KEY_PRESS = false)
    (hw : WellFormed (arrivals es)) (hseq : InSequence (arrivals es))
    (h : Decides cfg key es s (keyp.events s)) (hk : keyp.Holds s)
    (hlater : ¬ SeesLater cfg key keyp s) (hu : s.unsettled = true)
    (hkey : s.tapping_key.event.key = key)
    (hnow : (s.read keyp).event ∈ es ∧ s.tapping_key.event.serial < (s.read keyp).event.serial)
    (why : WITHIN_TAPPING_TERM cfg (s.read keyp).event s = false ∨
      (IS_EVENT (s.read keyp).event = true ∧ s.tapping_key.event.key ≠ (s.read keyp).event.key ∧
        (s.read keyp).event.pressed = false ∧ waiting_buffer_typed (s.read keyp).event s = true ∧
        WITHIN_TAPPING_TERM cfg (s.read keyp).event s = true ∧ cfg.PERMISSIVE_HOLD = true) ∨
      cfg.HOLD_ON_OTHER_KEY_PRESS = true) :
    TermEnds cfg es s.tapping_key.event ∨ Nested es s.tapping_key.event := by
  have hwaits := h.waits hu hkey
  have hsorted : InSequence (keyp.events s) := hseq.sublist h.sublist
  have hless := fun e he => hwaits.behind e he
  obtain ⟨-, htp, -⟩ := of_unsettled hu
  by_cases hnil : ofKey key (keyp.events s) = []
  · rcases why with hover | ⟨he, hother, hup, htyped, hwithin, -⟩ | hpress
    · refine .inl ⟨_, hnow.1, hnow.2, ?_, untilNext_of_none hwaits hkey hnil⟩
      simpa [WITHIN_TAPPING_TERM] using hover
    · cases keyp with
      | tail => exact absurd ⟨rfl, hu, hkey, hother, hup, hwithin, htyped⟩ hlater
      | record =>
        have hevents := events_record (s := s) he
        simp only [waiting_buffer_typed, List.any_eq_true, Bool.and_eq_true, decide_eq_true_eq]
          at htyped
        obtain ⟨a, ha, hak, hap⟩ := htyped
        have hbuffered : a.event ∈ s.buffered := List.mem_map_of_mem ha
        have hline : a.event ∈ Slot.record.events s := by
          rw [hevents]
          exact List.mem_append_left _ hbuffered
        rw [hevents, InSequence, List.pairwise_append] at hsorted
        refine .inr ⟨a.event, h.sublist.subset hline, _, h.sublist.subset (mem_events hk he),
          fun hak' => hother (hak'.symm.trans hak.symm), hak, ?_, hup, hless _ hline,
          hsorted.2.2 _ hbuffered _ (List.mem_singleton_self _),
          untilNext_of_none hwaits hkey hnil⟩
        rw [hup] at hap
        simpa using hap
    · simp [hhold] at hpress
  · -- the release of the key is on the line, and does not end its tap
    obtain ⟨c, hc, hck, hnext⟩ := first_on_line hwaits hkey hsorted hnil
    have hup : c.pressed = false := by
      refine next_is_release hw hseq hwaits.arrived htp (h.sublist.subset hc)
        (hck.trans hkey.symm) (hless c hc) fun e he hek hlt => hnext e he hek hlt
    have hover : ¬ EndsTap cfg s.tapping_key.event c := by
      by_cases hseen : c ∈ s.buffered
      · exact hwaits.untapped c hseen
      cases keyp with
      | tail => exact absurd hc hseen
      | record =>
        have hread : c = (s.read .record).event := by
          simp only [Slot.events, Slot.line, List.map_append, List.mem_append] at hc
          rcases hc with hc | hc
          · exact absurd hc hseen
          · split at hc
            · simp at hc
            · have hself : c = s.record.event := by simpa using hc
              exact hself
        rintro ⟨-, -, hterm⟩
        rcases why with hover | ⟨-, hother, -⟩ | hpress
        · simp [WITHIN_TAPPING_TERM, ← hread] at hover
          omega
        · exact hother (hkey.trans (hread ▸ hck.symm))
        · simp [hhold] at hpress
    refine .inl ⟨c, (List.mem_filter.mp (h.sublist.subset hc)).1, hless c hc, ?_, hnext⟩
    by_contra hterm
    exact hover ⟨hck.trans hkey.symm, hup, by omega⟩

/-- A release that passes the tapping key is the first of its key on the line. -/
theorem first_of_pass (hw : WellFormed (arrivals es)) (hseq : InSequence (arrivals es))
    (h : Decides cfg key es s (Slot.record.events s)) (he : IS_EVENT s.record.event = true)
    (hup : s.record.event.pressed = false)
    (htyped : waiting_buffer_typed s.record.event s = false) (hkey : s.record.event.key = key) :
    ∀ q ∈ s.waiting_buffer, q.event.key ≠ key := by
  intro q hq hqk
  have hevents := events_record (s := s) he
  have hq' : q.event ∈ s.buffered := List.mem_map_of_mem hq
  have hsorted : InSequence (Slot.record.events s) := hseq.sublist h.sublist
  have hqr : q.event.serial < s.record.event.serial := by
    rw [hevents, InSequence, List.pairwise_append] at hsorted
    exact hsorted.2.2 _ hq' _ (by simp)
  have hrmem : s.record.event ∈ arrivals es := h.sublist.subset (by rw [hevents]; simp)
  have hqline : q.event ∈ Slot.record.events s := by
    rw [hevents]
    exact List.mem_append_left _ hq'
  have hqmem : q.event ∈ ofKey key (arrivals es) := mem_ofKey.mpr ⟨h.sublist.subset hqline, hqk⟩
  obtain ⟨before, after, hsplit⟩ := List.append_of_mem (mem_ofKey.mpr ⟨hrmem, hkey⟩)
  have hordered : InSequence (ofKey key (arrivals es)) := hseq.filter _
  obtain ⟨init, l, rfl, hl⟩ := press_before_release hw hsplit hup
  rw [hsplit] at hqmem
  rw [hsplit, InSequence, List.pairwise_append, List.pairwise_append] at hordered
  obtain ⟨⟨-, -, hlast⟩, hafter, hcross⟩ := hordered
  have hlr := hcross l (by simp) s.record.event List.mem_cons_self
  have hlmem : l ∈ ofKey key (arrivals es) := by rw [hsplit]; simp
  -- the press just before the release is in the buffer too
  have hlbuffered : l ∈ s.buffered := by
    have hline : l ∈ Slot.record.events s := by
      rcases List.mem_append.mp hqmem with hqmem | hqmem
      · rcases List.mem_append.mp hqmem with hqmem | hqmem
        · exact h.follows _ hqline hqk l (mem_ofKey.mp hlmem).1 (mem_ofKey.mp hlmem).2
            (hlast _ hqmem l (by simp))
        · rw [← List.mem_singleton.mp hqmem]
          exact hqline
      · rcases List.mem_cons.mp hqmem with hqmem | hqmem
        · rw [hqmem] at hqr
          omega
        · have := (List.pairwise_cons.mp hafter).1 _ hqmem
          omega
    rw [hevents] at hline
    rcases List.mem_append.mp hline with hline | hline
    · exact hline
    · rw [List.mem_singleton.mp hline] at hlr
      omega
  obtain ⟨p, hp, rfl⟩ := List.mem_map.mp hlbuffered
  have htyped : s.record.event.key = p.event.key → s.record.event.pressed = p.event.pressed := by
    simp only [waiting_buffer_typed, List.any_eq_false] at htyped
    simpa using htyped p hp
  rw [htyped (hkey.trans (mem_ofKey.mp hlmem).2.symm), hl] at hup
  cases hup

/-! ## The turns -/

theorem unsettled_marks {t : keyrecord_t} (hm : Marks s.tapping_key t) (ht : s'.tapping_key = t) :
    s'.unsettled = s.unsettled := by
  rcases hm with rfl | rfl <;> simp [Tapping.unsettled, ht, keyrecord_t.setInterrupted]

theorem rightly_of {record t : keyrecord_t} {early : Bool}
    (h : record.event.pressed = true → record.tap.count ≠ 0) :
    ∀ call ∈ [Call.process_record record t early], call.Rightly cfg key es := by
  intro call hc
  rw [List.mem_singleton.mp hc]
  intro _ hp hcount
  exact absurd hcount (h hp)

theorem rightly_of_records {calls : List Call}
    (h : ∀ record ∈ records calls, record.event.pressed = false) :
    ∀ call ∈ calls, call.Rightly cfg key es := by
  intro call hc
  cases call with
  | process_record record t early =>
    have hmem : record ∈ records calls := List.mem_filterMap.mpr ⟨_, hc, rfl⟩
    intro _ hp
    simp [h record hmem] at hp
  | process_record_tap_hint record => trivial
  | clear_keyboard => trivial

/-- A press that becomes the tapping key, and the scan. -/
theorem decides_start (hd : cfg.Default) {before : List Call} (hg : s.Good) (hk : keyp.Holds s)
    (hseq : InSequence (arrivals es)) (h : Decides cfg key es s (keyp.events s))
    (hahead : ¬ ComesAhead key keyp s) (he : IS_EVENT (s.read keyp).event = true)
    (hu : s.unsettled = false) (hp : (s.read keyp).event.pressed = true)
    (hends : EndsMulti s (s.read keyp).event.time before)
    (hcalls : s'.calls = (waiting_buffer_scan_tap cfg (s.turn before (s.read keyp))).calls)
    (htapping : s'.tapping_key =
      (waiting_buffer_scan_tap cfg (s.turn before (s.read keyp))).tapping_key)
    (hbuffer : s'.waiting_buffer =
      keyp.rest (waiting_buffer_scan_tap cfg (s.turn before (s.read keyp)))) :
    Decides cfg key es s' s'.buffered := by
  have hserved := served hk he (hseq.sublist h.sublist) fun hrec hrk =>
    first_of_settled hahead he hu hrec hrk
  have hbefore : ∀ call ∈ before, call.Rightly cfg key es := by
    refine rightly_of_records fun record hr => ?_
    rw [(hends record hr).2.2.2]
    rfl
  have hc := (read_fresh hg hk he).2 hp
  have hwaits : (s.turn before (s.read keyp)).unsettled = true := unsettled_of (isEvent_iff.mp he) hp hc
  rcases scan_cases hd hwaits with ⟨hscan, hnone⟩ | ⟨first, q, after, hturn, hq, -, hscan⟩
  · rw [hscan] at hcalls htapping hbuffer
    have hbuffered : s'.buffered = (keyp.rest s).map keyrecord_t.event := by
      rw [Tapping.buffered, hbuffer]
      cases keyp <;> rfl
    rw [hbuffered]
    refine h.serve hserved hcalls hbefore fun _ hkey => ?_
    rw [htapping] at hkey ⊢
    refine waits_of_press h hk hahead hseq he hu hp hkey ?_
    intro e hmem hends
    rw [hbuffered] at hmem
    obtain ⟨q, hq, rfl⟩ := List.mem_map.mp hmem
    have hq : q ∈ s.waiting_buffer := by
      cases keyp with
      | record => exact hq
      | tail => exact List.mem_of_mem_tail hq
    have hcand := hnone q hq
    rw [← Bool.not_eq_true, candidate_iff] at hcand
    exact hcand ⟨(hg.buffer q hq).1, hends⟩
  · have hsplit : s.waiting_buffer = first ++ q :: after := hturn
    rw [hscan] at hcalls htapping hbuffer
    have hbuffered : s'.buffered = (keyp.rest s).map keyrecord_t.event := by
      rw [Tapping.buffered, hbuffer]
      cases keyp with
      | record => simp [Slot.rest, hsplit, keyrecord_t.setCount]
      | tail => cases first <;> simp [Slot.rest, hsplit, keyrecord_t.setCount]
    rw [hbuffered]
    refine h.serve hserved (hcalls.trans (List.append_assoc ..)) ?_ fun hu' => ?_
    · rw [List.forall_mem_append]
      exact ⟨hbefore, rightly_of fun _ => Nat.one_ne_zero⟩
    · simp [Tapping.unsettled, htapping, Tapping.turn, keyrecord_t.setCount] at hu'

theorem now_of_waits (h : Decides cfg key es s (keyp.events s)) (hg : s.Good) (hk : keyp.Holds s)
    (hu : s.unsettled = true) (hkey : s.tapping_key.event.key = key)
    (hnow : keyp = .record → s.record.event ∈ es ∧
      (s.unsettled = true → s.tapping_key.event.key = key →
        s.tapping_key.event.serial < s.record.event.serial)) :
    (s.read keyp).event ∈ es ∧ s.tapping_key.event.serial < (s.read keyp).event.serial := by
  cases keyp with
  | record => exact ⟨(hnow rfl).1, (hnow rfl).2 hu hkey⟩
  | tail =>
    obtain ⟨q, after, hb⟩ := List.exists_cons_of_ne_nil (hk rfl)
    have hread : s.read .tail = q := by simp [Tapping.read, hb]
    have hmem := mem_events hk (hread ▸ (hg.buffer q (by simp [hb])).1)
    exact ⟨(List.mem_filter.mp (h.sublist.subset hmem)).1, (h.waits hu hkey).behind _ hmem⟩

/-- A call of `process_tapping` keeps the decisions right. -/
theorem Decides.turn (hd : cfg.Default) (hhold : cfg.HOLD_ON_OTHER_KEY_PRESS = false)
    (hw : WellFormed (arrivals es)) (hseq : InSequence (arrivals es)) (hg : s.Good)
    (hk : keyp.Holds s) (hreg : Regular cfg key keyp s)
    (h : Decides cfg key es s (keyp.events s))
    (hnow : keyp = .record → s.record.event ∈ es ∧
      (s.unsettled = true → s.tapping_key.event.key = key →
        s.tapping_key.event.serial < s.record.event.serial))
    (hafter : keyp.after (process_tapping cfg keyp s) = some s') :
    Decides cfg key es s' s'.buffered := by
  obtain ⟨hlater, hskips, hahead⟩ := hreg
  obtain ⟨hcalls, htapping, hbuffer⟩ := after_eq hafter
  have hout := process_tapping_outcome cfg hd s keyp
  generalize process_tapping cfg keyp s = out at hout hcalls htapping hbuffer
  have hserved : IS_EVENT (s.read keyp).event = true → s.unsettled = false →
      Served key (s.read keyp).event (keyp.events s) ((keyp.rest s).map keyrecord_t.event) :=
    fun he hu => served hk he (hseq.sublist h.sublist) fun hrec hrk =>
      first_of_settled hahead he hu hrec hrk
  -- the buffer after a call that consumes the event, and after one that does not
  have hconsumed : out.2.waiting_buffer = s.waiting_buffer → out.1 = true →
      s'.buffered = (keyp.rest s).map keyrecord_t.event := by
    intro ht hout
    rw [Tapping.buffered, hbuffer, if_pos hout]
    cases keyp <;> simp [Slot.rest, ht]
  have hstays : out.2.waiting_buffer = s.waiting_buffer → out.2.record = s.record →
      out.1 = false → s'.buffered = keyp.events s := by
    intro ht hr hout
    rw [Tapping.buffered, hbuffer, if_neg (by simp [hout])]
    cases keyp <;> simp [Slot.events, Slot.line, ht, hr]
  cases hout with
  | tick he =>
    cases keyp with
    | record =>
      have hn : IS_NOEVENT s.record.event = true := he
      have hevents : Slot.record.events s = s.buffered := by
        simp [Slot.events, Slot.line, hn, Tapping.buffered]
      have hb : s'.buffered = s.buffered := congrArg (List.map keyrecord_t.event) hbuffer
      rw [hevents] at h
      rw [hb]
      refine h.stay (hcalls.trans (List.append_nil _).symm) (List.forall_mem_nil _) fun hu hkey => ?_
      rw [htapping] at hkey ⊢
      have hu : s.unsettled = true := by simpa [Tapping.unsettled, htapping] using hu
      rw [hb]
      exact h.waits hu hkey
    | tail =>
      obtain ⟨q, after, hb⟩ := List.exists_cons_of_ne_nil (hk rfl)
      have hq := (hg.buffer q (by simp [hb])).1
      simp only [Tapping.read, hb, List.headD_cons] at he
      simp [isEvent_iff, he] at hq
  | start before he hu hp _ hends =>
    exact decides_start hd hg hk hseq h hahead he hu hp hends hcalls htapping hbuffer
  | hand t he hu hm _ hplain =>
    rw [hconsumed rfl rfl]
    refine h.serve (hserved he hu) hcalls ?_ fun hu' => ?_
    · intro call hc
      rw [List.mem_singleton.mp hc]
      intro hrk hp hcount hhow
      rcases hhow with rfl | htap
      · -- a press with no tap that is the tapping key waits
        have hwaits : s.unsettled = true := by
          have hsame := unsettled_marks hm (show Tapping.tapping_key
            { s with tapping_key := s.read keyp } = s.read keyp from rfl)
          rw [← hsame]
          simp [Tapping.unsettled, he, hp, hcount]
        simp [hu] at hwaits
      · have hplain := hplain hp
        have htap := htap s.calls
        rw [← hrk] at htap
        simp [is_tap_record, isEvent_iff.mp he, htap] at hplain
    · rw [unsettled_marks hm htapping, hu] at hu'
      cases hu'
  | tap_release t he _ _ hc _ hrp hup =>
    rw [hconsumed rfl rfl]
    refine h.serve (hserved he (settled_of_count hc)) hcalls
      (rightly_of fun hp => by simp [hrp] at hp) fun hu' => ?_
    have htapping : s'.tapping_key = t := htapping
    rw [settled_of_released (by rw [htapping, hup])] at hu'
    cases hu'
  | sequential count he hp hup _ hmulti =>
    rw [hconsumed rfl rfl]
    refine h.serve (hserved he (settled_of_released hup)) hcalls
      (rightly_of fun _ => by show count ≠ 0; omega) fun hu' => ?_
    have hcount : s'.tapping_key.tap.count = count := congrArg (·.tap.count) htapping
    rw [settled_of_count (by omega)] at hu'
    cases hu'
  | again he hp hte hup hkeys hwithin hsingle =>
    have hb := hconsumed rfl rfl
    have hu := settled_of_released hup
    rw [hb]
    refine h.serve (hserved he hu) (hcalls.trans (List.append_nil _).symm) (List.forall_mem_nil _) fun _ hkey => ?_
    rw [htapping] at hkey ⊢
    refine waits_of_press h hk hahead hseq he hu hp hkey fun e hmem hends => ?_
    rw [hb] at hmem
    obtain ⟨q, hq, rfl⟩ := List.mem_map.mp hmem
    have hq : q ∈ s.waiting_buffer := by
      cases keyp with
      | record => exact hq
      | tail => exact List.mem_of_mem_tail hq
    exact hskips ⟨hte, hup, hkeys.trans hkey, hkey, hp, hwithin, hsingle, q, hq,
      candidate_iff.mpr ⟨(hg.buffer q hq).1, hends⟩⟩
  | first_tap he hu _ _ _ =>
    have hb : s'.buffered = keyp.events s := by
      rw [Tapping.buffered, hbuffer]
      cases keyp with
      | record =>
        have hn : IS_NOEVENT s.record.event = false := isEvent_iff.mp he
        simp [Slot.events, Slot.line, Tapping.write, Tapping.turn, Tapping.read, hn]
      | tail =>
        obtain ⟨q, after, hq⟩ := List.exists_cons_of_ne_nil (hk rfl)
        simp [Slot.events, Slot.line, Tapping.write, Tapping.turn, Tapping.read, hq]
    rw [hb]
    refine h.stay (hcalls.trans (write_calls _)) (rightly_of fun _ => Nat.one_ne_zero) fun hu' => ?_
    have htapping : s'.tapping_key = s.tapping_key.setCount 1 := htapping.trans (write_tapping_key _)
    rw [settled_of_count (by simp [htapping, keyrecord_t.setCount])] at hu'
    cases hu'
  | wait t he hu _ hother hm =>
    have hb := hstays rfl rfl rfl
    rw [hb]
    refine h.stay (hcalls.trans (List.append_nil _).symm) (List.forall_mem_nil _) fun _ hkey => ?_
    have hevent : s'.tapping_key.event = s.tapping_key.event := by
      rw [htapping]
      rcases hm with rfl | rfl <;> rfl
    rw [hevent] at hkey ⊢
    obtain ⟨h1, h2, h3, h4⟩ := h.waits hu hkey
    refine ⟨h1, h2, fun e hmem => ?_, h4⟩
    rw [hb] at hmem
    cases keyp with
    | tail => exact h3 e hmem
    | record =>
      rw [events_record he] at hmem
      rcases List.mem_append.mp hmem with hmem | hmem
      · exact h3 e hmem
      · rintro ⟨hek, hep, -⟩
        rw [List.mem_singleton.mp hmem] at hek hep
        have hpressed : s.record.event.pressed = true := hother hek.symm
        simp [hep] at hpressed
  | pass he hu hkeys hp htyped =>
    have hb := hconsumed rfl rfl
    have hserved : Served key (s.read keyp).event (keyp.events s)
        ((keyp.rest s).map keyrecord_t.event) := by
      refine served hk he (hseq.sublist h.sublist) fun hrec hrk => ?_
      subst hrec
      exact first_of_pass hw hseq h he hp htyped hrk
    rw [hb]
    refine h.serve hserved hcalls (rightly_of fun hp' => by simp [hp] at hp') fun _ hkey => ?_
    rw [htapping] at hkey ⊢
    obtain ⟨h1, h2, h3, h4⟩ := h.waits hu hkey
    refine ⟨h1, fun e he => h2 e (hserved.sublist.subset he), fun e hmem => h3 e ?_,
      h4.of_served hserved fun hrk => absurd (hkey.trans hrk.symm) hkeys⟩
    rw [hb] at hmem
    obtain ⟨q, hq, rfl⟩ := List.mem_map.mp hmem
    refine List.mem_map_of_mem ?_
    cases keyp with
    | record => exact hq
    | tail => exact List.mem_of_mem_tail hq
  | hold t hu hm why =>
    have hevent : t.event = s.tapping_key.event := by rcases hm with rfl | rfl <;> rfl
    rw [hstays rfl rfl rfl]
    refine h.stay hcalls (fun call hc => ?_) fun hu' => ?_
    · rw [List.mem_singleton.mp hc]
      intro hkey _ _ _
      rw [hevent] at hkey ⊢
      exact held_rightly hhold hw hseq h hk hlater hu hkey
        (now_of_waits h hg hk hu hkey hnow) why
    · rw [settled_of_released (by rw [htapping]; rfl)] at hu'
      cases hu'
  | forget hup =>
    rw [hstays rfl rfl rfl]
    refine h.stay (hcalls.trans (List.append_nil _).symm) (List.forall_mem_nil _) fun hu' => ?_
    rw [settled_of_released (by rw [htapping]; rfl)] at hu'
    cases hu'

/-! ## Runs -/

theorem Call.Rightly.snoc {call : Call} (h : call.Rightly cfg key es)
    (hseq : InSequence (es ++ [e])) : call.Rightly cfg key (es ++ [e]) := by
  cases call with
  | process_record record t early =>
    intro hkey hp hc hhow
    exact (h hkey hp hc hhow).imp (·.snoc hseq) (·.snoc hseq)
  | process_record_tap_hint record => trivial
  | clear_keyboard => trivial

/-- An event arrives. -/
theorem Decides.given (h : Decides cfg key es s s.buffered) (hseq : InSequence (es ++ [e])) :
    Decides cfg key (es ++ [e]) (s.given e) (Slot.record.events (s.given e)) := by
  have hevents : Slot.record.events (s.given e) = s.buffered ++ arrival e := by
    rcases he : IS_NOEVENT e with _ | _
    all_goals simp [Slot.events, Slot.line, arrival, he, Tapping.buffered]
  have hlast : ∀ d ∈ arrivals es, ∀ f ∈ arrival e, d.serial < f.serial := by
    intro d hd f hf
    have hfe : f = e := by
      unfold arrival at hf
      split at hf
      · simp at hf
      · exact List.mem_singleton.mp hf
    rw [InSequence, List.pairwise_append] at hseq
    exact hseq.2.2 d (List.mem_filter.mp hd).1 f (by simp [hfe])
  have hfollows : ∀ p, (p ∈ arrivals es → Follows key es s.buffered p) →
      p ∈ arrivals es ++ arrival e → Follows key (es ++ [e]) (s.buffered ++ arrival e) p := by
    intro p hp hmem d hd hdk hlt
    rw [arrivals_snoc] at hd
    rcases List.mem_append.mp hd with hd | hd
    · rcases List.mem_append.mp hmem with hmem | hmem
      · exact List.mem_append_left _ (hp hmem d hd hdk hlt)
      · have := hlast d hd p hmem
        omega
    · exact List.mem_append_right _ hd
  rw [hevents]
  refine ⟨?_, fun p hp hpk => ?_, fun hu hkey => ?_, fun call hc => (h.calls call hc).snoc hseq⟩
  · rw [arrivals_snoc]
    exact h.sublist.append (.refl _)
  · rcases List.mem_append.mp hp with hp | hp
    · exact hfollows p (fun _ => h.follows p hp hpk) (List.mem_append_left _ (h.sublist.subset hp))
    · refine hfollows p (fun hmem => ?_) (List.mem_append_right _ hp)
      have := hlast p hmem p hp
      omega
  · obtain ⟨h1, h2, h3, h4⟩ := h.waits hu hkey
    refine ⟨by rw [arrivals_snoc]; exact List.mem_append_left _ h1, fun d hd => ?_, h3,
      hfollows _ (fun _ => h4) (List.mem_append_left _ h1)⟩
    rcases List.mem_append.mp hd with hd | hd
    · exact h2 d hd
    · exact hlast _ h1 d hd

/-- After the events `es`, the state is good and the key was decided rightly. -/
structure Decided (cfg : Config) (key : keypos_t) (es : List keyevent_t) (s : Tapping) : Prop where
  good : s.Good
  decides : Decides cfg key es s s.buffered

theorem Decided.step (hd : cfg.Default) (hhold : cfg.HOLD_ON_OTHER_KEY_PRESS = false)
    (h : Decided cfg key es s) (hw : WellFormed (arrivals (es ++ [e])))
    (hseq : InSequence (es ++ [e])) (hs : IS_EVENT e = true → e.serial ≠ 0)
    (hno : ¬ Overflows cfg s e) (hreg : EveryTurn cfg (Regular cfg key) s e) :
    Decided cfg key (es ++ [e]) (step cfg s e) := by
  have hseq' : InSequence (arrivals (es ++ [e])) := hseq.filter _
  refine step_keeps (J := Decided cfg key (es ++ [e])) hd hno hreg (fun s' hregular hafter => ?_)
    fun s s' hb hne hregular hafter => ?_
  · have hk := record_holds (s.given e)
    refine ⟨good_after hd (h.good.given hs) hk hafter, ?_⟩
    refine (h.decides.given hseq).turn hd hhold hw hseq' (h.good.given hs) hk hregular
      (fun _ => ⟨by simp, fun hu hkey => ?_⟩) hafter
    have harrived := (h.decides.waits hu hkey).arrived
    rw [InSequence, List.pairwise_append] at hseq
    exact hseq.2.2 _ (List.mem_filter.mp harrived).1 e (by simp)
  · have hk : Slot.tail.Holds s := fun _ => hne
    exact ⟨good_after hd hb.good hk hafter,
      hb.decides.turn hd hhold hw hseq' hb.good hk hregular (fun h => absurd h (by decide))
        hafter⟩

theorem Decided.run (hd : cfg.Default) (hhold : cfg.HOLD_ON_OTHER_KEY_PRESS = false)
    (stream : List keyevent_t) (h : Decided cfg key es s)
    (hw : WellFormed (arrivals (es ++ stream))) (hseq : InSequence (es ++ stream))
    (hn : Numbered stream)
    (hno : Along (action_tapping.step cfg) (fun s event => ¬ Overflows cfg s event) s stream)
    (hreg : Along (action_tapping.step cfg) (EveryTurn cfg (Regular cfg key)) s stream) :
    Decided cfg key (es ++ stream) (stream.foldl (action_tapping.step cfg) s) := by
  induction stream generalizing es s with
  | nil => simpa using h
  | cons e stream ih =>
    have hsplit : es ++ e :: stream = es ++ [e] ++ stream := by simp
    rw [hsplit] at hw hseq ⊢
    have hw' : WellFormed (arrivals (es ++ [e])) := by
      rw [arrivals, List.filter_append] at hw
      exact hw.left
    exact ih (h.step hd hhold hw' (List.pairwise_append.mp hseq).1 (hn e List.mem_cons_self)
      hno.1 hreg.1) hw hseq (fun e he => hn e (List.mem_cons_of_mem _ he)) hno.2 hreg.2

theorem decided_zero : Decided cfg key [] .zero := by
  refine ⟨good_zero, .slnil, List.forall_mem_nil _, fun hu => ?_, List.forall_mem_nil _⟩
  simp [Tapping.zero, Tapping.unsettled, keyrecord_t.zero] at hu

/-- The press was handed over as a hold: it was the tapping key, or its key is a tap-hold key
on every layer. -/
def HandedAsHold (cfg : Config) (calls : List Call) (p : keyevent_t) : Prop :=
  ∃ record tapping_key early, .process_record record tapping_key early ∈ calls ∧
    record.event = p ∧ p.pressed = true ∧ record.tap.count = 0 ∧
    (record = tapping_key ∨ TapHold cfg p.key)

/-- Where the key is decided in the order of the events, a press of it is settled as held only if
its term ended, or another key was pressed and released, while it was down. A press that is
released within the term with no other key typed is never a hold: it is handed over as a tap, or
still waits. -/
theorem held_for_the_term_or_with_a_key_typed (key : keypos_t) (hd : cfg.Default)
    (hhold : cfg.HOLD_ON_OTHER_KEY_PRESS = false) (stream : List keyevent_t)
    (hw : WellFormed (arrivals (number stream))) (hno : NoOverflow cfg (number stream))
    (hreg : Along (step cfg) (EveryTurn cfg (Regular cfg key)) .zero (number stream)) :
    (∀ p, p.key = key → HandedAsHold cfg (run cfg stream).calls p →
      TermEnds cfg (number stream) p ∨ Nested (number stream) p) ∧
    ∀ p ∈ arrivals (number stream), p.key = key → p.pressed = true →
      ReleasedWithin cfg (number stream) p → ¬ Nested (number stream) p →
        (p ∈ (run cfg stream).handed ∨ p ∈ (run cfg stream).held) ∧
          ¬ HandedAsHold cfg (run cfg stream).calls p := by
  have hseq := inSequence_numbers stream
  have hn := numbered_number stream
  have hzero : Decided cfg key [] .zero := decided_zero
  have hdecided := hzero.run hd hhold (number stream) hw hseq hn hno hreg
  have hheld : ∀ p, p.key = key → HandedAsHold cfg (run cfg stream).calls p →
      TermEnds cfg (number stream) p ∨ Nested (number stream) p := by
    rintro p hkey ⟨record, t, early, hcall, rfl, hp, hc, hhow⟩
    exact hdecided.decides.calls _ hcall hkey hp hc (hkey ▸ hhow)
  refine ⟨hheld, fun p hmem hkey hp hwithin hnested => ⟨?_, fun hhold => ?_⟩⟩
  · obtain ⟨-, es, hhands, hperm⟩ := run_hands hd good_zero hn hno
    rw [show (run cfg stream).handed = es from hhands.handed]
    exact List.mem_append.mp (hperm.mem_iff.mpr hmem)
  · obtain ⟨r, hr, hrk, -, hlt, hterm⟩ := hwithin
    rcases hheld p hkey hhold with ⟨d, hd, hlt', hover, hnext⟩ | h
    · have := hterm d hd hlt' (hnext r hr hrk hlt)
      omega
    · exact hnested h

end

def permissive : Config where
  TAPPING_TERM := 200
  QUICK_TAP_TERM := 200
  PERMISSIVE_HOLD := true
  HOLD_ON_OTHER_KEY_PRESS := false
  CHORDAL_HOLD := false
  FLOW_TAP_TERM := false
  TRI_LAYER_ENABLE := false
  layer_switch_get_action calls key :=
    if key.row = 2 then 0xA104 + key.col.toUInt16 else board.layer_switch_get_action calls key
  get_record_keycode := board.get_record_keycode
  get_chordal_hold := board.get_chordal_hold
  get_flow_tap_term := board.get_flow_tap_term

theorem permissive_default : permissive.Default := ⟨rfl, rfl⟩

/-- A plain key is typed while a mod-tap is down. -/
def typed : List keyevent_t := [down 0 1 0, down 1 0 10, up 1 0 20, up 0 1 30]

theorem a_key_is_typed_while_a_mod_tap_is_held :
    TermEnds permissive (number typed) { down 0 1 0 with serial := 1 } ∨
      Nested (number typed) { down 0 1 0 with serial := 1 } :=
  (held_for_the_term_or_with_a_key_typed ⟨0, 1⟩ permissive_default rfl typed (by decide) (by decide)
    (by decide)).1 _ rfl
    ⟨⟨{ down 0 1 0 with serial := 1 }, ⟨true, 0⟩⟩, ⟨{ down 0 1 0 with serial := 1 }, ⟨true, 0⟩⟩,
      false, by decide, rfl, rfl, rfl, .inl rfl⟩

/-- A layer-tap is tapped with a mod-tap pressed meanwhile, and pressed again. -/
def rolled : List keyevent_t := [down 2 0 0, down 0 1 10, up 2 0 20, down 2 0 30]

/-- The mod-tap is settled as held within its term, with no key pressed and released after it. -/
theorem a_mod_tap_is_held_with_no_key_typed :
    WellFormed (arrivals (number rolled)) ∧ NoOverflow permissive (number rolled) ∧
      HandedAsHold permissive (run permissive rolled).calls { down 0 1 10 with serial := 2 } ∧
      ¬ TermEnds permissive (number rolled) { down 0 1 10 with serial := 2 } ∧
      ¬ Nested (number rolled) { down 0 1 10 with serial := 2 } := by
  refine ⟨by decide, by decide, ?_, by decide, by decide⟩
  exact ⟨⟨{ down 0 1 10 with serial := 2 }, ⟨true, 0⟩⟩, ⟨{ down 0 1 10 with serial := 2 }, ⟨true, 0⟩⟩,
    false, by decide, rfl, rfl, rfl, .inl rfl⟩

end keychron_qmk.action_tapping
