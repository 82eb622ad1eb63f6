-- What one call of `process_tapping` does, case by case, in a build without Chordal
-- Hold and Flow Tap, and the rule by which a run keeps what every call keeps.
import KeychronQMK.Tapping.Ordering

namespace keychron_qmk.action_tapping

open runs
open action_layer (keypos_t)

def Call.record? : Call → Option keyrecord_t
  | .process_record record _ _ => some record
  | .process_record_tap_hint _ | .clear_keyboard => none

def records (calls : List Call) : List keyrecord_t := calls.filterMap Call.record?

@[simp] theorem records_append (xs ys : List Call) :
    records (xs ++ ys) = records xs ++ records ys := List.filterMap_append

@[simp] theorem records_process_record (record tapping_key : keyrecord_t) (early : Bool) :
    records [.process_record record tapping_key early] = [record] := rfl

def Tapping.turn (s : Tapping) (calls : List Call) (tapping_key : keyrecord_t) : Tapping :=
  { s with calls := s.calls ++ calls, tapping_key := tapping_key }

def Marks (t t' : keyrecord_t) : Prop := t' = t ∨ t' = t.setInterrupted true

def EndsMulti (s : Tapping) (time : UInt16) (calls : List Call) : Prop :=
  ∀ record ∈ records calls, IS_EVENT s.tapping_key.event = true ∧
    s.tapping_key.event.pressed = true ∧ 1 < s.tapping_key.tap.count ∧
    record = multi_tap_release time s.tapping_key

def ContinuesTap (cfg : Config) (r : keyrecord_t) (s : Tapping) : Prop :=
  WITHIN_QUICK_TAP_TERM cfg r.event s = true ∧ s.tapping_key.tap.interrupted = false ∧
    0 < s.tapping_key.tap.count

instance (cfg : Config) (r : keyrecord_t) (s : Tapping) : Decidable (ContinuesTap cfg r s) :=
  inferInstanceAs (Decidable (_ ∧ _ ∧ _))

inductive Outcome (cfg : Config) (keyp : Slot) (s : Tapping) (r : keyrecord_t) :
    Bool × Tapping → Prop
  | tick (tick : IS_NOEVENT r.event = true) : Outcome cfg keyp s r (true, s)
  | start (before : List Call) (event : IS_EVENT r.event = true) (settled : s.unsettled = false)
      (pressed : r.event.pressed = true) (tap : is_tap_record cfg r s = true)
      (ends : EndsMulti s r.event.time before) :
      Outcome cfg keyp s r (true, waiting_buffer_scan_tap cfg (s.turn before r))
  | hand (t : keyrecord_t) (event : IS_EVENT r.event = true) (settled : s.unsettled = false)
      (marks : Marks s.tapping_key t)
      (other : IS_EVENT s.tapping_key.event = true → s.tapping_key.event.pressed = true →
        s.tapping_key.event.key = r.event.key → r.event.pressed = true)
      (plain : r.event.pressed = true → is_tap_record cfg r s = false) :
      Outcome cfg keyp s r (true, s.turn [.process_record r t false] t)
  | tap_release (t : keyrecord_t) (event : IS_EVENT r.event = true)
      (tapping : IS_EVENT s.tapping_key.event = true) (down : s.tapping_key.event.pressed = true)
      (settled : s.tapping_key.tap.count ≠ 0) (key : s.tapping_key.event.key = r.event.key)
      (released : r.event.pressed = false) (up : t.event.pressed = false) :
      Outcome cfg keyp s r
        (true, s.turn [.process_record { r with tap := s.tapping_key.tap } s.tapping_key false] t)
  | sequential (count : Nat) (event : IS_EVENT r.event = true) (pressed : r.event.pressed = true)
      (up : s.tapping_key.event.pressed = false) (key : s.tapping_key.event.key = r.event.key)
      (multi : 1 < count) :
      Outcome cfg keyp s r
        (true, s.turn
          [.process_record { r with tap := { s.tapping_key.tap with count := count } }
            s.tapping_key false]
          { r with tap := { s.tapping_key.tap with count := count } })
  | again (event : IS_EVENT r.event = true) (pressed : r.event.pressed = true)
      (tapping : IS_EVENT s.tapping_key.event = true) (up : s.tapping_key.event.pressed = false)
      (key : s.tapping_key.event.key = r.event.key)
      (within : WITHIN_TAPPING_TERM cfg r.event s = true) (single : ¬ ContinuesTap cfg r s) :
      Outcome cfg keyp s r (true, { s with tapping_key := r })
  | first_tap (event : IS_EVENT r.event = true) (waits : s.unsettled = true)
      (within : WITHIN_TAPPING_TERM cfg r.event s = true)
      (key : s.tapping_key.event.key = r.event.key) (released : r.event.pressed = false) :
      Outcome cfg keyp s r
        (false, (s.turn [.process_record (s.tapping_key.setCount 1) (s.tapping_key.setCount 1) false]
            (s.tapping_key.setCount 1)).write
          { r with tap := (s.tapping_key.setCount 1).tap } keyp)
  | wait (t : keyrecord_t) (event : IS_EVENT r.event = true) (waits : s.unsettled = true)
      (within : WITHIN_TAPPING_TERM cfg r.event s = true)
      (other : s.tapping_key.event.key = r.event.key → r.event.pressed = true)
      (marks : Marks s.tapping_key t) :
      Outcome cfg keyp s r (false, { s with tapping_key := t })
  | pass (event : IS_EVENT r.event = true) (waits : s.unsettled = true)
      (key : s.tapping_key.event.key ≠ r.event.key) (released : r.event.pressed = false)
      (typed : waiting_buffer_typed r.event s = false) :
      Outcome cfg keyp s r (true, s.turn [.process_record r s.tapping_key false] s.tapping_key)
  | hold (t : keyrecord_t) (waits : s.unsettled = true) (marks : Marks s.tapping_key t)
      (why : WITHIN_TAPPING_TERM cfg r.event s = false ∨
        (IS_EVENT r.event = true ∧ s.tapping_key.event.key ≠ r.event.key ∧
          r.event.pressed = false ∧ waiting_buffer_typed r.event s = true ∧
          WITHIN_TAPPING_TERM cfg r.event s = true ∧ cfg.PERMISSIVE_HOLD = true) ∨
        cfg.HOLD_ON_OTHER_KEY_PRESS = true) :
      Outcome cfg keyp s r (false, s.turn [.process_record t t false] .zero)
  | forget (up : s.tapping_key.event.pressed = false) :
      Outcome cfg keyp s r (false, { s with tapping_key := .zero })

section

variable {cfg : Config} (hd : cfg.Default) {s : Tapping} {keyp : Slot}

theorem outcome_ite {r : keyrecord_t} {c : Prop} [Decidable c] {a b : Tapping}
    (ha : c → Outcome cfg keyp s r (true, a)) (hb : ¬ c → Outcome cfg keyp s r (true, b)) :
    Outcome cfg keyp s r (true, if c then a else b) := by
  split
  · exact ha ‹_›
  · exact hb ‹_›

theorem outcome_start {r : keyrecord_t} (he : IS_EVENT r.event = true) (hu : s.unsettled = false)
    (hp : r.event.pressed = true) (ht : is_tap_record cfg r s = true) :
    Outcome cfg keyp s r (true, waiting_buffer_scan_tap cfg { s with tapping_key := r }) := by
  have hstart : s.turn [] r = { s with tapping_key := r } := by simp [Tapping.turn]
  exact hstart ▸ .start [] he hu hp ht (by simp [EndsMulti, records])

include hd in
theorem process_none_outcome (hn : IS_NOEVENT s.tapping_key.event = true) :
    Outcome cfg keyp s (s.read keyp) (true, process_none cfg keyp s) := by
  have hu := settled_of_none hn
  unfold process_none
  simp only [hd.flow, Bool.false_and, Bool.false_eq_true, if_false]
  split
  · rename_i he
    exact .tick he
  rename_i he
  have he := isEvent_iff.mpr (Bool.eq_false_iff.mpr he)
  split
  · rename_i hp
    simp only [Bool.and_eq_true] at hp
    unfold process_record_tap_hint
    split
    · exact .start [.process_record_tap_hint _] he hu hp.1 hp.2 (by simp [EndsMulti, records,
        Call.record?])
    · exact outcome_start he hu hp.1 hp.2
  · rw [process_record_eq hd he]
    rename_i hplain
    refine .hand _ he hu (.inl rfl) (fun h => by simp [isEvent_iff, hn] at h) fun hp => ?_
    simpa [hp] using hplain

include hd in
theorem process_settled_outcome (after_term : Bool) (he : IS_EVENT (s.read keyp).event = true)
    (hn : IS_NOEVENT s.tapping_key.event = false) (hp : s.tapping_key.event.pressed = true)
    (hc : s.tapping_key.tap.count ≠ 0) :
    Outcome cfg keyp s (s.read keyp) (true, process_settled cfg after_term keyp s) := by
  have hu := settled_of_count hc
  have ht := isEvent_iff.mpr hn
  unfold process_settled
  refine outcome_ite (fun htap => ?_) fun hother => outcome_ite (fun htap => ?_) fun hplain => ?_
  · simp only [IS_TAPPING_RECORD, Bool.and_eq_true, decide_eq_true_eq, Bool.not_eq_true'] at htap
    dsimp only
    rw [process_record_eq hd (by exact he)]
    refine outcome_ite (fun _ => ?_) fun _ => ?_
    · exact .tap_release .zero he ht hp hc htap.1 htap.2 rfl
    · exact .tap_release _ he ht hp hc htap.1 htap.2 htap.2
  · simp only [Bool.and_eq_true] at htap
    split
    · rename_i hmulti
      rw [process_record_eq hd (by exact ht)]
      refine .start [.process_record (multi_tap_release (s.read keyp).event.time s.tapping_key)
        s.tapping_key false] he hu htap.2 htap.1 ?_
      intro record hr
      simp only [records_process_record, List.mem_singleton] at hr
      exact ⟨ht, hp, hmulti, hr⟩
    · exact outcome_start he hu htap.2 htap.1
  · rw [process_record_eq hd he]
    refine .hand _ he hu (.inl rfl) (fun _ _ hkey => ?_) fun hpressed => ?_
    · simpa [IS_TAPPING_RECORD, hkey] using hother
    · simpa [hpressed] using hplain

include hd in
theorem process_released_outcome (he : IS_EVENT (s.read keyp).event = true)
    (hn : IS_NOEVENT s.tapping_key.event = false) (hp : s.tapping_key.event.pressed = false)
    (hw : WITHIN_TAPPING_TERM cfg (s.read keyp).event s = true) :
    Outcome cfg keyp s (s.read keyp) (true, process_released cfg keyp s) := by
  have hu := settled_of_released hp
  have hdown : IS_EVENT s.tapping_key.event = true → s.tapping_key.event.pressed = true →
      s.tapping_key.event.key = (s.read keyp).event.key → (s.read keyp).event.pressed = true := by
    intro _ h
    simp [hp] at h
  unfold process_released
  simp only [hd.flow, Bool.false_and, Bool.false_eq_true, if_false]
  split
  swap
  · rename_i hreleased
    rw [process_record_eq hd he]
    exact .hand _ he hu (.inl rfl) hdown fun hpressed => absurd hpressed hreleased
  rename_i hpressed
  split
  · rename_i hkey
    have hkey : s.tapping_key.event.key = (s.read keyp).event.key := by
      simpa [IS_TAPPING_RECORD] using hkey
    split
    · rename_i hseq
      simp only [Bool.and_eq_true, decide_eq_true_eq] at hseq
      rw [process_record_eq hd (by exact he)]
      exact .sequential _ he hpressed hp hkey (by split <;> omega)
    · rename_i hsingle
      refine .again he hpressed (isEvent_iff.mpr hn) hp hkey hw fun hcontinues => hsingle ?_
      simpa [ContinuesTap, and_assoc] using hcontinues
  split
  · rename_i htap
    exact outcome_start he hu hpressed htap
  · rw [process_record_eq hd he]
    rename_i hplain
    exact .hand (s.tapping_key.setInterrupted true) he hu (.inr rfl) hdown
      fun _ => Bool.eq_false_iff.mpr hplain

include hd in
theorem hold_outcome {t : keyrecord_t} (hu : s.unsettled = true) (hm : Marks s.tapping_key t)
    (why : WITHIN_TAPPING_TERM cfg (s.read keyp).event s = false ∨
      (IS_EVENT (s.read keyp).event = true ∧ s.tapping_key.event.key ≠ (s.read keyp).event.key ∧
        (s.read keyp).event.pressed = false ∧ waiting_buffer_typed (s.read keyp).event s = true ∧
        WITHIN_TAPPING_TERM cfg (s.read keyp).event s = true ∧ cfg.PERMISSIVE_HOLD = true) ∨
      cfg.HOLD_ON_OTHER_KEY_PRESS = true) :
    Outcome cfg keyp s (s.read keyp)
      (false, reset (process_tapping_key cfg { s with tapping_key := t })) := by
  have he : IS_EVENT t.event = true := by
    rcases hm with rfl | rfl <;> exact (of_unsettled hu).1
  unfold process_tapping_key
  rw [process_record_eq hd (by exact he)]
  exact .hold t hu hm why

include hd in
theorem process_unsettled_outcome (he : IS_EVENT (s.read keyp).event = true)
    (hu : s.unsettled = true) (hw : WITHIN_TAPPING_TERM cfg (s.read keyp).event s = true) :
    Outcome cfg keyp s (s.read keyp) (process_unsettled cfg keyp s) := by
  unfold process_unsettled
  simp only [chord_is_tap, hd.chordal, Bool.false_and, Bool.and_false, Bool.false_eq_true, if_false]
  split
  · rename_i htap
    simp only [IS_TAPPING_RECORD, Bool.and_eq_true, decide_eq_true_eq, Bool.not_eq_true'] at htap
    obtain ⟨ht, -, -⟩ := of_unsettled hu
    unfold first_tap count_first_tap process_tapping_key
    simp only [hd.flow, Bool.false_eq_true, if_false]
    rw [process_record_eq hd (by exact ht)]
    exact .first_tap he hu hw htap.1 htap.2
  rename_i htap
  have hother : s.tapping_key.event.key = (s.read keyp).event.key →
      (s.read keyp).event.pressed = true := by
    intro hkey
    simpa [IS_TAPPING_RECORD, hkey] using htap
  have hstay : Outcome cfg keyp s (s.read keyp) (false, s) :=
    .wait s.tapping_key he hu hw hother (.inl rfl)
  split
  · rename_i htyped
    simp only [Bool.and_eq_true, Bool.not_eq_true'] at htyped
    have htyping : interfered_by_typing cfg (s.read keyp).event.key s =
        reset (process_tapping_key cfg s) := by
      simp [interfered_by_typing, hd.chordal]
    rw [htyping]
    refine hold_outcome hd hu (.inl rfl) (.inr (.inl ⟨he, fun hkey => ?_, htyped.1.1, htyped.1.2,
      hw, htyped.2⟩))
    simp [hother hkey] at htyped
  split
  · rename_i hp
    simp only [Bool.and_eq_true, Bool.not_eq_true'] at hp
    split
    · exact hstay
    · rw [process_record_eq hd he]
      refine .pass he hu (fun hkey => ?_) hp.1 hp.2
      simp [hother hkey] at hp
  · split
    · rename_i hpressed
      unfold interrupt settle_interrupted
      simp only [chord_is_tap, hd.chordal, Bool.false_and, Bool.false_eq_true, if_false]
      split
      · rename_i hpress
        have hholds : interfered_by_press cfg
            { s with tapping_key := s.tapping_key.setInterrupted true } = reset (process_tapping_key
              cfg { s with tapping_key := s.tapping_key.setInterrupted true }) := by
          simp [interfered_by_press, hd.chordal]
        rw [hholds]
        exact hold_outcome hd hu (.inr rfl) (.inr (.inr hpress))
      · exact .wait _ he hu hw hother (.inr rfl)
    · exact hstay

variable (cfg keyp s) in
include hd in
theorem process_tapping_outcome :
    Outcome cfg keyp s (s.read keyp) (process_tapping cfg keyp s) := by
  unfold process_tapping
  simp only [take_registered_tap_eq hd]
  split
  · rename_i hn
    exact process_none_outcome hd hn
  rename_i hn
  have hn := Bool.eq_false_iff.mpr hn
  split
  · rename_i hp
    split
    · rename_i hw
      split
      · rename_i he
        exact .tick he
      rename_i he
      have he := isEvent_iff.mpr (Bool.eq_false_iff.mpr he)
      split
      · rename_i hc
        exact process_unsettled_outcome hd he (unsettled_of hn hp hc) hw
      · rename_i hc
        exact process_settled_outcome hd false he hn hp hc
    · rename_i hw
      split
      · rename_i hc
        exact hold_outcome hd (unsettled_of hn hp hc) (.inl rfl) (.inl (Bool.eq_false_iff.mpr hw))
      rename_i hc
      split
      · rename_i he
        exact .tick he
      · rename_i he
        exact process_settled_outcome hd true (isEvent_iff.mpr (Bool.eq_false_iff.mpr he)) hn hp hc
  · rename_i hp
    have hp := Bool.eq_false_iff.mpr hp
    split
    · rename_i hw
      split
      · rename_i he
        exact .tick he
      · rename_i he
        exact process_released_outcome hd (isEvent_iff.mpr (Bool.eq_false_iff.mpr he)) hn hp hw
    · exact .forget hp

/-! ## The scan -/

include hd in
/-- The scan settles the tapping key as a tap by its first release within the term, or leaves
the state as it is. -/
theorem scan_cases (hu : s.unsettled = true) :
    (waiting_buffer_scan_tap cfg s = s ∧ ∀ q ∈ s.waiting_buffer, is_tap_candidate cfg s q = false) ∨
    ∃ before q after, s.waiting_buffer = before ++ q :: after ∧ is_tap_candidate cfg s q = true ∧
      (∀ q ∈ before, is_tap_candidate cfg s q = false) ∧
      waiting_buffer_scan_tap cfg s =
        { s.turn [.process_record (s.tapping_key.setCount 1) (s.tapping_key.setCount 1) false]
            (s.tapping_key.setCount 1) with
          waiting_buffer := before ++ q.setCount 1 :: after } := by
  obtain ⟨hevent, hpressed, hcount⟩ := of_unsettled hu
  unfold waiting_buffer_scan_tap
  rw [if_neg (by simp [hcount, hpressed])]
  rcases hfind : s.waiting_buffer.findIdx? (is_tap_candidate cfg s) with _ | i
  · exact .inl ⟨rfl, by simpa using List.findIdx?_eq_none_iff.mp hfind⟩
  · obtain ⟨hlt, hcand, hbefore⟩ := List.findIdx?_eq_some_iff_getElem.mp hfind
    obtain ⟨before, q, after, hsplit, hlen, hmod⟩ :=
      List.exists_of_modify (keyrecord_t.setCount 1) hlt
    refine .inr ⟨before, q, after, hsplit, by simpa [hsplit, ← hlen] using hcand, ?_, ?_⟩
    · intro q' hq
      obtain ⟨j, hj, rfl⟩ := List.getElem_of_mem hq
      have := hbefore j (hlen ▸ hj)
      simpa [hsplit, List.getElem_append_left hj] using this
    · simp only [process_tapping_key, hmod]
      rw [process_record_eq hd (by exact hevent)]
      rfl

end

/-! ## Runs, turn by turn -/

def Slot.line : Slot → Tapping → List keyrecord_t
  | .record, s => s.waiting_buffer ++ if IS_NOEVENT s.record.event then [] else [s.record]
  | .tail, s => s.waiting_buffer

/-- The records on the line after `keyp` was consumed. -/
def Slot.rest : Slot → Tapping → List keyrecord_t
  | .record, s => s.waiting_buffer
  | .tail, s => s.waiting_buffer.tail

theorem record_holds (s : Tapping) : Slot.record.Holds s := fun h => absurd h (by decide)

/-- The state after a call of `process_tapping`: what is not consumed joins the buffer or
stays in it. -/
def Slot.after : Slot → Bool × Tapping → Option Tapping
  | .record, (true, s) => some s
  | .record, (false, s) => waiting_buffer_enq s.record s
  | .tail, (true, s) => some (popTail s)
  | .tail, (false, s) => some s

section

variable (cfg : Config) (P : Slot → Tapping → Prop)

def LoopTurns : Nat → Tapping → Prop
  | 0, _ => True
  | turns + 1, s => s.waiting_buffer = [] ∨ P .tail s ∧
      ((process_tapping cfg .tail s).1 = true →
        LoopTurns turns (popTail (process_tapping cfg .tail s).2))

/-- Each call of `process_tapping` for the event starts in a state of `P`. -/
def EveryTurn (s : Tapping) (event : keyevent_t) : Prop :=
  P .record (s.given event) ∧
    LoopTurns cfg P (process_arrival cfg (.ofEvent event) s).waiting_buffer.length
      (process_arrival cfg (.ofEvent event) s)

instance LoopTurns.decidable [∀ keyp s, Decidable (P keyp s)] :
    ∀ turns s, Decidable (LoopTurns cfg P turns s)
  | 0, _ => .isTrue trivial
  | turns + 1, s =>
    have := LoopTurns.decidable turns (popTail (process_tapping cfg .tail s).2)
    inferInstanceAs (Decidable (_ ∨ _ ∧ (_ → _)))

instance [∀ keyp s, Decidable (P keyp s)] (s : Tapping) (event : keyevent_t) :
    Decidable (EveryTurn cfg P s event) :=
  inferInstanceAs (Decidable (_ ∧ _))

end

section

variable {cfg : Config} {P : Slot → Tapping → Prop} {I J : Tapping → Prop} {s s' : Tapping}
  {keyp : Slot}

theorem loop_keeps
    (turn : ∀ s s', J s → s.waiting_buffer ≠ [] → P .tail s →
      Slot.tail.after (process_tapping cfg .tail s) = some s' → J s')
    (turns : Nat) (hP : LoopTurns cfg P turns s) (hJ : J s) :
    J (process_waiting_buffer cfg turns s) := by
  induction turns generalizing s with
  | zero => exact hJ
  | succ turns ih =>
    unfold process_waiting_buffer
    split
    · exact hJ
    rename_i hne
    obtain ⟨hp, hrest⟩ := hP.resolve_left hne
    have hturn := turn s
    rcases h : process_tapping cfg .tail s with ⟨_ | _, s'⟩
    · exact hturn s' hJ hne hp (by rw [h]; rfl)
    · rw [h] at hrest
      exact ih (hrest rfl) (hturn (popTail s') hJ hne hp (by rw [h]; rfl))

theorem step_keeps (hd : cfg.Default) {e : keyevent_t} (hno : ¬ Overflows cfg s e)
    (hP : EveryTurn cfg P s e)
    (arrive : ∀ s', P .record (s.given e) →
      Slot.record.after (process_tapping cfg .record (s.given e)) = some s' → J s')
    (turn : ∀ s s', J s → s.waiting_buffer ≠ [] → P .tail s →
      Slot.tail.after (process_tapping cfg .tail s) = some s' → J s') :
    J (step cfg s e) := by
  have hstep : step cfg s e = process_waiting_buffer cfg
      (process_arrival cfg (.ofEvent e) s).waiting_buffer.length
      (process_arrival cfg (.ofEvent e) s) := by
    simp [step, action_tapping_process, hd.flow]
  rw [hstep]
  refine loop_keeps turn _ hP.2 ?_
  rw [process_arrival_eq]
  rcases h : process_tapping cfg .record (s.given e) with ⟨_ | _, s'⟩
  · rcases henq : waiting_buffer_enq s'.record s' with _ | s''
    · exact absurd (by simp [Overflows, h, henq]) hno
    · simp only [henq, Option.getD_some]
      exact arrive s'' hP.1 (by rw [h]; exact henq)
  · exact arrive s' hP.1 (by rw [h]; rfl)

theorem after_eq {out : Bool × Tapping} (h : keyp.after out = some s') :
    s'.calls = out.2.calls ∧ s'.tapping_key = out.2.tapping_key ∧
      s'.waiting_buffer = if out.1 then keyp.rest out.2 else keyp.line out.2 := by
  obtain ⟨_ | _, t⟩ := out
  · cases keyp with
    | tail =>
      obtain rfl : t = s' := by simpa [Slot.after] using h
      exact ⟨rfl, rfl, rfl⟩
    | record =>
      simp only [Slot.after, waiting_buffer_enq] at h
      split at h
      · rename_i he
        obtain rfl : t = s' := by simpa using h
        exact ⟨rfl, rfl, by simp [Slot.line, he]⟩
      split at h
      · cases h
      rename_i he _
      obtain rfl : { t with waiting_buffer := t.waiting_buffer ++ [t.record] } = s' := by
        simpa using h
      exact ⟨rfl, rfl, by simp [Slot.line, he]⟩
  · cases keyp <;> obtain rfl := Option.some.inj h <;> exact ⟨rfl, rfl, rfl⟩

theorem good_after (hd : cfg.Default) (hg : s.Good) (hk : keyp.Holds s)
    (h : keyp.after (process_tapping cfg keyp s) = some s') : s'.Good := by
  obtain ⟨hgood, -, -, -, -⟩ := process_tapping_turn hd keyp hg hk
  rcases hout : process_tapping cfg keyp s with ⟨_ | _, t⟩
  all_goals rw [hout] at h hgood
  · cases keyp with
    | tail => exact Option.some.inj h ▸ hgood
    | record =>
      simp only [Slot.after, waiting_buffer_enq] at h
      split at h
      · exact Option.some.inj h ▸ hgood
      split at h
      · cases h
      rename_i he _
      have he := isEvent_iff.mpr (Bool.eq_false_iff.mpr he)
      obtain rfl := Option.some.inj h
      refine ⟨hgood.pending, ?_, hgood.record⟩
      simp only [List.forall_mem_append, List.forall_mem_singleton]
      exact ⟨hgood.buffer, he, hgood.record he⟩
  · cases keyp with
    | record => exact Option.some.inj h ▸ hgood
    | tail =>
      obtain rfl := Option.some.inj h
      exact ⟨hgood.pending, fun r hr => hgood.buffer r (List.mem_of_mem_tail hr), hgood.record⟩

end

/-! ## The records of one key -/

def recordsOf (key : keypos_t) (rs : List keyrecord_t) : List keyrecord_t :=
  rs.filter (·.event.key = key)

section

variable {key : keypos_t} {rs : List keyrecord_t} {s : Tapping} {keyp : Slot}

@[simp] theorem recordsOf_append (xs ys : List keyrecord_t) :
    recordsOf key (xs ++ ys) = recordsOf key xs ++ recordsOf key ys := List.filter_append ..

theorem recordsOf_cons_self {r : keyrecord_t} (h : r.event.key = key) :
    recordsOf key (r :: rs) = r :: recordsOf key rs := by
  simp [recordsOf, h]

theorem recordsOf_cons_other {r : keyrecord_t} (h : r.event.key ≠ key) :
    recordsOf key (r :: rs) = recordsOf key rs := by
  simp [recordsOf, h]

theorem recordsOf_eq_nil : recordsOf key rs = [] ↔ ∀ r ∈ rs, r.event.key ≠ key := by
  simp [recordsOf]

theorem line_of_other (hk : keyp.Holds s) (h : (s.read keyp).event.key ≠ key) :
    recordsOf key (keyp.line s) = recordsOf key (keyp.rest s) := by
  cases keyp with
  | record =>
    simp only [Slot.line, Slot.rest]
    split
    · simp
    · have hother : recordsOf key [s.record] = [] := recordsOf_eq_nil.mpr fun r hr => by
        rw [List.mem_singleton.mp hr]
        exact h
      simp [hother]
  | tail =>
    obtain ⟨r, rest, hb⟩ := List.exists_cons_of_ne_nil (hk rfl)
    simp only [Tapping.read, hb, List.headD_cons] at h
    simp [Slot.line, Slot.rest, hb, recordsOf_cons_other h]

theorem line_of_first (hk : keyp.Holds s) (he : IS_EVENT (s.read keyp).event = true)
    (h : (s.read keyp).event.key = key)
    (hfirst : keyp = .record → ∀ q ∈ s.waiting_buffer, q.event.key ≠ key) :
    recordsOf key (keyp.line s) = s.read keyp :: recordsOf key (keyp.rest s) := by
  cases keyp with
  | record =>
    have he : IS_NOEVENT s.record.event = false := isEvent_iff.mp he
    have hnil := recordsOf_eq_nil.mpr (hfirst rfl)
    simp only [Slot.line, Slot.rest, he, recordsOf_append, hnil]
    exact recordsOf_cons_self h
  | tail =>
    obtain ⟨r, rest, hb⟩ := List.exists_cons_of_ne_nil (hk rfl)
    simp only [Tapping.read, hb, List.headD_cons] at h
    simp [Slot.line, Slot.rest, Tapping.read, hb, recordsOf_cons_self h]

end

end keychron_qmk.action_tapping
