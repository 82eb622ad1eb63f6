-- Dynamic macros, after `process_dynamic_macro.c`: two macros in one buffer,
-- recorded from its two ends. A macro is played record by record, and between two
-- records anything may be processed. A pointer is the distance from the start of
-- the buffer.
import KeychronQMK.Tapping.Funs
import KeychronQMK.Lib.Runs

namespace keychron_qmk.dynamic_macro

open action_tapping (keyrecord_t)

def QK_DYNAMIC_MACRO_RECORD_START_1 : UInt16 := 0x7C53

def QK_DYNAMIC_MACRO_RECORD_START_2 : UInt16 := 0x7C54

def QK_DYNAMIC_MACRO_RECORD_STOP : UInt16 := 0x7C55

def QK_DYNAMIC_MACRO_PLAY_1 : UInt16 := 0x7C56

def QK_DYNAMIC_MACRO_PLAY_2 : UInt16 := 0x7C57

structure Config where
  DYNAMIC_MACRO_SIZE : Nat
  DYNAMIC_MACRO_NO_NESTING : Bool

/-- A call of `dynamic_macro_play` that processes a record. -/
structure Playback where
  macro_buffer : Int
  macro_end : Int
  direction : Int
  deriving DecidableEq

/-- The static variables, and the calls of `dynamic_macro_play` that have not
returned, the last one first. The records that they passed on and the places that
were read or written are ghosts. -/
structure State where
  macro_buffer : Int → keyrecord_t
  macro_end : Int
  r_macro_end : Int
  macro_pointer : Int
  macro_id : UInt8
  playing : List Playback
  processed : List keyrecord_t
  accesses : List Int

def r_macro_buffer (cfg : Config) : Int := cfg.DYNAMIC_MACRO_SIZE - 1

/-- No function reads `macro_pointer` before it is set. -/
def State.boot (cfg : Config) : State :=
  ⟨fun _ => .zero, 0, r_macro_buffer cfg, 0, 0, [], [], []⟩

section

variable (cfg : Config) (s : State)

def State.access (p : Int) : State := { s with accesses := s.accesses ++ [p] }

def State.write (p : Int) (record : keyrecord_t) : State :=
  { s.access p with macro_buffer := Function.update s.macro_buffer p record }

/-! ## Recording -/

def dynamic_macro_record_start (macro_buffer : Int) : State :=
  { s with macro_pointer := macro_buffer }

def dynamic_macro_record_key (macro_buffer macro2_end : Int) (direction : Int)
    (record : keyrecord_t) : State :=
  if !record.event.pressed ∧ s.macro_pointer = macro_buffer then s
  else if s.macro_pointer - direction ≠ macro2_end then
    { s.write s.macro_pointer record with macro_pointer := s.macro_pointer + direction }
  else s

/-- The loop of `dynamic_macro_record_end`, for so many turns at most. -/
def trim (macro_buffer : Int) (direction : Int) : Nat → Int → State → Int × State
  | 0, macro_pointer, s => (macro_pointer, s)
  | turns + 1, macro_pointer, s =>
    if macro_pointer = macro_buffer then (macro_pointer, s)
    else
      let s := s.access (macro_pointer - direction)
      if (s.macro_buffer (macro_pointer - direction)).event.pressed then
        trim macro_buffer direction turns (macro_pointer - direction) s
      else (macro_pointer, s)

def dynamic_macro_record_end (macro_buffer macro_pointer : Int) (direction : Int) :
    Int × State :=
  trim macro_buffer direction (macro_pointer - macro_buffer).natAbs macro_pointer s

def dynamic_macro_stop_recording : State :=
  let s :=
    if s.macro_id = 1 then
      let (macro_end, s) := dynamic_macro_record_end s 0 s.macro_pointer 1
      { s with macro_end }
    else if s.macro_id = 2 then
      let (r_macro_end, s) := dynamic_macro_record_end s (r_macro_buffer cfg) s.macro_pointer (-1)
      { s with r_macro_end }
    else s
  { s with macro_id := 0 }

/-! ## Playing -/

def play_record (p : Playback) : State :=
  if p.macro_buffer ≠ p.macro_end then
    { s.access p.macro_buffer with
      playing := p :: s.playing, processed := s.processed ++ [s.macro_buffer p.macro_buffer] }
  else s

def dynamic_macro_play (macro_buffer macro_end : Int) (direction : Int) : State :=
  play_record s ⟨macro_buffer, macro_end, direction⟩

/-- `process_record` returns, and has left a record in the place of the one that
it was given. `process_action` clears `pressed` there when it ends a one-shot layer. -/
def process_record_returns (left : keyrecord_t) : State :=
  match s.playing with
  | [] => s
  | p :: playing =>
    play_record { s.write p.macro_buffer left with playing }
      { p with macro_buffer := p.macro_buffer + p.direction }

/-! ## Keys -/

def stops (keycode : UInt16) : Prop :=
  keycode = QK_DYNAMIC_MACRO_RECORD_START_1 ∨ keycode = QK_DYNAMIC_MACRO_RECORD_START_2 ∨
    keycode = QK_DYNAMIC_MACRO_RECORD_STOP

instance (keycode : UInt16) : Decidable (stops keycode) := inferInstanceAs (Decidable (_ ∨ _))

def process_dynamic_macro (keycode : UInt16) (record : keyrecord_t) (valid_key : Bool) :
    Bool × State :=
  if s.macro_id = 0 then
    if !record.event.pressed then
      if keycode = QK_DYNAMIC_MACRO_RECORD_START_1 then
        (false, { dynamic_macro_record_start s 0 with macro_id := 1 })
      else if keycode = QK_DYNAMIC_MACRO_RECORD_START_2 then
        (false, { dynamic_macro_record_start s (r_macro_buffer cfg) with macro_id := 2 })
      else if keycode = QK_DYNAMIC_MACRO_PLAY_1 then
        (false, dynamic_macro_play s 0 s.macro_end 1)
      else if keycode = QK_DYNAMIC_MACRO_PLAY_2 then
        (false, dynamic_macro_play s (r_macro_buffer cfg) s.r_macro_end (-1))
      else (true, s)
    else (true, s)
  else if stops keycode then
    -- the release of the key that started the recording comes first
    if record.event.pressed ^^ decide (keycode ≠ QK_DYNAMIC_MACRO_RECORD_STOP) then
      (false, dynamic_macro_stop_recording cfg s)
    else (false, s)
  else if cfg.DYNAMIC_MACRO_NO_NESTING ∧
      (keycode = QK_DYNAMIC_MACRO_PLAY_1 ∨ keycode = QK_DYNAMIC_MACRO_PLAY_2) then
    (false, s)
  else if valid_key then
    if s.macro_id = 1 then (true, dynamic_macro_record_key s 0 s.r_macro_end 1 record)
    else if s.macro_id = 2 then
      (true, dynamic_macro_record_key s (r_macro_buffer cfg) s.macro_end (-1) record)
    else (true, s)
  else (true, s)

/-! ## Runs -/

inductive Event
  | record_event (keycode : UInt16) (record : keyrecord_t) (valid_key : Bool)
  | dynamic_macro_stop_recording
  | process_record_returns (left : keyrecord_t)

def step (e : Event) : State :=
  match e with
  | .record_event keycode record valid_key =>
    ( process_dynamic_macro cfg s keycode record valid_key).2
  | .dynamic_macro_stop_recording => dynamic_macro_stop_recording cfg s
  | .process_record_returns left => process_record_returns s left

end

/-! ## The two macros -/

inductive Macro
  | one
  | two
  deriving DecidableEq

def Macro.other : Macro → Macro
  | one => two
  | two => one

def Macro.id : Macro → UInt8
  | one => 1
  | two => 2

def Macro.direction : Macro → Int
  | one => 1
  | two => -1

section

variable (cfg : Config)

def Macro.buffer : Macro → Int
  | one => 0
  | two => r_macro_buffer cfg

def Macro.at (m : Macro) (k : Nat) : Int := m.buffer cfg + m.direction * k

def State.endOf (s : State) : Macro → Int
  | .one => s.macro_end
  | .two => s.r_macro_end

def State.Belongs (s : State) (m : Macro) (p : Int) : Prop :=
  match m with
  | .one => 0 ≤ p ∧ p < s.macro_end
  | .two => s.r_macro_end < p ∧ p ≤ r_macro_buffer cfg

def Inside (p : Int) : Prop := 0 ≤ p ∧ p < cfg.DYNAMIC_MACRO_SIZE

def Playback.Inside (p : Playback) : Prop :=
  (p.direction = 1 ∧ 0 ≤ p.macro_buffer ∧ p.macro_buffer < p.macro_end ∧
    p.macro_end ≤ cfg.DYNAMIC_MACRO_SIZE) ∨
  (p.direction = -1 ∧ -1 ≤ p.macro_end ∧ p.macro_end < p.macro_buffer ∧
    p.macro_buffer < cfg.DYNAMIC_MACRO_SIZE)

/-- The macros do not meet, and a recording stays before the other macro. -/
structure Apart (s : State) : Prop where
  one : 0 ≤ s.macro_end
  between : s.macro_end ≤ s.r_macro_end + 1
  two : s.r_macro_end < cfg.DYNAMIC_MACRO_SIZE
  id : s.macro_id = 0 ∨ s.macro_id = 1 ∨ s.macro_id = 2
  pointer_one : s.macro_id = 1 → 0 ≤ s.macro_pointer ∧ s.macro_pointer ≤ s.r_macro_end + 1
  pointer_two : s.macro_id = 2 →
    s.macro_end - 1 ≤ s.macro_pointer ∧ s.macro_pointer < cfg.DYNAMIC_MACRO_SIZE
  playing : ∀ p ∈ s.playing, p.Inside cfg
  accesses : ∀ p ∈ s.accesses, Inside cfg p

/-! ## What a key asks for -/

def State.recording (s : State) : Option Macro :=
  if s.macro_id = 1 then some .one else if s.macro_id = 2 then some .two else none

inductive Request
  | nothing
  | start (m : Macro)
  | play (m : Macro)
  | stop
  | record (m : Macro)

def request (recording : Option Macro) (keycode : UInt16) (record : keyrecord_t)
    (valid_key : Bool) : Request :=
  match recording with
  | none =>
    if record.event.pressed then .nothing
    else if keycode = QK_DYNAMIC_MACRO_RECORD_START_1 then .start .one
    else if keycode = QK_DYNAMIC_MACRO_RECORD_START_2 then .start .two
    else if keycode = QK_DYNAMIC_MACRO_PLAY_1 then .play .one
    else if keycode = QK_DYNAMIC_MACRO_PLAY_2 then .play .two
    else .nothing
  | some m =>
    if stops keycode then
      if record.event.pressed = decide (keycode = QK_DYNAMIC_MACRO_RECORD_STOP) then .stop
      else .nothing
    else if cfg.DYNAMIC_MACRO_NO_NESTING ∧
        (keycode = QK_DYNAMIC_MACRO_PLAY_1 ∨ keycode = QK_DYNAMIC_MACRO_PLAY_2) then .nothing
    else if valid_key then .record m
    else .nothing

def State.serve (s : State) (record : keyrecord_t) : Request → State
  | .nothing => s
  | .start m => { s with macro_pointer := m.buffer cfg, macro_id := m.id }
  | .play m => dynamic_macro_play s (m.buffer cfg) (s.endOf m) m.direction
  | .stop => dynamic_macro_stop_recording cfg s
  | .record m => dynamic_macro_record_key s (m.buffer cfg) (s.endOf m.other) m.direction record

def State.setEnd (s : State) (p : Int) : Macro → State
  | .one => { s with macro_end := p }
  | .two => { s with r_macro_end := p }

variable {cfg} {s : State}

variable {m : Macro}

theorem recording_of_id (h : s.macro_id = m.id) : s.recording = some m := by
  unfold State.recording
  rw [h]
  cases m <;> rfl

theorem id_of_recording (h : s.recording = some m) : s.macro_id = m.id := by
  unfold State.recording at h
  split_ifs at h with hone htwo
  · rw [← Option.some.inj h]
    exact hone
  · rw [← Option.some.inj h]
    exact htwo

theorem id_of_idle (hid : s.macro_id = 0 ∨ s.macro_id = 1 ∨ s.macro_id = 2)
    (h : s.recording = none) : s.macro_id = 0 := by
  rcases hid with hid | hid | hid
  · exact hid
  · rw [recording_of_id (m := .one) hid] at h
    cases h
  · rw [recording_of_id (m := .two) hid] at h
    cases h

theorem recording_of_request {recording : Option Macro} {keycode : UInt16} {record : keyrecord_t}
    {valid_key : Bool} (h : request cfg recording keycode record valid_key = .record m) :
    recording = some m := by
  unfold request at h
  cases recording with
  | none =>
    split_ifs at h
  | some m' =>
    dsimp only at h
    split_ifs at h
    rw [Request.record.inj h]

theorem process_eq (hid : s.macro_id = 0 ∨ s.macro_id = 1 ∨ s.macro_id = 2) (keycode : UInt16)
    (record : keyrecord_t) (valid_key : Bool) :
    ( process_dynamic_macro cfg s keycode record valid_key).2 =
      s.serve cfg record (request cfg s.recording keycode record valid_key) := by
  unfold process_dynamic_macro request
  cases hr : s.recording with
  | none =>
    rw [if_pos (id_of_idle hid hr)]
    cases record.event.pressed <;> dsimp only <;> split_ifs <;> first | rfl | contradiction
  | some m =>
    have hm := id_of_recording hr
    have hne : s.macro_id ≠ 0 := by
      rw [hm]
      cases m <;> decide
    rw [if_neg hne]
    dsimp only
    by_cases hstops : stops keycode
    · rw [if_pos hstops, if_pos hstops]
      have hedge : (record.event.pressed ^^ decide (keycode ≠ QK_DYNAMIC_MACRO_RECORD_STOP)) = true ↔
          record.event.pressed = decide (keycode = QK_DYNAMIC_MACRO_RECORD_STOP) := by
        cases record.event.pressed <;> by_cases hk : keycode = QK_DYNAMIC_MACRO_RECORD_STOP <;>
          simp [hk]
      by_cases hstop : record.event.pressed = decide (keycode = QK_DYNAMIC_MACRO_RECORD_STOP)
      · rw [if_pos (hedge.mpr hstop), if_pos hstop]
        rfl
      · rw [if_neg fun h => hstop (hedge.mp h), if_neg hstop]
        rfl
    · rw [if_neg hstops, if_neg hstops]
      split_ifs with hnesting hvalid hone htwo
      · rfl
      · rw [hone] at hm
        cases m with
        | one => rfl
        | two => exact absurd hm (by decide)
      · rw [htwo] at hm
        cases m with
        | one => exact absurd hm (by decide)
        | two => rfl
      · exact absurd hm (by cases m <;> assumption)
      · rfl

theorem stop_recording_of_id (h : s.macro_id = m.id) :
    dynamic_macro_stop_recording cfg s =
      { (dynamic_macro_record_end s (m.buffer cfg) s.macro_pointer m.direction).2.setEnd
          (dynamic_macro_record_end s (m.buffer cfg) s.macro_pointer m.direction).1 m with
        macro_id := 0 } := by
  unfold dynamic_macro_stop_recording
  rw [h]
  cases m <;> rfl

theorem stop_recording_of_idle (h : s.macro_id = 0) : dynamic_macro_stop_recording cfg s = s := by
  unfold dynamic_macro_stop_recording
  rw [h, if_neg (by decide), if_neg (by decide), ← h]

/-! ## Places -/

theorem at_succ (m : Macro) (k : Nat) : m.at cfg (k + 1) = m.at cfg k + m.direction := by
  unfold Macro.at
  push_cast
  ring

theorem at_zero (m : Macro) : m.at cfg 0 = m.buffer cfg := by
  unfold Macro.at
  ring

theorem at_inj (m : Macro) {j k : Nat} : m.at cfg j = m.at cfg k ↔ j = k := by
  unfold Macro.at
  cases m <;> simp only [Macro.direction, Macro.buffer] <;> omega

variable {k j : Nat}

theorem inside_at (m : Macro) (hk : k < cfg.DYNAMIC_MACRO_SIZE) : Inside cfg (m.at cfg k) := by
  unfold Inside Macro.at
  cases m <;> simp only [Macro.direction, Macro.buffer, r_macro_buffer] <;> omega

theorem at_ne_at (m : Macro) (h : j + k + 1 < cfg.DYNAMIC_MACRO_SIZE) :
    m.at cfg j ≠ m.other.at cfg k := by
  unfold Macro.at
  cases m <;> simp only [Macro.other, Macro.direction, Macro.buffer, r_macro_buffer] <;> omega

theorem natAbs_at (m : Macro) (k : Nat) : (m.at cfg k - m.buffer cfg).natAbs = k := by
  unfold Macro.at
  cases m <;> simp only [Macro.direction] <;> omega

/-- The end is trimmed to the last key-up. -/
theorem trim_spec (m : Macro) {k turns : Nat} (hk : k ≤ cfg.DYNAMIC_MACRO_SIZE)
    (hturns : k ≤ turns) (s : State) :
    ∃ j ≤ k, ∃ as, trim (m.buffer cfg) m.direction turns (m.at cfg k) s =
        (m.at cfg j, { s with accesses := s.accesses ++ as }) ∧
      (∀ p ∈ as, Inside cfg p) ∧
      (∀ i, j = i + 1 → (s.macro_buffer (m.at cfg i)).event.pressed = false) ∧
      ∀ i, j ≤ i → i < k → (s.macro_buffer (m.at cfg i)).event.pressed = true := by
  induction k generalizing turns s with
  | zero =>
    refine ⟨0, le_rfl, [], ?_, List.forall_mem_nil _, fun i hi => absurd hi (by omega),
      fun i _ hi => absurd hi (by omega)⟩
    rw [List.append_nil, at_zero]
    cases turns with
    | zero => rfl
    | succ turns => exact if_pos rfl
  | succ k ih =>
    obtain ⟨turns, rfl⟩ : ∃ n, turns = n + 1 := ⟨turns - 1, by omega⟩
    have hstep : m.at cfg (k + 1) - m.direction = m.at cfg k := by
      rw [at_succ, add_sub_cancel_right]
    unfold trim
    rw [if_neg (by rw [← at_zero, at_inj]; omega), hstep]
    dsimp only [State.access]
    split
    · rename_i hpressed
      obtain ⟨j, hj, as, heq, has, hlast, hafter⟩ := ih (by omega) (by omega : k ≤ turns)
        { s with accesses := s.accesses ++ [m.at cfg k] }
      refine ⟨j, by omega, m.at cfg k :: as, ?_, ?_, hlast, fun i hi hik => ?_⟩
      · rw [heq, List.append_assoc]
        rfl
      · exact List.forall_mem_cons.mpr ⟨inside_at m (by omega), has⟩
      · rcases Nat.lt_succ_iff_lt_or_eq.mp hik with hlt | rfl
        · exact hafter i hi hlt
        · exact hpressed
    · rename_i hpressed
      refine ⟨k + 1, le_rfl, [m.at cfg k], rfl, ?_, ?_, fun i hi hik => absurd hik (by omega)⟩
      · exact List.forall_mem_singleton.mpr (inside_at m (by omega))
      · rintro i hi
        rw [← Nat.succ.inj hi]
        exact Bool.eq_false_iff.mpr hpressed

/-! ## Safety -/

theorem Apart.pointer (h : Apart cfg s) (hm : s.recording = some m) :
    ∃ j k, s.macro_pointer = m.at cfg j ∧ s.endOf m.other = m.other.at cfg k ∧
      j + k ≤ cfg.DYNAMIC_MACRO_SIZE := by
  obtain ⟨hone, hbetween, htwo, -, hpointer, hpointer', -, -⟩ := h
  have hid := id_of_recording hm
  unfold Macro.at
  cases m with
  | one =>
    obtain ⟨hlow, hhigh⟩ := hpointer hid
    refine ⟨s.macro_pointer.toNat, (r_macro_buffer cfg - s.r_macro_end).toNat, ?_, ?_, ?_⟩ <;>
      simp only [Macro.other, Macro.direction, Macro.buffer, r_macro_buffer, State.endOf] <;> omega
  | two =>
    obtain ⟨hlow, hhigh⟩ := hpointer' hid
    refine ⟨(r_macro_buffer cfg - s.macro_pointer).toNat, s.macro_end.toNat, ?_, ?_, ?_⟩ <;>
      simp only [Macro.other, Macro.direction, Macro.buffer, r_macro_buffer, State.endOf] <;> omega

theorem Apart.of_play_record (h : Apart cfg s) {p : Playback}
    (hp : p.macro_buffer ≠ p.macro_end → p.Inside cfg) : Apart cfg (play_record s p) := by
  unfold play_record
  split
  · rename_i hne
    have hin := hp hne
    refine ⟨h.one, h.between, h.two, h.id, h.pointer_one, h.pointer_two,
      List.forall_mem_cons.mpr ⟨hin, h.playing⟩, ?_⟩
    refine List.forall_mem_append.mpr ⟨h.accesses, List.forall_mem_singleton.mpr ?_⟩
    unfold Inside
    unfold Playback.Inside at hin
    omega
  · exact h

theorem Apart.of_stop (h : Apart cfg s) : Apart cfg (dynamic_macro_stop_recording cfg s) := by
  cases hr : s.recording with
  | none => rwa [stop_recording_of_idle (id_of_idle h.id hr)]
  | some m =>
    obtain ⟨j, k, hj, hk, hjk⟩ := h.pointer hr
    obtain ⟨i, hij, as, heq, has, -, -⟩ :=
      @trim_spec cfg m _ _ (by omega : j ≤ cfg.DYNAMIC_MACRO_SIZE) le_rfl s
    rw [stop_recording_of_id (id_of_recording hr)]
    unfold dynamic_macro_record_end
    rw [hj, natAbs_at, heq]
    have hacc : ∀ p ∈ s.accesses ++ as, Inside cfg p :=
      List.forall_mem_append.mpr ⟨h.accesses, has⟩
    have hone := h.one
    have htwo := h.two
    unfold Macro.at at hk ⊢
    cases m with
    | one =>
      simp only [Macro.other, Macro.direction, Macro.buffer, r_macro_buffer, State.endOf] at hk ⊢
      exact ⟨by simp only [State.setEnd]; omega, by simp only [State.setEnd]; omega, htwo,
        .inl rfl, fun h => absurd h (by simp), fun h => absurd h (by simp), h.playing, hacc⟩
    | two =>
      simp only [Macro.other, Macro.direction, Macro.buffer, r_macro_buffer, State.endOf] at hk ⊢
      exact ⟨hone, by simp only [State.setEnd]; omega, by simp only [State.setEnd]; omega,
        .inl rfl, fun h => absurd h (by simp), fun h => absurd h (by simp), h.playing, hacc⟩

theorem record_key_eq (hj : s.macro_pointer = m.at cfg j) (hk : s.endOf m.other = m.other.at cfg k)
    (record : keyrecord_t) :
    dynamic_macro_record_key s (m.buffer cfg) (s.endOf m.other) m.direction record =
      if (record.event.pressed = false ∧ j = 0) ∨ j + k = cfg.DYNAMIC_MACRO_SIZE then s
      else { s.write (m.at cfg j) record with macro_pointer := m.at cfg (j + 1) } := by
  unfold dynamic_macro_record_key
  rw [hk, hj, ← at_succ]
  have hstart : m.at cfg j = m.buffer cfg ↔ j = 0 := by
    rw [← at_zero, at_inj]
  have hroom : m.at cfg j - m.direction ≠ m.other.at cfg k ↔ j + k ≠ cfg.DYNAMIC_MACRO_SIZE := by
    unfold Macro.at
    cases m <;> simp only [Macro.other, Macro.direction, Macro.buffer, r_macro_buffer] <;> omega
  simp only [hstart, hroom, Bool.not_eq_true']
  by_cases hleading : record.event.pressed = false ∧ j = 0
  · rw [if_pos hleading, if_pos (.inl hleading)]
  · rw [if_neg hleading]
    by_cases hfull : j + k = cfg.DYNAMIC_MACRO_SIZE
    · rw [if_neg (not_not.mpr hfull), if_pos (.inr hfull)]
    · rw [if_pos hfull, if_neg (not_or.mpr ⟨hleading, hfull⟩)]

theorem Apart.of_record (h : Apart cfg s) (hm : s.recording = some m) (record : keyrecord_t) :
    Apart cfg (s.serve cfg record (.record m)) := by
  obtain ⟨j, k, hj, hk, hjk⟩ := h.pointer hm
  unfold State.serve
  dsimp only
  rw [record_key_eq hj hk]
  split
  · exact h
  · rename_i hroom
    have hin : Inside cfg (m.at cfg j) := inside_at m (by omega)
    have hacc : ∀ p ∈ s.accesses ++ [m.at cfg j], Inside cfg p :=
      List.forall_mem_append.mpr ⟨h.accesses, List.forall_mem_singleton.mpr hin⟩
    have hid := id_of_recording hm
    unfold Macro.at at hk
    cases m with
    | one =>
      simp only [Macro.other, Macro.direction, Macro.buffer, r_macro_buffer, State.endOf] at hk
      refine ⟨h.one, h.between, h.two, h.id, fun _ => ?_, fun h => ?_, h.playing, hacc⟩
      · simp only [Macro.at, Macro.direction, Macro.buffer, State.write, State.access]
        omega
      · exact absurd (hid.symm.trans h) (by decide)
    | two =>
      simp only [Macro.other, Macro.direction, Macro.buffer, State.endOf] at hk
      refine ⟨h.one, h.between, h.two, h.id, fun h => ?_, fun _ => ?_, h.playing, hacc⟩
      · exact absurd (hid.symm.trans h) (by decide)
      · simp only [Macro.at, Macro.direction, Macro.buffer, r_macro_buffer, State.write,
          State.access]
        omega

theorem Apart.of_serve (h : Apart cfg s) (keycode : UInt16) (record : keyrecord_t)
    (valid_key : Bool) :
    Apart cfg (s.serve cfg record (request cfg s.recording keycode record valid_key)) := by
  have hone := h.one
  have hbetween := h.between
  have htwo := h.two
  cases hr : request cfg s.recording keycode record valid_key with
  | nothing => exact h
  | start m =>
    cases m with
    | one =>
      exact ⟨hone, hbetween, htwo, .inr (.inl rfl), fun _ => ⟨le_rfl, hone.trans hbetween⟩,
        fun (h : (1 : UInt8) = 2) => absurd h (by decide), h.playing, h.accesses⟩
    | two =>
      have hend : s.macro_end - 1 ≤ r_macro_buffer cfg ∧
          r_macro_buffer cfg < cfg.DYNAMIC_MACRO_SIZE := by
        unfold r_macro_buffer
        omega
      exact ⟨hone, hbetween, htwo, .inr (.inr rfl),
        fun (h : (2 : UInt8) = 1) => absurd h (by decide), fun _ => hend, h.playing, h.accesses⟩
  | play m =>
    refine h.of_play_record fun hne => ?_
    cases m with
    | one =>
      have hend : (0 : Int) < s.macro_end ∧ s.macro_end ≤ cfg.DYNAMIC_MACRO_SIZE := by
        change (0 : Int) ≠ s.macro_end at hne
        omega
      exact .inl ⟨rfl, le_rfl, hend⟩
    | two =>
      have hend : -1 ≤ s.r_macro_end ∧ s.r_macro_end < r_macro_buffer cfg ∧
          r_macro_buffer cfg < cfg.DYNAMIC_MACRO_SIZE := by
        change r_macro_buffer cfg ≠ s.r_macro_end at hne
        unfold r_macro_buffer at hne ⊢
        omega
      exact .inr ⟨rfl, hend⟩
  | stop => exact h.of_stop
  | record m => exact h.of_record (recording_of_request hr) record

theorem Apart.of_returns (h : Apart cfg s) (left : keyrecord_t) :
    Apart cfg (process_record_returns s left) := by
  unfold process_record_returns
  split
  · exact h
  · rename_i p playing hplaying
    obtain ⟨hp, hrest⟩ := List.forall_mem_cons.mp (hplaying ▸ h.playing)
    unfold Playback.Inside at hp
    have hin : Inside cfg p.macro_buffer := by
      unfold Inside
      omega
    have hleft : Apart cfg { s.write p.macro_buffer left with playing := playing } :=
      ⟨h.one, h.between, h.two, h.id, h.pointer_one, h.pointer_two, hrest,
        List.forall_mem_append.mpr ⟨h.accesses, List.forall_mem_singleton.mpr hin⟩⟩
    refine hleft.of_play_record fun hne => ?_
    unfold Playback.Inside
    dsimp only at hne ⊢
    rcases hp with ⟨hd, hp⟩ | ⟨hd, hp⟩ <;> rw [hd] at hne ⊢ <;> omega

theorem Apart.step (h : Apart cfg s) (e : Event) : Apart cfg (step cfg s e) := by
  cases e with
  | record_event keycode record valid_key =>
    unfold dynamic_macro.step
    dsimp only
    rw [process_eq h.id]
    exact h.of_serve keycode record valid_key
  | dynamic_macro_stop_recording => exact h.of_stop
  | process_record_returns left => exact h.of_returns left

theorem Apart.boot : Apart cfg (State.boot cfg) := by
  refine ⟨le_rfl, ?_, ?_, .inl rfl, fun (h : (0 : UInt8) = 1) => absurd h (by decide),
    fun (h : (0 : UInt8) = 2) => absurd h (by decide), List.forall_mem_nil _,
    List.forall_mem_nil _⟩ <;>
  · simp only [State.boot, r_macro_buffer]
    omega

/-- In every run, with macros that play from within macros too, no access leaves the buffer and
the two macros do not meet. -/
theorem macros_stay_apart (events : List Event) :
    let s := events.foldl ( dynamic_macro.step cfg) (.boot cfg)
    (∀ p ∈ s.accesses, Inside cfg p) ∧ ∀ p, ¬ (s.Belongs cfg .one p ∧ s.Belongs cfg .two p) := by
  intro s
  have h : Apart cfg s := List.foldlRecOn events _ Apart.boot fun _ hs e _ => hs.step e
  refine ⟨h.accesses, ?_⟩
  rintro p ⟨⟨-, hone⟩, htwo, -⟩
  have hbetween := h.between
  omega

end

end keychron_qmk.dynamic_macro
