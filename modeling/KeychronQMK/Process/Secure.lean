-- The lock of the keyboard, after `secure.c` and `process_secure.c`: it opens
-- with a sequence of key presses, and locks again by request and by time.
import KeychronQMK.Lib.Runs
import Mathlib.Data.List.TakeDrop

namespace keychron_qmk.secure

open runs

/-! ## The lock -/

inductive secure_status_t
  | SECURE_LOCKED
  | SECURE_PENDING
  | SECURE_UNLOCKED
  deriving DecidableEq

def QK_SECURE_LOCK : UInt16 := 0x7C60

def QK_SECURE_UNLOCK : UInt16 := 0x7C61

def QK_SECURE_TOGGLE : UInt16 := 0x7C62

def QK_SECURE_REQUEST : UInt16 := 0x7C63

/-- A key of the matrix: its row and its column. -/
abbrev Key := UInt8 × UInt8

structure Config where
  SECURE_UNLOCK_SEQUENCE : List Key
  nonempty : SECURE_UNLOCK_SEQUENCE ≠ []
  SECURE_UNLOCK_TIMEOUT : UInt32
  SECURE_IDLE_TIMEOUT : UInt32

def Config.sequence_len (cfg : Config) : UInt8 := .ofNat cfg.SECURE_UNLOCK_SEQUENCE.length

/-- The static variables. `offset` is the one of `secure_keypress_event`. -/
structure Secure where
  secure_status : secure_status_t
  unlock_time : UInt32
  idle_time : UInt32
  offset : UInt8
  deriving DecidableEq

/-- An entry of a record into `process_record_quantum`, a call, or a turn of the
loop. -/
inductive Action
  | record (keycode : UInt16) (key : Key) (pressed : Bool)
  | secure_request_unlock
  | secure_lock
  | secure_activity_event
  | secure_task

/-- An action at a time, in milliseconds since the boot. -/
structure Event where
  now : Nat
  action : Action

namespace Secure

def boot : Secure := ⟨.SECURE_LOCKED, 0, 0, 0⟩

variable (cfg : Config) (now : UInt32) (s : Secure)

def secure_lock : Secure := { s with secure_status := .SECURE_LOCKED }

def secure_unlock : Secure := { s with secure_status := .SECURE_UNLOCKED, idle_time := now }

def secure_request_unlock : Secure :=
  if s.secure_status = .SECURE_LOCKED then
    { s with secure_status := .SECURE_PENDING, unlock_time := now }
  else s

def secure_activity_event : Secure :=
  if s.secure_status = .SECURE_UNLOCKED then { s with idle_time := now } else s

def secure_keypress_event (key : Key) : Secure :=
  if cfg.SECURE_UNLOCK_SEQUENCE[s.offset.toNat]? = some key then
    if s.offset + 1 = cfg.sequence_len then secure_unlock now { s with offset := 0 }
    else { s with offset := s.offset + 1 }
  else secure_lock { s with offset := 0 }

def unlock_timeout : Secure :=
  if cfg.SECURE_UNLOCK_TIMEOUT ≠ 0 ∧ s.secure_status = .SECURE_PENDING ∧
      cfg.SECURE_UNLOCK_TIMEOUT ≤ now - s.unlock_time then secure_lock s
  else s

def idle_timeout : Secure :=
  if cfg.SECURE_IDLE_TIMEOUT ≠ 0 ∧ s.secure_status = .SECURE_UNLOCKED ∧
      cfg.SECURE_IDLE_TIMEOUT ≤ now - s.idle_time then secure_lock s
  else s

def secure_task : Secure := idle_timeout cfg now (unlock_timeout cfg now s)

/-- The state, and whether the record is passed on. -/
def preprocess_secure (key : Key) (pressed : Bool) : Secure × Bool :=
  if s.secure_status = .SECURE_PENDING then
    (if pressed then secure_keypress_event cfg now s key else s, false)
  else (s, true)

def process_secure (keycode : UInt16) (pressed : Bool) : Secure :=
  if pressed then s
  else if keycode = QK_SECURE_LOCK then secure_lock s
  else if keycode = QK_SECURE_UNLOCK then secure_unlock now s
  else if keycode = QK_SECURE_TOGGLE then
    if s.secure_status = .SECURE_LOCKED then secure_unlock now s else secure_lock s
  else if keycode = QK_SECURE_REQUEST then secure_request_unlock now s
  else s

def process_record_quantum (keycode : UInt16) (key : Key) (pressed : Bool) : Secure :=
  let (s, passed_on) := preprocess_secure cfg now s key pressed
  if passed_on then process_secure now s keycode pressed else s

def act (e : Event) : Secure :=
  match e.action with
  | .record keycode key pressed =>
    process_record_quantum cfg (.ofNat e.now) s keycode key pressed
  | .secure_request_unlock => secure_request_unlock (.ofNat e.now) s
  | .secure_lock => secure_lock s
  | .secure_activity_event => secure_activity_event (.ofNat e.now) s
  | .secure_task => secure_task cfg (.ofNat e.now) s

end Secure

/-! ## Attempts -/

/-- The lock, and what its last attempt was: when it was requested, the value
of `offset` then, and the presses since. -/
structure Watched where
  lock : Secure
  requested : Nat
  found : UInt8
  presses : List Key

def Action.press? : Action → Option Key
  | .record _ key true => some key
  | _ => none

namespace Watched

def boot : Watched := ⟨.boot, 0, 0, []⟩

variable (cfg : Config) (w : Watched) (e : Event)

def step : Watched :=
  let lock := w.lock.act cfg e
  if w.lock.secure_status = .SECURE_PENDING then
    { w with lock, presses := w.presses ++ e.action.press?.toList }
  else if lock.secure_status = .SECURE_PENDING then ⟨lock, e.now, w.lock.offset, []⟩
  else { w with lock }

/-- A pending lock opens only with the whole sequence since its request, and
within the timeout. -/
def Earned : Prop :=
  w.lock.secure_status = .SECURE_PENDING →
    (w.step cfg e).lock.secure_status = .SECURE_UNLOCKED →
      (w.step cfg e).presses = cfg.SECURE_UNLOCK_SEQUENCE ∧
        e.now < w.requested + cfg.SECURE_UNLOCK_TIMEOUT.toNat

def Completing : Prop :=
  ∃ key ∈ e.action.press?, cfg.SECURE_UNLOCK_SEQUENCE[w.lock.offset.toNat]? = some key ∧
    w.lock.offset + 1 = cfg.sequence_len

/-- The last press comes within the timeout of a request that found no
sequence begun, and a byte can index the sequence. -/
def Fresh : Prop :=
  w.lock.secure_status = .SECURE_PENDING → w.Completing cfg e →
    cfg.SECURE_UNLOCK_SEQUENCE.length ≤ 256 ∧ w.found = 0 ∧
      e.now < w.requested + cfg.SECURE_UNLOCK_TIMEOUT.toNat

end Watched

/-! ## One step -/

namespace Secure

variable {cfg : Config} {s : Secure} {e : Event}

theorem act_of_press (hs : s.secure_status = .SECURE_PENDING) {key : Key}
    (hkey : e.action.press? = some key) :
    s.act cfg e = secure_keypress_event cfg (.ofNat e.now) s key := by
  rcases e with ⟨now, ⟨keycode, key', _ | _⟩ | _ | _ | _ | _⟩
  all_goals simp [Action.press?] at hkey
  subst hkey
  simp [act, process_record_quantum, preprocess_secure, hs]

theorem act_of_no_press (hs : s.secure_status = .SECURE_PENDING)
    (hkey : e.action.press? = none) : (s.act cfg e).secure_status ≠ .SECURE_UNLOCKED := by
  rcases e with ⟨now, ⟨keycode, key', _ | _⟩ | _ | _ | _ | _⟩
  · simp [act, process_record_quantum, preprocess_secure, hs]
  · simp [Action.press?] at hkey
  · simp [act, secure_request_unlock, hs]
  · simp [act, secure_lock]
  · simp [act, secure_activity_event, hs]
  · have hunlock : (unlock_timeout cfg (.ofNat now) s).secure_status ≠ .SECURE_UNLOCKED := by
      unfold unlock_timeout
      split
      · simp [secure_lock]
      · simp [hs]
    simp only [act, secure_task, idle_timeout]
    split
    · simp [secure_lock]
    · exact hunlock

theorem act_offset (h : s.secure_status = .SECURE_PENDING → e.action.press? = none) :
    (s.act cfg e).offset = s.offset := by
  rcases e with ⟨now, ⟨keycode, key', pressed⟩ | _ | _ | _ | _⟩
  · simp only [act, process_record_quantum, preprocess_secure]
    split
    · rename_i hs
      cases pressed with
      | false => rfl
      | true => simp [Action.press?, hs] at h
    · simp only [if_true, process_secure, secure_lock, secure_unlock, secure_request_unlock]
      split_ifs <;> rfl
  · simp only [act, secure_request_unlock]
    split <;> rfl
  · rfl
  · simp only [act, secure_activity_event]
    split <;> rfl
  · simp only [act, secure_task, idle_timeout, unlock_timeout, secure_lock]
    split_ifs <;> rfl

end Secure

namespace Watched

variable {cfg : Config} {w : Watched} {e : Event}

/-- The presses since the request are the part of the sequence that `offset`
went through. -/
structure Tracked (cfg : Config) (w : Watched) : Prop where
  bound : cfg.sequence_len ≠ 0 → w.lock.offset < cfg.sequence_len
  found_le : w.lock.secure_status = .SECURE_PENDING → w.found ≤ w.lock.offset
  presses : w.lock.secure_status = .SECURE_PENDING → w.presses =
    (cfg.SECURE_UNLOCK_SEQUENCE.take w.lock.offset.toNat).drop w.found.toNat

theorem step_lock : (w.step cfg e).lock = w.lock.act cfg e := by
  simp only [step]
  split_ifs <;> rfl

theorem step_of_pending (h : w.lock.secure_status = .SECURE_PENDING) : w.step cfg e =
    ⟨w.lock.act cfg e, w.requested, w.found, w.presses ++ e.action.press?.toList⟩ := by
  simp [step, h]

theorem Tracked.presses_append (h : Tracked cfg w)
    (hpending : w.lock.secure_status = .SECURE_PENDING) {key : Key}
    (hkey : cfg.SECURE_UNLOCK_SEQUENCE[w.lock.offset.toNat]? = some key) :
    w.presses ++ [key] =
      (cfg.SECURE_UNLOCK_SEQUENCE.take (w.lock.offset.toNat + 1)).drop w.found.toNat := by
  have hfound : w.found.toNat ≤ w.lock.offset.toNat := h.found_le hpending
  have hlt : w.lock.offset.toNat < cfg.SECURE_UNLOCK_SEQUENCE.length :=
    (List.getElem?_eq_some_iff.mp hkey).1
  rw [h.presses hpending, List.take_add_one, hkey, List.drop_append_of_le_length]
  · rfl
  · rw [List.length_take]
    omega

theorem offset_succ {offset sequence_len : UInt8}
    (hbound : sequence_len ≠ 0 → offset < sequence_len) (hne : offset + 1 ≠ sequence_len) :
    (offset + 1).toNat = offset.toNat + 1 ∧ (sequence_len ≠ 0 → offset + 1 < sequence_len) := by
  simp only [ne_eq, ← UInt8.toNat_inj, UInt8.lt_iff_toNat_lt, UInt8.toNat_add, UInt8.toNat_zero,
    UInt8.toNat_one] at *
  have := offset.toNat_lt
  have := sequence_len.toNat_lt
  omega

/-- Every event keeps the part of the sequence that the presses are. -/
theorem Tracked.step (h : Tracked cfg w) : Tracked cfg (w.step cfg e) := by
  by_cases hpending : w.lock.secure_status = .SECURE_PENDING
  · rw [step_of_pending hpending]
    rcases hpress : e.action.press? with _ | key
    · have hoffset : (w.lock.act cfg e).offset = w.lock.offset :=
        Secure.act_offset fun _ => hpress
      constructor
      · rw [hoffset]
        exact h.bound
      · intro _
        rw [hoffset]
        exact h.found_le hpending
      · intro _
        simpa [hoffset] using h.presses hpending
    · rw [Secure.act_of_press hpending hpress]
      unfold Secure.secure_keypress_event
      split
      · rename_i hkey
        split
        · rename_i hlen
          constructor
          · intro hne
            exact UInt8.pos_iff_ne_zero.mpr hne
          · simp [Secure.secure_unlock]
          · simp [Secure.secure_unlock]
        · rename_i hlen
          obtain ⟨hsucc, hlt⟩ := offset_succ h.bound hlen
          constructor
          · exact hlt
          · intro _
            have := h.found_le hpending
            rw [UInt8.le_iff_toNat_le] at this ⊢
            dsimp only
            omega
          · intro _
            simpa [hsucc] using h.presses_append hpending hkey
      · constructor
        · intro hne
          exact UInt8.pos_iff_ne_zero.mpr hne
        · simp [Secure.secure_lock]
        · simp [Secure.secure_lock]
  · have hoffset : (w.lock.act cfg e).offset = w.lock.offset :=
      Secure.act_offset fun h' => absurd h' hpending
    simp only [Watched.step, if_neg hpending]
    split
    · constructor
      · simpa [hoffset] using h.bound
      · intro _
        simp [hoffset]
      · intro _
        simp [hoffset]
    · rename_i hafter
      constructor
      · simpa [hoffset] using h.bound
      · intro h'
        exact absurd h' hafter
      · intro h'
        exact absurd h' hafter

theorem whole_iff {sequence : List Key} {offset found : UInt8}
    (hlt : offset.toNat < sequence.length) (hfound : found ≤ offset)
    (hlen : offset + 1 = .ofNat sequence.length) :
    (sequence.take (offset.toNat + 1)).drop found.toNat = sequence ↔
      sequence.length ≤ 256 ∧ found = 0 := by
  have hoffset := offset.toNat_lt
  have hmod : (offset.toNat + 1) % 256 = sequence.length % 256 := by
    simpa [← UInt8.toNat_inj] using hlen
  constructor
  · intro heq
    have hlength := congrArg List.length heq
    simp only [List.length_drop, List.length_take] at hlength
    rw [← UInt8.toNat_inj, UInt8.toNat_zero]
    omega
  · rintro ⟨hle, rfl⟩
    rw [UInt8.toNat_zero, List.drop_zero, List.take_of_length_le]
    omega

theorem opens_iff (hpending : w.lock.secure_status = .SECURE_PENDING) :
    (w.step cfg e).lock.secure_status = .SECURE_UNLOCKED ↔ w.Completing cfg e := by
  rw [step_lock, Completing]
  rcases hpress : e.action.press? with _ | key
  · simp [Secure.act_of_no_press hpending hpress]
  · rw [Secure.act_of_press hpending hpress]
    unfold Secure.secure_keypress_event
    split
    · rename_i hkey
      split
      · rename_i hlen
        simp [Secure.secure_unlock, hkey, hlen]
      · rename_i hlen
        simp [hpending, hlen]
    · rename_i hkey
      simp [Secure.secure_lock, hkey]

theorem earned_iff (h : Tracked cfg w) (e : Event) : w.Fresh cfg e ↔ w.Earned cfg e := by
  refine forall_congr' fun hpending => ?_
  rw [opens_iff hpending]
  refine forall_congr' fun hcompleting => ?_
  obtain ⟨key, hpress, hkey, hlen⟩ := hcompleting
  have hlt : w.lock.offset.toNat < cfg.SECURE_UNLOCK_SEQUENCE.length :=
    (List.getElem?_eq_some_iff.mp hkey).1
  rw [step_of_pending hpending, hpress]
  simp only [Option.toList_some, h.presses_append hpending hkey,
    whole_iff hlt (h.found_le hpending) hlen, and_assoc]

theorem Tracked.boot : Tracked cfg .boot where
  bound hne := UInt8.pos_iff_ne_zero.mpr hne
  found_le h := by simp [Watched.boot, Secure.boot] at h
  presses h := by simp [Watched.boot, Secure.boot] at h

/-- In every run from the boot, the lock opens only with the whole sequence
in time exactly when every last press is a fresh one. -/
theorem every_unlock_is_earned_iff (cfg : Config) (events : List Event) :
    Along (step cfg) (Earned cfg) .boot events ↔ Along (step cfg) (Fresh cfg) .boot events :=
  Along.iff (I := Tracked cfg) (fun _ e h => earned_iff h e) (fun _ _ h _ => h.step) Tracked.boot

def two_keys : Config := ⟨[(0, 0), (0, 1)], by simp, 5000, 60000⟩

/-- A is pressed and the time runs out; the next attempt opens with B alone. -/
theorem half_a_sequence_is_kept : ¬ Along (step two_keys) (Earned two_keys) .boot
    [⟨0, .secure_request_unlock⟩, ⟨10, .record 4 (0, 0) true⟩, ⟨6000, .secure_task⟩,
      ⟨90000, .secure_request_unlock⟩, ⟨90010, .record 5 (0, 1) true⟩] := by
  rintro ⟨-, -, -, -, hopen, -⟩
  have hpresses := (hopen (by decide) (by decide)).1
  exact absurd hpresses (by decide)

end Watched

end keychron_qmk.secure
