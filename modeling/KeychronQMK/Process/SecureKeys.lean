-- The keys under the lock: what becomes of a press and of its release when the
-- lock swallows one of them, and why no key is stuck (`secure_hook_quantum`).
import KeychronQMK.Process.Secure
import Mathlib.Logic.Function.Basic

namespace keychron_qmk.secure

open runs

/-! ## The board -/

/-- A key is `registered` from a press that is processed until its release is
processed or the keyboard is cleared. The last three fields are history: what
was said of the last press of a key, and whether a request to unlock was pending
at a call since that press. -/
structure Board where
  lock : Secure
  /-- The keycode of a key on the layer of its last press, `source_layers_cache`. -/
  source : Key → UInt16
  registered : Key → Bool
  down : Key → Bool
  processed : Key → Bool
  requested : Key → Bool

def is_secure_keycode (keycode : UInt16) : Bool :=
  keycode == QK_SECURE_LOCK || keycode == QK_SECURE_UNLOCK || keycode == QK_SECURE_TOGGLE ||
    keycode == QK_SECURE_REQUEST

namespace Board

def boot : Board := ⟨.boot, fun _ => 0, fun _ => false, fun _ => false, fun _ => false,
  fun _ => false⟩

variable (cfg : Config) (now : UInt32) (b : Board) (keycode : UInt16) (key : Key)

def clear_keyboard : Board := { b with registered := fun _ => false }

def secure_hook_quantum : Board :=
  if b.lock.secure_status = .SECURE_PENDING then
    { b.clear_keyboard with requested := fun _ => true }
  else b

/-- A press looks its keycode up in the layers that are on, and caches it. -/
def get_record_keycode (pressed : Bool) : UInt16 := if pressed then keycode else b.source key

def passed_on : Bool := b.lock.secure_status != .SECURE_PENDING

/-- What a record says of its key, whatever becomes of it. -/
def noted (pressed : Bool) : Board :=
  if pressed then
    { b with
      source := Function.update b.source key keycode
      down := Function.update b.down key true
      processed := Function.update b.processed key b.passed_on
      requested := Function.update b.requested key false }
  else { b with down := Function.update b.down key false }

/-- The handlers after `process_secure`, and `process_record_handler`. The secure
keycodes have no action. -/
def process_record_handler (pressed : Bool) : Board :=
  { b with registered :=
      Function.update b.registered key (pressed && !is_secure_keycode keycode) }

def process_secure (pressed : Bool) : Board :=
  let b' := { b with lock := b.lock.process_secure now keycode pressed }
  if !pressed && is_secure_keycode keycode then b'.secure_hook_quantum
  else b'.process_record_handler keycode key pressed

def process_record_quantum (pressed : Bool) : Board :=
  let keycode := b.get_record_keycode keycode key pressed
  let (lock, passed_on) := b.lock.preprocess_secure cfg now key pressed
  let b' := { b.noted keycode key pressed with lock }
  if passed_on then b'.process_secure now keycode key pressed else b'

def step (e : Event) : Board :=
  match e.action with
  | .record keycode key pressed =>
    b.process_record_quantum cfg (.ofNat e.now) keycode key pressed
  | .secure_request_unlock =>
    { b with lock := b.lock.secure_request_unlock (.ofNat e.now) }.secure_hook_quantum
  | _ => { b with lock := b.lock.act cfg e }

end Board

/-! ## Pairs of press and release -/

namespace Board

variable (cfg : Config) (b : Board) (e : Event)

def Alternates : Prop :=
  match e.action with
  | .record _ key pressed => b.down key = !pressed
  | _ => True

/-- A release is processed exactly when its press was. -/
def Paired : Prop :=
  match e.action with
  | .record _ key false => b.passed_on = b.processed key
  | _ => True

/-- A release is processed exactly when its press was, but for two cases. One that
is swallowed after a request finds that the request cleared what its press
registered. One that is processed after a swallowed press finds nothing registered.
-/
def Safe : Prop :=
  match e.action with
  | .record _ key false =>
    (b.processed key = true → b.passed_on = false →
      b.requested key = true ∧ b.registered key = false) ∧
    (b.processed key = false → b.passed_on = true → b.registered key = false)
  | _ => True

def Sound : Prop :=
  b.Safe e ∧ ∀ key, (b.step cfg e).registered key = true → (b.step cfg e).down key = true

instance : Decidable (b.Alternates e) := by
  unfold Alternates
  split <;> infer_instance

instance : Decidable (b.Paired e) := by
  unfold Paired
  split <;> infer_instance

/-! ## What every event keeps -/

variable {cfg : Config} {b : Board} {e : Event}

/-- What is registered is held, by a press that was processed, of a keycode that
is not one of the lock's. -/
def Held (b : Board) : Prop :=
  ∀ key, b.registered key = true →
    b.down key = true ∧ b.processed key = true ∧ is_secure_keycode (b.source key) = false

/-- While the lock is pending nothing is registered, and the keys that a processed
press holds were held at the request. -/
structure Inv (b : Board) : Prop where
  held : b.Held
  cleared : b.passed_on = false → ∀ key, b.registered key = false
  requested : b.passed_on = false →
    ∀ key, b.down key = true → b.processed key = true → b.requested key = true

theorem passed_on_eq_false : b.passed_on = false ↔ b.lock.secure_status = .SECURE_PENDING := by
  simp [passed_on]

theorem Inv.of_passed_on (h : b.Held) (hpassed : b.passed_on = true) : b.Inv where
  held := h
  cleared hpending := by simp [hpassed] at hpending
  requested hpending := by simp [hpassed] at hpending

theorem Inv.secure_hook_quantum (h : b.Held) : b.secure_hook_quantum.Inv := by
  unfold Board.secure_hook_quantum
  split
  · constructor
    · intro key hkey
      simp [clear_keyboard] at hkey
    · intro _ key
      rfl
    · intro _ key _ _
      rfl
  · rename_i hstatus
    exact .of_passed_on h (by simp [passed_on, hstatus])

theorem process_secure_pending {s : Secure} {now : UInt32} {keycode : UInt16} {pressed : Bool}
    (hs : s.secure_status ≠ .SECURE_PENDING)
    (hkeycode : (!pressed && is_secure_keycode keycode) = false) :
    (s.process_secure now keycode pressed).secure_status ≠ .SECURE_PENDING := by
  unfold Secure.process_secure
  cases pressed with
  | true => exact hs
  | false =>
    simp only [Bool.not_false, Bool.true_and, is_secure_keycode, Bool.or_eq_false_iff,
      beq_eq_false_iff_ne] at hkeycode
    obtain ⟨⟨⟨hlock, hunlock⟩, htoggle⟩, hrequest⟩ := hkeycode
    simp [hlock, hunlock, htoggle, hrequest, hs]

theorem Inv.with_lock {lock : Secure} (h : b.Inv)
    (hpending : lock.secure_status = .SECURE_PENDING → b.lock.secure_status = .SECURE_PENDING) :
    Inv { b with lock } where
  held := h.held
  cleared hstatus := h.cleared (passed_on_eq_false.mpr (hpending (passed_on_eq_false.mp hstatus)))
  requested hstatus :=
    h.requested (passed_on_eq_false.mpr (hpending (passed_on_eq_false.mp hstatus)))

theorem process_record_quantum_of_pending (h : b.passed_on = false) (now : UInt32)
    (keycode : UInt16) (key : Key) (pressed : Bool) :
    b.process_record_quantum cfg now keycode key pressed =
      { b.noted (b.get_record_keycode keycode key pressed) key pressed with
        lock := (b.lock.preprocess_secure cfg now key pressed).1 } := by
  simp [process_record_quantum, Secure.preprocess_secure, passed_on_eq_false.mp h]

theorem process_record_quantum_of_passed_on (h : b.passed_on = true) (now : UInt32)
    (keycode : UInt16) (key : Key) (pressed : Bool) :
    b.process_record_quantum cfg now keycode key pressed =
      (b.noted (b.get_record_keycode keycode key pressed) key pressed).process_secure now
        (b.get_record_keycode keycode key pressed) key pressed := by
  have hstatus : b.lock.secure_status ≠ .SECURE_PENDING := by simpa [passed_on] using h
  cases pressed <;> simp [process_record_quantum, Secure.preprocess_secure, hstatus, noted]

theorem Inv.swallow (h : b.Inv) (hpending : b.passed_on = false) (now : UInt32)
    (keycode : UInt16) (key : Key) (pressed : Bool) :
    (b.process_record_quantum cfg now keycode key pressed).Inv := by
  rw [process_record_quantum_of_pending hpending]
  have hnone : ∀ key', (b.noted (b.get_record_keycode keycode key pressed) key
      pressed).registered key' = false := by
    intro key'
    cases pressed <;> exact h.cleared hpending key'
  constructor
  · intro key' hkey'
    exact absurd hkey' (by simp [hnone])
  · intro _
    exact hnone
  · intro _ key' hdown hprocessed
    cases pressed with
    | false =>
      simp only [noted, Bool.false_eq_true, if_false, Function.update_apply] at hdown hprocessed ⊢
      split at hdown
      · simp at hdown
      · exact h.requested hpending key' hdown hprocessed
    | true =>
      simp only [noted, if_true, Function.update_apply] at hdown hprocessed ⊢
      split_ifs at hdown hprocessed ⊢
      · simp [hpending] at hprocessed
      · exact h.requested hpending key' hdown hprocessed

theorem Inv.press (h : b.Inv) (hpassed : b.passed_on = true) (now : UInt32) (keycode : UInt16)
    (key : Key) : (b.process_record_quantum cfg now keycode key true).Inv := by
  rw [process_record_quantum_of_passed_on hpassed]
  refine .of_passed_on ?_ hpassed
  intro key' hkey'
  simp only [process_secure, process_record_handler, noted, get_record_keycode, if_true,
    Bool.not_true, Bool.false_and, Bool.false_eq_true, if_false, Bool.true_and,
    Function.update_apply] at hkey' ⊢
  split_ifs at hkey' ⊢
  · exact ⟨rfl, hpassed, by simpa using hkey'⟩
  · exact h.held key' hkey'

theorem Inv.release (h : b.Inv) (hpassed : b.passed_on = true) (now : UInt32) (keycode : UInt16)
    (key : Key) : (b.process_record_quantum cfg now keycode key false).Inv := by
  rw [process_record_quantum_of_passed_on hpassed]
  have hkeycode : b.get_record_keycode keycode key false = b.source key := rfl
  rw [hkeycode, process_secure]
  cases hsecure : is_secure_keycode (b.source key) with
  | true =>
    refine .secure_hook_quantum ?_
    intro key' hkey'
    have hheld := h.held key' hkey'
    have hne : key' ≠ key := by
      rintro rfl
      simp [hsecure] at hheld
    simpa [noted, hne] using hheld
  | false =>
    rw [if_neg (by simp)]
    refine .of_passed_on ?_ ?_
    · intro key' hkey'
      simp only [process_record_handler, noted, Bool.false_and, Function.update_apply,
        Bool.false_eq_true, if_false] at hkey' ⊢
      split_ifs at hkey' ⊢
      exact h.held key' hkey'
    · have hstatus : b.lock.secure_status ≠ .SECURE_PENDING := by simpa [passed_on] using hpassed
      simpa [passed_on, process_record_handler, noted] using
        process_secure_pending hstatus (by simpa using hsecure)

theorem Inv.step (h : b.Inv) : (b.step cfg e).Inv := by
  rcases e with ⟨now, ⟨keycode, key, pressed⟩ | _ | _ | _ | _⟩
  · cases hpassed : b.passed_on with
    | false => exact h.swallow hpassed _ keycode key pressed
    | true =>
      cases pressed with
      | false => exact h.release hpassed _ keycode key
      | true => exact h.press hpassed _ keycode key
  · exact .secure_hook_quantum h.held
  · refine h.with_lock fun hpending => ?_
    simp [Secure.act, Secure.secure_lock] at hpending
  · refine h.with_lock fun hpending => ?_
    simp only [Secure.act, Secure.secure_activity_event] at hpending
    split at hpending <;> exact hpending
  · refine h.with_lock fun hpending => ?_
    simp only [Secure.act, Secure.secure_task, Secure.idle_timeout, Secure.unlock_timeout,
      Secure.secure_lock] at hpending
    split_ifs at hpending
    · exact hpending

theorem Inv.boot : boot.Inv where
  held key hkey := by simp [Board.boot] at hkey
  cleared _ _ := rfl
  requested _ key hkey := by simp [Board.boot] at hkey

theorem Inv.safe (h : b.Inv) (halternates : b.Alternates e) : b.Safe e := by
  rcases e with ⟨now, ⟨keycode, key, _ | _⟩ | _ | _ | _ | _⟩
  · have hdown : b.down key = true := halternates
    constructor
    · intro hprocessed hpending
      exact ⟨h.requested hpending key hdown hprocessed, h.cleared hpending key⟩
    · intro hprocessed _
      by_contra hregistered
      have := (h.held key (by simpa using hregistered)).2.1
      simp [hprocessed] at this
  all_goals trivial

/-- In every run of keys that alternate from the boot, no key is stuck. -/
theorem no_key_is_stuck (cfg : Config) (events : List Event)
    (h : Along (step cfg) Alternates boot events) : Along (step cfg) (Sound cfg) boot events :=
  Along.imp (I := Inv)
    (fun _ _ hinv halternates =>
      ⟨⟨hinv.safe halternates, fun key hkey => (hinv.step.held key hkey).1⟩, hinv.step⟩)
    Inv.boot h

def one_key : Config := ⟨[(0, 1)], by simp, 5000, 60000⟩

def held_at_request : List Event :=
  [⟨0, .record 4 (0, 0) true⟩, ⟨10, .secure_request_unlock⟩, ⟨20, .record 4 (0, 0) false⟩]

theorem a_key_held_at_a_request_is_not_stuck :
    Along (step one_key) (Sound one_key) boot held_at_request :=
  no_key_is_stuck one_key held_at_request (by decide)

def opening : List Event :=
  [⟨0, .secure_request_unlock⟩, ⟨10, .record 5 (0, 1) true⟩, ⟨20, .record 5 (0, 1) false⟩]

/-- The release of A is swallowed, and that of B is not. -/
theorem a_request_splits_pairs :
    (Along (step one_key) Alternates boot held_at_request ∧
      ¬ Along (step one_key) Paired boot held_at_request) ∧
    Along (step one_key) Alternates boot opening ∧ ¬ Along (step one_key) Paired boot opening := by
  decide

end Board
end keychron_qmk.secure
