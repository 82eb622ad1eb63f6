-- What the master sends to the slave of a split keyboard: layers, LEDs,
-- backlight, RGB matrix and haptic feedback. A transfer that fails has already
-- changed the copy that says whether one is needed.
import KeychronQMK.Split.Transactions
import KeychronQMK.Lib.Runs

namespace keychron_qmk.split

open runs

/-! ## One field -/

/-- A field of the shared memory that the master sends: its own copy, the
slave's, and the static variable of its handler. -/
structure Sent (α : Type) where
  shmem : α
  slave : α
  last_update : UInt32
  deriving DecidableEq

/-- One call of a sending function: when it looks at the timer, when it sets
`last_update`, and whether a transaction it makes reaches the slave. -/
structure Attempt where
  now : UInt32
  later : UInt32
  arrives : Bool

namespace Sent

variable {α : Type} (c : Sent α) (a : Attempt)

/-- `transport_execute_transaction` with a buffer for the slave: the copy of the
master is overwritten before the transaction. -/
def transport_write (data : α) : Sent α :=
  { c with shmem := data, slave := if a.arrives then data else c.slave }

/-- The last transfer is old, or the handler wants one. -/
def Due (condition : Prop) : Prop :=
  FORCED_SYNC_THROTTLE_MS ≤ timer_elapsed32 a.now c.last_update ∨ condition

instance (condition : Prop) [Decidable condition] : Decidable (c.Due a condition) :=
  inferInstanceAs (Decidable (_ ∨ _))

def send_if_condition (condition : Prop) [Decidable condition] (source : α) : Bool × Sent α :=
  if c.Due a condition then
    let c := c.transport_write a source
    (a.arrives, if a.arrives then { c with last_update := a.later } else c)
  else (true, c)

variable [DecidableEq α]

def send_if_data_mismatch (source : α) : Bool × Sent α :=
  c.send_if_condition a (source ≠ c.shmem) source

/-- A transfer of the value is due, or the copies of the halves agree. -/
def Settled (value : α) : Prop := c.Due a (value ≠ c.shmem) ∨ c.slave = c.shmem

instance (value : α) : Decidable (c.Settled a value) := inferInstanceAs (Decidable (_ ∨ _))

variable {c a} {value : α}

variable (c a value) in
theorem send_okay_iff : (c.send_if_data_mismatch a value).1 = true ↔
    (c.Due a (value ≠ c.shmem) → a.arrives = true) := by
  unfold send_if_data_mismatch send_if_condition
  split
  · rename_i hdue
    simp [hdue]
  · rename_i hdue
    simp [hdue]

theorem sent_iff_settled (h : (c.send_if_data_mismatch a value).1 = true) :
    (c.send_if_data_mismatch a value).2.slave = value ↔ c.Settled a value := by
  have harrives := (send_okay_iff c a value).mp h
  unfold send_if_data_mismatch send_if_condition Settled
  split
  · rename_i hdue
    simp [hdue, harrives hdue, transport_write]
  · rename_i hdue
    -- nothing is sent, so the value is what the master believes to be there
    obtain ⟨-, hsame⟩ := not_or.mp hdue
    rw [or_iff_right hdue, ← not_not.mp hsame]

variable (value) in
theorem agree_of_arrives (h : c.slave = c.shmem) (harrives : a.arrives = true) :
    (c.send_if_data_mismatch a value).2.slave = (c.send_if_data_mismatch a value).2.shmem := by
  unfold send_if_data_mismatch send_if_condition
  split
  · simp [harrives, transport_write]
  · exact h

end Sent

/-! ## The handlers -/

structure rgb_matrix_sync_t where
  rgb_matrix : UInt64
  rgb_suspend_state : Bool
  deriving DecidableEq

structure split_slave_haptic_sync_t where
  haptic_config : UInt32
  haptic_play : UInt8
  deriving DecidableEq

def NO_HAPTIC_PLAY : UInt8 := 0xFF

/-- The values of the master that the handlers send. -/
structure Master where
  layer_state : UInt32
  default_layer_state : UInt32
  host_keyboard_leds : UInt8
  is_backlight_enabled : Bool
  backlight_level : UInt8
  rgb_matrix_config : UInt64
  rgb_suspend_state : Bool
  haptic_config : UInt32
  split_haptic_play : UInt8

structure Halves where
  master : Master
  layer_state : Sent UInt32
  default_layer_state : Sent UInt32
  led_state : Sent UInt8
  backlight_level : Sent UInt8
  rgb_matrix_sync : Sent rgb_matrix_sync_t
  haptic_sync : Sent split_slave_haptic_sync_t

namespace Master

variable (m : Master)

def level : UInt8 := if m.is_backlight_enabled then m.backlight_level else 0

def rgb_matrix_sync : rgb_matrix_sync_t := ⟨m.rgb_matrix_config, m.rgb_suspend_state⟩

def haptic_sync : split_slave_haptic_sync_t := ⟨m.haptic_config, m.split_haptic_play⟩

end Master

namespace Halves

variable (s : Halves) (a b : Attempt)

def layer_state_handlers_master : Bool × Halves :=
  let (okay, layer_state) := s.layer_state.send_if_condition a
    (s.master.layer_state ≠ s.layer_state.shmem) s.master.layer_state
  let s := { s with layer_state := layer_state }
  if okay then
    let (okay, default_layer_state) := s.default_layer_state.send_if_condition b
      (s.master.default_layer_state ≠ s.default_layer_state.shmem) s.master.default_layer_state
    (okay, { s with default_layer_state := default_layer_state })
  else (false, s)

def led_state_handlers_master : Bool × Halves :=
  let (okay, led_state) := s.led_state.send_if_data_mismatch a s.master.host_keyboard_leds
  (okay, { s with led_state := led_state })

def backlight_handlers_master : Bool × Halves :=
  let (okay, backlight_level) := s.backlight_level.send_if_condition a
    (s.master.level ≠ s.backlight_level.shmem) s.master.level
  (okay, { s with backlight_level := backlight_level })

def rgb_matrix_handlers_master : Bool × Halves :=
  let (okay, rgb_matrix_sync) := s.rgb_matrix_sync.send_if_data_mismatch a s.master.rgb_matrix_sync
  (okay, { s with rgb_matrix_sync := rgb_matrix_sync })

def haptic_handlers_master : Bool × Halves :=
  let (okay, haptic_sync) := s.haptic_sync.send_if_data_mismatch a s.master.haptic_sync
  -- the request is given up, sent or not
  (okay, { s with
    haptic_sync := haptic_sync
    master := { s.master with split_haptic_play := NO_HAPTIC_PLAY } })

end Halves

/-- The retries of `transaction_handler_master`: each call of the handler that
fails is followed by another one, as long as there are attempts. -/
def transaction_handler_master {σ ι : Type} (handler : σ → ι → Bool × σ) : σ → List ι → Bool × σ
  | s, [] => (false, s)
  | s, a :: retries =>
    if (handler s a).1 then handler s a
    else transaction_handler_master handler (handler s a).2 retries

/-! ## Runs -/

/-- The values of the master change, or a handler is called. A retry is
another call. -/
inductive SendStep
  | change (master : Master)
  | layer_state (first second : Attempt)
  | led_state (a : Attempt)
  | backlight (a : Attempt)
  | rgb_matrix (a : Attempt)
  | haptic (a : Attempt)

namespace Halves

def step (s : Halves) : SendStep → Halves
  | .change master => { s with master := master }
  | .layer_state first second => (s.layer_state_handlers_master first second).2
  | .led_state a => (s.led_state_handlers_master a).2
  | .backlight a => (s.backlight_handlers_master a).2
  | .rgb_matrix a => (s.rgb_matrix_handlers_master a).2
  | .haptic a => (s.haptic_handlers_master a).2

/-- A handler that reports success leaves the value of this call with the
slave, and one that fails leaves a haptic request. -/
def ReportsWhatIs (s : Halves) : SendStep → Prop
  | .change _ => True
  | .layer_state a b => (s.layer_state_handlers_master a b).1 = true →
    (s.layer_state_handlers_master a b).2.layer_state.slave = s.master.layer_state ∧
    (s.layer_state_handlers_master a b).2.default_layer_state.slave = s.master.default_layer_state
  | .led_state a => (s.led_state_handlers_master a).1 = true →
    (s.led_state_handlers_master a).2.led_state.slave = s.master.host_keyboard_leds
  | .backlight a => (s.backlight_handlers_master a).1 = true →
    (s.backlight_handlers_master a).2.backlight_level.slave = s.master.level
  | .rgb_matrix a => (s.rgb_matrix_handlers_master a).1 = true →
    (s.rgb_matrix_handlers_master a).2.rgb_matrix_sync.slave = s.master.rgb_matrix_sync
  | .haptic a =>
    ((s.haptic_handlers_master a).1 = true →
      (s.haptic_handlers_master a).2.haptic_sync.slave = s.master.haptic_sync) ∧
    ((s.haptic_handlers_master a).1 = false →
      (s.haptic_handlers_master a).2.master.split_haptic_play = s.master.split_haptic_play)

instance (s : Halves) : ∀ x, Decidable (s.ReportsWhatIs x)
  | .change _ => .isTrue trivial
  | .layer_state _ _ => inferInstanceAs (Decidable (_ → _ ∧ _))
  | .led_state _ => inferInstanceAs (Decidable (_ → _))
  | .backlight _ => inferInstanceAs (Decidable (_ → _))
  | .rgb_matrix _ => inferInstanceAs (Decidable (_ → _))
  | .haptic _ => inferInstanceAs (Decidable ((_ → _) ∧ (_ → _)))

/-- A call for the layers makes a transaction that does not reach the slave. -/
def LayerFails (s : Halves) (a b : Attempt) : Prop :=
  (s.layer_state.Due a (s.master.layer_state ≠ s.layer_state.shmem) ∧ a.arrives = false) ∨
  (s.default_layer_state.Due b (s.master.default_layer_state ≠ s.default_layer_state.shmem) ∧
    b.arrives = false)

/-- Where no transfer is due, the slave has what the master believes it has,
and no call with a haptic request makes a transaction that fails. -/
def Believed (s : Halves) : SendStep → Prop
  | .change _ => True
  | .layer_state a b => s.LayerFails a b ∨
    (s.layer_state.Settled a s.master.layer_state ∧
      s.default_layer_state.Settled b s.master.default_layer_state)
  | .led_state a => s.led_state.Settled a s.master.host_keyboard_leds
  | .backlight a => s.backlight_level.Settled a s.master.level
  | .rgb_matrix a => s.rgb_matrix_sync.Settled a s.master.rgb_matrix_sync
  | .haptic a => s.haptic_sync.Settled a s.master.haptic_sync ∧
    (s.haptic_sync.Due a (s.master.haptic_sync ≠ s.haptic_sync.shmem) → a.arrives = false →
      s.master.split_haptic_play = NO_HAPTIC_PLAY)

/-! ## Exactness -/

theorem reports_iff {α : Type} [DecidableEq α] {c : Sent α} {a : Attempt} {value : α} :
    ((c.send_if_data_mismatch a value).1 = true →
      (c.send_if_data_mismatch a value).2.slave = value) ↔ c.Settled a value := by
  constructor
  · intro h
    by_cases hdue : c.Due a (value ≠ c.shmem)
    · exact .inl hdue
    · have hokay := (Sent.send_okay_iff c a value).mpr fun hdue' => absurd hdue' hdue
      exact (Sent.sent_iff_settled hokay).mp (h hokay)
  · intro h hokay
    exact (Sent.sent_iff_settled hokay).mpr h

theorem layer_state_okay_iff (s : Halves) (a b : Attempt) :
    (s.layer_state_handlers_master a b).1 = true ↔ ¬ s.LayerFails a b := by
  have hfirst := Sent.send_okay_iff s.layer_state a s.master.layer_state
  have hsecond := Sent.send_okay_iff s.default_layer_state b s.master.default_layer_state
  unfold layer_state_handlers_master LayerFails
  unfold Sent.send_if_data_mismatch at hfirst hsecond
  simp only [not_or, not_and, Bool.not_eq_false]
  split
  · rename_i hokay
    rw [hsecond]
    exact ⟨fun h => ⟨hfirst.mp hokay, h⟩, fun h => h.2⟩
  · rename_i hokay
    exact ⟨fun h => absurd h Bool.false_ne_true, fun h => absurd (hfirst.mpr h.1) hokay⟩

theorem layer_state_sent (s : Halves) {a b : Attempt} (h : ¬ s.LayerFails a b) :
    ((s.layer_state_handlers_master a b).2.layer_state.slave = s.master.layer_state ↔
      s.layer_state.Settled a s.master.layer_state) ∧
    ((s.layer_state_handlers_master a b).2.default_layer_state.slave =
      s.master.default_layer_state ↔
      s.default_layer_state.Settled b s.master.default_layer_state) := by
  simp only [LayerFails, not_or, not_and, Bool.not_eq_false] at h
  have hfirst := (Sent.send_okay_iff _ _ _).mpr h.1
  have hsecond := (Sent.send_okay_iff _ _ _).mpr h.2
  have hsent := Sent.sent_iff_settled hfirst
  have hsent' := Sent.sent_iff_settled hsecond
  unfold Sent.send_if_data_mismatch at hfirst hsent hsent'
  unfold layer_state_handlers_master
  simp only [hfirst, if_true]
  exact ⟨hsent, hsent'⟩

theorem reports_iff_believed (s : Halves) (x : SendStep) : s.ReportsWhatIs x ↔ s.Believed x := by
  cases x with
  | change master => exact Iff.rfl
  | layer_state a b =>
    simp only [ReportsWhatIs, Believed, layer_state_okay_iff]
    by_cases hfails : s.LayerFails a b
    · exact ⟨fun _ => .inl hfails, fun _ h => absurd hfails h⟩
    · obtain ⟨hfirst, hsecond⟩ := s.layer_state_sent hfails
      rw [hfirst, hsecond]
      exact ⟨fun h => .inr (h hfails), fun h _ => h.resolve_left hfails⟩
  | led_state a => exact reports_iff
  | backlight a => exact reports_iff
  | rgb_matrix a => exact reports_iff
  | haptic a =>
    refine and_congr reports_iff ?_
    have hokay := Sent.send_okay_iff s.haptic_sync a s.master.haptic_sync
    have hfails : (s.haptic_handlers_master a).1 = false ↔
        s.haptic_sync.Due a (s.master.haptic_sync ≠ s.haptic_sync.shmem) ∧ a.arrives = false := by
      rw [← Bool.not_eq_true, show (s.haptic_handlers_master a).1 =
        (s.haptic_sync.send_if_data_mismatch a s.master.haptic_sync).1 from rfl, hokay]
      simp
    rw [hfails, and_imp]
    have hplay : (s.haptic_handlers_master a).2.master.split_haptic_play = NO_HAPTIC_PLAY := rfl
    rw [hplay, eq_comm (a := NO_HAPTIC_PLAY)]

/-- In a run every report is right exactly when, at each call, the slave has
what the master believes it has or a transfer is due, and no request for
haptic feedback is in a transfer that fails. -/
theorem every_report_is_right_iff (s : Halves) (xs : List SendStep) :
    Along step ReportsWhatIs s xs ↔ Along step Believed s xs :=
  Along.iff (I := fun _ => True) (fun s x _ => (s.reports_iff_believed x).symm)
    (fun _ _ _ _ => trivial) trivial

def caps_lock_on : Halves :=
  { master := ⟨0, 0, 0b10, false, 0, 0, false, 0, NO_HAPTIC_PLAY⟩
    layer_state := ⟨0, 0, 0⟩
    default_layer_state := ⟨0, 0, 0⟩
    led_state := ⟨0, 0, 0⟩
    backlight_level := ⟨0, 0, 0⟩
    rgb_matrix_sync := ⟨⟨0, false⟩, ⟨0, false⟩, 0⟩
    haptic_sync := ⟨⟨0, 0⟩, ⟨0, 0⟩, 0⟩ }

/-- The retry of a lost transfer sends nothing and reports success. -/
theorem retry_sends_nothing :
    (transaction_handler_master led_state_handlers_master caps_lock_on
      [⟨50, 50, false⟩, ⟨50, 50, true⟩]).1 = true ∧
    (transaction_handler_master led_state_handlers_master caps_lock_on
      [⟨50, 50, false⟩, ⟨50, 50, true⟩]).2.led_state.slave = 0 ∧
    ¬ Along step ReportsWhatIs caps_lock_on
      [.led_state ⟨50, 50, false⟩, .led_state ⟨50, 50, true⟩] := by
  decide

/-! ## Runs without failures -/

/-- The master's copy of each field is what the slave has. -/
structure Agrees (s : Halves) : Prop where
  layer_state : s.layer_state.slave = s.layer_state.shmem
  default_layer_state : s.default_layer_state.slave = s.default_layer_state.shmem
  led_state : s.led_state.slave = s.led_state.shmem
  backlight_level : s.backlight_level.slave = s.backlight_level.shmem
  rgb_matrix_sync : s.rgb_matrix_sync.slave = s.rgb_matrix_sync.shmem
  haptic_sync : s.haptic_sync.slave = s.haptic_sync.shmem

def Arrives : SendStep → Prop
  | .change _ => True
  | .layer_state a b => a.arrives = true ∧ b.arrives = true
  | .led_state a | .backlight a | .rgb_matrix a | .haptic a => a.arrives = true

theorem agrees_step {s : Halves} (h : s.Agrees) {x : SendStep} (hx : Arrives x) :
    (s.step x).Agrees := by
  cases x with
  | change master => exact ⟨h.1, h.2, h.3, h.4, h.5, h.6⟩
  | layer_state a b =>
    have hokay := (Sent.send_okay_iff s.layer_state a s.master.layer_state).mpr fun _ => hx.1
    have hfirst := Sent.agree_of_arrives s.master.layer_state h.layer_state hx.1
    have hsecond := Sent.agree_of_arrives s.master.default_layer_state h.default_layer_state hx.2
    unfold Sent.send_if_data_mismatch at hokay hfirst hsecond
    simp only [step, layer_state_handlers_master, hokay, if_true]
    exact ⟨hfirst, hsecond, h.3, h.4, h.5, h.6⟩
  | led_state a => exact ⟨h.1, h.2, Sent.agree_of_arrives _ h.3 hx, h.4, h.5, h.6⟩
  | backlight a => exact ⟨h.1, h.2, h.3, Sent.agree_of_arrives _ h.4 hx, h.5, h.6⟩
  | rgb_matrix a => exact ⟨h.1, h.2, h.3, h.4, Sent.agree_of_arrives _ h.5 hx, h.6⟩
  | haptic a => exact ⟨h.1, h.2, h.3, h.4, h.5, Sent.agree_of_arrives _ h.6 hx⟩

theorem believed_of_agrees {s : Halves} (h : s.Agrees) {x : SendStep} (hx : Arrives x) :
    s.Believed x := by
  cases x with
  | change master => trivial
  | layer_state a b => exact .inr ⟨.inr h.layer_state, .inr h.default_layer_state⟩
  | led_state a => exact .inr h.led_state
  | backlight a => exact .inr h.backlight_level
  | rgb_matrix a => exact .inr h.rgb_matrix_sync
  | haptic a =>
    refine ⟨.inr h.haptic_sync, fun _ hfails => ?_⟩
    exact absurd (hfails.symm.trans hx) Bool.false_ne_true

/-- From halves that agree, every report of a run is right as long as its transfers arrive. -/
theorem reports_are_right_without_failures {s : Halves} (h : s.Agrees) {xs : List SendStep}
    (hxs : Along step (fun _ x => Arrives x) s xs) : Along step ReportsWhatIs s xs :=
  Along.imp (I := Agrees)
    (fun s x hs hx => ⟨(s.reports_iff_believed x).mpr (believed_of_agrees hs hx), agrees_step hs hx⟩)
    h hxs

theorem arriving_reports_are_right :
    Along step ReportsWhatIs caps_lock_on [.led_state ⟨50, 50, true⟩, .led_state ⟨60, 60, true⟩] :=
  reports_are_right_without_failures ⟨rfl, rfl, rfl, rfl, rfl, rfl⟩ ⟨rfl, rfl, trivial⟩

end Halves

end keychron_qmk.split
