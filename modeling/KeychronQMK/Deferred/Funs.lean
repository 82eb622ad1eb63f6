-- Deferred execution, after `deferred_exec.c`: a table of callbacks, each with
-- a token and the time that it waits for. A callback runs within the loop of the
-- task, and may defer, extend and cancel before it returns.
import Mathlib.Algebra.Ring.Nat
import Mathlib.Data.List.Basic

namespace keychron_qmk.deferred_exec

def INVALID_DEFERRED_TOKEN : UInt8 := 0

/-- `NULL` is 0. -/
abbrev Pointer := Nat

def NULL : Pointer := 0

/-! ## State -/

/-- An entry of the table. The number of the entry among all that were made, and
the time since the boot that it waits for, are ghosts. -/
structure deferred_executor_t where
  token : UInt8
  trigger_time : UInt32
  callback : Pointer
  cb_arg : Pointer
  serial : Nat
  due : Nat
  deriving DecidableEq

/-- A slot that is not occupied. -/
def unused : deferred_executor_t := ⟨INVALID_DEFERRED_TOKEN, 0, NULL, NULL, 0, 0⟩

/-- The loop of the task, in the callback of slot `i`: `now`, `curr_token`, and as
ghosts the time of `now` since the boot and the number of the entry. -/
structure Loop where
  now : UInt32
  i : Nat
  curr_token : UInt8
  time : Nat
  serial : Nat
  deriving DecidableEq

/-- The static variables, and the loop while a callback runs. The number of the
entries so far and the time of the last turn of the task are ghosts. -/
structure State where
  current_token : UInt8
  basic_executors : List deferred_executor_t
  last_deferred_exec_check : UInt32
  loop : Option Loop
  created : Nat
  last_run : Nat
  deriving DecidableEq

def State.boot (MAX_DEFERRED_EXECUTORS : Nat) : State :=
  ⟨0, List.replicate MAX_DEFERRED_EXECUTORS unused, 0, none, 0, 0⟩

/-! ## Tokens -/

def token_can_be_used (table : List deferred_executor_t) (token : UInt8) : Bool :=
  token ≠ INVALID_DEFERRED_TOKEN && table.all fun e => e.token ≠ token

/-- The loop of `allocate_token`: the token, and `current_token`. It comes back
to `first` after all tokens. -/
def allocate_from (table : List deferred_executor_t) (first : UInt8) : Nat → UInt8 → UInt8 × UInt8
  | 0, current_token => (INVALID_DEFERRED_TOKEN, current_token)
  | turns + 1, current_token =>
    if token_can_be_used table current_token then (current_token, current_token)
    else if current_token + 1 = first then (INVALID_DEFERRED_TOKEN, current_token + 1)
    else allocate_from table first turns (current_token + 1)

def allocate_token (table : List deferred_executor_t) (current_token : UInt8) : UInt8 × UInt8 :=
  allocate_from table (current_token + 1) 256 (current_token + 1)

/-! ## Calls -/

section

variable (now : Nat) (s : State)

/-- The milliseconds since the boot, in 32 bits. -/
def timer_read32 : UInt32 := .ofNat now

/-- A slot is written. -/
def State.put (i : Nat) (entry : deferred_executor_t) : State :=
  { s with basic_executors := s.basic_executors.set i entry }

def defer_exec (delay_ms : UInt32) (callback cb_arg : Pointer) : UInt8 × State :=
  if s.basic_executors.length = 0 ∨ delay_ms = 0 ∨ callback = NULL then (INVALID_DEFERRED_TOKEN, s)
  else
    match s.basic_executors.findIdx? fun e => e.token = INVALID_DEFERRED_TOKEN with
    | none => (INVALID_DEFERRED_TOKEN, s)
    | some i =>
      let (token, current_token) := allocate_token s.basic_executors s.current_token
      let s := { s with current_token }
      if token = INVALID_DEFERRED_TOKEN then (INVALID_DEFERRED_TOKEN, s)
      else
        (current_token, { s.put i ⟨current_token, timer_read32 now + delay_ms, callback, cb_arg,
          s.created, now + delay_ms.toNat⟩ with created := s.created + 1 })

def extend_deferred_exec (token : UInt8) (delay_ms : UInt32) : Bool × State :=
  if s.basic_executors.length = 0 ∨ delay_ms = 0 ∨ token = INVALID_DEFERRED_TOKEN then (false, s)
  else
    match s.basic_executors.findIdx? fun e => e.token = token with
    | none => (false, s)
    | some i =>
      let entry := s.basic_executors.getD i unused
      (true, s.put i { entry with
        trigger_time := timer_read32 now + delay_ms, due := now + delay_ms.toNat })

def cancel_deferred_exec (token : UInt8) : Bool × State :=
  if s.basic_executors.length = 0 ∨ token = INVALID_DEFERRED_TOKEN then (false, s)
  else
    match s.basic_executors.findIdx? fun e => e.token = token with
    | none => (false, s)
    | some i => (true, s.put i unused)

/-! ## The task -/

/-- A 32-bit value as a signed one. -/
def int32 (x : UInt32) : Int := (x.toNat : Int).bmod (2 ^ 32)

def deferred_executor_t.executes (now : UInt32) (e : deferred_executor_t) : Bool :=
  e.token ≠ INVALID_DEFERRED_TOKEN && int32 (e.trigger_time - now) ≤ 0

/-- The loop from slot `i` on, up to the next callback. -/
def run_from (i : Nat) (now : UInt32) (time : Nat) (s : State) : State :=
  match (s.basic_executors.drop i).findIdx? (·.executes now) with
  | none => { s with loop := none }
  | some k =>
    let entry := s.basic_executors.getD (i + k) unused
    { s with loop := some ⟨now, i + k, entry.token, time, entry.serial⟩ }

def deferred_exec_task : State :=
  match s.loop with
  | some _ => s
  | none =>
    let last := s.last_deferred_exec_check
    let s := { s with last_run := now }
    if 0 < int32 (timer_read32 now - last) then
      run_from 0 (timer_read32 now) now { s with last_deferred_exec_check := timer_read32 now }
    else s

def callback_returns (delay_ms : UInt32) : State :=
  match s.loop with
  | none => s
  | some l =>
    let entry := s.basic_executors.getD l.i unused
    let s :=
      -- canceled, and perhaps queued again
      if entry.token ≠ l.curr_token then s
      else if 0 < delay_ms then
        s.put l.i { entry with
          trigger_time := entry.trigger_time + delay_ms, due := entry.due + delay_ms.toNat }
      else s.put l.i unused
    run_from (l.i + 1) l.now l.time s

/-! ## Runs -/

/-- A call, by a callback or by other code, or a callback that returns. -/
inductive Action
  | defer_exec (delay_ms : UInt32) (callback cb_arg : Pointer)
  | extend_deferred_exec (token : UInt8) (delay_ms : UInt32)
  | cancel_deferred_exec (token : UInt8)
  | deferred_exec_task
  | callback_returns (delay_ms : UInt32)

/-- An action at a time, in milliseconds since the boot. -/
structure Event where
  now : Nat
  action : Action

def step (e : Event) : State :=
  match e.action with
  | .defer_exec delay_ms callback cb_arg => (defer_exec e.now s delay_ms callback cb_arg).2
  | .extend_deferred_exec token delay_ms => (extend_deferred_exec e.now s token delay_ms).2
  | .cancel_deferred_exec token => (cancel_deferred_exec s token).2
  | .deferred_exec_task => deferred_exec_task e.now s
  | .callback_returns delay_ms => callback_returns s delay_ms

end

end keychron_qmk.deferred_exec
