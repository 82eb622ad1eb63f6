-- The debounce algorithms of `common/debounce` and `keychron_debounce.c`,
-- which chooses one of them at runtime. A row of the matrix is a function
-- from its columns to the state of a key.
import Mathlib.Data.Fintype.Prod
import Mathlib.Data.Fintype.Pi

namespace keychron_qmk.keychron_debounce

abbrev Row (C : Nat) := Fin C → Bool

abbrev Matrix (R C : Nat) := Fin R → Row C

def timer_read_fast (clock : Nat) : UInt32 := .ofNat clock

def timer_read (clock : Nat) : UInt16 := .ofNat clock

/-! ## Counters -/

/-- A counter of a key or of a row. Only `asym_eager_defer_pk.c` has the
field `pressed`. -/
structure debounce_counter_t where
  pressed : Bool
  time : UInt8
  deriving DecidableEq

def DEBOUNCE_ELAPSED : UInt8 := 0

/-- The static variables of an algorithm with a counter for each `κ`. -/
structure Counters (κ : Type) where
  debounce_counters : κ → debounce_counter_t
  last_time : UInt32
  counters_need_update : Bool
  matrix_need_update : Bool

/-- What a function of an algorithm does to one cell: its counter, its cooked
state, and a flag. -/
structure Cell (ν : Type) where
  counter : debounce_counter_t
  cooked : ν
  flag : Bool

/-- How an algorithm treats a cell with the state `ν`. -/
structure Rules (ν : Type) where
  /-- The cooked state once the counter expires, and whether the values of
  the matrix are to be transferred. -/
  expire : debounce_counter_t → (raw cooked : ν) → ν × Bool
  /-- The transfer of a cell, and whether its counter starts. -/
  transfer : (debounce_time : UInt8) → debounce_counter_t → (raw cooked : ν) → Cell ν

section Engine

variable {κ ν : Type} [Fintype κ]

/-- The milliseconds since the last call, at most `UINT8_MAX`. -/
def elapsed_time (now last_time : UInt32) : UInt8 :=
  if 255 < now - last_time then 255 else (now - last_time).toUInt8

def update_cell (rules : Rules ν) (elapsed : UInt8) (c : debounce_counter_t) (raw cooked : ν) :
    Cell ν :=
  if c.time ≠ DEBOUNCE_ELAPSED then
    if c.time ≤ elapsed then
      let (cooked, need) := rules.expire c raw cooked
      ⟨{ c with time := DEBOUNCE_ELAPSED }, cooked, need⟩
    else ⟨{ c with time := c.time - elapsed }, cooked, false⟩
  else ⟨c, cooked, false⟩

def update_debounce_counters (rules : Rules ν) (s : Counters κ) (elapsed : UInt8)
    (raw cooked : κ → ν) : Counters κ × (κ → ν) :=
  let cell k := update_cell rules elapsed (s.debounce_counters k) (raw k) (cooked k)
  ({ s with
      debounce_counters := fun k => (cell k).counter
      counters_need_update := decide (∃ k, (cell k).counter.time ≠ DEBOUNCE_ELAPSED)
      matrix_need_update := decide (∃ k, (cell k).flag = true) },
    fun k => (cell k).cooked)

def transfer_matrix_values (rules : Rules ν) (s : Counters κ) (debounce_time : UInt8)
    (raw cooked : κ → ν) : Counters κ × (κ → ν) :=
  let cell k := rules.transfer debounce_time (s.debounce_counters k) (raw k) (cooked k)
  ({ s with
      debounce_counters := fun k => (cell k).counter
      counters_need_update := s.counters_need_update || decide (∃ k, (cell k).flag = true)
      matrix_need_update := false },
    fun k => (cell k).cooked)

/-- The counters are brought up to date, where one may be running. -/
def Counters.tick (rules : Rules ν) (s : Counters κ) (now : UInt32) (raw cooked : κ → ν) :
    Counters κ × (κ → ν) :=
  if s.counters_need_update then
    let elapsed := elapsed_time now s.last_time
    let s := { s with last_time := now }
    if 0 < elapsed then update_debounce_counters rules s elapsed raw cooked else (s, cooked)
  else (s, cooked)

def Counters.debounce (rules : Rules ν) (s : Counters κ) (debounce_time : UInt8) (now : UInt32)
    (raw cooked : κ → ν) (changed : Bool) : Counters κ × (κ → ν) :=
  let updated_last := s.counters_need_update
  let (s, cooked) := s.tick rules now raw cooked
  if changed || s.matrix_need_update then
    let s := if updated_last then s else { s with last_time := now }
    transfer_matrix_values rules s debounce_time raw cooked
  else (s, cooked)

/-- The counters are allocated and cleared; nothing else is. -/
def Counters.init (s : Counters κ) : Counters κ :=
  { s with debounce_counters := fun k => { s.debounce_counters k with time := DEBOUNCE_ELAPSED } }

end Engine

def deferRules : Rules Bool where
  expire _ raw _ := (raw, false)
  transfer debounce_time c raw cooked :=
    if raw ≠ cooked then
      if c.time = DEBOUNCE_ELAPSED then ⟨{ c with time := debounce_time }, cooked, true⟩
      else ⟨c, cooked, false⟩
    else ⟨{ c with time := DEBOUNCE_ELAPSED }, cooked, false⟩

/-- `sym_eager_pk.c` and `sym_eager_pr.c`: a change is cooked at once, and
locks the cell. -/
def eagerRules (ν : Type) [DecidableEq ν] : Rules ν where
  expire _ _ cooked := (cooked, true)
  transfer debounce_time c raw cooked :=
    if raw ≠ cooked ∧ c.time = DEBOUNCE_ELAPSED then ⟨{ c with time := debounce_time }, raw, true⟩
    else ⟨c, cooked, false⟩

/-- `asym_eager_defer_pk.c`: eager on a press, and deferring on a release. -/
def asymRules : Rules Bool where
  expire c raw cooked := if c.pressed then (cooked, true) else (raw, false)
  transfer debounce_time c raw cooked :=
    if raw ≠ cooked then
      if c.time = DEBOUNCE_ELAPSED then
        -- The time is a bit field of 7 bits.
        ⟨⟨raw, debounce_time % 128⟩, if raw then !cooked else cooked, true⟩
      else ⟨c, cooked, false⟩
    else if c.time ≠ DEBOUNCE_ELAPSED ∧ c.pressed = false then
      ⟨{ c with time := DEBOUNCE_ELAPSED }, cooked, false⟩
    else ⟨c, cooked, false⟩

/-! ## Algorithms without counters -/

/-- The static variables of `sym_defer_g.c`. -/
structure GlobalDefer where
  debouncing : Bool
  debouncing_time : UInt32

/-- The static variables of `sym_defer_pr.c`. -/
structure RowDefer (R C : Nat) where
  last_time : UInt16
  countdowns : Fin R → UInt8
  last_raw : Matrix R C

section Rest

variable {R C : Nat}

def none_debounce (raw cooked : Matrix R C) (changed : Bool) : Matrix R C :=
  if changed then raw else cooked

def sym_defer_g_debounce (s : GlobalDefer) (debounce_time : UInt8) (now : UInt32)
    (raw cooked : Matrix R C) (changed : Bool) : GlobalDefer × Matrix R C :=
  if changed then (⟨true, now⟩, cooked)
  else if s.debouncing ∧ debounce_time.toUInt32 ≤ now - s.debouncing_time then
    ({ s with debouncing := false }, raw)
  else (s, cooked)

def sym_defer_pr_debounce_init (clock : Nat) : RowDefer R C :=
  ⟨timer_read clock, fun _ => 0, fun _ _ => false⟩

def defer_row (debounce_time elapsed countdown : UInt8) (last_raw raw cooked : Row C) :
    UInt8 × Row C :=
  if raw ≠ last_raw then (debounce_time, cooked)
  else if elapsed < countdown then (countdown - elapsed, cooked)
  else if countdown ≠ 0 then (0, raw)
  else (countdown, cooked)

def sym_defer_pr_debounce (s : RowDefer R C) (debounce_time : UInt8) (now : UInt16)
    (raw cooked : Matrix R C) : RowDefer R C × Matrix R C :=
  let elapsed16 := now - s.last_time
  let elapsed := if 255 < elapsed16 then 255 else elapsed16.toUInt8
  let row r := defer_row debounce_time elapsed (s.countdowns r) (s.last_raw r) (raw r) (cooked r)
  -- A row that differs from the last one is the last one now.
  (⟨now, fun r => (row r).1, raw⟩, fun r => (row r).2)

end Rest

/-! ## The choice of the algorithm -/

inductive DebounceType
  | DEBOUNCE_SYM_DEFER_GLOBAL
  | DEBOUNCE_SYM_DEFER_PER_ROW
  | DEBOUNCE_SYM_DEFER_PER_KEY
  | DEBOUNCE_SYM_EAGER_PER_ROW
  | DEBOUNCE_SYM_EAGER_PER_KEY
  | DEBOUNCE_ASYM_EAGER_DEFER_PER_KEY
  | DEBOUNCE_NONE
  deriving DecidableEq

def DebounceType.ofByte (x : UInt8) : Option DebounceType :=
  [.DEBOUNCE_SYM_DEFER_GLOBAL, .DEBOUNCE_SYM_DEFER_PER_ROW, .DEBOUNCE_SYM_DEFER_PER_KEY,
    .DEBOUNCE_SYM_EAGER_PER_ROW, .DEBOUNCE_SYM_EAGER_PER_KEY, .DEBOUNCE_ASYM_EAGER_DEFER_PER_KEY,
    .DEBOUNCE_NONE][x.toNat]?

def DEFAULT_DEBOUNCE_TYPE : DebounceType := .DEBOUNCE_SYM_EAGER_PER_KEY
def DEBOUNCE : UInt8 := 5

/-- The static variables of the algorithms, and the two matrices. -/
structure Debouncer (R C : Nat) where
  debounce_type : DebounceType
  debounce_time : UInt8
  debounce_func : DebounceType
  sym_defer_g : GlobalDefer
  sym_defer_pr : RowDefer R C
  sym_defer_pk : Counters (Fin R × Fin C)
  sym_eager_pr : Counters (Fin R)
  sym_eager_pk : Counters (Fin R × Fin C)
  asym_eager_defer_pk : Counters (Fin R × Fin C)
  raw_matrix : Matrix R C
  matrix : Matrix R C

namespace Debouncer

variable {R C : Nat} (d : Debouncer R C)

def debounce (clock : Nat) (changed : Bool) : Debouncer R C :=
  let now := timer_read_fast clock
  let raw (k : Fin R × Fin C) := d.raw_matrix k.1 k.2
  let cooked (k : Fin R × Fin C) := d.matrix k.1 k.2
  match d.debounce_func with
  | .DEBOUNCE_NONE => { d with matrix := none_debounce d.raw_matrix d.matrix changed }
  | .DEBOUNCE_SYM_DEFER_GLOBAL =>
    let (s, matrix) := sym_defer_g_debounce d.sym_defer_g d.debounce_time now d.raw_matrix d.matrix
      changed
    { d with sym_defer_g := s, matrix }
  | .DEBOUNCE_SYM_DEFER_PER_ROW =>
    let (s, matrix) := sym_defer_pr_debounce d.sym_defer_pr d.debounce_time (timer_read clock)
      d.raw_matrix d.matrix
    { d with sym_defer_pr := s, matrix }
  | .DEBOUNCE_SYM_DEFER_PER_KEY =>
    let (s, matrix) := d.sym_defer_pk.debounce deferRules d.debounce_time now raw cooked changed
    { d with sym_defer_pk := s, matrix := fun r c => matrix (r, c) }
  | .DEBOUNCE_SYM_EAGER_PER_ROW =>
    let (s, matrix) := d.sym_eager_pr.debounce (eagerRules (Row C)) d.debounce_time now
      d.raw_matrix d.matrix changed
    { d with sym_eager_pr := s, matrix }
  | .DEBOUNCE_SYM_EAGER_PER_KEY =>
    let (s, matrix) := d.sym_eager_pk.debounce (eagerRules Bool) d.debounce_time now raw cooked
      changed
    { d with sym_eager_pk := s, matrix := fun r c => matrix (r, c) }
  | .DEBOUNCE_ASYM_EAGER_DEFER_PER_KEY =>
    let (s, matrix) := d.asym_eager_defer_pk.debounce asymRules d.debounce_time now raw cooked
      changed
    { d with asym_eager_defer_pk := s, matrix := fun r c => matrix (r, c) }

/-- `matrix_scan` on what the pins read: `changed` is true when the raw
matrix is another than the last one. -/
def matrix_scan (clock : Nat) (curr_matrix : Matrix R C) : Debouncer R C :=
  let changed := decide (d.raw_matrix ≠ curr_matrix)
  { d with raw_matrix := curr_matrix }.debounce clock changed

/-- The init function of the algorithm. What an algorithm freed before is
allocated anew, so freeing does nothing here. -/
def debounce_init (clock : Nat) : Debouncer R C :=
  match d.debounce_func with
  | .DEBOUNCE_NONE | .DEBOUNCE_SYM_DEFER_GLOBAL => d
  | .DEBOUNCE_SYM_DEFER_PER_ROW => { d with sym_defer_pr := sym_defer_pr_debounce_init clock }
  | .DEBOUNCE_SYM_DEFER_PER_KEY => { d with sym_defer_pk := d.sym_defer_pk.init }
  | .DEBOUNCE_SYM_EAGER_PER_ROW => { d with sym_eager_pr := d.sym_eager_pr.init }
  | .DEBOUNCE_SYM_EAGER_PER_KEY => { d with sym_eager_pk := d.sym_eager_pk.init }
  | .DEBOUNCE_ASYM_EAGER_DEFER_PER_KEY =>
    { d with asym_eager_defer_pk := d.asym_eager_defer_pk.init }

def debounce_set (clock : Nat) (new_debounce_type : DebounceType) (time : UInt8) (force : Bool) :
    Debouncer R C :=
  if new_debounce_type = d.debounce_type ∧ time = d.debounce_time ∧ force = false then d
  else
    let func : DebounceType := if time = 0 then .DEBOUNCE_NONE else new_debounce_type
    { d with
      debounce_type := new_debounce_type
      debounce_time :=
        if func = DebounceType.DEBOUNCE_ASYM_EAGER_DEFER_PER_KEY ∧ 127 < time then 127 else time
      debounce_func := func }.debounce_init clock

def debounce_rx (clock : Nat) (type time : UInt8) : Debouncer R C :=
  match DebounceType.ofByte type with
  | some type => d.debounce_set clock type time false
  | none => d

def debounce_config_reset (clock : Nat) : Debouncer R C :=
  d.debounce_set clock DEFAULT_DEBOUNCE_TYPE DEBOUNCE true

/-- The variables at power-up, before `debounce_init`. -/
def zero (R C : Nat) : Debouncer R C where
  debounce_type := .DEBOUNCE_SYM_DEFER_GLOBAL
  debounce_time := 0
  debounce_func := .DEBOUNCE_NONE
  sym_defer_g := ⟨false, 0⟩
  sym_defer_pr := ⟨0, fun _ => 0, fun _ _ => false⟩
  sym_defer_pk := ⟨fun _ => ⟨false, 0⟩, 0, false, false⟩
  sym_eager_pr := ⟨fun _ => ⟨false, 0⟩, 0, false, false⟩
  sym_eager_pk := ⟨fun _ => ⟨false, 0⟩, 0, false, false⟩
  asym_eager_defer_pk := ⟨fun _ => ⟨false, 0⟩, 0, false, false⟩
  raw_matrix := fun _ _ => false
  matrix := fun _ _ => false

/-- `debounce_init` of `keychron_debounce.c` with the two bytes of the EEPROM. -/
def start (R C : Nat) (type time : UInt8) : Debouncer R C :=
  let type := (DebounceType.ofByte type).getD DEFAULT_DEBOUNCE_TYPE
  (zero R C).debounce_set 0 type time (decide (type = .DEBOUNCE_SYM_DEFER_GLOBAL))

end Debouncer

/-! ## Runs -/

def Counters.elapsed {κ : Type} (s : Counters κ) (now : UInt32) : UInt8 :=
  if s.counters_need_update then elapsed_time now s.last_time else 0

/-- The lock of a press ends in a call, on a key that differs from its cooked
state. In the lock `asym_eager_defer_pk.c` accepts no input of the key. -/
def Unlocks (c : debounce_counter_t) (elapsed : UInt8) (raw cooked : Bool) : Prop :=
  c.pressed = true ∧ c.time ≠ 0 ∧ c.time ≤ elapsed ∧ raw ≠ cooked

instance (c : debounce_counter_t) (elapsed : UInt8) (raw cooked : Bool) :
    Decidable (Unlocks c elapsed raw cooked) :=
  inferInstanceAs (Decidable (_ ∧ _ ∧ _ ∧ _))

/-- A scan in which the lock of a press ends so. -/
def Debouncer.unlocks {R C : Nat} (d : Debouncer R C) (clock : Nat) (curr_matrix : Matrix R C) :
    Prop :=
  d.debounce_func = .DEBOUNCE_ASYM_EAGER_DEFER_PER_KEY ∧ ∃ k : Fin R × Fin C,
    Unlocks (d.asym_eager_defer_pk.debounce_counters k)
      (d.asym_eager_defer_pk.elapsed (timer_read_fast clock)) (curr_matrix k.1 k.2)
      (d.matrix k.1 k.2)

instance {R C : Nat} (d : Debouncer R C) (clock : Nat) (curr_matrix : Matrix R C) :
    Decidable (d.unlocks clock curr_matrix) := inferInstanceAs (Decidable (_ ∧ _))

/-- A debouncer, the time, and since when the raw matrix is constant as the
algorithm sees it: with no lock of a press that hides a release. -/
structure Run (R C : Nat) where
  debouncer : Debouncer R C
  clock : Nat
  scanned_at : Nat
  still_since : Nat

inductive Input (R C : Nat)
  | wait (ms : Nat)
  | scan (curr_matrix : Matrix R C)
  /-- The host sends DEBOUNCE_SET. -/
  | set (type time : UInt8)
  | reset

def Run.step {R C : Nat} (s : Run R C) : Input R C → Run R C
  | .wait ms => { s with clock := s.clock + ms }
  | .scan curr_matrix => {
      debouncer := s.debouncer.matrix_scan s.clock curr_matrix
      clock := s.clock
      scanned_at := s.clock
      still_since :=
        if s.debouncer.raw_matrix = curr_matrix ∧ ¬ s.debouncer.unlocks s.clock curr_matrix
        then s.still_since else s.clock }
  | .set type time => { s with debouncer := s.debouncer.debounce_rx s.clock type time }
  | .reset => { s with debouncer := s.debouncer.debounce_config_reset s.clock }

def Run.start (R C : Nat) (type time : UInt8) : Run R C := ⟨.start R C type time, 0, 0, 0⟩

end keychron_qmk.keychron_debounce
