-- When the callbacks run. The times are compared as signed differences of a
-- clock of 32 bits, so the task finds the entries whose time has come as long as
-- none is half a round of the clock away.
import KeychronQMK.Deferred.Tokens

namespace keychron_qmk.deferred_exec

open runs

/-! ## Times -/

/-- An entry whose time has come. -/
def deferred_executor_t.isDue (time : Nat) (x : deferred_executor_t) : Bool :=
  x.token ≠ INVALID_DEFERRED_TOKEN && x.due ≤ time

def firstDue (s : State) (i time : Nat) : Option Nat :=
  ((s.basic_executors.drop i).findIdx? (·.isDue time)).map (i + ·)

/-- The task runs once in a millisecond, and invokes the callbacks of the entries
whose time has come, slot by slot: none is early, and none is left out. -/
def Timely (s : State) (e : Event) : Prop :=
  match e.action with
  | .deferred_exec_task => s.loop = none → (step s e).loop.map (·.i) =
    if s.last_run < e.now then firstDue s 0 e.now else none
  | .callback_returns _ => ∀ l ∈ s.loop,
    (step s e).loop.map (·.i) = firstDue (step s e) (l.i + 1) l.time
  | _ => (step s e).loop = s.loop

/-- The clock does not go back, and the task is called at least every 2^31 ms. -/
def Clocked (s : State) (e : Event) : Prop :=
  s.last_run ≤ e.now ∧ match e.action with
  | .deferred_exec_task => e.now ≤ s.last_run + 2 ^ 31
  | _ => True

/-- From slot `i` on, each entry up to the first one whose time has come is less
than 2^31 ms ahead, and at most 2^31 ms late. -/
def InReach (s : State) (i time : Nat) : Prop :=
  ∀ j x, Occupied s (i + j) x →
    (∀ k < j, ∀ y, Occupied s (i + k) y → y.isDue time = false) →
      x.due < time + 2 ^ 31 ∧ time ≤ x.due + 2 ^ 31

/-- The task is called within less than 2^31 ms, and the loop meets entries in
reach. -/
def Paced (s : State) (e : Event) : Prop :=
  match e.action with
  | .deferred_exec_task => s.loop = none →
    e.now < s.last_run + 2 ^ 31 ∧ (s.last_run < e.now → InReach s 0 e.now)
  | .callback_returns _ => ∀ l ∈ s.loop, InReach s (l.i + 1) l.time
  | _ => True

/-- The clock of the table is the time in 32 bits. -/
structure InTime (s : State) : Prop where
  entry : ∀ i x, Occupied s i x → x.trigger_time = timer_read32 x.due
  loop : ∀ l ∈ s.loop, l.now = timer_read32 l.time
  check : s.last_deferred_exec_check = timer_read32 s.last_run

/-! ## The clock -/

theorem int32_sub {a b : Nat} (h : a < b + 2 ^ 31) (h' : b ≤ a + 2 ^ 31) :
    int32 (timer_read32 a - timer_read32 b) = (a : Int) - b := by
  unfold int32 timer_read32
  rw [UInt32.toNat_sub, UInt32.toNat_ofNat', UInt32.toNat_ofNat', Int.bmod_def]
  omega

theorem timer_read32_add (a : Nat) (delay_ms : UInt32) :
    timer_read32 a + delay_ms = timer_read32 (a + delay_ms.toNat) := by
  unfold timer_read32
  rw [UInt32.ofNat_add, UInt32.ofNat_toNat]

section

variable {s : State} {i : Nat} {x y : deferred_executor_t}

variable {time now : Nat}

theorem executes_eq (hx : x.trigger_time = timer_read32 x.due)
    (hreach : x.due < time + 2 ^ 31 ∧ time ≤ x.due + 2 ^ 31) :
    x.executes (timer_read32 time) = x.isDue time := by
  unfold deferred_executor_t.executes deferred_executor_t.isDue
  rw [hx, int32_sub hreach.1 hreach.2]
  congr 1
  rw [decide_eq_decide]
  omega

theorem findIdx?_congr {p q : deferred_executor_t → Bool} {table : List deferred_executor_t}
    (h : ∀ (j : Nat) x, table[j]? = some x →
      (∀ k < j, ∀ y, table[k]? = some y → q y = false) → p x = q x) :
    table.findIdx? p = table.findIdx? q := by
  induction table with
  | nil => rfl
  | cons a table ih =>
    have hfirst : p a = q a := h 0 a rfl fun k hk => absurd hk (Nat.not_lt_zero k)
    rw [List.findIdx?_cons, List.findIdx?_cons, hfirst]
    cases hq : q a with
    | true => rfl
    | false =>
      rw [ih fun j x hx hbefore => h (j + 1) x hx fun k hk y hy => ?_]
      cases k with
      | zero => exact Option.some.inj hy ▸ hq
      | succ k => exact hbefore k (Nat.lt_of_succ_lt_succ hk) y hy

theorem run_from_slot (hin : ∀ j x, Occupied s j x → x.trigger_time = timer_read32 x.due)
    (hreach : InReach s i time) :
    (run_from i (timer_read32 time) time s).loop.map (·.i) = firstDue s i time := by
  have hfind : (s.basic_executors.drop i).findIdx? (·.executes (timer_read32 time)) =
      (s.basic_executors.drop i).findIdx? (·.isDue time) := by
    refine findIdx?_congr fun j x hx hbefore => ?_
    rw [List.getElem?_drop] at hx
    by_cases htoken : x.token = INVALID_DEFERRED_TOKEN
    · simp [deferred_executor_t.executes, deferred_executor_t.isDue, htoken]
    · refine executes_eq (hin _ x ⟨hx, htoken⟩) (hreach j x ⟨hx, htoken⟩ fun k hk y hy => ?_)
      exact hbefore k hk y (by rw [List.getElem?_drop]; exact hy.1)
  unfold run_from firstDue
  rw [hfind]
  split
  · rename_i hnone
    rw [hnone]
    rfl
  · rename_i k hsome
    rw [hsome]
    rfl

/-! ## Steps -/

theorem put_of_none (h : s.basic_executors[i]? = none) : s.put i y = s := by
  unfold State.put
  rw [List.set_eq_of_length_le (List.getElem?_eq_none_iff.mp h)]

theorem InTime.put (h : InTime s) (hx : s.basic_executors[i]? = some x)
    (hy : y.token ≠ INVALID_DEFERRED_TOKEN → y.trigger_time = timer_read32 y.due) :
    InTime (s.put i y) := by
  refine ⟨fun j z hz => ?_, h.loop, h.check⟩
  rw [occupied_put hx] at hz
  split_ifs at hz
  · exact hz.1 ▸ hy hz.2
  · exact h.entry j z hz

theorem InTime.of_run_from (h : InTime s) (time : Nat) :
    InTime (run_from i (timer_read32 time) time s) := by
  have hloop : ∀ l ∈ (run_from i (timer_read32 time) time s).loop, l.now = timer_read32 l.time := by
    unfold run_from
    split
    · exact fun l hl => absurd hl (Option.not_mem_none l)
    · intro l hl
      rw [← Option.some.inj hl]
  obtain ⟨o, heq, -⟩ := run_from_spec i (timer_read32 time) time s
  rw [heq] at hloop ⊢
  exact ⟨h.entry, hloop, h.check⟩

theorem InReach.put (h : InReach s (i + 1) time) : InReach (s.put i y) (i + 1) time := by
  have hsame : ∀ j z, Occupied (s.put i y) (i + 1 + j) z ↔ Occupied s (i + 1 + j) z := by
    intro j z
    unfold Occupied State.put
    rw [List.getElem?_set_ne (by omega)]
  intro j z hz hbefore
  rw [hsame] at hz
  exact h j z hz fun k hk w hw => hbefore k hk w ((hsame k w).mpr hw)

theorem timely_run_from (h : InTime s) (time : Nat) (hreach : InReach s i time) :
    (run_from i (timer_read32 time) time s).loop.map (·.i) =
        firstDue (run_from i (timer_read32 time) time s) i time ∧
      InTime (run_from i (timer_read32 time) time s) := by
  refine ⟨?_, h.of_run_from time⟩
  rw [run_from_slot h.entry hreach]
  obtain ⟨o, heq, -⟩ := run_from_spec i (timer_read32 time) time s
  rw [heq]
  rfl

theorem timely_task (h : InTime s) (hclock : s.last_run ≤ now)
    (hpaced : Paced s ⟨now, .deferred_exec_task⟩) :
    Timely s ⟨now, .deferred_exec_task⟩ ∧ InTime (step s ⟨now, .deferred_exec_task⟩) := by
  unfold Timely step
  unfold deferred_exec_task
  cases hl : s.loop with
  | some l => exact ⟨fun hnone => absurd hnone (Option.some_ne_none l), h⟩
  | none =>
    obtain ⟨hgap, hreach⟩ := hpaced hl
    dsimp only
    rw [h.check, int32_sub (by omega) (by omega)]
    by_cases hlater : s.last_run < now
    · have hturn : InTime { s with
          last_run := now, last_deferred_exec_check := timer_read32 now } :=
        ⟨h.entry, h.loop, rfl⟩
      obtain ⟨hfirst, hin⟩ := timely_run_from hturn now (i := 0) (hreach hlater)
      rw [if_pos (by omega), if_pos hlater]
      refine ⟨fun _ => hfirst.trans ?_, hin⟩
      obtain ⟨o, heq, -⟩ := run_from_spec 0 (timer_read32 now) now
        { s with last_run := now, last_deferred_exec_check := timer_read32 now }
      rw [heq]
      rfl
    · have hsame : s.last_run = now := by omega
      rw [if_neg (by omega), if_neg hlater]
      refine ⟨fun _ => rfl, h.entry, fun l hl' => absurd hl' (Option.not_mem_none l), ?_⟩
      exact congrArg timer_read32 hsame

theorem timely_return (h : InTime s) {delay_ms : UInt32}
    (hpaced : Paced s ⟨now, .callback_returns delay_ms⟩) :
    Timely s ⟨now, .callback_returns delay_ms⟩ ∧
      InTime (step s ⟨now, .callback_returns delay_ms⟩) := by
  unfold Timely step
  unfold callback_returns
  cases hl : s.loop with
  | none => exact ⟨fun l hl' => absurd hl' (Option.not_mem_none l), h⟩
  | some l =>
    have hreach := hpaced l hl
    dsimp only
    rw [h.loop l hl]
    generalize ht : (if (s.basic_executors.getD l.i unused).token ≠ l.curr_token then s
      else if 0 < delay_ms then s.put l.i { s.basic_executors.getD l.i unused with
        trigger_time := (s.basic_executors.getD l.i unused).trigger_time + delay_ms
        due := (s.basic_executors.getD l.i unused).due + delay_ms.toNat }
      else s.put l.i unused) = t
    suffices hgoal : InTime t ∧ InReach t (l.i + 1) l.time by
      obtain ⟨hfirst, hin⟩ := timely_run_from hgoal.1 _ hgoal.2
      refine ⟨fun l' hl' => ?_, hin⟩
      rw [← Option.some.inj hl']
      exact hfirst
    split_ifs at ht with hended hdelay
    · exact ht ▸ ⟨h, hreach⟩
    · -- the entry waits from the time that it waited for
      cases hslot : s.basic_executors[l.i]? with
      | none =>
        rw [put_of_none hslot] at ht
        exact ht ▸ ⟨h, hreach⟩
      | some x =>
        rw [getD_eq hslot] at ht
        refine ht ▸ ⟨h.put hslot fun htoken => ?_, hreach.put⟩
        rw [h.entry l.i x ⟨hslot, htoken⟩, timer_read32_add]
    · refine ht ▸ ⟨⟨fun j z hz => ?_, h.loop, h.check⟩, hreach.put⟩
      cases hslot : s.basic_executors[l.i]? with
      | none =>
        rw [put_of_none hslot] at hz
        exact h.entry j z hz
      | some x => exact (h.put hslot fun htoken => absurd rfl htoken).entry j z hz

theorem timely_step (h : InTime s) {e : Event} (hclock : Clocked s e) (hpaced : Paced s e) :
    Timely s e ∧ InTime (step s e) := by
  obtain ⟨now, action⟩ := e
  cases action with
  | defer_exec delay_ms callback cb_arg =>
    unfold Timely step
    dsimp only
    rcases defer_exec_cases now s delay_ms callback cb_arg with
      ⟨-, token, heq⟩ | ⟨i, x, y, hi, -, hy, -, -, heq⟩
    · rw [heq]
      exact ⟨rfl, h.entry, h.loop, h.check⟩
    · obtain ⟨hentry, hloop, hcheck⟩ := h.put (y := y) hi fun _ => by
        rw [hy, timer_read32_add]
      rw [heq]
      exact ⟨rfl, hentry, hloop, hcheck⟩
  | extend_deferred_exec token delay_ms =>
    unfold Timely step
    dsimp only
    rcases extend_cases now s token delay_ms with ⟨heq, -⟩ | ⟨i, x, hx, -, -, heq⟩
    · rw [heq]
      exact ⟨rfl, h⟩
    · rw [heq]
      exact ⟨rfl, h.put hx.1 fun _ => timer_read32_add _ _⟩
  | cancel_deferred_exec token =>
    unfold Timely step
    dsimp only
    rcases cancel_cases s token with ⟨heq, -⟩ | ⟨i, x, hx, -, heq⟩
    · rw [heq]
      exact ⟨rfl, h⟩
    · rw [heq]
      exact ⟨rfl, h.put hx.1 fun htoken => absurd rfl htoken⟩
  | deferred_exec_task => exact timely_task h hclock.1 hpaced
  | callback_returns delay_ms => exact timely_return h hpaced

theorem InTime.boot (n : Nat) : InTime (State.boot n) :=
  ⟨fun i x hx => absurd hx (boot_free n i x), fun l hl => absurd hl (Option.not_mem_none l), rfl⟩

end

/-- In every run in which the task is called within less than 2^31 ms and meets
entries in reach, it invokes the callbacks on time. -/
theorem callbacks_are_timely (MAX_DEFERRED_EXECUTORS : Nat) (events : List Event)
    (hclock : Along step Clocked (State.boot MAX_DEFERRED_EXECUTORS) events)
    (hpaced : Along step Paced (State.boot MAX_DEFERRED_EXECUTORS) events) :
    Along step Timely (State.boot MAX_DEFERRED_EXECUTORS) events :=
  Along.imp (I := InTime) (C := fun s e => Clocked s e ∧ Paced s e)
    (fun _ _ h hc => timely_step h hc.1 hc.2) (.boot _) (Along.and.mpr ⟨hclock, hpaced⟩)

theorem InReach.of_all {s : State} {i time : Nat}
    (h : ∀ x ∈ s.basic_executors.drop i, x.due < time + 2 ^ 31 ∧ time ≤ x.due + 2 ^ 31) :
    InReach s i time := by
  intro j x hx _
  refine h x (List.mem_iff_getElem?.mpr ⟨j, ?_⟩)
  rw [List.getElem?_drop]
  exact hx.1

def deferredOnce : List Event :=
  [⟨0, .defer_exec 10 1 NULL⟩, ⟨10, .deferred_exec_task⟩, ⟨10, .callback_returns 0⟩]

theorem a_callback_is_timely : Along step Timely (State.boot 1) deferredOnce := by
  refine callbacks_are_timely 1 deferredOnce ⟨⟨by decide, trivial⟩, ⟨by decide, by decide⟩,
    ⟨by decide, trivial⟩, trivial⟩ ⟨trivial, fun _ => ⟨by decide, fun _ => ?_⟩, fun l hl => ?_, trivial⟩
  · exact InReach.of_all (by decide)
  · rw [← Option.some.inj hl]
    exact InReach.of_all (by decide)

/-- A delay of more than half a round of the clock is over at once. -/
theorem a_long_delay_is_early : ¬ ∀ events, Along step Clocked (State.boot 8) events →
    Along step Timely (State.boot 8) events := by
  intro h
  have hrun := h [⟨0, .defer_exec 0x80000001 1 NULL⟩, ⟨1, .deferred_exec_task⟩]
    ⟨⟨by decide, trivial⟩, ⟨by decide, by decide⟩, trivial⟩
  exact absurd (hrun.2.1 rfl) (by decide)

end keychron_qmk.deferred_exec
