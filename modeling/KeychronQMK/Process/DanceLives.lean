-- The life of a tap dance, from its first tap until it is reset. The calls of each
-- dance are read as such lives, as long as no dance is tapped 256 times and no
-- callback resets a dance that the code goes on with.
import KeychronQMK.Process.TapDance

namespace keychron_qmk.tap_dance

open runs

/-! ## Lives -/

/-- The taps since the dance started, whether `on_dance_finished` was called, and
whether the key is down. -/
structure Life where
  taps : Nat
  finished : Bool
  down : Bool

namespace Life

/-- Before the first tap. -/
def unborn : Life := ⟨0, false, false⟩

def next (l : Life) : Call → Life
  | .pressed => { l with down := true }
  | .released => { l with down := false }
  | .on_each_tap _ => { l with taps := l.taps + 1 }
  | .on_each_release => l
  | .on_dance_finished _ => { l with finished := true }
  | .on_reset _ => { l with taps := 0, finished := false }

/-- The count is the number of taps, `on_dance_finished` is called at most once,
and the dance is reset once, with the key up. -/
def Allows (l : Life) : Call → Prop
  | .pressed => True
  | .released => True
  | .on_each_tap count => count.toNat = l.taps + 1
  | .on_each_release => 0 < l.taps
  | .on_dance_finished count => 0 < l.taps ∧ l.finished = false ∧ count.toNat = l.taps
  | .on_reset count => 0 < l.taps ∧ l.down = false ∧ count.toNat = l.taps

end Life

def State.life (s : State) (i : Nat) : Life := (s.calls i).foldl Life.next .unborn

/-- The calls of each dance are lives, its count is the number of taps, it is clear
before the first tap, and the one that is not finished is the active one. -/
structure Right (cfg : Config) (s : State) : Prop where
  allowed : ∀ i, Along Life.next Life.Allows .unborn (s.calls i)
  count : ∀ i, (s.actions i).count.toNat = (s.life i).taps
  clear : ∀ i, (s.life i).taps = 0 → s.actions i = .zero
  active : ∀ i, 0 < (s.life i).taps → (s.actions i).finished = false →
    dance? cfg s.active_td = some i

/-! ## Conditions -/

section

variable (cfg : Config) (s : State)

/-- The key of a dance is pressed and released in turn. -/
def Alternates (e : Event) : Prop :=
  match e with
  | .press _ keycode keycode_again _ _ _ _ =>
    ∀ i ∈ dance? cfg (looked_up s keycode keycode_again), (s.life i).down = false
  | .release keycode _ => ∀ i ∈ dance? cfg keycode, (s.life i).down = true
  | .tick _ _ => True

/-- No dance is tapped for the 256th time, `on_each_tap` and `on_dance_finished` do
not call `reset_tap_dance`, and `on_each_release` does while no other dance is
active. -/
def Regular (e : Event) : Prop :=
  match e with
  | .press _ keycode keycode_again _ _ on_dance_finished on_each_tap =>
    (¬ (s.active_td = 0 ∨ keycode = s.active_td) → on_dance_finished ≠ .resets) ∧
      ∀ i ∈ dance? cfg (looked_up s keycode keycode_again), on_each_tap ≠ .resets ∧
        ((preprocess_tap_dance s keycode on_dance_finished).2.actions i).count ≠ 255
  | .release keycode on_each_release => (dance? cfg keycode).isSome → on_each_release = .resets →
    s.active_td = 0 ∨ s.active_td = keycode
  | .tick now on_dance_finished => times_out cfg s now = true → on_dance_finished ≠ .resets

structure Alive (state : tap_dance_state_t) (l : Life) : Prop where
  count : state.count.toNat = l.taps
  clear : l.taps = 0 → state = .zero
  called : l.finished = true → state.finished = true
  down : state.pressed = l.down
  dancing : l.down = true → 0 < l.taps
  held : state.finished = true → state.pressed = true
  interrupted : state.interrupted = true → state.finished = true

structure Good : Prop where
  allowed : ∀ i, Along Life.next Life.Allows .unborn (s.calls i)
  alive : ∀ i, Alive (s.actions i) (s.life i)
  active : ∀ i, 0 < (s.life i).taps → (s.actions i).finished = false →
    dance? cfg s.active_td = some i
  of_active : s.active_td ≠ 0 → ∃ i, dance? cfg s.active_td = some i ∧ 0 < (s.life i).taps ∧
    (s.actions i).finished = false

end

section

variable {cfg : Config} {s : State} {i : Nat} {state : tap_dance_state_t} {cs : List Call}
  {active_td last_tap_time : UInt16}

theorem Good.right (h : Good cfg s) : Right cfg s :=
  ⟨h.allowed, fun i => (h.alive i).count, fun i => (h.alive i).clear, h.active⟩

/-! ## Keycodes -/

theorem dance_eq_some {keycode : UInt16} (h : dance? cfg keycode = some i) :
    keycode.toNat = 0x5700 + i ∧ QK_TAP_DANCE_GET_INDEX keycode = i := by
  unfold dance? at h
  split_ifs at h with hrange
  obtain ⟨hlow, hhigh, -⟩ := hrange
  have hi := Option.some.inj h
  refine ⟨?_, hi⟩
  change keycode.toNat &&& 2 ^ 8 - 1 = i at hi
  rw [Nat.and_two_pow_sub_one_eq_mod] at hi
  change 0x5700 ≤ keycode.toNat at hlow
  change keycode.toNat ≤ 0x57FF at hhigh
  omega

theorem dance_inj {keycode keycode' : UInt16} (h : dance? cfg keycode = some i)
    (h' : dance? cfg keycode' = some i) : keycode = keycode' :=
  UInt16.toNat_inj.mp ((dance_eq_some h).1.trans (dance_eq_some h').1.symm)

theorem dance_zero : dance? cfg 0 = none := if_neg fun h => absurd h.1 (by decide)

/-! ## Changes of one dance -/

def State.change (s : State) (i : Nat) (state : tap_dance_state_t) (cs : List Call)
    (active_td last_tap_time : UInt16) : State :=
  ⟨active_td, last_tap_time, Function.update s.actions i state,
    Function.update s.calls i (s.calls i ++ cs)⟩

theorem change_self (s : State) (i : Nat) :
    s.change i (s.actions i) [] s.active_td s.last_tap_time = s := by
  unfold State.change
  rw [List.append_nil, Function.update_eq_self, Function.update_eq_self]

@[simp] theorem put_change (state' : tap_dance_state_t) :
    (s.change i state cs active_td last_tap_time).put i state' =
      s.change i state' cs active_td last_tap_time := by
  simp [State.change, State.put]

@[simp] theorem call_change (c : Call) : (s.change i state cs active_td last_tap_time).call i c =
    s.change i state (cs ++ [c]) active_td last_tap_time := by
  simp [State.change, State.call]

@[simp] theorem actions_change : (s.change i state cs active_td last_tap_time).actions i = state :=
  Function.update_self _ _ _

@[simp] theorem reset_change :
    process_tap_dance_action_on_reset (s.change i state cs active_td last_tap_time) i =
      s.change i .zero (cs ++ [.on_reset state.count]) active_td last_tap_time := by
  simp [process_tap_dance_action_on_reset]

@[simp] theorem deactivate_change : (s.change i state cs active_td last_tap_time).deactivate =
    s.change i state cs 0 last_tap_time :=
  rfl

theorem apply_change (e : Effect) : e.apply (s.change i state cs active_td last_tap_time) i =
    match e with
    | .nothing => s.change i state cs active_td last_tap_time
    | .finishes => s.change i { state with finished := true } cs active_td last_tap_time
    | .resets => s.change i .zero (cs ++ [.on_reset state.count]) 0 last_tap_time := by
  cases e with
  | nothing => rfl
  | finishes => simp [Effect.apply]
  | resets => exact reset_change

theorem life_change : (s.change i state cs active_td last_tap_time).life i =
    cs.foldl Life.next (s.life i) := by
  unfold State.life State.change
  dsimp only
  rw [Function.update_self, List.foldl_append]

theorem life_change_of_ne {j : Nat} (h : j ≠ i) :
    (s.change i state cs active_td last_tap_time).life j = s.life j := by
  unfold State.life State.change
  dsimp only
  rw [Function.update_of_ne h]

theorem allowed_change (h : Good cfg s) :
    (∀ j, Along Life.next Life.Allows .unborn
      ((s.change i state cs active_td last_tap_time).calls j)) ↔
      Along Life.next Life.Allows (s.life i) cs := by
  unfold State.change
  dsimp only
  constructor
  · intro hall
    have hi := hall i
    rw [Function.update_self] at hi
    exact (Along.append.mp hi).2
  · intro hcs j
    rw [Function.update_apply]
    split
    · rename_i hj
      exact Along.append.mpr ⟨h.allowed i, hcs⟩
    · exact h.allowed j

/-- A dance goes on with its life. -/
theorem Good.change (h : Good cfg s) (hcs : Along Life.next Life.Allows (s.life i) cs)
    (halive : Alive state (cs.foldl Life.next (s.life i)))
    (hother : ∀ j, j ≠ i → 0 < (s.life j).taps → (s.actions j).finished = false →
      dance? cfg active_td = some j)
    (hactive : 0 < (cs.foldl Life.next (s.life i)).taps → state.finished = false →
      dance? cfg active_td = some i)
    (hof : active_td ≠ 0 →
      (dance? cfg active_td = some i ∧ 0 < (cs.foldl Life.next (s.life i)).taps ∧
        state.finished = false) ∨
      ∃ j, j ≠ i ∧ dance? cfg active_td = some j ∧ 0 < (s.life j).taps ∧
        (s.actions j).finished = false) :
    Good cfg (s.change i state cs active_td last_tap_time) := by
  have hactions : ∀ j, j ≠ i →
      (s.change i state cs active_td last_tap_time).actions j = s.actions j :=
    fun j hj => Function.update_of_ne hj _ _
  refine ⟨(allowed_change h).mpr hcs, fun j => ?_, fun j => ?_, fun hne => ?_⟩
  · by_cases hj : j = i
    · rw [hj, actions_change, life_change]
      exact halive
    · rw [hactions j hj, life_change_of_ne hj]
      exact h.alive j
  · by_cases hj : j = i
    · rw [hj, actions_change, life_change]
      exact hactive
    · rw [hactions j hj, life_change_of_ne hj]
      exact hother j hj
  · rcases hof hne with hmine | ⟨j, hj, hrest⟩
    · refine ⟨i, ?_⟩
      rw [actions_change, life_change]
      exact hmine
    · refine ⟨j, ?_⟩
      rw [hactions j hj, life_change_of_ne hj]
      exact hrest

/-! ## Finishing -/

theorem finish_change (hstate : state.finished = false) (e : Effect) :
    process_tap_dance_action_on_dance_finished
        (s.change i state [] active_td last_tap_time) i e =
      if e = .resets then
        s.change i .zero [.on_dance_finished state.count, .on_reset state.count, .on_reset 0] 0
          last_tap_time
      else if state.pressed = true then
        s.change i { state with finished := true } [.on_dance_finished state.count] 0 last_tap_time
      else
        s.change i .zero [.on_dance_finished state.count, .on_reset state.count] 0 last_tap_time := by
  have hfinish : finish (s.change i state [] active_td last_tap_time) i e =
      e.apply (s.change i { state with finished := true } [.on_dance_finished state.count] active_td
        last_tap_time) i := by
    unfold finish
    rw [actions_change, if_pos (by rw [hstate]; rfl)]
    dsimp only
    rw [put_change, call_change]
    rfl
  unfold process_tap_dance_action_on_dance_finished
  rw [hfinish, apply_change]
  cases e <;> dsimp only <;> rw [deactivate_change, actions_change, reset_change]
  · rw [if_neg (by decide : ¬ Effect.nothing = .resets)]
    cases state.pressed <;> rfl
  · rw [if_neg (by decide : ¬ Effect.finishes = .resets)]
    cases state.pressed <;> rfl
  · rfl

/-- The active dance is finished, as its life allows exactly if the callback does
not reset it. -/
theorem finish_spec (state : tap_dance_state_t) (h : Good cfg s) (hi : dance? cfg s.active_td = some i)
    (htaps : 0 < (s.life i).taps) (hfinished : (s.actions i).finished = false)
    (hstate : state = { s.actions i with
      interrupted := state.interrupted, interrupting_keycode := state.interrupting_keycode })
    (e : Effect) :
    let t := process_tap_dance_action_on_dance_finished
      (s.change i state [] s.active_td s.last_tap_time) i e
    (e ≠ .resets → Good cfg t ∧ t.active_td = 0 ∧ ∀ j, (t.life j).down = (s.life j).down) ∧
      (e = .resets → ¬ Along Life.next Life.Allows .unborn (t.calls i)) := by
  intro t
  have halive := h.alive i
  have hcalled : (s.life i).finished = false := by
    by_contra hne
    rw [halive.called (Bool.not_eq_false _ ▸ hne)] at hfinished
    cases hfinished
  have hcount : state.count.toNat = (s.life i).taps := by
    rw [hstate]
    exact halive.count
  have hpressed : state.pressed = (s.life i).down := by
    rw [hstate]
    exact halive.down
  have hunfinished : state.finished = false := by
    rw [hstate]
    exact hfinished
  -- no other dance waits for its end
  have hother : ∀ j, j ≠ i → 0 < (s.life j).taps → (s.actions j).finished = false →
      dance? cfg 0 = some j := by
    intro j hj hjtaps hjfinished
    exact absurd (Option.some.inj ((h.active j hjtaps hjfinished).symm.trans hi)) hj
  constructor
  · intro he
    have ht : t = _ := (finish_change hunfinished e).trans (if_neg he)
    by_cases hdown : state.pressed = true
    · rw [if_pos hdown] at ht
      rw [ht]
      refine ⟨h.change ⟨⟨htaps, hcalled, hcount⟩, trivial⟩ ⟨hcount, ?_, ?_, hpressed, ?_, ?_,
        fun _ => rfl⟩ hother ?_ fun hne => absurd rfl hne, rfl, fun j => ?_⟩
      · exact fun hzero => absurd hzero htaps.ne'
      · exact fun _ => rfl
      · exact fun _ => htaps
      · exact fun _ => hdown
      · intro _ hfalse
        cases hfalse
      · by_cases hj : j = i
        · rw [hj, life_change]
          rfl
        · rw [life_change_of_ne hj]
    · rw [if_neg hdown] at ht
      rw [ht]
      have hup : (s.life i).down = false := by
        rw [← hpressed]
        exact Bool.eq_false_iff.mpr hdown
      refine ⟨h.change ⟨⟨htaps, hcalled, hcount⟩, ⟨htaps, hup, hcount⟩, trivial⟩
        ⟨rfl, fun _ => rfl, ?_, hup.symm, ?_, ?_, ?_⟩ hother ?_ fun hne => absurd rfl hne, rfl,
        fun j => ?_⟩
      · intro hfalse
        cases hfalse
      · intro hdown'
        exact absurd (hup.symm.trans hdown') Bool.false_ne_true
      · intro hfalse
        cases hfalse
      · intro hfalse
        cases hfalse
      · intro hzero
        exact absurd hzero (lt_irrefl 0)
      · by_cases hj : j = i
        · rw [hj, life_change]
          rfl
        · rw [life_change_of_ne hj]
  · intro he hall
    have ht : t = _ := (finish_change hunfinished e).trans (if_pos he)
    rw [ht] at hall
    unfold State.change at hall
    dsimp only at hall
    rw [Function.update_self] at hall
    obtain ⟨-, -, -, ⟨hzero, -⟩, -⟩ := Along.append.mp hall
    exact absurd hzero (lt_irrefl 0)

/-! ## Presses -/

def tapped (state : tap_dance_state_t) (mods oneshot_mods : UInt8) : tap_dance_state_t :=
  { state with pressed := true, count := state.count + 1, weak_mods := mods, oneshot_mods }

theorem press_change {keycode : UInt16} (hi : dance? cfg keycode = some i)
    (hfinished : (s.actions i).finished = false) (now : UInt16) (mods oneshot_mods : UInt8)
    (e : Effect) :
    process_press cfg s now keycode mods oneshot_mods e =
      let state := tapped (s.actions i) mods oneshot_mods
      match e with
      | .nothing => s.change i state [.pressed, .on_each_tap state.count] keycode now
      | .finishes =>
        s.change i { state with finished := true } [.pressed, .on_each_tap state.count] 0 now
      | .resets =>
        s.change i .zero [.pressed, .on_each_tap state.count, .on_reset state.count] keycode now := by
  have hpressed : { (s.put i { s.actions i with pressed := true }).call i .pressed with
      last_tap_time := now } =
      s.change i { s.actions i with pressed := true } [.pressed] s.active_td now := rfl
  have htap : process_tap_dance_action_on_each_tap
      (s.change i { s.actions i with pressed := true } [.pressed] s.active_td now) i mods
        oneshot_mods e =
      e.apply (s.change i (tapped (s.actions i) mods oneshot_mods)
        [.pressed, .on_each_tap (tapped (s.actions i) mods oneshot_mods).count] s.active_td now) i := by
    unfold process_tap_dance_action_on_each_tap
    dsimp only
    rw [actions_change, put_change, call_change]
    rfl
  unfold process_press
  rw [hi]
  dsimp only
  rw [hpressed, htap, apply_change]
  cases e <;> dsimp only <;> rw [actions_change]
  · rw [if_neg (by simp [tapped, hfinished])]
    rfl
  · rfl
  · rfl

/-- A tap is what the life of the dance allows exactly if the count has room for it
and the callback does not reset the dance. -/
theorem press_spec (h : Good cfg s) {keycode : UInt16} (hi : dance? cfg keycode = some i)
    (hactive : s.active_td = 0 ∨ s.active_td = keycode) (hup : (s.life i).down = false)
    (now : UInt16) (mods oneshot_mods : UInt8) (e : Effect) :
    let t := process_press cfg s now keycode mods oneshot_mods e
    (e ≠ .resets ∧ (s.actions i).count ≠ 255 → Good cfg t) ∧
      (¬ (e ≠ .resets ∧ (s.actions i).count ≠ 255) →
        ¬ Along Life.next Life.Allows .unborn (t.calls i)) := by
  intro t
  have halive := h.alive i
  have hfinished : (s.actions i).finished = false := by
    by_contra hne
    have hpressed := halive.held (Bool.not_eq_false _ ▸ hne)
    rw [halive.down, hup] at hpressed
    cases hpressed
  have hcalled : (s.life i).finished ≠ true := fun hne =>
    absurd (hfinished.symm.trans (halive.called hne)) Bool.false_ne_true
  have ht : t = _ := press_change hi hfinished now mods oneshot_mods e
  have hother : ∀ (a : UInt16) j, j ≠ i → 0 < (s.life j).taps → (s.actions j).finished = false →
      dance? cfg a = some j := by
    intro a j hj hjtaps hjfinished
    have hjactive := h.active j hjtaps hjfinished
    rcases hactive with hnone | hmine
    · rw [hnone, dance_zero] at hjactive
      cases hjactive
    · rw [hmine, hi] at hjactive
      exact absurd (Option.some.inj hjactive).symm hj
  have hcount : (tapped (s.actions i) mods oneshot_mods).count.toNat =
      ((s.actions i).count.toNat + 1) % 256 := UInt8.toNat_add _ _
  constructor
  · rintro ⟨he, hroom⟩
    have htaps : (tapped (s.actions i) mods oneshot_mods).count.toNat = (s.life i).taps + 1 := by
      rw [hcount, ← halive.count]
      have hne : (s.actions i).count.toNat ≠ 255 := fun h255 => hroom (UInt8.toNat_inj.mp h255)
      have hlt := (s.actions i).count.toNat_lt
      omega
    rw [ht]
    cases e with
    | nothing =>
      refine h.change ⟨trivial, htaps, trivial⟩ ⟨htaps, ?_, ?_, rfl, ?_, ?_, halive.interrupted⟩
        (hother keycode) (fun _ _ => hi) fun _ => .inl ⟨hi, Nat.succ_pos _, hfinished⟩
      · exact fun hzero => absurd hzero (Nat.succ_ne_zero _)
      · exact fun hne => absurd hne hcalled
      · exact fun _ => Nat.succ_pos _
      · exact fun _ => rfl
    | finishes =>
      refine h.change ⟨trivial, htaps, trivial⟩ ⟨htaps, ?_, fun _ => rfl, rfl, ?_, fun _ => rfl,
        fun _ => rfl⟩ (hother 0) (fun _ hfalse => ?_) fun hne => absurd rfl hne
      · exact fun hzero => absurd hzero (Nat.succ_ne_zero _)
      · exact fun _ => Nat.succ_pos _
      · cases hfalse
    | resets => exact absurd rfl he
  · intro hnot hall
    have hcalls : ∃ cs, t.calls i = s.calls i ++
        .pressed :: .on_each_tap (tapped (s.actions i) mods oneshot_mods).count :: cs ∧
        (e = .resets → ∃ count, cs = [.on_reset count]) := by
      rw [ht]
      cases e with
      | nothing => exact ⟨[], Function.update_self _ _ _, fun he => by cases he⟩
      | finishes => exact ⟨[], Function.update_self _ _ _, fun he => by cases he⟩
      | resets => exact ⟨_, Function.update_self _ _ _, fun _ => ⟨_, rfl⟩⟩
    obtain ⟨cs, hcalls, hresets⟩ := hcalls
    rw [hcalls] at hall
    obtain ⟨-, -, htaps, hrest⟩ := Along.append.mp hall
    refine hnot ⟨fun he => ?_, fun h255 => ?_⟩
    · -- the key is down
      obtain ⟨count, rfl⟩ := hresets he
      exact absurd (show true = false from hrest.1.2.1) (by decide)
    · unfold Life.Allows at htaps
      dsimp only at htaps
      rw [hcount, h255] at htaps
      exact absurd htaps.symm (Nat.succ_ne_zero _)

/-! ## Releases -/

theorem release_change {keycode : UInt16} (hi : dance? cfg keycode = some i)
    {state : tap_dance_state_t} (hstate : { s.actions i with pressed := false } = state)
    (e : Effect) :
    process_release cfg s keycode e =
      if e = .resets then
        s.change i .zero [.released, .on_each_release, .on_reset state.count] 0 s.last_tap_time
      else if e = .finishes ∨ state.finished = true then
        s.change i .zero [.released, .on_each_release, .on_reset state.count]
          (if s.active_td = keycode then 0 else s.active_td) s.last_tap_time
      else s.change i state [.released, .on_each_release] s.active_td s.last_tap_time := by
  have hreleased : (s.put i state).call i .released =
      s.change i state [.released] s.active_td s.last_tap_time := rfl
  have hrelease : process_tap_dance_action_on_each_release
      (s.change i state [.released] s.active_td s.last_tap_time) i e =
      e.apply (s.change i state [.released, .on_each_release] s.active_td s.last_tap_time) i := by
    unfold process_tap_dance_action_on_each_release
    rw [call_change]
    rfl
  have hactive : ∀ cs' : List Call,
      (if (s.change i .zero cs' s.active_td s.last_tap_time).active_td = keycode then
        (s.change i .zero cs' s.active_td s.last_tap_time).deactivate
      else s.change i .zero cs' s.active_td s.last_tap_time) =
      s.change i .zero cs' (if s.active_td = keycode then 0 else s.active_td) s.last_tap_time := by
    intro cs'
    rw [deactivate_change, apply_ite fun a => s.change i .zero cs' a s.last_tap_time]
    rfl
  unfold process_release
  rw [hi]
  dsimp only
  rw [hstate, hreleased, hrelease, apply_change]
  cases e <;> dsimp only <;> rw [actions_change]
  · rw [if_neg (by decide : ¬ Effect.nothing = .resets), reset_change, hactive]
    simp
  · rw [if_neg (by decide : ¬ Effect.finishes = .resets), reset_change, hactive]
    simp
  · rw [if_neg (by decide)]
    simp

/-- A release is what the life of the dance allows. The dance that is active stays
so exactly if the callback does not reset another one. -/
theorem release_spec (h : Good cfg s) {keycode : UInt16} (hi : dance? cfg keycode = some i)
    (hdown : (s.life i).down = true) (e : Effect) :
    let t := process_release cfg s keycode e
    ((e = .resets → s.active_td = 0 ∨ s.active_td = keycode) → Good cfg t) ∧
      (¬ (e = .resets → s.active_td = 0 ∨ s.active_td = keycode) → ¬ Right cfg t) := by
  intro t
  have halive := h.alive i
  have htaps := halive.dancing hdown
  have ht : t = _ := release_change hi rfl e
  -- the dance is reset, with another one active or none
  have hreset : ∀ a : UInt16, a = 0 ∧ (s.active_td = 0 ∨ s.active_td = keycode) ∨
      a = s.active_td ∧ s.active_td ≠ keycode →
      Good cfg (s.change i .zero [.released, .on_each_release, .on_reset (s.actions i).count] a
        s.last_tap_time) := by
    intro a ha
    refine h.change ⟨trivial, htaps, ⟨htaps, rfl, halive.count⟩, trivial⟩
      ⟨rfl, fun _ => rfl, ?_, rfl, ?_, ?_, ?_⟩ (fun j hj hjtaps hjfinished => ?_) ?_ fun hne => ?_
    · intro hfalse
      cases hfalse
    · intro hfalse
      cases hfalse
    · intro hfalse
      cases hfalse
    · intro hfalse
      cases hfalse
    · have hjactive := h.active j hjtaps hjfinished
      rcases ha with ⟨-, hnone | hmine⟩ | ⟨rfl, -⟩
      · rw [hnone, dance_zero] at hjactive
        cases hjactive
      · rw [hmine, hi] at hjactive
        exact absurd (Option.some.inj hjactive).symm hj
      · exact hjactive
    · intro hzero
      exact absurd hzero (lt_irrefl 0)
    · rcases ha with ⟨rfl, -⟩ | ⟨rfl, hother⟩
      · exact absurd rfl hne
      · obtain ⟨j, hj, hrest⟩ := h.of_active hne
        refine .inr ⟨j, ?_, hj, hrest⟩
        rintro rfl
        exact hother (dance_inj hj hi)
  constructor
  · intro hregular
    rw [ht]
    split_ifs with hresets hfinished hmine
    · exact hreset 0 (.inl ⟨rfl, hregular hresets⟩)
    · exact hreset 0 (.inl ⟨rfl, .inr hmine⟩)
    · exact hreset _ (.inr ⟨rfl, hmine⟩)
    · have hunfinished : (s.actions i).finished = false :=
        Bool.eq_false_iff.mpr fun hne => hfinished (.inr hne)
      refine h.change ⟨trivial, htaps, trivial⟩ ⟨halive.count, ?_, ?_, rfl, ?_, ?_, ?_⟩
        (fun j _ => h.active j) (fun _ _ => h.active i htaps hunfinished) fun hne => ?_
      · exact fun hzero => absurd hzero htaps.ne'
      · exact halive.called
      · intro hfalse
        cases hfalse
      · exact fun hne => absurd hne (Bool.eq_false_iff.mp hunfinished)
      · exact halive.interrupted
      · obtain ⟨j, hj, hrest⟩ := h.of_active hne
        by_cases hji : j = i
        · exact .inl ⟨hji ▸ hj, htaps, hunfinished⟩
        · exact .inr ⟨j, hji, hj, hrest⟩
  · intro hnot hright
    rw [Classical.not_imp, not_or] at hnot
    obtain ⟨he, hne, hother⟩ := hnot
    obtain ⟨j, hj, hjtaps, hjfinished⟩ := h.of_active hne
    have hji : j ≠ i := by
      rintro rfl
      exact hother (dance_inj hj hi)
    rw [ht, if_pos he] at hright
    have hactive := hright.active j (by rw [life_change_of_ne hji]; exact hjtaps)
      ((congrArg _ (Function.update_of_ne hji _ _)).trans hjfinished)
    exact absurd (hactive.symm.trans dance_zero) (Option.some_ne_none j)

/-! ## Steps -/

/-- Calls are only added. -/
def Grows (s t : State) : Prop := ∀ j, s.calls j <+: t.calls j

theorem Grows.call (s : State) (i : Nat) (c : Call) : Grows s (s.call i c) := by
  intro j
  unfold State.call
  dsimp only
  rw [Function.update_apply]
  split
  · rename_i hj
    rw [hj]
    exact List.prefix_append _ _
  · exact List.prefix_rfl

theorem Grows.apply (s : State) (i : Nat) (e : Effect) : Grows s (e.apply s i) := by
  cases e with
  | nothing => exact fun _ => List.prefix_rfl
  | finishes => exact fun _ => List.prefix_rfl
  | resets => exact Grows.call s.deactivate i _

theorem Grows.tap (s : State) (i : Nat) (mods oneshot_mods : UInt8) (e : Effect) :
    Grows s (process_tap_dance_action_on_each_tap s i mods oneshot_mods e) := by
  intro j
  exact List.IsPrefix.trans (Grows.call (s.put i _) i _ j) (Grows.apply _ i e j)

theorem Grows.press (s : State) (now keycode : UInt16) (mods oneshot_mods : UInt8) (e : Effect) :
    Grows s (process_press cfg s now keycode mods oneshot_mods e) := by
  intro j
  unfold process_press
  cases hi : dance? cfg keycode with
  | none => exact List.prefix_rfl
  | some i =>
    let pressed := (s.put i { s.actions i with pressed := true }).call i .pressed
    have hpressed : s.calls j <+: pressed.calls j := Grows.call _ i _ j
    exact hpressed.trans
      (Grows.tap { pressed with last_tap_time := now } i mods oneshot_mods e j)

theorem not_right_of_grows {t : State} (hgrows : Grows s t)
    (h : ¬ Along Life.next Life.Allows .unborn (s.calls i)) : ¬ Right cfg t := by
  intro hright
  obtain ⟨cs, hcs⟩ := hgrows i
  have hall := hright.allowed i
  rw [← hcs] at hall
  exact h (Along.append.mp hall).1

theorem put_eq_change : s.put i state = s.change i state [] s.active_td s.last_tap_time := by
  unfold State.put State.change
  rw [List.append_nil, Function.update_eq_self]

theorem preprocess_spec (h : Good cfg s) {keycode : UInt16}
    (hinterrupts : ¬ (s.active_td = 0 ∨ keycode = s.active_td)) (e : Effect) :
    let t := (preprocess_tap_dance s keycode e).2
    (e ≠ .resets → Good cfg t ∧ t.active_td = 0 ∧ ∀ j, (t.life j).down = (s.life j).down) ∧
      (e = .resets → ∃ i, ¬ Along Life.next Life.Allows .unborn (t.calls i)) := by
  obtain ⟨i, hi, htaps, hfinished⟩ := h.of_active (not_or.mp hinterrupts).1
  have hspec := finish_spec { s.actions i with
    interrupted := true, interrupting_keycode := keycode } h hi htaps hfinished rfl e
  unfold preprocess_tap_dance
  rw [if_neg hinterrupts, (dance_eq_some hi).2]
  dsimp only at hspec ⊢
  rw [put_eq_change]
  exact ⟨hspec.1, fun he => ⟨i, hspec.2 he⟩⟩

theorem step_press (h : Good cfg s) {now keycode keycode_again : UInt16} {mods oneshot_mods : UInt8}
    {fin tap : Effect}
    (halternates : Alternates cfg s (.press now keycode keycode_again mods oneshot_mods fin tap)) :
    (Regular cfg s (.press now keycode keycode_again mods oneshot_mods fin tap) →
        Good cfg (step cfg s (.press now keycode keycode_again mods oneshot_mods fin tap))) ∧
      (¬ Regular cfg s (.press now keycode keycode_again mods oneshot_mods fin tap) →
        ¬ Right cfg (step cfg s (.press now keycode keycode_again mods oneshot_mods fin tap))) := by
  unfold Regular step
  dsimp only at halternates ⊢
  -- the tap, after what the press interrupts
  have htap : ∀ t : State, Good cfg t →
      (t.active_td = 0 ∨ t.active_td = looked_up s keycode keycode_again) →
      (∀ j, (t.life j).down = (s.life j).down) →
      ((∀ i ∈ dance? cfg (looked_up s keycode keycode_again),
          tap ≠ .resets ∧ (t.actions i).count ≠ 255) →
        Good cfg (process_press cfg t now (looked_up s keycode keycode_again) mods oneshot_mods tap)) ∧
      ((¬ ∀ i ∈ dance? cfg (looked_up s keycode keycode_again),
          tap ≠ .resets ∧ (t.actions i).count ≠ 255) →
        ¬ Right cfg (process_press cfg t now (looked_up s keycode keycode_again) mods oneshot_mods
          tap)) := by
    intro t ht hactive hdown
    cases hi : dance? cfg (looked_up s keycode keycode_again) with
    | none =>
      refine ⟨fun _ => ?_, fun hnot => absurd (fun i hi' => absurd hi' (Option.not_mem_none i)) hnot⟩
      unfold process_press
      rw [hi]
      exact ht
    | some i =>
      have hup := halternates i hi
      rw [← hdown] at hup
      obtain ⟨hgood, hbad⟩ := press_spec ht hi hactive hup now mods oneshot_mods tap
      refine ⟨fun hall => hgood (hall i rfl), fun hnot hright => ?_⟩
      refine hbad (fun hall => hnot fun j hj => ?_) (hright.allowed i)
      rw [← Option.some.inj hj]
      exact hall
  by_cases hinterrupts : s.active_td = 0 ∨ keycode = s.active_td
  · have hnone : (preprocess_tap_dance s keycode fin).2 = s := by
      unfold preprocess_tap_dance
      rw [if_pos hinterrupts]
    have hkey : looked_up s keycode keycode_again = keycode := if_pos hinterrupts
    rw [hnone]
    obtain ⟨hgood, hbad⟩ := htap s h (by rw [hkey]; exact hinterrupts.imp_right Eq.symm) fun _ => rfl
    exact ⟨fun hregular => hgood hregular.2,
      fun hnot => hbad fun hall => hnot ⟨fun hne => absurd hinterrupts hne, hall⟩⟩
  · obtain ⟨hgood, hbad⟩ := preprocess_spec h hinterrupts fin
    by_cases hfin : fin = .resets
    · refine ⟨fun hregular => absurd hfin (hregular.1 hinterrupts), fun _ => ?_⟩
      obtain ⟨i, hi⟩ := hbad hfin
      exact not_right_of_grows (Grows.press _ _ _ _ _ _) hi
    · obtain ⟨ht, hactive, hdown⟩ := hgood hfin
      obtain ⟨hgood', hbad'⟩ := htap _ ht (.inl hactive) hdown
      exact ⟨fun hregular => hgood' hregular.2,
        fun hnot => hbad' fun hall => hnot ⟨fun _ => hfin, hall⟩⟩

theorem step_spec (h : Good cfg s) {e : Event} (halternates : Alternates cfg s e) :
    (Regular cfg s e → Good cfg (step cfg s e)) ∧
      (¬ Regular cfg s e → ¬ Right cfg (step cfg s e)) := by
  cases e with
  | press now keycode keycode_again mods oneshot_mods fin tap => exact step_press h halternates
  | release keycode e =>
    unfold Regular step
    dsimp only at halternates ⊢
    cases hi : dance? cfg keycode with
    | none =>
      refine ⟨fun _ => ?_, fun hnot => absurd (fun hsome => absurd hsome Bool.false_ne_true) hnot⟩
      unfold process_release
      rw [hi]
      exact h
    | some i =>
      obtain ⟨hgood, hbad⟩ := release_spec h hi (halternates i hi) e
      exact ⟨fun hregular => hgood (hregular rfl), fun hnot => hbad fun hreg => hnot fun _ => hreg⟩
  | tick now e =>
    unfold Regular step
    dsimp only
    unfold tap_dance_task
    split
    · rename_i hout
      have hactive : s.active_td ≠ 0 := by
        rintro hzero
        simp [times_out, hzero] at hout
      obtain ⟨i, hi, htaps, hfinished⟩ := h.of_active hactive
      have hspec := finish_spec (s.actions i) h hi htaps hfinished rfl e
      rw [change_self] at hspec
      rw [(dance_eq_some hi).2]
      refine ⟨fun hregular => (hspec.1 (hregular hout)).1, fun hnot hright => ?_⟩
      refine hspec.2 ?_ (hright.allowed i)
      by_contra hne
      exact hnot fun _ => hne
    · rename_i hout
      exact ⟨fun _ => h, fun hnot => absurd (fun hout' => absurd hout' hout) hnot⟩

theorem right_iff (h : Good cfg s) {e : Event} (halternates : Alternates cfg s e) :
    Regular cfg s e ↔ Right cfg (step cfg s e) := by
  obtain ⟨hgood, hbad⟩ := step_spec h halternates
  exact ⟨fun hregular => (hgood hregular).right, fun hright => by_contra fun hnot => hbad hnot hright⟩

theorem Good.boot : Good cfg .boot := by
  refine ⟨fun _ => trivial, fun _ => ⟨rfl, fun _ => rfl, ?_, rfl, ?_, ?_, ?_⟩, fun _ hpos => ?_,
    fun hne => absurd rfl hne⟩
  · intro hfalse
    cases hfalse
  · intro hfalse
    cases hfalse
  · intro hfalse
    cases hfalse
  · intro hfalse
    cases hfalse
  · exact absurd hpos (lt_irrefl 0)

end

/-- In every run in which the key of each dance is pressed and released in turn,
the dances live rightly exactly as long as the steps are regular. -/
theorem dances_live_rightly_iff (cfg : Config) (events : List Event)
    (halternates : Along (step cfg) (Alternates cfg) .boot events) :
    Along (step cfg) (fun s e => Right cfg (step cfg s e)) .boot events ↔
      Along (step cfg) (Regular cfg) .boot events :=
  Along.iff_of_along (I := Good cfg) (fun _ _ h halt => right_iff h halt)
    (fun _ _ h halt hright => (step_spec h halt).1 ((right_iff h halt).mpr hright)) .boot
    halternates

/-! ## Many taps -/

def oneDance : Config := ⟨1, fun _ => 200⟩

def pressed : Event := .press 0 QK_TAP_DANCE QK_TAP_DANCE 0 0 .nothing .nothing

def released : Event := .release QK_TAP_DANCE .nothing

def taps : Nat → List Event
  | 0 => []
  | n + 1 => taps n ++ [pressed, released]

/-- The dance after some taps, with the key up. -/
structure TappedTimes (n : Nat) (s : State) : Prop where
  state : s.actions 0 = ⟨0, .ofNat n, 0, 0, false, false, false⟩
  active : s.active_td = 0 ∨ s.active_td = QK_TAP_DANCE
  life : s.life 0 = ⟨n, false, false⟩

theorem TappedTimes.tap {n : Nat} {s : State} (h : TappedTimes n s) :
    Along (step oneDance) (Alternates oneDance) s [pressed, released] ∧
      TappedTimes (n + 1) ([pressed, released].foldl (step oneDance) s) := by
  have hi : dance? oneDance QK_TAP_DANCE = some 0 := rfl
  have hkey : looked_up s QK_TAP_DANCE QK_TAP_DANCE = QK_TAP_DANCE := ite_self _
  have hsame : (preprocess_tap_dance s QK_TAP_DANCE .nothing).2 = s := by
    unfold preprocess_tap_dance
    rw [if_pos (h.active.imp_right Eq.symm)]
  have hcount : (UInt8.ofNat n) + 1 = .ofNat (n + 1) := (UInt8.ofNat_add n 1).symm
  have hpress : step oneDance s pressed = s.change 0 ⟨0, .ofNat (n + 1), 0, 0, true, false, false⟩
      [.pressed, .on_each_tap (.ofNat (n + 1))] QK_TAP_DANCE 0 := by
    unfold step pressed
    dsimp only
    rw [hsame, hkey, press_change hi (by rw [h.state])]
    unfold tapped
    rw [h.state, hcount]
  have hlife : (step oneDance s pressed).life 0 = ⟨n + 1, false, true⟩ := by
    rw [hpress, life_change, h.life]
    rfl
  have hrelease : step oneDance (step oneDance s pressed) released =
      (step oneDance s pressed).change 0 ⟨0, .ofNat (n + 1), 0, 0, false, false, false⟩
        [.released, .on_each_release] QK_TAP_DANCE 0 := by
    have hchange := release_change (s := step oneDance s pressed) hi rfl .nothing
    rw [hpress, actions_change] at hchange
    rw [hpress]
    exact hchange
  refine ⟨⟨fun i hi' => ?_, fun i hi' => ?_, trivial⟩, ?_⟩
  · rw [hkey, hi] at hi'
    rw [← Option.some.inj hi', h.life]
  · rw [← Option.some.inj (hi.symm.trans hi'), hlife]
  · change TappedTimes (n + 1) (step oneDance (step oneDance s pressed) released)
    rw [hrelease]
    refine ⟨actions_change, .inr rfl, ?_⟩
    rw [life_change, hlife]
    rfl

theorem tapped_times (n : Nat) : Along (step oneDance) (Alternates oneDance) .boot (taps n) ∧
    TappedTimes n ((taps n).foldl (step oneDance) .boot) := by
  induction n with
  | zero => exact ⟨trivial, rfl, .inl rfl, rfl⟩
  | succ n ih =>
    obtain ⟨halternates, htapped⟩ := ih
    obtain ⟨halternates', htapped'⟩ := htapped.tap
    refine ⟨Along.append.mpr ⟨halternates, halternates'⟩, ?_⟩
    rw [taps, List.foldl_append]
    exact htapped'

theorem one_tap_lives_rightly :
    Along (step oneDance) (fun s e => Right oneDance (step oneDance s e)) .boot (taps 1) := by
  refine (dances_live_rightly_iff oneDance (taps 1) (tapped_times 1).1).mpr ⟨⟨?_, ?_⟩, ?_, trivial⟩
  · exact fun hinterrupts => absurd (.inl rfl) hinterrupts
  · intro i hi
    rw [← Option.some.inj hi]
    exact ⟨by decide, by decide⟩
  · intro _ hresets
    cases hresets

theorem count_of_right (n : Nat)
    (h : ∀ events, Along (step oneDance) (Alternates oneDance) .boot events →
      Along (step oneDance) (fun s e => Right oneDance (step oneDance s e)) .boot events) :
    (UInt8.ofNat (n + 1)).toNat = n + 1 := by
  obtain ⟨-, -, hright, -⟩ := Along.append.mp (h (taps (n + 1)) (tapped_times (n + 1)).1)
  have htapped := (tapped_times n).2.tap.2
  have hcount := hright.count 0
  change _ = (([pressed, released].foldl (step oneDance) _).life 0).taps at hcount
  rw [htapped.life] at hcount
  exact (congrArg (fun state => state.count.toNat) htapped.state.symm).trans hcount

/-- After 256 taps, the count is 0. -/
theorem many_taps_are_none : ¬ ∀ events, Along (step oneDance) (Alternates oneDance) .boot events →
    Along (step oneDance) (fun s e => Right oneDance (step oneDance s e)) .boot events := by
  intro h
  have hcount := count_of_right 255 h
  revert hcount
  decide

end keychron_qmk.tap_dance
