-- The animations of the painter, after `qp_draw_image.c`: a table of animations and a
-- table of executors that a token links, and an animation that ends between them.
import KeychronQMK.Deferred.Tokens
import KeychronQMK.Painter.DrawImage
import Mathlib.Data.Fintype.EquivFin

namespace keychron_qmk.painter.animations

open deferred_exec runs

/-! ## Animations -/

structure qgf_image where
  frame_count : UInt16
  delay : UInt16 → UInt16

structure animation_state_t where
  device : Pointer
  x : UInt16
  y : UInt16
  image : qgf_image
  fg_hsv888 : hsv888
  bg_hsv888 : hsv888
  frame_number : UInt16
  defer_token : UInt8

/-- A slot that was never used. -/
def zeroed : animation_state_t :=
  ⟨NULL, 0, 0, ⟨0, fun _ => 0⟩, ⟨0, 0, 0⟩, ⟨0, 0, 0⟩, 0, INVALID_DEFERRED_TOKEN⟩

/-- The table of executors, with the counter of the tokens, and the table of animations.
The argument of an executor is the number of a slot. -/
structure State where
  animation_executors : deferred_exec.State
  animation_states : List animation_state_t

def boot (QUANTUM_PAINTER_CONCURRENT_ANIMATIONS : Nat) : State :=
  ⟨.boot QUANTUM_PAINTER_CONCURRENT_ANIMATIONS,
    List.replicate QUANTUM_PAINTER_CONCURRENT_ANIMATIONS zeroed⟩

def callback_pointer : Pointer := 1

/-- `drawn` tells whether the frame could be drawn, which takes a device. -/
def qp_render_animation_state (drawn : Bool) (state : animation_state_t) :
    Option UInt16 × animation_state_t :=
  if state.device ≠ NULL ∧ drawn then
    let delay_ms := state.image.delay state.frame_number
    let frame_number := state.frame_number + 1
    (some delay_ms, { state with
      frame_number := if state.image.frame_count ≤ frame_number then 0 else frame_number })
  else (none, state)

def animation_callback (drawn : Bool) (state : animation_state_t) : UInt32 × animation_state_t :=
  match qp_render_animation_state drawn state with
  | (none, state) => (0, { state with device := NULL })
  | (some delay_ms, state) => (delay_ms.toUInt32, state)

/-! ## Calls -/

/-- What an animation is started with. -/
structure Request where
  device : Pointer
  x : UInt16
  y : UInt16
  image : qgf_image
  fg : hsv888
  bg : hsv888

/-- An animation before its first frame. -/
def Request.prepare (r : Request) (defer_token : UInt8) : animation_state_t :=
  ⟨r.device, r.x, r.y, r.image, r.fg, r.bg, 0, defer_token⟩

namespace State

variable (s : State)

def qp_animate_recolor (now : Nat) (r : Request) (drawn : Bool) : UInt8 × State :=
  match s.animation_states.findIdx? (·.device = NULL) with
  | none => (INVALID_DEFERRED_TOKEN, s)
  | some i =>
    let anim_state := r.prepare (s.animation_states.getD i zeroed).defer_token
    match qp_render_animation_state drawn anim_state with
    | (none, anim_state) =>
      (INVALID_DEFERRED_TOKEN,
        { s with animation_states := s.animation_states.set i { anim_state with device := NULL } })
    | (some delay_ms, anim_state) =>
      let (defer_token, animation_executors) :=
        defer_exec now s.animation_executors delay_ms.toUInt32 callback_pointer i
      let anim_state := { anim_state with defer_token }
      if defer_token = INVALID_DEFERRED_TOKEN then
        (INVALID_DEFERRED_TOKEN, ⟨animation_executors,
          s.animation_states.set i { anim_state with device := NULL }⟩)
      else (defer_token, ⟨animation_executors, s.animation_states.set i anim_state⟩)

def qp_stop_animation (anim_token : UInt8) : State :=
  match s.animation_states.findIdx? (·.defer_token = anim_token) with
  | none => s
  | some i =>
    ⟨(cancel_deferred_exec s.animation_executors anim_token).2,
      s.animation_states.set i { s.animation_states.getD i zeroed with device := NULL }⟩

/-- The loop of the task goes through the callbacks: each has the slot of its entry. -/
def turns (drawn : Nat → Bool) : Nat → State → State
  | 0, s => s
  | n + 1, s =>
    match s.animation_executors.loop with
    | none => s
    | some l =>
      let i := (s.animation_executors.basic_executors.getD l.i unused).cb_arg
      let (delay_ms, state) := animation_callback (drawn i) (s.animation_states.getD i zeroed)
      turns drawn n
        ⟨callback_returns s.animation_executors delay_ms, s.animation_states.set i state⟩

/-- There is a turn for each entry of the table at most. -/
def qp_internal_animation_tick (now : Nat) (drawn : Nat → Bool) : State :=
  turns drawn s.animation_states.length
    { s with animation_executors := deferred_exec_task now s.animation_executors }

end State

/-- A call at a time, with what can be drawn in it: the frame of a new animation, or the
next frame of each slot. Other tables of executors take tokens from the same counter. -/
inductive input
  | qp_animate_recolor (now : Nat) (r : Request) (drawn : Bool)
  | qp_stop_animation (anim_token : UInt8)
  | qp_internal_animation_tick (now : Nat) (drawn : Nat → Bool)
  | other_tables (current_token : UInt8)

def step (s : State) : input → State
  | .qp_animate_recolor now r drawn => (s.qp_animate_recolor now r drawn).2
  | .qp_stop_animation anim_token => s.qp_stop_animation anim_token
  | .qp_internal_animation_tick now drawn => s.qp_internal_animation_tick now drawn
  | .other_tables current_token =>
    { s with animation_executors := { s.animation_executors with current_token } }

/-! ## The link between the tables -/

/-- A slot is in use exactly when a live entry has it as its argument, under its token. -/
def Linked (s : State) : Prop :=
  ∀ i st, s.animation_states[i]? = some st → (st.device ≠ NULL ↔
    ∃ j x, Occupied s.animation_executors j x ∧ x.cb_arg = i ∧ x.token = st.defer_token)

/-- The entries are those of the slots in use, each under a token of its own, and the first
slot with the token of an animation is its own. -/
structure Sound (s : State) : Prop where
  size : s.animation_executors.basic_executors.length = s.animation_states.length
  tokens : Distinct s.animation_executors
  shown : ∀ i st, s.animation_states[i]? = some st → st.device ≠ NULL →
    ∃ j x, Occupied s.animation_executors j x ∧ x.cb_arg = i ∧ x.token = st.defer_token
  owned : ∀ j x, Occupied s.animation_executors j x →
    ∃ st, s.animation_states[x.cb_arg]? = some st ∧ st.device ≠ NULL ∧ st.defer_token = x.token
  first : ∀ (i j : Nat) (a b : animation_state_t), i < j → s.animation_states[i]? = some a →
    s.animation_states[j]? = some b → b.device ≠ NULL → a.defer_token ≠ b.defer_token

section

variable {s : State} {i j : Nat} {st st' : animation_state_t} {x y : deferred_executor_t}

theorem Sound.linked (h : Sound s) : Linked s := by
  intro i st hst
  constructor
  · exact h.shown i st hst
  · rintro ⟨j, x, hx, rfl, -⟩
    obtain ⟨st', hst', hdevice, -⟩ := h.owned j x hx
    rw [hst] at hst'
    exact Option.some.inj hst' ▸ hdevice

theorem Sound.token_ne (h : Sound s) (hst : s.animation_states[i]? = some st)
    (hdevice : st.device ≠ NULL) : st.defer_token ≠ INVALID_DEFERRED_TOKEN := by
  obtain ⟨j, x, hx, -, htoken⟩ := h.shown i st hst hdevice
  exact htoken ▸ hx.2

theorem Sound.slot_inj (h : Sound s) (hx : Occupied s.animation_executors i x)
    (hy : Occupied s.animation_executors j y) (hslot : x.cb_arg = y.cb_arg) : i = j := by
  obtain ⟨st, hst, -, htoken⟩ := h.owned i x hx
  obtain ⟨st', hst', -, htoken'⟩ := h.owned j y hy
  rw [hslot, hst'] at hst
  obtain rfl := Option.some.inj hst
  exact h.tokens i j x y hx hy (htoken.symm.trans htoken')

theorem getElem?_set_some {α : Type} {l : List α} {i : Nat} {a b : α} (h : l[i]? = some a)
    (j : Nat) : (l.set i b)[j]? = if j = i then some b else l[j]? := by
  rw [List.getElem?_set]
  obtain ⟨hlt, -⟩ := List.getElem?_eq_some_iff.mp h
  by_cases hj : j = i
  · rw [if_pos hj.symm, if_pos hj, if_pos hlt]
  · rw [if_neg (Ne.symm hj), if_neg hj]

theorem getD_states (h : s.animation_states[i]? = some st) :
    s.animation_states.getD i zeroed = st := by
  rw [List.getD_eq_getElem?_getD, h]
  rfl

/-! ## Slots -/

/-- A slot that is not in use stays so. -/
theorem Sound.idle (h : Sound s) (st' : animation_state_t)
    (hst : s.animation_states[i]? = some st) (hfree : st.device = NULL)
    (hfree' : st'.device = NULL)
    (htoken : st'.defer_token = st.defer_token ∨ st'.defer_token = INVALID_DEFERRED_TOKEN)
    (current_token : UInt8) :
    Sound ⟨{ s.animation_executors with current_token }, s.animation_states.set i st'⟩ := by
  refine ⟨?_, h.tokens, fun k a ha hdevice => ?_, fun k x hx => ?_,
    fun k l a b hlt ha hb hdevice => ?_⟩
  · exact h.size.trans List.length_set.symm
  · rw [getElem?_set_some hst] at ha
    split at ha
    · obtain rfl := Option.some.inj ha
      exact absurd hfree' hdevice
    · exact h.shown k a ha hdevice
  · obtain ⟨a, ha, hdevice, htoken⟩ := h.owned k x hx
    refine ⟨a, ?_, hdevice, htoken⟩
    rw [getElem?_set_some hst, if_neg]
    · exact ha
    · intro hslot
      rw [hslot, hst] at ha
      exact hdevice (Option.some.inj ha ▸ hfree)
  · rw [getElem?_set_some hst] at ha hb
    split at hb
    · obtain rfl := Option.some.inj hb
      exact absurd hfree' hdevice
    · split at ha
      · rename_i hk
        obtain rfl := Option.some.inj ha
        rcases htoken with htoken | htoken
        · rw [htoken]
          exact h.first k l st b hlt (hk ▸ hst) hb hdevice
        · rw [htoken]
          exact (h.token_ne hb hdevice).symm
      · exact h.first k l a b hlt ha hb hdevice

/-- An animation ends, and its entry with it. -/
theorem Sound.finish (h : Sound s) (hx : Occupied s.animation_executors j x)
    (hst : s.animation_states[x.cb_arg]? = some st) (hfree : st'.device = NULL)
    (htoken : st'.defer_token = st.defer_token) :
    Sound ⟨s.animation_executors.put j unused, s.animation_states.set x.cb_arg st'⟩ := by
  have hout : ∀ {k y}, Occupied (s.animation_executors.put j unused) k y ↔
      k ≠ j ∧ Occupied s.animation_executors k y := by
    intro k y
    rw [occupied_put hx.1]
    split
    · rename_i hk
      simp [hk, unused]
    · rename_i hk
      simp [hk]
  refine ⟨?_, fun k l a b ha hb => ?_, fun k a ha hdevice => ?_, fun k y hy => ?_,
    fun k l a b hlt ha hb hdevice => ?_⟩
  · simpa [State.put] using h.size
  · exact h.tokens k l a b (hout.mp ha).2 (hout.mp hb).2
  · rw [getElem?_set_some hst] at ha
    split at ha
    · obtain rfl := Option.some.inj ha
      exact absurd hfree hdevice
    · rename_i hk
      obtain ⟨l, y, hy, hslot, htoken⟩ := h.shown k a ha hdevice
      refine ⟨l, y, hout.mpr ⟨?_, hy⟩, hslot, htoken⟩
      rintro rfl
      rw [Option.some.inj (hx.1.symm.trans hy.1)] at hk
      exact hk hslot.symm
  · obtain ⟨hk, hy⟩ := hout.mp hy
    obtain ⟨a, ha, hdevice, htoken⟩ := h.owned k y hy
    refine ⟨a, ?_, hdevice, htoken⟩
    rw [getElem?_set_some hst, if_neg fun hslot => hk (h.slot_inj hy hx hslot)]
    exact ha
  · rw [getElem?_set_some hst] at ha hb
    split at hb
    · obtain rfl := Option.some.inj hb
      exact absurd hfree hdevice
    · split at ha
      · rename_i hk
        obtain rfl := Option.some.inj ha
        rw [htoken]
        exact h.first k l st b hlt (hk ▸ hst) hb hdevice
      · exact h.first k l a b hlt ha hb hdevice

/-- An animation goes on, and its entry with it. -/
theorem Sound.keep (h : Sound s) (hx : Occupied s.animation_executors j x)
    (hy : y.token = x.token ∧ y.cb_arg = x.cb_arg)
    (hst : s.animation_states[x.cb_arg]? = some st)
    (hst' : st'.device = st.device ∧ st'.defer_token = st.defer_token) :
    Sound ⟨s.animation_executors.put j y, s.animation_states.set x.cb_arg st'⟩ := by
  obtain ⟨hytoken, hyslot⟩ := hy
  obtain ⟨hdevice', htoken'⟩ := hst'
  -- Slots and entries are as before, up to what the link does not look at.
  have hentry : ∀ {k z}, Occupied (s.animation_executors.put j y) k z → ∃ z',
      Occupied s.animation_executors k z' ∧ z.token = z'.token ∧ z.cb_arg = z'.cb_arg := by
    intro k z hz
    rw [occupied_put hx.1] at hz
    split at hz
    · rename_i hk
      exact ⟨x, hk ▸ hx, hz.1 ▸ hytoken, hz.1 ▸ hyslot⟩
    · exact ⟨z, hz, rfl, rfl⟩
  have hentry' : ∀ {k z}, Occupied s.animation_executors k z → ∃ z',
      Occupied (s.animation_executors.put j y) k z' ∧ z'.token = z.token ∧
        z'.cb_arg = z.cb_arg := by
    intro k z hz
    by_cases hk : k = j
    · subst hk
      obtain rfl := Option.some.inj (hx.1.symm.trans hz.1)
      refine ⟨y, ?_, hytoken, hyslot⟩
      rw [occupied_put hx.1, if_pos rfl]
      exact ⟨rfl, hytoken ▸ hx.2⟩
    · refine ⟨z, ?_, rfl, rfl⟩
      rw [occupied_put hx.1, if_neg hk]
      exact hz
  have hslot : ∀ {k : Nat} {a : animation_state_t},
      (s.animation_states.set x.cb_arg st')[k]? = some a → ∃ a' : animation_state_t,
        s.animation_states[k]? = some a' ∧ a.device = a'.device ∧
          a.defer_token = a'.defer_token := by
    intro k a ha
    rw [getElem?_set_some hst] at ha
    split at ha
    · rename_i hk
      obtain rfl := Option.some.inj ha
      exact ⟨st, hk ▸ hst, hdevice', htoken'⟩
    · exact ⟨a, ha, rfl, rfl⟩
  refine ⟨?_, fun k l a b ha hb htoken => ?_, fun k a ha hdevice => ?_, fun k z hz => ?_,
    fun k l a b hlt ha hb hdevice => ?_⟩
  · simpa [State.put] using h.size
  · obtain ⟨a', ha', hatoken, -⟩ := hentry ha
    obtain ⟨b', hb', hbtoken, -⟩ := hentry hb
    exact h.tokens k l a' b' ha' hb' (by rw [← hatoken, htoken, hbtoken])
  · obtain ⟨a', ha', hadevice, hatoken⟩ := hslot ha
    obtain ⟨l, z, hz, hzslot, hztoken⟩ := h.shown k a' ha' (hadevice ▸ hdevice)
    obtain ⟨z', hz', htoken, hslot'⟩ := hentry' hz
    exact ⟨l, z', hz', hslot'.trans hzslot, by rw [htoken, hztoken, hatoken]⟩
  · obtain ⟨z', hz', htoken, hslot'⟩ := hentry hz
    obtain ⟨a, ha, hdevice, hatoken⟩ := h.owned k z' hz'
    by_cases hk : z'.cb_arg = x.cb_arg
    · rw [hk, hst] at ha
      obtain rfl := Option.some.inj ha
      refine ⟨st', ?_, hdevice' ▸ hdevice, by rw [htoken', hatoken, htoken]⟩
      rw [getElem?_set_some hst, if_pos (hslot'.trans hk)]
    · refine ⟨a, ?_, hdevice, hatoken.trans htoken.symm⟩
      rw [getElem?_set_some hst, hslot', if_neg hk]
      exact ha
  · obtain ⟨a', ha', -, hatoken⟩ := hslot ha
    obtain ⟨b', hb', hbdevice, hbtoken⟩ := hslot hb
    rw [hatoken, hbtoken]
    exact h.first k l a' b' hlt ha' hb' (hbdevice ▸ hdevice)

/-- An animation starts in the first slot that is not in use, under a new token. -/
theorem Sound.start (h : Sound s) (st' : animation_state_t)
    (hst : s.animation_states[i]? = some st)
    (hfree : st.device = NULL)
    (hfirst : ∀ k < i, ∀ a, s.animation_states[k]? = some a → a.device ≠ NULL)
    (hx : s.animation_executors.basic_executors[j]? = some x)
    (hunused : x.token = INVALID_DEFERRED_TOKEN) (hy : y.token ≠ INVALID_DEFERRED_TOKEN)
    (hnew : ∀ z ∈ s.animation_executors.basic_executors, z.token ≠ y.token)
    (hslot : y.cb_arg = i) (hdevice : st'.device ≠ NULL) (htoken : st'.defer_token = y.token) :
    Sound ⟨s.animation_executors.put j y, s.animation_states.set i st'⟩ := by
  have hout : ∀ {k z}, Occupied (s.animation_executors.put j y) k z ↔
      k = j ∧ z = y ∨ Occupied s.animation_executors k z := by
    intro k z
    rw [occupied_put hx]
    split
    · rename_i hk
      subst hk
      have hnone : ¬ Occupied s.animation_executors k z := fun hz =>
        hz.2 (Option.some.inj (hx.symm.trans hz.1) ▸ hunused)
      simp [hnone, hy]
    · rename_i hk
      simp [hk]
  have hfresh : ∀ {k z}, Occupied s.animation_executors k z → z.token ≠ y.token :=
    fun hz => hnew _ (List.mem_of_getElem? hz.1)
  have hold : ∀ {k : Nat} {a : animation_state_t}, s.animation_states[k]? = some a →
      a.device ≠ NULL → a.defer_token ≠ y.token := by
    intro k a ha hdevice
    obtain ⟨l, z, hz, -, htoken⟩ := h.shown k a ha hdevice
    exact htoken ▸ hfresh hz
  refine ⟨?_, fun k l a b ha hb heq => ?_, fun k a ha hdevice => ?_, fun k z hz => ?_,
    fun k l a b hlt ha hb hdevice => ?_⟩
  · simpa [State.put] using h.size
  · rcases hout.mp ha with ⟨hk, ha'⟩ | ha' <;> rcases hout.mp hb with ⟨hl, hb'⟩ | hb'
    · exact hk.trans hl.symm
    · exact absurd (heq.symm.trans (congrArg _ ha')) (hfresh hb')
    · exact absurd (heq.trans (congrArg _ hb')) (hfresh ha')
    · exact h.tokens k l a b ha' hb' heq
  · rw [getElem?_set_some hst] at ha
    split at ha
    · rename_i hk
      obtain rfl := Option.some.inj ha
      exact ⟨j, y, hout.mpr (.inl ⟨rfl, rfl⟩), hslot.trans hk.symm, htoken.symm⟩
    · obtain ⟨l, z, hz, hzslot, hztoken⟩ := h.shown k a ha hdevice
      exact ⟨l, z, hout.mpr (.inr hz), hzslot, hztoken⟩
  · rcases hout.mp hz with ⟨rfl, rfl⟩ | hz
    · refine ⟨st', ?_, hdevice, htoken⟩
      rw [getElem?_set_some hst, if_pos hslot]
    · obtain ⟨a, ha, hadevice, hatoken⟩ := h.owned k z hz
      refine ⟨a, ?_, hadevice, hatoken⟩
      rw [getElem?_set_some hst, if_neg]
      · exact ha
      · intro hk
        rw [hk, hst] at ha
        exact hadevice (Option.some.inj ha ▸ hfree)
  · rw [getElem?_set_some hst] at ha hb
    split at hb
    · -- The slots before it are in use, under tokens of live entries.
      obtain rfl := Option.some.inj hb
      rw [if_neg (by omega)] at ha
      rw [htoken]
      exact hold ha (hfirst k (by omega) a ha)
    · split at ha
      · obtain rfl := Option.some.inj ha
        rw [htoken]
        exact (hold hb hdevice).symm
      · exact h.first k l a b hlt ha hb hdevice

/-! ## The tick -/

def Delayed (s : State) (now : UInt32) (drawn : Nat → Bool) (i : Nat) : Prop :=
  ∀ j x, i ≤ j → Occupied s.animation_executors j x → x.executes now →
    ∀ st, s.animation_states[x.cb_arg]? = some st → drawn x.cb_arg →
      st.image.delay st.frame_number ≠ 0

theorem run_from_cases (i : Nat) (now : UInt32) (time : Nat) (e : deferred_exec.State) :
    run_from i now time e = { e with loop := none } ∨
      ∃ l x, run_from i now time e = { e with loop := some l } ∧ i ≤ l.i ∧ l.now = now ∧
        l.time = time ∧ Occupied e l.i x ∧ x.executes now ∧ l.curr_token = x.token := by
  unfold run_from
  split
  · exact .inl rfl
  · rename_i k hfind
    obtain ⟨x, hx, hexecutes, -⟩ := findIdx?_spec hfind
    rw [List.getElem?_drop] at hx
    have htoken := hexecutes
    simp only [deferred_executor_t.executes, Bool.and_eq_true, decide_eq_true_eq] at htoken
    refine .inr ⟨_, x, rfl, Nat.le_add_right i k, rfl, rfl, ⟨hx, htoken.1⟩, hexecutes, ?_⟩
    rw [getD_eq hx]

theorem render_drawn (st : animation_state_t) {drawn : Bool} (h : st.device ≠ NULL ∧ drawn = true) :
    ∃ st', qp_render_animation_state drawn st = (some (st.image.delay st.frame_number), st') ∧
      st'.device = st.device ∧ st'.defer_token = st.defer_token :=
  ⟨_, if_pos h, rfl, rfl⟩

theorem render_failed (st : animation_state_t) {drawn : Bool} (h : ¬ (st.device ≠ NULL ∧ drawn = true)) :
    qp_render_animation_state drawn st = (none, st) :=
  if_neg h

theorem delay_ne {delay_ms : UInt16} (h : delay_ms ≠ 0) : delay_ms.toUInt32 ≠ 0 := by
  intro hzero
  have hnat := congrArg UInt32.toNat hzero
  exact h (UInt16.toNat_inj.mp hnat)

theorem animation_callback_cases (hdevice : st.device ≠ NULL) (drawn : Bool)
    (hdelay : drawn = true → st.image.delay st.frame_number ≠ 0) :
    ∃ delay_ms st', animation_callback drawn st = (delay_ms, st') ∧
      st'.defer_token = st.defer_token ∧
        (delay_ms ≠ 0 ∧ st'.device = st.device ∨ delay_ms = 0 ∧ st'.device = NULL) := by
  unfold animation_callback
  by_cases hdrawn : drawn = true
  · obtain ⟨st', hrender, hkept, htoken⟩ := render_drawn _ ⟨hdevice, hdrawn⟩
    rw [hrender]
    exact ⟨_, st', rfl, htoken, .inl ⟨delay_ne (hdelay hdrawn), hkept⟩⟩
  · rw [render_failed _ fun h => hdrawn h.2]
    exact ⟨0, { st with device := NULL }, rfl, rfl, .inr ⟨rfl, rfl⟩⟩

variable {drawn : Nat → Bool}

theorem turns_succ {l : Loop} {delay_ms : UInt32} (n : Nat)
    (hl : s.animation_executors.loop = some l)
    (hx : s.animation_executors.basic_executors[l.i]? = some x)
    (hst : s.animation_states[x.cb_arg]? = some st)
    (hcallback : animation_callback (drawn x.cb_arg) st = (delay_ms, st')) :
    State.turns drawn (n + 1) s = State.turns drawn n
      ⟨callback_returns s.animation_executors delay_ms, s.animation_states.set x.cb_arg st'⟩ := by
  rw [State.turns, hl]
  dsimp only
  rw [getD_eq hx, getD_states hst, hcallback]

theorem callback_returns_eq {e : deferred_exec.State} {l : Loop} (hl : e.loop = some l)
    (hx : e.basic_executors[l.i]? = some x) (hcurr : l.curr_token = x.token) (delay_ms : UInt32) :
    callback_returns e delay_ms = run_from (l.i + 1) l.now l.time
      (e.put l.i (if delay_ms = 0 then unused else { x with
        trigger_time := x.trigger_time + delay_ms, due := x.due + delay_ms.toNat })) := by
  unfold callback_returns
  rw [hl]
  dsimp only
  rw [getD_eq hx, if_neg (not_not.mpr hcurr.symm)]
  by_cases hdelay : delay_ms = 0
  · rw [if_neg (by simp [hdelay]), if_pos hdelay]
  · rw [if_pos (UInt32.pos_iff_ne_zero.mpr hdelay), if_neg hdelay]

theorem Delayed.next {now : UInt32} (h : Sound s) (hdelayed : Delayed s now drawn i)
    (hx : Occupied s.animation_executors j x) (hj : i ≤ j)
    (hst : s.animation_states[x.cb_arg]? = some st) (y : deferred_executor_t)
    (st' : animation_state_t) :
    Delayed ⟨s.animation_executors.put j y, s.animation_states.set x.cb_arg st'⟩ now drawn
      (j + 1) := by
  intro k z hk hz hexecutes a ha
  have hne : k ≠ j := by omega
  rw [occupied_put hx.1, if_neg hne] at hz
  rw [getElem?_set_some hst, if_neg fun hslot => hne (h.slot_inj hz hx hslot)] at ha
  exact hdelayed k z (by omega) hz hexecutes a ha

/-- The loop keeps the link, when all frames that it draws have delays. -/
theorem Sound.turns {now : UInt32} (time : Nat) (n : Nat) (h : Sound s)
    (hdelayed : Delayed s now drawn i) (hfuel : s.animation_states.length ≤ i + n) :
    ∃ r, State.turns drawn n
        { s with animation_executors := run_from i now time s.animation_executors } = r ∧
      Sound r ∧ r.animation_executors.loop = none := by
  refine ⟨_, rfl, ?_⟩
  induction n generalizing s i with
  | zero =>
    rcases run_from_cases i now time s.animation_executors with
      hover | ⟨l, x, -, hle, -, -, hx, -, -⟩
    · rw [hover]
      exact ⟨⟨h.size, h.tokens, h.shown, h.owned, h.first⟩, rfl⟩
    · have hlt := (List.getElem?_eq_some_iff.mp hx.1).1
      have hsize := h.size
      omega
  | succ n ih =>
    rcases run_from_cases i now time s.animation_executors with
      hover | ⟨l, x, hrun, hle, hnow, htime, hx, hexecutes, hcurr⟩
    · rw [hover]
      exact ⟨⟨h.size, h.tokens, h.shown, h.owned, h.first⟩, rfl⟩
    · obtain ⟨st, hst, hdevice, htoken⟩ := h.owned l.i x hx
      obtain ⟨delay_ms, st', hcallback, htoken', hcases⟩ :=
        animation_callback_cases hdevice (drawn x.cb_arg) (hdelayed l.i x hle hx hexecutes st hst)
      -- The loop variable is no part of the link.
      let s' : State := { s with
        animation_executors := { s.animation_executors with loop := some l } }
      have h' : Sound s' := ⟨h.size, h.tokens, h.shown, h.owned, h.first⟩
      have hfuel' : (s.animation_states.set x.cb_arg st').length ≤ l.i + 1 + n := by
        rw [List.length_set]
        omega
      have hreturns := callback_returns_eq (e := s'.animation_executors) rfl hx.1 hcurr delay_ms
      rw [hnow, htime] at hreturns
      rw [hrun]
      rw [turns_succ (s := s') n rfl hx.1 hst hcallback, hreturns]
      rcases hcases with ⟨hdelay, hkept⟩ | ⟨hdelay, hended⟩
      · rw [if_neg hdelay]
        refine ih (h'.keep hx ?_ hst ⟨hkept, htoken'⟩)
          (Delayed.next h' hdelayed hx hle hst _ st') hfuel'
        exact ⟨rfl, rfl⟩
      · rw [if_pos hdelay]
        exact ih (h'.finish hx hst hended htoken')
          (Delayed.next h' hdelayed hx hle hst unused st') hfuel'

theorem turns_over (n : Nat) (h : s.animation_executors.loop = none) :
    State.turns drawn n s = s := by
  cases n with
  | zero => rfl
  | succ n => rw [State.turns, h]

/-- The frames that a tick draws have delays. -/
def Paced (s : State) : input → Prop
  | .qp_internal_animation_tick now drawn =>
    0 < int32 (timer_read32 now - s.animation_executors.last_deferred_exec_check) →
      Delayed s (timer_read32 now) drawn 0
  | _ => True

theorem Sound.tick (h : Sound s) (hrest : s.animation_executors.loop = none) {now : Nat}
    (hpaced : Paced s (.qp_internal_animation_tick now drawn)) :
    Sound (s.qp_internal_animation_tick now drawn) ∧
      (s.qp_internal_animation_tick now drawn).animation_executors.loop = none := by
  unfold State.qp_internal_animation_tick deferred_exec_task
  rw [hrest]
  dsimp only
  split
  · rename_i hturn
    let s' : State := { s with animation_executors := { s.animation_executors with
      last_run := now, last_deferred_exec_check := timer_read32 now } }
    have h' : Sound s' := ⟨h.size, h.tokens, h.shown, h.owned, h.first⟩
    have hdelayed : Delayed s' (timer_read32 now) drawn 0 := hpaced hturn
    obtain ⟨r, rfl, hr⟩ := h'.turns now s.animation_states.length hdelayed
      (Nat.le_of_eq (Nat.zero_add _).symm)
    exact hr
  · rw [turns_over _ rfl]
    exact ⟨⟨h.size, h.tokens, h.shown, h.owned, h.first⟩, rfl⟩

/-! ## Starts -/

/-- A slot that is not in use leaves an entry free. -/
theorem Sound.free_entry (h : Sound s) (hst : s.animation_states[i]? = some st)
    (hfree : st.device = NULL) :
    ∃ x ∈ s.animation_executors.basic_executors, x.token = INVALID_DEFERRED_TOKEN := by
  by_contra hall
  push Not at hall
  have hocc : ∀ j : Fin s.animation_states.length, Occupied s.animation_executors j
      (s.animation_executors.basic_executors.get (j.cast h.size.symm)) :=
    fun j => ⟨List.getElem?_eq_getElem _, hall _ (List.getElem_mem _)⟩
  -- As many entries as slots, and no two of one slot: then each slot has one.
  have hslot : ∀ j : Fin s.animation_states.length, (s.animation_executors.basic_executors.get
      (j.cast h.size.symm)).cb_arg < s.animation_states.length := by
    intro j
    obtain ⟨a, ha, -⟩ := h.owned j _ (hocc j)
    exact (List.getElem?_eq_some_iff.mp ha).1
  let slot : Fin s.animation_states.length → Fin s.animation_states.length :=
    fun j => ⟨_, hslot j⟩
  have hinj : Function.Injective slot := by
    intro j k heq
    exact Fin.ext (h.slot_inj (hocc j) (hocc k) (congrArg Fin.val heq))
  obtain ⟨hlt, -⟩ := List.getElem?_eq_some_iff.mp hst
  obtain ⟨j, hj⟩ := Finite.injective_iff_surjective.mp hinj ⟨i, hlt⟩
  obtain ⟨a, ha, hdevice, -⟩ := h.owned j _ (hocc j)
  have hval : (slot j).val = i := congrArg Fin.val hj
  change s.animation_states[(slot j).val]? = some a at ha
  rw [hval, hst] at ha
  exact hdevice (Option.some.inj ha ▸ hfree)

/-- A slot that is not in use, because it was not used or its animation has ended, is
taken by the next animation whose first frame can be drawn and has a delay. -/
def Reused (s : State) (now : Nat) (r : Request) (drawn : Bool) : Prop :=
  s.animation_states.length ≤ 255 → (∃ st ∈ s.animation_states, st.device = NULL) →
    r.device ≠ NULL → drawn = true → r.image.delay 0 ≠ 0 →
      (s.qp_animate_recolor now r drawn).1 ≠ INVALID_DEFERRED_TOKEN ∧
        ∃ i st st', s.animation_states[i]? = some st ∧ st.device = NULL ∧
          st'.device = r.device ∧ st'.defer_token = (s.qp_animate_recolor now r drawn).1 ∧
          (s.qp_animate_recolor now r drawn).2.animation_states = s.animation_states.set i st'

theorem Sound.animate (h : Sound s) (hrest : s.animation_executors.loop = none) (now : Nat)
    (r : Request) (drawn : Bool) :
    Sound (s.qp_animate_recolor now r drawn).2 ∧
      (s.qp_animate_recolor now r drawn).2.animation_executors.loop = none ∧
      Reused s now r drawn := by
  unfold Reused State.qp_animate_recolor
  cases hfind : s.animation_states.findIdx? (·.device = NULL) with
  | none =>
    refine ⟨h, hrest, fun _ ⟨st, hst, hfree⟩ => ?_⟩
    have hnone := List.findIdx?_eq_none_iff.mp hfind st hst
    simp [hfree] at hnone
  | some i =>
    obtain ⟨st, hst, hfree, hfirst⟩ := findIdx?_spec hfind
    have hfree : st.device = NULL := of_decide_eq_true hfree
    have hfirst : ∀ k < i, ∀ a, s.animation_states[k]? = some a → a.device ≠ NULL :=
      fun k hk a ha => of_decide_eq_false (hfirst k hk a ha)
    dsimp only
    rw [getD_states hst]
    by_cases hdraw : r.device ≠ NULL ∧ drawn = true
    · obtain ⟨st', hrender, hdevice, -⟩ := render_drawn (r.prepare st.defer_token) hdraw
      rw [hrender]
      dsimp only
      rcases defer_exec_cases now s.animation_executors
          ((r.prepare st.defer_token).image.delay (r.prepare st.defer_token).frame_number).toUInt32
          callback_pointer i with
        ⟨htoken, t, heq⟩ | ⟨j, x, y, hx, hunused, hy, hne, hnew, heq⟩
      · rw [htoken, heq, if_pos rfl]
        refine ⟨h.idle _ hst hfree rfl (.inr rfl) t, hrest, fun hlen _ _ _ hdelay => ?_⟩
        exact absurd htoken (defer_exec_ne now _ _ (delay_ne hdelay) (by decide)
          (h.size.symm ▸ hlen) (h.free_entry hst hfree))
      · have htoken := congrArg (·.token) hy
        dsimp only at htoken
        rw [← htoken, heq, if_neg hne]
        have hsound := h.start { st' with defer_token := y.token } hst hfree hfirst hx
          hunused hne hnew (by rw [hy]) (hdevice.trans_ne hdraw.1) rfl
        exact ⟨⟨hsound.size, hsound.tokens, hsound.shown, hsound.owned, hsound.first⟩, hrest,
          fun _ _ _ _ _ => ⟨hne, i, st, { st' with defer_token := y.token }, hst, hfree, hdevice,
            rfl, rfl⟩⟩
    · rw [render_failed (r.prepare st.defer_token) hdraw]
      exact ⟨h.idle { r.prepare st.defer_token with device := NULL } hst hfree rfl
        (.inl rfl) s.animation_executors.current_token, hrest,
        fun _ _ hdevice hdrawn _ => absurd ⟨hdevice, hdrawn⟩ hdraw⟩

/-! ## Stops -/

/-- The animation with the token ends, and its entry, and no other. -/
def Stopped (s : State) (anim_token : UInt8) (s' : State) : Prop :=
  s'.animation_states = s.animation_states.map (fun st =>
      if st.defer_token = anim_token then { st with device := NULL } else st) ∧
    ∀ j x, Occupied s'.animation_executors j x ↔
      Occupied s.animation_executors j x ∧ x.token ≠ anim_token

theorem Sound.stop (h : Sound s) (hrest : s.animation_executors.loop = none) (anim_token : UInt8) :
    Sound (s.qp_stop_animation anim_token) ∧
      (s.qp_stop_animation anim_token).animation_executors.loop = none ∧
      Stopped s anim_token (s.qp_stop_animation anim_token) := by
  unfold State.qp_stop_animation
  cases hfind : s.animation_states.findIdx? (·.defer_token = anim_token) with
  | none =>
    have hnone : ∀ st ∈ s.animation_states, st.defer_token ≠ anim_token := fun st hst =>
      of_decide_eq_false (List.findIdx?_eq_none_iff.mp hfind st hst)
    refine ⟨h, hrest, ?_, fun j x => ?_⟩
    · refine (List.map_id _).symm.trans (List.map_congr_left fun st hst => ?_)
      rw [if_neg (hnone st hst)]
      rfl
    · refine (and_iff_left_of_imp fun hx => ?_).symm
      obtain ⟨st, hst, -, htoken⟩ := h.owned j x hx
      exact htoken ▸ hnone st (List.mem_of_getElem? hst)
  | some i =>
    obtain ⟨st, hst, htoken, hfirst⟩ := findIdx?_spec hfind
    have htoken : st.defer_token = anim_token := of_decide_eq_true htoken
    -- The other slots with the token are not in use.
    have hother : ∀ k a, s.animation_states[k]? = some a → a.defer_token = anim_token → k ≠ i →
        a.device = NULL := by
      intro k a ha hatoken hk
      by_contra hdevice
      rcases Nat.lt_or_gt_of_ne hk with hlt | hgt
      · exact of_decide_eq_false (hfirst k hlt a ha) hatoken
      · exact h.first i k st a hgt hst ha hdevice (htoken.trans hatoken.symm)
    have hstates : s.animation_states.set i { st with device := NULL } =
        s.animation_states.map fun st =>
          if st.defer_token = anim_token then { st with device := NULL } else st := by
      refine List.ext_getElem? fun k => ?_
      rw [getElem?_set_some hst, List.getElem?_map]
      split
      · rename_i hk
        rw [hk, hst, Option.map_some, if_pos htoken]
      · rename_i hk
        cases ha : s.animation_states[k]? with
        | none => rfl
        | some a =>
          rw [Option.map_some]
          split
          · rename_i hatoken
            rw [← hother k a ha hatoken hk]
          · rfl
    dsimp only
    rw [getD_states hst]
    rcases cancel_cases s.animation_executors anim_token with
      ⟨heq, hnone⟩ | ⟨j, x, hx, hxtoken, heq⟩
    · -- No entry has the token, so the slot is not in use.
      have hfree : st.device = NULL := by
        by_contra hdevice
        obtain ⟨j, x, hx, -, hxtoken⟩ := h.shown i st hst hdevice
        exact hnone j x hx (hxtoken.trans htoken)
      rw [heq]
      exact ⟨h.idle { st with device := NULL } hst hfree rfl (.inl rfl)
        s.animation_executors.current_token, hrest, hstates,
        fun j x => (and_iff_left_of_imp fun hx => hnone j x hx).symm⟩
    · have hslot : x.cb_arg = i := by
        obtain ⟨a, ha, hdevice, hatoken⟩ := h.owned j x hx
        by_contra hk
        exact hdevice (hother _ a ha (hatoken.trans hxtoken) hk)
      subst hslot
      rw [heq]
      refine ⟨h.finish hx hst rfl rfl, hrest, hstates, fun k z => ?_⟩
      rw [occupied_put hx.1]
      split
      · rename_i hk
        refine iff_of_false (fun hz => hz.2 rfl) ?_
        rintro ⟨hz, hne⟩
        exact hne (Option.some.inj (hz.1.symm.trans (hk ▸ hx.1)) ▸ hxtoken)
      · rename_i hk
        exact (and_iff_left_of_imp fun hz heq' => hk (h.tokens k j z x hz hx
          (heq'.trans hxtoken.symm))).symm

end

/-! ## Runs -/

/-- What a call does: a stop ends what it names and nothing else, and a start can use the
slots that are not in use. -/
def Answers (s : State) : input → Prop
  | .qp_stop_animation anim_token => Stopped s anim_token (s.qp_stop_animation anim_token)
  | .qp_animate_recolor now r drawn => Reused s now r drawn
  | _ => True

/-- A call leaves the tables linked, and does what it should. -/
def Works (s : State) (x : input) : Prop := Linked (step s x) ∧ Answers s x

/-- Between the calls no loop runs. -/
def AtRest (s : State) : Prop := Sound s ∧ s.animation_executors.loop = none

theorem AtRest.boot (n : Nat) : AtRest (boot n) := by
  have hfree := boot_free n
  have hunused : ∀ (i : Nat) (st : animation_state_t),
      (animations.boot n).animation_states[i]? = some st → st.device = NULL :=
    fun i st hst => (List.eq_of_mem_replicate (List.mem_of_getElem? hst)) ▸ rfl
  exact ⟨⟨by simp [animations.boot, deferred_exec.State.boot],
    fun i j x y hx => absurd hx (hfree i x),
    fun i st hst hdevice => absurd (hunused i st hst) hdevice,
    fun j x hx => absurd hx (hfree j x),
    fun i j a b _ _ hb hdevice => absurd (hunused j b hb) hdevice⟩, rfl⟩

theorem AtRest.step {s : State} {x : input} (h : AtRest s) (hx : Paced s x) :
    Works s x ∧ AtRest (animations.step s x) := by
  obtain ⟨hsound, hrest⟩ := h
  suffices hstep : AtRest (animations.step s x) ∧ Answers s x from
    ⟨⟨hstep.1.1.linked, hstep.2⟩, hstep.1⟩
  cases x with
  | qp_animate_recolor now r drawn =>
    obtain ⟨hkept, hloop, hreused⟩ := hsound.animate hrest now r drawn
    exact ⟨⟨hkept, hloop⟩, hreused⟩
  | qp_stop_animation anim_token =>
    obtain ⟨hkept, hloop, hstopped⟩ := hsound.stop hrest anim_token
    exact ⟨⟨hkept, hloop⟩, hstopped⟩
  | qp_internal_animation_tick now drawn => exact ⟨hsound.tick hrest hx, trivial⟩
  | other_tables current_token =>
    exact ⟨⟨⟨hsound.size, hsound.tokens, hsound.shown, hsound.owned, hsound.first⟩, hrest⟩, trivial⟩

/-- In every run in which the ticks draw no frame without a delay, each call leaves the
tables linked, a stop ends what it names and nothing else, and a slot whose animation has
ended can be used again. -/
theorem slots_are_linked_while_frames_have_delays
    (QUANTUM_PAINTER_CONCURRENT_ANIMATIONS : Nat) (xs : List input)
    (h : Along step Paced (boot QUANTUM_PAINTER_CONCURRENT_ANIMATIONS) xs) :
    Along step Works (boot QUANTUM_PAINTER_CONCURRENT_ANIMATIONS) xs :=
  Along.imp (I := AtRest) (C := Paced) (P := Works) (fun _ _ hrest hx => hrest.step hx)
    (AtRest.boot _) h

/-- Two frames, shown for some times. -/
def request (first second : UInt16) : Request :=
  ⟨1, 0, 0, ⟨2, fun frame => if frame = 0 then first else second⟩, ⟨0, 0, 255⟩, ⟨0, 0, 0⟩⟩

/-- An animation is started, its second frame is drawn, and it is stopped. -/
def shown (first second : UInt16) : List input :=
  [.qp_animate_recolor 0 (request first second) true,
    .qp_internal_animation_tick 100 fun _ => true, .qp_stop_animation 1]

theorem slots_are_linked_in_an_animation : Along step Works (boot 1) (shown 100 50) := by
  refine slots_are_linked_while_frames_have_delays 1 (shown 100 50)
    ⟨trivial, fun _ => ?_, trivial, trivial⟩
  intro j x _ _ _ st hst _
  have hmem := List.mem_of_getElem? hst
  have hone : (step (boot 1) (.qp_animate_recolor 0 (request 100 50) true)).animation_states =
      [⟨1, 0, 0, (request 100 50).image, ⟨0, 0, 255⟩, ⟨0, 0, 0⟩, 1, 1⟩] := rfl
  rw [hone, List.mem_singleton] at hmem
  rw [hmem]
  decide

/-- The second frame has no delay: its entry is freed, the slot stays in use, and no other
animation can start. -/
theorem a_frame_without_delay_keeps_its_slot :
    (((shown 100 0).take 2).foldl step (boot 1)).animation_states.map (·.device) = [1] ∧
      (((shown 100 0).take 2).foldl step (boot 1)).animation_executors.basic_executors = [unused] ∧
      ((((shown 100 0).take 2).foldl step (boot 1)).qp_animate_recolor 200 (request 50 50) true).1 =
        INVALID_DEFERRED_TOKEN ∧
      ¬ Along step Works (boot 1) (shown 100 0) := by
  refine ⟨by rfl, by rfl, by rfl, fun h => ?_⟩
  obtain ⟨j, x, hx, -⟩ := (h.2.1.1 0 _ rfl).mp (by decide)
  have hmem := List.mem_of_getElem? hx.1
  have hfreed : (((shown 100 0).take 2).foldl step
      (boot 1)).animation_executors.basic_executors = [unused] := rfl
  exact hx.2 (List.mem_singleton.mp (hfreed ▸ hmem) ▸ rfl)

end keychron_qmk.painter.animations
