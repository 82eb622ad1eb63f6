-- Taps and holds in balance: the records handed over for one key are presses and
-- releases in turn, and a release has the decision of its press, where no multi-tap
-- is interrupted and no event of the key overtakes another.
import KeychronQMK.Tapping.Outcomes

namespace keychron_qmk.action_tapping

open runs
open action_layer (keypos_t)

/-! ## Balanced records -/

/-- A press, its release with the same decision, and so on. -/
def Balanced : List keyrecord_t → Prop
  | [] => True
  | [press] => press.event.pressed = true
  | press :: release :: rest => press.event.pressed = true ∧ release.event.pressed = false ∧
      (release.tap.count = 0 ↔ press.tap.count = 0) ∧ Balanced rest

/-- The press that no release has ended. -/
def unended : List keyrecord_t → Option keyrecord_t
  | [] => none
  | [press] => some press
  | _ :: _ :: rest => unended rest

instance Balanced.decidable : ∀ rs, Decidable (Balanced rs)
  | [] => .isTrue trivial
  | [_] => inferInstanceAs (Decidable (_ = _))
  | _ :: _ :: rest =>
    have := Balanced.decidable rest
    inferInstanceAs (Decidable (_ = _ ∧ _ = _ ∧ (_ ↔ _) ∧ _))

variable {rs : List keyrecord_t}

theorem Balanced.press {p : keyrecord_t} (h : Balanced rs) (hu : unended rs = none)
    (hp : p.event.pressed = true) : Balanced (rs ++ [p]) ∧ unended (rs ++ [p]) = some p := by
  fun_induction Balanced rs with
  | case1 => exact ⟨hp, rfl⟩
  | case2 press => cases hu
  | case3 press release rest ih =>
    obtain ⟨h1, h2, h3, h4⟩ := h
    exact ⟨⟨h1, h2, h3, (ih h4 hu).1⟩, (ih h4 hu).2⟩

theorem Balanced.release {p r : keyrecord_t} (h : Balanced rs) (hu : unended rs = some p)
    (hr : r.event.pressed = false) (hc : r.tap.count = 0 ↔ p.tap.count = 0) :
    Balanced (rs ++ [r]) ∧ unended (rs ++ [r]) = none := by
  fun_induction Balanced rs with
  | case1 => cases hu
  | case2 press =>
    obtain rfl := Option.some.inj hu
    exact ⟨⟨h, hr, hc, trivial⟩, rfl⟩
  | case3 press release rest ih =>
    obtain ⟨h1, h2, h3, h4⟩ := h
    exact ⟨⟨h1, h2, h3, (ih h4 hu).1⟩, (ih h4 hu).2⟩

/-! ## One key -/

/-- What a run holds of one key: the records handed over, the tapping key where it is this key
and is down, and the records that wait behind it. -/
structure KeyState where
  handed : List keyrecord_t
  tapping : Option keyrecord_t
  line : List keyrecord_t

def Unmarked (rs : List keyrecord_t) : Prop := ∀ r ∈ rs, r.tap.count = 0

/-- The records wait for presses and releases in turn, beginning with `b`, with those to come. -/
def InTurn (b : Bool) (line : List keyrecord_t) (future : List Bool) : Prop :=
  Alternates b (line.map (·.event.pressed) ++ future)

/-- How a run stands with a key, before the presses and releases of `future`. -/
inductive KeyState.Sound (future : List Bool) : KeyState → Prop
  | up {handed line : List keyrecord_t} (balanced : Balanced handed)
      (ended : unended handed = none) (turns : InTurn true line future)
      (unmarked : Unmarked line) : Sound future ⟨handed, none, line⟩
  | waits {handed line : List keyrecord_t} {t : keyrecord_t} (balanced : Balanced handed)
      (ended : unended handed = none) (down : t.event.pressed = true) (unsettled : t.tap.count = 0)
      (turns : InTurn false line future) (unmarked : Unmarked line) :
      Sound future ⟨handed, some t, line⟩
  | held {handed line : List keyrecord_t} {p : keyrecord_t} (balanced : Balanced handed)
      (begun : unended handed = some p) (hold : p.tap.count = 0) (turns : InTurn false line future)
      (unmarked : Unmarked line) : Sound future ⟨handed, none, line⟩
  /-- The press was handed over as a tap, and its release is marked. -/
  | tapped {handed line : List keyrecord_t} {p r : keyrecord_t} {tapping : Option keyrecord_t}
      (balanced : Balanced handed) (begun : unended handed = some p) (tap : p.tap.count ≠ 0)
      (settled : ∀ t ∈ tapping, t.tap.count = 1) (marked : r.tap.count ≠ 0)
      (turns : InTurn false (r :: line) future) (unmarked : Unmarked line) :
      Sound future ⟨handed, tapping, r :: line⟩
  | multi {handed line : List keyrecord_t} {p t : keyrecord_t} (balanced : Balanced handed)
      (begun : unended handed = some p) (tap : p.tap.count ≠ 0) (multi : 1 < t.tap.count)
      (turns : InTurn false line future) (unmarked : Unmarked line) :
      Sound future ⟨handed, some t, line⟩

namespace KeyState.Sound

variable {future : List Bool} {handed line : List keyrecord_t} {r t : keyrecord_t}

theorem balance {k : KeyState} (h : Sound future k) : Balanced k.handed := by
  cases h <;> assumption

theorem in_turn {k : KeyState} (h : Sound future k) : ∃ b, InTurn b k.line future := by
  cases h
  case up => exact ⟨true, ‹_›⟩
  all_goals exact ⟨false, ‹_›⟩

variable {tapping : Option keyrecord_t}

theorem arrive (h : Sound (r.event.pressed :: future) ⟨handed, tapping, line⟩)
    (hr : r.tap.count = 0) : Sound future ⟨handed, tapping, line ++ [r]⟩ := by
  have hturns : ∀ {b : Bool} {rs : List keyrecord_t},
      InTurn b rs (r.event.pressed :: future) → InTurn b (rs ++ [r]) future := by
    intro b rs hrs
    simpa [InTurn] using hrs
  have hunmarked : ∀ {rs : List keyrecord_t}, Unmarked rs → Unmarked (rs ++ [r]) := by
    intro rs hrs q hq
    rcases List.mem_append.mp hq with hq | hq
    · exact hrs q hq
    · rw [List.mem_singleton.mp hq]
      exact hr
  cases h with
  | up hb he ht hm => exact .up hb he (hturns ht) (hunmarked hm)
  | waits hb he hd hc ht hm => exact .waits hb he hd hc (hturns ht) (hunmarked hm)
  | held hb he hc ht hm => exact .held hb he hc (hturns ht) (hunmarked hm)
  | tapped hb he hc hs hmark ht hm => exact .tapped hb he hc hs hmark (hturns ht) (hunmarked hm)
  | multi hb he hc hmulti ht hm => exact .multi hb he hc hmulti (hturns ht) (hunmarked hm)

theorem hand (h : Sound future ⟨handed, none, r :: line⟩) :
    Sound future ⟨handed ++ [r], none, line⟩ := by
  cases h with
  | up hb he ht hm =>
    obtain ⟨hb', he'⟩ := hb.press he ht.1
    exact .held hb' he' (hm r List.mem_cons_self) ht.2 fun q hq => hm q (List.mem_cons_of_mem r hq)
  | held hb he hc ht hm =>
    have hr := hm r List.mem_cons_self
    obtain ⟨hb', he'⟩ := hb.release he ht.1 (by simp [hr, hc])
    exact .up hb' he' ht.2 fun q hq => hm q (List.mem_cons_of_mem r hq)
  | tapped hb he hc hs hmark ht hm =>
    obtain ⟨hb', he'⟩ := hb.release he ht.1 (by simp [hmark, hc])
    exact .up hb' he' ht.2 hm

theorem take (h : Sound future ⟨handed, none, r :: line⟩) (hr : r.event.pressed = true) :
    Sound future ⟨handed, some r, line⟩ := by
  cases h with
  | up hb he ht hm =>
    exact .waits hb he hr (hm r List.mem_cons_self) ht.2 fun q hq => hm q (List.mem_cons_of_mem r hq)
  | held hb he hc ht hm => exact absurd ht.1 (by simp [hr])
  | tapped hb he hc hs hmark ht hm => exact absurd ht.1 (by simp [hr])

theorem sequential {tap : tap_t} (h : Sound future ⟨handed, none, r :: line⟩)
    (hr : r.event.pressed = true) (hc : 1 < tap.count) :
    Sound future ⟨handed ++ [{ r with tap := tap }], some { r with tap := tap }, line⟩ := by
  cases h with
  | up hb he ht hm =>
    obtain ⟨hb', he'⟩ := hb.press (p := { r with tap := tap }) he hr
    exact .multi hb' he' (by show tap.count ≠ 0; omega) hc ht.2
      fun q hq => hm q (List.mem_cons_of_mem r hq)
  | held hb he hc ht hm => exact absurd ht.1 (by simp [hr])
  | tapped hb he hc hs hmark ht hm => exact absurd ht.1 (by simp [hr])

variable {t' : keyrecord_t}

theorem tap {r' : keyrecord_t} (h : Sound future ⟨handed, some t, r :: line⟩) (hc : t.tap.count = 0)
    (ht' : t'.event = t.event) (hc' : t'.tap.count = 1) (hr : r'.event = r.event)
    (hm' : r'.tap.count ≠ 0) : Sound future ⟨handed ++ [t'], some t', r' :: line⟩ := by
  cases h with
  | waits hb he hd hc ht hm =>
    obtain ⟨hb', he'⟩ := hb.press (p := t') he (by rw [ht', hd])
    refine .tapped hb' he' (by simp [hc']) (by simp [hc']) hm' ?_
      fun q hq => hm q (List.mem_cons_of_mem r hq)
    simpa [InTurn, hr] using ht
  | tapped hb he hc0 hs hmark ht hm => exact absurd (hs t rfl) (by simp [hc])
  | multi hb he hc0 hmulti ht hm => omega

theorem hold (h : Sound future ⟨handed, some t, line⟩) (hc : t.tap.count = 0)
    (ht' : t'.event = t.event) (hc' : t'.tap.count = 0) :
    Sound future ⟨handed ++ [t'], none, line⟩ := by
  cases h with
  | waits hb he hd hc ht hm =>
    obtain ⟨hb', he'⟩ := hb.press (p := t') he (by rw [ht', hd])
    exact .held hb' he' hc' ht hm
  | tapped hb he hc0 hs hmark ht hm => exact absurd (hs t rfl) (by simp [hc])
  | multi hb he hc0 hmulti ht hm => omega

theorem release (h : Sound future ⟨handed, some t, r :: line⟩) (hc : t.tap.count ≠ 0) :
    Sound future ⟨handed ++ [{ r with tap := t.tap }], none, line⟩ := by
  cases h with
  | waits hb he hd hc0 ht hm => exact absurd hc0 hc
  | tapped hb he hc0 hs hmark ht hm =>
    obtain ⟨hb', he'⟩ := hb.release (r := { r with tap := t.tap }) he ht.1 (by simp [hc, hc0])
    exact .up hb' he' ht.2 hm
  | multi hb he hc0 hmulti ht hm =>
    obtain ⟨hb', he'⟩ := hb.release (r := { r with tap := t.tap }) he ht.1 (by simp [hc, hc0])
    exact .up hb' he' ht.2 fun q hq => hm q (List.mem_cons_of_mem r hq)

theorem leave (h : Sound future ⟨handed, tapping, line⟩) (hc : ∀ t ∈ tapping, t.tap.count = 1) :
    Sound future ⟨handed, none, line⟩ := by
  cases h with
  | up hb he ht hm => exact .up hb he ht hm
  | waits hb he hd hc0 ht hm => exact absurd (hc _ rfl) (by simp [hc0])
  | held hb he hc0 ht hm => exact .held hb he hc0 ht hm
  | tapped hb he hc0 hs hmark ht hm => exact .tapped hb he hc0 (by simp) hmark ht hm
  | multi hb he hc0 hmulti ht hm =>
    have := hc _ rfl
    omega

theorem mark (h : Sound future ⟨handed, some t, line⟩) (hm : Marks t t') :
    Sound future ⟨handed, some t', line⟩ := by
  have hevent : t'.event = t.event := by rcases hm with rfl | rfl <;> rfl
  have hcount : t'.tap.count = t.tap.count := by rcases hm with rfl | rfl <;> rfl
  cases h with
  | waits hb he hd hc ht hm => exact .waits hb he (by rw [hevent, hd]) (by rw [hcount, hc]) ht hm
  | tapped hb he hc hs hmark ht hm => exact .tapped hb he hc (by simpa [hcount] using hs) hmark ht hm
  | multi hb he hc hmulti ht hm => exact .multi hb he hc (by omega) ht hm

end KeyState.Sound

/-! ## What upsets the balance -/

section

variable (cfg : Config) (key : keypos_t) (keyp : Slot) (s : Tapping)

def InterruptsMultiTap : Prop :=
  s.tapping_key.event.key = key ∧ s.tapping_key.event.pressed = true ∧
    1 < s.tapping_key.tap.count ∧ (s.read keyp).event.pressed = true ∧
    is_tap_record cfg (s.read keyp) s = true

/-- An event of the key arrives and is not put behind an earlier one that is in the buffer:
no tapping key waits, or it is taken for the release of the tapping key. -/
def Overtakes : Prop :=
  keyp = .record ∧ IS_EVENT (s.read keyp).event = true ∧ (s.read keyp).event.key = key ∧
    (∃ q ∈ s.waiting_buffer, q.event.key = key) ∧
    (s.unsettled = false ∨ s.tapping_key.event.key = key ∧
      (s.read keyp).event.pressed = false ∧ WITHIN_TAPPING_TERM cfg (s.read keyp).event s = true)

/-- The key becomes the tapping key, and by the 16-bit timer a release of it in the buffer is
within the term that comes behind one that is not. -/
def Misdates : Prop :=
  (s.read keyp).event.key = key ∧ (s.read keyp).event.pressed = true ∧ s.unsettled = false ∧
    ¬ s.waiting_buffer.Pairwise fun q' q => q'.event.key = key → q'.event.pressed = false →
      is_tap_candidate cfg { s with tapping_key := s.read keyp } q = true →
      is_tap_candidate cfg { s with tapping_key := s.read keyp } q' = true

/-- The call of `process_tapping` keeps the taps and holds of the key in balance. -/
def Fair : Prop :=
  ¬ InterruptsMultiTap cfg key keyp s ∧ ¬ Overtakes cfg key keyp s ∧ ¬ Misdates cfg key keyp s

instance : Decidable (Fair cfg key keyp s) :=
  inferInstanceAs (Decidable (¬ (_ ∧ _ ∧ _ ∧ _ ∧ _) ∧ ¬ (_ ∧ _ ∧ _ ∧ _ ∧ (_ ∨ _ ∧ _ ∧ _)) ∧
    ¬ (_ ∧ _ ∧ _ ∧ ¬ _)))

end

/-! ## The keys of a run -/

def tappingOf (key : keypos_t) (t : keyrecord_t) : Option keyrecord_t :=
  if IS_EVENT t.event = true ∧ t.event.pressed = true ∧ t.event.key = key then some t else none

def Tapping.keyState (s : Tapping) (key : keypos_t) (line : List keyrecord_t) : KeyState :=
  ⟨recordsOf key (records s.calls), tappingOf key s.tapping_key, recordsOf key line⟩

section

variable {key : keypos_t} {t : keyrecord_t}

theorem tappingOf_some (he : IS_EVENT t.event = true) (hp : t.event.pressed = true)
    (hk : t.event.key = key) : tappingOf key t = some t := if_pos ⟨he, hp, hk⟩

theorem tappingOf_none (h : IS_EVENT t.event = true → t.event.pressed = true →
    t.event.key ≠ key) : tappingOf key t = none := if_neg fun hk => h hk.1 hk.2.1 hk.2.2

theorem tappingOf_up (h : t.event.pressed = false) : tappingOf key t = none :=
  tappingOf_none fun _ hp => by simp [h] at hp

theorem of_tappingOf {u : keyrecord_t} (h : u ∈ tappingOf key t) :
    u = t ∧ IS_EVENT t.event = true ∧ t.event.pressed = true ∧ t.event.key = key := by
  unfold tappingOf at h
  split at h
  · rename_i hk
    exact ⟨(Option.some.inj h).symm, hk⟩
  · cases h

theorem KeyState.Sound.marks {future : List Bool} {handed line : List keyrecord_t}
    {t' : keyrecord_t} (h : Sound future ⟨handed, tappingOf key t, line⟩) (hm : Marks t t') :
    Sound future ⟨handed, tappingOf key t', line⟩ := by
  have hevent : t'.event = t.event := by rcases hm with rfl | rfl <;> rfl
  by_cases hk : IS_EVENT t.event = true ∧ t.event.pressed = true ∧ t.event.key = key
  · rw [tappingOf_some hk.1 hk.2.1 hk.2.2] at h
    rw [tappingOf_some (hevent ▸ hk.1) (hevent ▸ hk.2.1) (hevent ▸ hk.2.2)]
    exact h.mark hm
  · rw [show tappingOf key t = none from if_neg hk] at h
    rw [show tappingOf key t' = none from if_neg (hevent ▸ hk)]
    exact h

end

section

variable {cfg : Config} {key : keypos_t} {keyp : Slot} {s s' : Tapping} {future : List Bool}

open KeyState (Sound)

theorem first_of_key (hf : ¬ Overtakes cfg key keyp s)
    (he : IS_EVENT (s.read keyp).event = true) (hu : s.unsettled = false)
    (hkey : (s.read keyp).event.key = key) (hk : keyp = .record) :
    ∀ q ∈ s.waiting_buffer, q.event.key ≠ key :=
  fun q hq hqk => hf ⟨hk, he, hkey, ⟨q, hq, hqk⟩, .inl hu⟩

variable {r t : keyrecord_t}

theorem KeyState.Sound.next_up {handed line : List keyrecord_t}
    (h : Sound future ⟨handed, some t, r :: line⟩) : r.event.pressed = false := by
  cases h with
  | waits hb he hd hc ht hm => exact ht.1
  | tapped hb he hc hs hmark ht hm => exact ht.1
  | multi hb he hc hmulti ht hm => exact ht.1

theorem sound_hand {early : Bool} (hk : keyp.Holds s) (hf : ¬ Overtakes cfg key keyp s)
    (he : IS_EVENT (s.read keyp).event = true) (hu : s.unsettled = false)
    (hm : Marks s.tapping_key t)
    (hother : IS_EVENT s.tapping_key.event = true → s.tapping_key.event.pressed = true →
      s.tapping_key.event.key = (s.read keyp).event.key → (s.read keyp).event.pressed = true)
    (h : Sound future (s.keyState key (keyp.line s))) :
    Sound future ((s.turn [.process_record (s.read keyp) t early] t).keyState key
      (keyp.rest s)) := by
  unfold Tapping.keyState at h ⊢
  simp only [Tapping.turn, records_append, records_process_record, recordsOf_append]
  by_cases hkey : (s.read keyp).event.key = key
  · rw [line_of_first hk he hkey (first_of_key hf he hu hkey)] at h
    have hnone : tappingOf key s.tapping_key = none := by
      refine tappingOf_none fun hte htp htk => ?_
      rw [tappingOf_some hte htp htk] at h
      have := hother hte htp (htk.trans hkey.symm)
      simp [h.next_up] at this
    rw [recordsOf_cons_self hkey]
    rw [hnone] at h
    have hhand := h.hand
    rw [← hnone] at hhand
    exact hhand.marks hm
  · rw [line_of_other hk hkey] at h
    rw [recordsOf_cons_other hkey]
    simpa [recordsOf] using h.marks hm

theorem sound_tap_release (hk : keyp.Holds s) (hf : ¬ Overtakes cfg key keyp s)
    (he : IS_EVENT (s.read keyp).event = true) (hte : IS_EVENT s.tapping_key.event = true)
    (htp : s.tapping_key.event.pressed = true) (hc : s.tapping_key.tap.count ≠ 0)
    (hkeys : s.tapping_key.event.key = (s.read keyp).event.key) (hup : t.event.pressed = false)
    (h : Sound future (s.keyState key (keyp.line s))) :
    Sound future ((s.turn [.process_record { s.read keyp with tap := s.tapping_key.tap }
      s.tapping_key false] t).keyState key (keyp.rest s)) := by
  unfold Tapping.keyState at h ⊢
  simp only [Tapping.turn, records_append, records_process_record, recordsOf_append,
    tappingOf_up hup]
  by_cases hkey : (s.read keyp).event.key = key
  · rw [line_of_first hk he hkey (first_of_key hf he (settled_of_count hc) hkey),
      tappingOf_some hte htp (hkeys.trans hkey)] at h
    rw [recordsOf_cons_self (by exact hkey)]
    exact h.release hc
  · rw [line_of_other hk hkey, tappingOf_none fun _ _ htk => hkey (hkeys.symm.trans htk)] at h
    rw [recordsOf_cons_other (by exact hkey)]
    simpa [recordsOf] using h

theorem sound_sequential {count : Nat} (hk : keyp.Holds s) (hf : ¬ Overtakes cfg key keyp s)
    (he : IS_EVENT (s.read keyp).event = true) (hp : (s.read keyp).event.pressed = true)
    (hup : s.tapping_key.event.pressed = false) (hmulti : 1 < count)
    (h : Sound future (s.keyState key (keyp.line s))) :
    Sound future ((s.turn
      [.process_record { s.read keyp with tap := { s.tapping_key.tap with count := count } }
        s.tapping_key false]
      { s.read keyp with tap := { s.tapping_key.tap with count := count } }).keyState key
        (keyp.rest s)) := by
  unfold Tapping.keyState at h ⊢
  simp only [Tapping.turn, records_append, records_process_record, recordsOf_append]
  rw [tappingOf_up hup] at h
  by_cases hkey : (s.read keyp).event.key = key
  · rw [line_of_first hk he hkey (first_of_key hf he (settled_of_released hup) hkey)] at h
    rw [recordsOf_cons_self (by exact hkey),
      tappingOf_some (by exact he) (by exact hp) (by exact hkey)]
    exact h.sequential hp hmulti
  · rw [line_of_other hk hkey] at h
    rw [recordsOf_cons_other (by exact hkey), tappingOf_none fun _ _ => by exact hkey]
    simpa [recordsOf] using h

theorem sound_again (hk : keyp.Holds s) (hf : ¬ Overtakes cfg key keyp s)
    (he : IS_EVENT (s.read keyp).event = true) (hp : (s.read keyp).event.pressed = true)
    (hup : s.tapping_key.event.pressed = false)
    (h : Sound future (s.keyState key (keyp.line s))) :
    Sound future (Tapping.keyState { s with tapping_key := s.read keyp } key (keyp.rest s)) := by
  unfold Tapping.keyState at h ⊢
  rw [tappingOf_up hup] at h
  by_cases hkey : (s.read keyp).event.key = key
  · rw [line_of_first hk he hkey (first_of_key hf he (settled_of_released hup) hkey)] at h
    rw [tappingOf_some he hp hkey]
    exact h.take hp
  · rw [line_of_other hk hkey] at h
    rw [tappingOf_none fun _ _ => hkey]
    exact h

theorem sound_first_tap (hk : keyp.Holds s) (hf : ¬ Overtakes cfg key keyp s)
    (he : IS_EVENT (s.read keyp).event = true) (hu : s.unsettled = true)
    (hw : WITHIN_TAPPING_TERM cfg (s.read keyp).event s = true)
    (hkeys : s.tapping_key.event.key = (s.read keyp).event.key)
    (hp : (s.read keyp).event.pressed = false) (h : Sound future (s.keyState key (keyp.line s))) :
    let t := s.tapping_key.setCount 1
    let s' := (s.turn [.process_record t t false] t).write { s.read keyp with tap := t.tap } keyp
    Sound future (s'.keyState key (keyp.line s')) := by
  intro t s'
  obtain ⟨hte, htp, hc⟩ := of_unsettled hu
  have hread : s'.read keyp = { s.read keyp with tap := t.tap } ∧ keyp.rest s' = keyp.rest s ∧
      keyp.Holds s' := by
    cases keyp with
    | record => exact ⟨rfl, rfl, record_holds s'⟩
    | tail =>
      obtain ⟨r, rest, hb⟩ := List.exists_cons_of_ne_nil (hk rfl)
      simp [s', Tapping.write, Tapping.turn, Tapping.read, Slot.rest, Slot.Holds, hb]
  obtain ⟨hread, hrest, hk'⟩ := hread
  have hcalls : s'.calls = s.calls ++ [.process_record t t false] := write_calls _
  have htapping : s'.tapping_key = t := write_tapping_key _
  unfold Tapping.keyState at h ⊢
  rw [hcalls, htapping, records_append, recordsOf_append, records_process_record]
  by_cases hkey : (s.read keyp).event.key = key
  · have hfirst : keyp = .record → ∀ q ∈ s.waiting_buffer, q.event.key ≠ key :=
      fun hrec q hq hqk => hf ⟨hrec, he, hkey, ⟨q, hq, hqk⟩, .inr ⟨hkeys.trans hkey, hp, hw⟩⟩
    have hfirst' : keyp = .record → ∀ q ∈ s'.waiting_buffer, q.event.key ≠ key := by
      rintro rfl
      exact hfirst rfl
    rw [line_of_first hk he hkey hfirst, tappingOf_some hte htp (hkeys.trans hkey)] at h
    rw [line_of_first hk' (by rw [hread]; exact he) (by rw [hread]; exact hkey) hfirst', hread,
      hrest, recordsOf_cons_self (by exact hkeys.trans hkey),
      tappingOf_some (by exact hte) (by exact htp) (by exact hkeys.trans hkey)]
    exact h.tap hc rfl rfl rfl (by simp [t, keyrecord_t.setCount])
  · rw [line_of_other hk hkey, tappingOf_none fun _ _ htk => hkey (hkeys.symm.trans htk)] at h
    have hother : t.event.key ≠ key := fun htk => hkey (hkeys.symm.trans htk)
    rw [line_of_other hk' (by rw [hread]; exact hkey), hrest, recordsOf_cons_other hother,
      tappingOf_none fun _ _ => hother]
    simpa [recordsOf] using h

theorem first_of_untyped (hkey : r.event.key = key) (hp : r.event.pressed = false)
    (htyped : waiting_buffer_typed r.event s = false) {b : Bool}
    (h : InTurn b (recordsOf key s.waiting_buffer ++ [r]) future) :
    ∀ q ∈ s.waiting_buffer, q.event.key ≠ key := by
  rw [← recordsOf_eq_nil]
  rcases List.eq_nil_or_concat (recordsOf key s.waiting_buffer) with hnil | ⟨init, q, hq⟩
  · exact hnil
  · have hmem : q ∈ recordsOf key s.waiting_buffer := by simp [hq]
    obtain ⟨hmem, hqk⟩ := List.mem_filter.mp hmem
    simp only [InTurn, hq, List.concat_eq_append, List.map_append, List.append_assoc] at h
    rw [← List.append_assoc] at h
    rcases h.before with ⟨hnil, -⟩ | ⟨zs, hzs⟩
    · simp at hnil
    · have hqp : q.event.pressed = true := by
        have := (List.append_inj' hzs rfl).2
        simpa [hp] using this
      have htyped : r.event.key = q.event.key → r.event.pressed = q.event.pressed := by
        simp only [waiting_buffer_typed, List.any_eq_false] at htyped
        simpa using htyped q hmem
      rw [htyped (hkey.trans (of_decide_eq_true hqk).symm), hqp] at hp
      cases hp

theorem sound_pass (hk : keyp.Holds s) (he : IS_EVENT (s.read keyp).event = true)
    (hkeys : s.tapping_key.event.key ≠ (s.read keyp).event.key)
    (hp : (s.read keyp).event.pressed = false)
    (htyped : waiting_buffer_typed (s.read keyp).event s = false)
    (h : Sound future (s.keyState key (keyp.line s))) :
    Sound future ((s.turn [.process_record (s.read keyp) s.tapping_key false]
      s.tapping_key).keyState key (keyp.rest s)) := by
  unfold Tapping.keyState at h ⊢
  simp only [Tapping.turn, records_append, records_process_record, recordsOf_append]
  by_cases hkey : (s.read keyp).event.key = key
  · have hfirst : keyp = .record → ∀ q ∈ s.waiting_buffer, q.event.key ≠ key := by
      rintro rfl
      obtain ⟨b, hb⟩ := h.in_turn
      have hn : IS_NOEVENT s.record.event = false := isEvent_iff.mp he
      have hself : recordsOf key [s.record] = [s.record] := recordsOf_cons_self hkey
      have hline : InTurn b (recordsOf key s.waiting_buffer ++ [s.record]) future := by
        simpa [Slot.line, hn, hself] using hb
      exact first_of_untyped hkey hp htyped hline
    have hnone : tappingOf key s.tapping_key = none :=
      tappingOf_none fun _ _ htk => hkeys (htk.trans hkey.symm)
    rw [line_of_first hk he hkey hfirst, hnone] at h
    rw [recordsOf_cons_self hkey, hnone]
    exact h.hand
  · rw [line_of_other hk hkey] at h
    rw [recordsOf_cons_other hkey]
    simpa [recordsOf] using h

theorem sound_hold {line : List keyrecord_t} (hu : s.unsettled = true) (hm : Marks s.tapping_key t)
    (h : Sound future (s.keyState key line)) :
    Sound future ((s.turn [.process_record t t false] .zero).keyState key line) := by
  obtain ⟨hte, htp, hc⟩ := of_unsettled hu
  have hevent : t.event = s.tapping_key.event := by rcases hm with rfl | rfl <;> rfl
  have hcount : t.tap.count = s.tapping_key.tap.count := by rcases hm with rfl | rfl <;> rfl
  unfold Tapping.keyState at h ⊢
  simp only [Tapping.turn, records_append, records_process_record, recordsOf_append,
    tappingOf_up (show keyrecord_t.zero.event.pressed = false from rfl)]
  by_cases hkey : s.tapping_key.event.key = key
  · rw [tappingOf_some hte htp hkey] at h
    rw [recordsOf_cons_self (by rw [hevent, hkey])]
    exact h.hold hc hevent (by rw [hcount, hc])
  · rw [tappingOf_none fun _ _ => hkey] at h
    rw [recordsOf_cons_other (by rw [hevent]; exact hkey)]
    simpa [recordsOf] using h

/-- A press becomes the tapping key, before the scan. -/
theorem sound_start {before : List Call} (hk : keyp.Holds s) (hf : Fair cfg key keyp s)
    (he : IS_EVENT (s.read keyp).event = true) (hu : s.unsettled = false)
    (hp : (s.read keyp).event.pressed = true) (ht : is_tap_record cfg (s.read keyp) s = true)
    (hends : EndsMulti s (s.read keyp).event.time before)
    (h : Sound future (s.keyState key (keyp.line s))) :
    Sound future ((s.turn before (s.read keyp)).keyState key (keyp.rest s)) := by
  obtain ⟨hinterrupts, hovertakes, -⟩ := hf
  have hbefore : recordsOf key (records before) = [] := by
    refine recordsOf_eq_nil.mpr fun record hr hrk => ?_
    obtain ⟨-, htp, hmulti, rfl⟩ := hends record hr
    exact hinterrupts ⟨hrk, htp, hmulti, hp, ht⟩
  unfold Tapping.keyState at h ⊢
  simp only [Tapping.turn, records_append, recordsOf_append, hbefore, List.append_nil]
  by_cases hkey : (s.read keyp).event.key = key
  · rw [line_of_first hk he hkey (first_of_key hovertakes he hu hkey)] at h
    have hnone : tappingOf key s.tapping_key = none := by
      refine tappingOf_none fun hte htp htk => ?_
      rw [tappingOf_some hte htp htk] at h
      simp [h.next_up] at hp
    rw [hnone] at h
    rw [tappingOf_some he hp hkey]
    exact h.take hp
  · rw [line_of_other hk hkey] at h
    rw [tappingOf_none fun _ _ => hkey]
    refine h.leave fun t hmem => ?_
    obtain ⟨rfl, hte, htp, htk⟩ := of_tappingOf hmem
    have hsettled : s.tapping_key.tap.count ≠ 0 := fun hc => by
      simp [unsettled_of (isEvent_iff.mp hte) htp hc] at hu
    have hsingle : ¬ 1 < s.tapping_key.tap.count := fun hmulti =>
      hinterrupts ⟨htk, htp, hmulti, hp, ht⟩
    omega

/-- Where the timer is in order, the scan finds the first record of the key that starts. -/
theorem first_release {q : keyrecord_t} {before after : List keyrecord_t}
    (hsplit : s.waiting_buffer = r :: (before ++ q :: after)) (hm : ¬ Misdates cfg key .tail s)
    (hu : s.unsettled = false) (hkey : r.event.key = key) (hp : r.event.pressed = true)
    (hq : is_tap_candidate cfg { s with tapping_key := r } q = true)
    (hbefore : ∀ q' ∈ before, is_tap_candidate cfg { s with tapping_key := r } q' = false)
    (hnext : ∀ c rest, recordsOf key before = c :: rest → c.event.pressed = false) :
    recordsOf key before = [] := by
  rcases hrest : recordsOf key before with _ | ⟨c, rest⟩
  · rfl
  have hread : s.read .tail = r := by simp [Tapping.read, hsplit]
  have hmem : c ∈ recordsOf key before := by simp [hrest]
  obtain ⟨hmem, hck⟩ := List.mem_filter.mp hmem
  set candidate := is_tap_candidate cfg { s with tapping_key := r } with hcandidate
  have hordered : s.waiting_buffer.Pairwise fun q' q => q'.event.key = key →
      q'.event.pressed = false → candidate q = true → candidate q' = true := by
    by_contra hno
    exact hm ⟨hread ▸ hkey, hread ▸ hp, hu, hread ▸ hno⟩
  rw [hsplit, List.pairwise_cons, List.pairwise_append] at hordered
  have hcand := hordered.2.2.2 c hmem q List.mem_cons_self (of_decide_eq_true hck)
    (hnext c rest hrest) hq
  rw [hbefore c hmem] at hcand
  cases hcand

/-- The scan marks the release of the key that starts. -/
theorem sound_scan (hd : cfg.Default) {before : List Call} (hg : s.Good) (hk : keyp.Holds s)
    (hf : Fair cfg key keyp s) (he : IS_EVENT (s.read keyp).event = true)
    (hu : s.unsettled = false) (hp : (s.read keyp).event.pressed = true)
    (h : Sound future ((s.turn before (s.read keyp)).keyState key (keyp.rest s))) :
    let s' := waiting_buffer_scan_tap cfg (s.turn before (s.read keyp))
    Sound future (s'.keyState key (keyp.rest s')) := by
  intro s'
  have hc := (read_fresh hg hk he).2 hp
  have hwaits : (s.turn before (s.read keyp)).unsettled = true := unsettled_of (isEvent_iff.mp he) hp hc
  rcases scan_cases hd hwaits with ⟨hscan, -⟩ | ⟨first, q, after, hturn, hq, hfirst, hscan⟩
  · have hrest : keyp.rest s' = keyp.rest s := by
      simp only [s', hscan]
      cases keyp <;> rfl
    rw [hrest]
    simpa only [s', hscan] using h
  have hbuffer : s.waiting_buffer = first ++ q :: after := hturn
  have hcandidate : ∀ r : keyrecord_t, r = s.read keyp →
      is_tap_candidate cfg (s.turn before (s.read keyp)) =
        is_tap_candidate cfg { s with tapping_key := r } := by
    rintro r rfl
    rfl
  have hqk : q.event.key = (s.read keyp).event.key := by
    simp only [is_tap_candidate, Bool.and_eq_true, decide_eq_true_eq] at hq
    exact hq.1.1.2
  have hqp : q.event.pressed = false := by
    simp only [is_tap_candidate, Bool.and_eq_true, Bool.not_eq_true'] at hq
    exact hq.1.2
  simp only [s', hscan]
  unfold Tapping.keyState at h ⊢
  simp only [Tapping.turn, records_append, records_process_record, recordsOf_append] at h ⊢
  by_cases hkey : (s.read keyp).event.key = key
  · cases keyp with
    | record =>
      exact absurd (hqk.trans hkey) (first_of_key hf.2.1 he hu hkey rfl q (by simp [hbuffer]))
    | tail =>
      -- the press is the first in the buffer, and no release
      rcases first with _ | ⟨r, first⟩
      · have hread : s.read .tail = q := by simp [Tapping.read, hbuffer]
        rw [hread, hqp] at hp
        cases hp
      have hread : s.read .tail = r := by simp [Tapping.read, hbuffer]
      rw [hread] at h hkey hp he hc ⊢
      have hrest : Slot.tail.rest s = first ++ q :: after := by simp [Slot.rest, hbuffer]
      rw [hrest, recordsOf_append, recordsOf_cons_self (hqk.trans (hread ▸ hkey)),
        tappingOf_some he hp hkey] at h
      have hnil : recordsOf key first = [] := by
        rw [hcandidate r hread.symm] at hq hfirst
        refine first_release hbuffer hf.2.2 hu hkey hp hq
          (fun q' hq' => hfirst q' (List.mem_cons_of_mem r hq')) fun c rest hcons => ?_
        · rw [hcons] at h
          exact h.next_up
      rw [hnil, List.nil_append] at h
      simp only [Slot.rest, List.cons_append, List.tail_cons, recordsOf_append, hnil]
      rw [List.nil_append, recordsOf_cons_self (by exact hkey),
        recordsOf_cons_self (by exact hqk.trans (hread ▸ hkey)),
        tappingOf_some (by exact he) (by exact hp) (by exact hkey)]
      exact h.tap hc rfl rfl rfl (by simp [keyrecord_t.setCount])
  · have hother : ∀ rs : List keyrecord_t, recordsOf key (q.setCount 1 :: rs) =
        recordsOf key (q :: rs) := by
      intro rs
      rw [recordsOf_cons_other (by exact hqk ▸ hkey), recordsOf_cons_other (hqk ▸ hkey)]
    have hrest : recordsOf key (keyp.rest (Tapping.turn { s with
        waiting_buffer := first ++ q.setCount 1 :: after } [] s.tapping_key)) =
        recordsOf key (keyp.rest s) := by
      cases keyp with
      | record => simp only [Slot.rest, Tapping.turn, hbuffer, recordsOf_append, hother]
      | tail =>
        rcases first with _ | ⟨r, first⟩
        · simp [Slot.rest, Tapping.turn, hbuffer]
        · simp only [Slot.rest, Tapping.turn, hbuffer, List.cons_append, List.tail_cons,
            recordsOf_append, hother]
    rw [tappingOf_none fun _ _ => hkey] at h
    rw [recordsOf_cons_other (by exact hkey), tappingOf_none fun _ _ => by exact hkey]
    have hline : recordsOf key (keyp.rest s) = _ := hrest.symm
    rw [hline] at h
    cases keyp <;> simpa [recordsOf, Tapping.turn, Slot.rest] using h

/-- A call of `process_tapping` keeps the balance of the key. -/
theorem KeyState.Sound.turn (hd : cfg.Default) (hg : s.Good) (hk : keyp.Holds s)
    (hf : Fair cfg key keyp s) (h : Sound future (s.keyState key (keyp.line s)))
    (hafter : keyp.after (process_tapping cfg keyp s) = some s') :
    Sound future (s'.keyState key s'.waiting_buffer) := by
  obtain ⟨hcalls, htapping, hline⟩ := after_eq hafter
  have hout := process_tapping_outcome cfg hd s keyp
  have hgoal : s'.keyState key s'.waiting_buffer = (process_tapping cfg keyp s).2.keyState key
      (if (process_tapping cfg keyp s).1 then keyp.rest (process_tapping cfg keyp s).2
        else keyp.line (process_tapping cfg keyp s).2) := by
    simp only [Tapping.keyState, hcalls, htapping, hline]
  rw [hgoal]
  clear hafter hcalls htapping hline hgoal
  generalize process_tapping cfg keyp s = out at hout
  have hrest : ∀ calls t, keyp.rest (s.turn calls t) = keyp.rest s := by
    intros
    cases keyp <;> rfl
  have hline : ∀ calls t, keyp.line (s.turn calls t) = keyp.line s := by
    intros
    cases keyp <;> rfl
  have hline' : ∀ t, keyp.line { s with tapping_key := t } = keyp.line s := by
    intros
    cases keyp <;> rfl
  have hrest' : ∀ t, keyp.rest { s with tapping_key := t } = keyp.rest s := by
    intros
    cases keyp <;> rfl
  cases hout with
  | tick he =>
    cases keyp with
    | record =>
      have hn : IS_NOEVENT s.record.event = true := he
      simpa [Slot.line, Slot.rest, hn] using h
    | tail =>
      obtain ⟨r, rest, hb⟩ := List.exists_cons_of_ne_nil (hk rfl)
      have hr := (hg.buffer r (by simp [hb])).1
      simp only [Tapping.read, hb, List.headD_cons] at he
      simp [isEvent_iff, he] at hr
  | start before he hu hp ht hends =>
    exact sound_scan hd hg hk hf he hu hp (sound_start hk hf he hu hp ht hends h)
  | hand t he hu hm hother _ =>
    simp only [if_true, hrest]
    exact sound_hand hk hf.2.1 he hu hm hother h
  | tap_release t he hte htp hc hkeys _ hup =>
    simp only [if_true, hrest]
    exact sound_tap_release hk hf.2.1 he hte htp hc hkeys hup h
  | sequential count he hp hup _ hmulti =>
    simp only [if_true, hrest]
    exact sound_sequential hk hf.2.1 he hp hup hmulti h
  | again he hp _ hup _ _ _ =>
    simp only [if_true, hrest']
    exact sound_again hk hf.2.1 he hp hup h
  | first_tap he hu hw hkeys hp => exact sound_first_tap hk hf.2.1 he hu hw hkeys hp h
  | wait t _ _ _ _ hm =>
    simp only [Bool.false_eq_true, if_false, hline']
    exact h.marks hm
  | pass he _ hkeys hp htyped =>
    simp only [if_true, hrest]
    exact sound_pass hk he hkeys hp htyped h
  | hold t hu hm _ =>
    simp only [Bool.false_eq_true, if_false, hline]
    exact sound_hold hu hm h
  | forget hup =>
    simp only [Bool.false_eq_true, if_false, hline']
    unfold Tapping.keyState at h ⊢
    rw [tappingOf_up hup] at h
    exact h

/-! ## Runs -/

/-- The presses and releases of the key that are to come. -/
def futureOf (key : keypos_t) (es : List keyevent_t) : List Bool :=
  (ofKey key es).map keyevent_t.pressed

theorem KeyState.Sound.given {e : keyevent_t}
    (h : Sound (futureOf key (arrival e) ++ future) (s.keyState key s.waiting_buffer)) :
    Sound future ((s.given e).keyState key (Slot.record.line (s.given e))) := by
  rcases he : IS_NOEVENT e with _ | _
  · have hline : Slot.record.line (s.given e) = s.waiting_buffer ++ [.ofEvent e] := by
      simp [Slot.line, he]
    unfold Tapping.keyState at h ⊢
    rw [hline, recordsOf_append]
    by_cases hkey : e.key = key
    · have hself : recordsOf key [.ofEvent e] = [.ofEvent e] := recordsOf_cons_self hkey
      simp only [futureOf, arrival, he, ofKey, hkey, Bool.false_eq_true, if_false, decide_true,
        List.filter_cons_of_pos, List.filter_nil, List.map_cons, List.map_nil, List.cons_append,
        List.nil_append] at h
      rw [hself]
      exact h.arrive rfl
    · have hother : recordsOf key [.ofEvent e] = [] := recordsOf_cons_other hkey
      rw [hother, List.append_nil]
      simpa [futureOf, arrival, he, ofKey, hkey] using h
  · have hline : Slot.record.line (s.given e) = s.waiting_buffer := by simp [Slot.line, he]
    have hbefore : Sound future (s.keyState key s.waiting_buffer) := by
      simpa [futureOf, arrival, he, ofKey] using h
    rw [hline]
    exact hbefore

structure Balances (key : keypos_t) (future : List Bool) (s : Tapping) : Prop where
  good : s.Good
  sound : Sound future (s.keyState key s.waiting_buffer)

theorem Balances.step (hd : cfg.Default) {e : keyevent_t}
    (h : Balances key (futureOf key (arrival e) ++ future) s)
    (hs : IS_EVENT e = true → e.serial ≠ 0) (hno : ¬ Overflows cfg s e)
    (hf : EveryTurn cfg (Fair cfg key) s e) : Balances key future (step cfg s e) := by
  refine step_keeps (J := Balances key future) hd hno hf (fun s' hfair hafter => ?_)
    fun s s' hb hne hfair hafter => ?_
  · have hk := record_holds (s.given e)
    exact ⟨good_after hd (h.good.given hs) hk hafter,
      h.sound.given.turn hd (h.good.given hs) hk hfair hafter⟩
  · have hk : Slot.tail.Holds s := fun _ => hne
    exact ⟨good_after hd hb.good hk hafter, hb.sound.turn hd hb.good hk hfair hafter⟩

theorem Balances.run (hd : cfg.Default) (stream : List keyevent_t)
    (h : Balances key (futureOf key (arrivals stream) ++ future) s) (hn : Numbered stream)
    (hno : Along (action_tapping.step cfg) (fun s event => ¬ Overflows cfg s event) s stream)
    (hf : Along (action_tapping.step cfg) (EveryTurn cfg (Fair cfg key)) s stream) :
    Balances key future (stream.foldl (action_tapping.step cfg) s) := by
  induction stream generalizing s with
  | nil => exact h
  | cons e stream ih =>
    have hsplit : futureOf key (arrivals (e :: stream)) =
        futureOf key (arrival e) ++ futureOf key (arrivals stream) := by
      simp [futureOf, arrivals_cons]
    rw [hsplit, List.append_assoc] at h
    exact ih (h.step hd (hn e List.mem_cons_self) hno.1 hf.1)
      (fun e he => hn e (List.mem_cons_of_mem _ he)) hno.2 hf.2

theorem balances_zero {es : List keyevent_t} (hw : WellFormed es) :
    Balances key (futureOf key es) .zero := by
  refine ⟨good_zero, .up trivial rfl ?_ (List.forall_mem_nil _)⟩
  exact hw key

/-- Where no multi-tap of the key is interrupted by another tap key, and no event of it overtakes
another, what is handed over for the key are presses and releases in turn, and each release
has the decision of the press it ends. -/
theorem taps_and_holds_are_balanced (hd : cfg.Default) (stream : List keyevent_t)
    (hw : WellFormed (arrivals (number stream))) (hno : NoOverflow cfg (number stream))
    (hf : Along (step cfg) (EveryTurn cfg (Fair cfg key)) .zero (number stream)) :
    Balanced (recordsOf key (records (run cfg stream).calls)) := by
  have h : Balances key (futureOf key (arrivals (number stream))) .zero := balances_zero hw
  rw [← List.append_nil (futureOf key _)] at h
  exact (h.run hd (number stream) (numbered_number stream) hno hf).sound.balance

end

/-- A mod-tap is tapped twice. -/
theorem a_double_tap_is_balanced :
    Balanced (recordsOf ⟨0, 1⟩ (records
      (run board [down 0 1 0, up 0 1 10, down 0 1 20, up 0 1 30]).calls)) :=
  taps_and_holds_are_balanced board_default [down 0 1 0, up 0 1 10, down 0 1 20, up 0 1 30]
    (by decide) (by decide) (by decide)

/-- A mod-tap is tapped and pressed again, and another mod-tap goes down. -/
def interrupted : List keyevent_t :=
  [down 0 1 0, up 0 1 10, down 0 1 20, down 0 2 30, up 0 1 40, tick 300]

/-- The interrupted multi-tap is released as a tap, and with its own release as a hold. -/
theorem an_interrupted_multi_tap_is_released_twice :
    WellFormed (arrivals (number interrupted)) ∧ NoOverflow board (number interrupted) ∧
      ¬ Balanced (recordsOf ⟨0, 1⟩ (records (run board interrupted).calls)) ∧
      (recordsOf ⟨0, 1⟩ (records (run board interrupted).calls)).map
          (fun r => (r.event.pressed, r.tap.count)) =
        [(true, 1), (false, 1), (true, 2), (false, 2), (false, 0)] := by
  decide

end keychron_qmk.action_tapping
