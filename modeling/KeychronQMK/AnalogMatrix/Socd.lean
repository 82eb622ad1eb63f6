-- The pairs of opposite keys (`action_socd.c`): what each pair reports of its
-- two keys while both are actuated, over whole runs of scans.
import KeychronQMK.AnalogMatrix.Coherence

namespace keychron_qmk.analog_matrix

open runs

variable {R C : Nat}

/-! ## Constants -/

def SOCD_PRI_DEEPER_TRAVEL : UInt8 := 1
def SOCD_PRI_DEEPER_TRAVEL_SINGLE : UInt8 := 2
def SOCD_PRI_LAST_KEYSTROKE : UInt8 := 3
def SOCD_PRI_KEY_1 : UInt8 := 4
def SOCD_PRI_KEY_2 : UInt8 := 5
def SOCD_PRI_NEUTRAL : UInt8 := 6

def KEY_1_ACTIVE : UInt8 := 1
def KEY_2_ACTIVE : UInt8 := 2

/-! ## One pair -/

/-- What a pair reads of one of its keys: its bits in `analog_raw_matrix`,
`raw_matrix` and `changed_matrix`, and its travel. -/
structure View where
  on : Bool
  reported : Bool
  changed : Bool
  travel : UInt8
  deriving DecidableEq

/-- The keys that a pair masks, and its next state. -/
structure Verdict where
  mask_1 : Bool
  mask_2 : Bool
  state : UInt8
  deriving DecidableEq

def keep_last (state : UInt8) : Verdict := ⟨state = KEY_2_ACTIVE, state = KEY_1_ACTIVE, state⟩

def deeper_travel (single : Bool) (state travel_1 travel_2 : UInt8) : Verdict :=
  if 230 < travel_1 ∧ 230 < travel_2 then
    if single then keep_last state else ⟨false, false, state⟩
  else if state = KEY_2_ACTIVE ∧ travel_2 < travel_1 then ⟨false, true, state⟩
  else if state = KEY_1_ACTIVE ∧ travel_1 < travel_2 then ⟨true, false, state⟩
  else keep_last state

def last_keystroke (state : UInt8) (k1 k2 : View) : Verdict :=
  if k1.reported ∧ k2.changed then ⟨true, false, KEY_2_ACTIVE⟩
  else if k2.reported ∧ k1.changed then ⟨false, true, KEY_1_ACTIVE⟩
  else keep_last state

def socd_pair_action (type state : UInt8) (k1 k2 : View) : Verdict :=
  if k1.on ∧ k2.on then
    if type = SOCD_PRI_DEEPER_TRAVEL then deeper_travel false state k1.travel k2.travel
    else if type = SOCD_PRI_DEEPER_TRAVEL_SINGLE then
      deeper_travel true state k1.travel k2.travel
    else if type = SOCD_PRI_LAST_KEYSTROKE then last_keystroke state k1 k2
    else if type = SOCD_PRI_KEY_1 then ⟨false, true, KEY_1_ACTIVE⟩
    else if type = SOCD_PRI_KEY_2 then ⟨true, false, KEY_2_ACTIVE⟩
    else if type = SOCD_PRI_NEUTRAL then ⟨true, true, 0⟩
    else ⟨false, false, state⟩
  else if k1.on then ⟨false, false, KEY_1_ACTIVE⟩
  else if k2.on then ⟨false, false, KEY_2_ACTIVE⟩
  else ⟨false, false, state⟩

section Pair

variable {type state : UInt8} {k1 k2 : View}

def Bottom (k1 k2 : View) : Prop := 230 < k1.travel ∧ 230 < k2.travel

/-- Of two keys that are not both near the bottom the first one goes deeper,
or as deep and it was active before. -/
def FirstDeeper (state : UInt8) (k1 k2 : View) : Prop :=
  state = KEY_2_ACTIVE ∧ k2.travel < k1.travel ∨ state = KEY_1_ACTIVE ∧ k2.travel ≤ k1.travel

def SecondDeeper (state : UInt8) (k1 k2 : View) : Prop :=
  state = KEY_1_ACTIVE ∧ k1.travel < k2.travel ∨ state = KEY_2_ACTIVE ∧ k1.travel ≤ k2.travel

/-- While both keys are actuated, a pair of this type takes the first one. -/
def FirstWins (type state : UInt8) (k1 k2 : View) : Prop :=
  if type = SOCD_PRI_DEEPER_TRAVEL then ¬ Bottom k1 k2 ∧ FirstDeeper state k1 k2
  else if type = SOCD_PRI_DEEPER_TRAVEL_SINGLE then
    Bottom k1 k2 ∧ state = KEY_1_ACTIVE ∨ ¬ Bottom k1 k2 ∧ FirstDeeper state k1 k2
  else if type = SOCD_PRI_LAST_KEYSTROKE then
    ¬ (k1.reported ∧ k2.changed) ∧ (k2.reported ∧ k1.changed ∨ state = KEY_1_ACTIVE)
  else type = SOCD_PRI_KEY_1 ∨ type = SOCD_PRI_NEUTRAL

def SecondWins (type state : UInt8) (k1 k2 : View) : Prop :=
  if type = SOCD_PRI_DEEPER_TRAVEL then ¬ Bottom k1 k2 ∧ SecondDeeper state k1 k2
  else if type = SOCD_PRI_DEEPER_TRAVEL_SINGLE then
    Bottom k1 k2 ∧ state = KEY_2_ACTIVE ∨ ¬ Bottom k1 k2 ∧ SecondDeeper state k1 k2
  else if type = SOCD_PRI_LAST_KEYSTROKE then
    k1.reported ∧ k2.changed ∨ ¬ (k2.reported ∧ k1.changed) ∧ state = KEY_2_ACTIVE
  else type = SOCD_PRI_KEY_2 ∨ type = SOCD_PRI_NEUTRAL

/-- A verdict in favour of the first key, of the second one, of both or of none. -/
structure Decides (v : Verdict) (first second : Prop) : Prop where
  masks_second : v.mask_2 = true ↔ first
  masks_first : v.mask_1 = true ↔ second

theorem Decides.congr {v : Verdict} {first first' second second' : Prop}
    (h : Decides v first second) (hf : first ↔ first') (hs : second ↔ second') :
    Decides v first' second' := ⟨h.masks_second.trans hf, h.masks_first.trans hs⟩

theorem keep_last_decides (state : UInt8) :
    Decides (keep_last state) (state = KEY_1_ACTIVE) (state = KEY_2_ACTIVE) :=
  ⟨decide_eq_true_iff, decide_eq_true_iff⟩

theorem active_ne : KEY_1_ACTIVE ≠ KEY_2_ACTIVE := by decide

theorem deeper_bottom (hb : Bottom k1 k2) (single : Bool) (state : UInt8) :
    deeper_travel single state k1.travel k2.travel =
      if single then keep_last state else ⟨false, false, state⟩ := if_pos hb

theorem deeper_decides (hb : ¬ Bottom k1 k2) (single : Bool) (state : UInt8) :
    Decides (deeper_travel single state k1.travel k2.travel) (FirstDeeper state k1 k2)
      (SecondDeeper state k1 k2) := by
  unfold deeper_travel FirstDeeper SecondDeeper
  rw [if_neg (show ¬ (230 < k1.travel ∧ 230 < k2.travel) from hb)]
  split
  · rename_i h
    refine ⟨iff_of_true rfl (.inl h), iff_of_false Bool.false_ne_true ?_⟩
    rintro (⟨h1, -⟩ | ⟨-, hle⟩)
    · exact active_ne (h1.symm.trans h.1)
    · exact UInt8.not_le.mpr h.2 hle
  rename_i h2
  split
  · rename_i h
    refine ⟨iff_of_false Bool.false_ne_true ?_, iff_of_true rfl (.inl h)⟩
    rintro (⟨h2, -⟩ | ⟨-, hle⟩)
    · exact active_ne (h.1.symm.trans h2)
    · exact UInt8.not_le.mpr h.2 hle
  rename_i h1
  refine (keep_last_decides state).congr ⟨fun hs => ?_, fun h => ?_⟩ ⟨fun hs => ?_, fun h => ?_⟩
  · exact .inr ⟨hs, UInt8.not_lt.mp fun hlt => h1 ⟨hs, hlt⟩⟩
  · rcases h with h | h
    · exact absurd h h2
    · exact h.1
  · exact .inr ⟨hs, UInt8.not_lt.mp fun hlt => h2 ⟨hs, hlt⟩⟩
  · rcases h with h | h
    · exact absurd h h1
    · exact h.1

theorem last_keystroke_decides (state : UInt8) (k1 k2 : View) :
    Decides (last_keystroke state k1 k2)
      (¬ (k1.reported ∧ k2.changed) ∧ (k2.reported ∧ k1.changed ∨ state = KEY_1_ACTIVE))
      (k1.reported ∧ k2.changed ∨ ¬ (k2.reported ∧ k1.changed) ∧ state = KEY_2_ACTIVE) := by
  unfold last_keystroke
  split
  · rename_i h
    exact ⟨iff_of_false Bool.false_ne_true fun hn => hn.1 h, iff_of_true rfl (.inl h)⟩
  rename_i h2
  split
  · rename_i h
    refine ⟨iff_of_true rfl ⟨h2, .inl h⟩, iff_of_false Bool.false_ne_true ?_⟩
    rintro (hn | hn)
    · exact h2 hn
    · exact hn.1 h
  rename_i h1
  refine (keep_last_decides state).congr ⟨fun hs => ⟨h2, .inr hs⟩, fun h => ?_⟩
    ⟨fun hs => .inr ⟨h1, hs⟩, fun h => ?_⟩
  · exact h.2.resolve_left h1
  · exact (h.resolve_left h2).2

/-- What the pair does to two actuated keys. -/
theorem socd_pair_action_decides (hon : k1.on ∧ k2.on) (type state : UInt8) :
    Decides (socd_pair_action type state k1 k2) (FirstWins type state k1 k2)
      (SecondWins type state k1 k2) := by
  unfold socd_pair_action FirstWins SecondWins
  rw [if_pos hon]
  split
  · by_cases hb : Bottom k1 k2
    · rw [deeper_bottom hb, if_neg Bool.false_ne_true]
      exact ⟨iff_of_false Bool.false_ne_true fun h => h.1 hb,
        iff_of_false Bool.false_ne_true fun h => h.1 hb⟩
    · exact (deeper_decides hb false state).congr (and_iff_right hb).symm (and_iff_right hb).symm
  split
  · by_cases hb : Bottom k1 k2
    · rw [deeper_bottom hb, if_pos rfl]
      refine (keep_last_decides state).congr ⟨fun hs => .inl ⟨hb, hs⟩, fun h => ?_⟩
        ⟨fun hs => .inl ⟨hb, hs⟩, fun h => ?_⟩
      · exact (h.resolve_right fun hn => hn.1 hb).2
      · exact (h.resolve_right fun hn => hn.1 hb).2
    · refine (deeper_decides hb true state).congr ⟨fun h => .inr ⟨hb, h⟩, fun h => ?_⟩
        ⟨fun h => .inr ⟨hb, h⟩, fun h => ?_⟩
      · exact (h.resolve_left fun hn => hb hn.1).2
      · exact (h.resolve_left fun hn => hb hn.1).2
  split
  · exact last_keystroke_decides state k1 k2
  split
  · rename_i ht
    refine ⟨iff_of_true rfl (.inl ht), iff_of_false Bool.false_ne_true ?_⟩
    rw [ht]
    decide
  split
  · rename_i ht
    refine ⟨iff_of_false Bool.false_ne_true ?_, iff_of_true rfl (.inl ht)⟩
    rw [ht]
    decide
  split
  · rename_i ht
    exact ⟨iff_of_true rfl (.inr ht), iff_of_true rfl (.inr ht)⟩
  · rename_i h4 h5 h6
    exact ⟨iff_of_false Bool.false_ne_true fun h => h.elim h4 h6,
      iff_of_false Bool.false_ne_true fun h => h.elim h5 h6⟩

theorem socd_pair_action_free (hon : ¬ (k1.on ∧ k2.on)) (type state : UInt8) :
    Decides (socd_pair_action type state k1 k2) False False := by
  have hfree : ∀ st : UInt8, Decides ⟨false, false, st⟩ False False := fun _ =>
    ⟨iff_of_false Bool.false_ne_true id, iff_of_false Bool.false_ne_true id⟩
  unfold socd_pair_action
  rw [if_neg hon]
  split
  · exact hfree _
  · split <;> exact hfree _

end Pair

/-! ## The matrices -/

structure Pair (R C : Nat) where
  key_1 : Fin R × Fin C
  key_2 : Fin R × Fin C
  type : UInt8
  deriving DecidableEq

/-- The pair of a setting. The source reads a key past the matrices as
whatever lies behind them; here a setting with such a key is no pair. -/
def pair_of (R C : Nat) (socd : socd_config_t) : Option (Pair R C) :=
  if socd.type = 0 then none
  else
    match key_index R C (u8 socd.key_1_row) (u8 socd.key_1_col),
      key_index R C (u8 socd.key_2_row) (u8 socd.key_2_col) with
    | some key_1, some key_2 => some ⟨key_1, key_2, socd.type⟩
    | _, _ => none

/-- The board with the matrices of a scan, and the state of each pair. -/
structure Scanner (R C : Nat) where
  board : Board R C
  analog_raw_matrix : Fin R → Fin C → Bool
  raw_matrix : Fin R → Fin C → Bool
  changed_matrix : Fin R → Fin C → Bool
  state : Fin SOCD_COUNT → UInt8

namespace Scanner

variable (s : Scanner R C)

def view (k : Fin R × Fin C) : View where
  on := s.analog_raw_matrix k.1 k.2
  reported := s.raw_matrix k.1 k.2
  changed := s.changed_matrix k.1 k.2
  travel := (s.board.analog_key_matrix k.1 k.2).travel

def pair (i : Fin SOCD_COUNT) : Option (Pair R C) := pair_of R C (s.board.profile_get_current.socd i)

def verdict (i : Fin SOCD_COUNT) (p : Pair R C) : Verdict :=
  socd_pair_action p.type (s.state i) (s.view p.key_1) (s.view p.key_2)

end Scanner

def clear (mask : Fin R → Fin C → Bool) (k : Fin R × Fin C) : Fin R → Fin C → Bool :=
  fun r c => mask r c && (r, c) ≠ k

def mask_pair (s : Scanner R C) (socd_mask : Fin R → Fin C → Bool) (i : Fin SOCD_COUNT) :
    Fin R → Fin C → Bool :=
  match s.pair i with
  | none => socd_mask
  | some p =>
    let v := s.verdict i p
    let socd_mask := if v.mask_1 then clear socd_mask p.key_1 else socd_mask
    if v.mask_2 then clear socd_mask p.key_2 else socd_mask

def socd_action (s : Scanner R C) : Scanner R C :=
  let socd_mask := (List.finRange SOCD_COUNT).foldl (mask_pair s) fun _ _ => true
  { s with
    state := fun i =>
      match s.pair i with
      | none => s.state i
      | some p => (s.verdict i p).state
    raw_matrix := fun r c => s.analog_raw_matrix r c && socd_mask r c }

section Masks

variable {s : Scanner R C} {i : Fin SOCD_COUNT} {p : Pair R C} {k : Fin R × Fin C}

def BothOn (s : Scanner R C) (p : Pair R C) : Prop := (s.view p.key_1).on ∧ (s.view p.key_2).on

def TakesFirst (s : Scanner R C) (i : Fin SOCD_COUNT) (p : Pair R C) : Prop :=
  FirstWins p.type (s.state i) (s.view p.key_1) (s.view p.key_2)

def TakesSecond (s : Scanner R C) (i : Fin SOCD_COUNT) (p : Pair R C) : Prop :=
  SecondWins p.type (s.state i) (s.view p.key_1) (s.view p.key_2)

def Suppresses (s : Scanner R C) (i : Fin SOCD_COUNT) (k : Fin R × Fin C) : Prop :=
  ∃ p, s.pair i = some p ∧ BothOn s p ∧
    (k = p.key_1 ∧ TakesSecond s i p ∨ k = p.key_2 ∧ TakesFirst s i p)

theorem verdict_decides (s : Scanner R C) (i : Fin SOCD_COUNT) (p : Pair R C) :
    Decides (s.verdict i p) (BothOn s p ∧ TakesFirst s i p) (BothOn s p ∧ TakesSecond s i p) := by
  by_cases hon : BothOn s p
  · exact (socd_pair_action_decides hon p.type (s.state i)).congr (and_iff_right hon).symm
      (and_iff_right hon).symm
  · exact (socd_pair_action_free hon p.type (s.state i)).congr
      (iff_of_false id fun h => hon h.1) (iff_of_false id fun h => hon h.1)

theorem clear_iff {mask : Fin R → Fin C → Bool} {k' : Fin R × Fin C} :
    clear mask k k'.1 k'.2 = true ↔ mask k'.1 k'.2 = true ∧ k' ≠ k := by
  unfold clear
  rw [Bool.and_eq_true, decide_eq_true_iff]

theorem mask_pair_iff {mask : Fin R → Fin C → Bool} :
    mask_pair s mask i k.1 k.2 = true ↔ mask k.1 k.2 = true ∧ ¬ Suppresses s i k := by
  unfold mask_pair Suppresses
  rcases hp : s.pair i with _ | p
  · refine (and_iff_left ?_).symm
    rintro ⟨p, hp', -⟩
    exact nomatch hp'
  obtain ⟨hsecond, hfirst⟩ := verdict_decides s i p
  have hstep : ∀ (m : Fin R → Fin C → Bool) (b : Bool) (k' : Fin R × Fin C),
      (if b then clear m k' else m) k.1 k.2 = true ↔ m k.1 k.2 = true ∧ ¬ (k = k' ∧ b = true) := by
    intro m b k'
    cases b with
    | true =>
      rw [if_pos rfl, clear_iff]
      exact and_congr_right fun _ => ⟨fun h hn => h hn.1, fun h hn => h ⟨hn, rfl⟩⟩
    | false =>
      exact (and_iff_left fun h => Bool.false_ne_true h.2).symm
  rw [hstep, hstep, hsecond, hfirst, and_assoc, ← not_or]
  refine and_congr_right fun _ => not_congr ⟨fun h => ⟨p, rfl, ?_⟩, ?_⟩
  · rcases h with ⟨hk, hon, ht⟩ | ⟨hk, hon, ht⟩
    · exact ⟨hon, .inl ⟨hk, ht⟩⟩
    · exact ⟨hon, .inr ⟨hk, ht⟩⟩
  · rintro ⟨p', hp', hon, h⟩
    cases hp'
    rcases h with ⟨hk, ht⟩ | ⟨hk, ht⟩
    · exact .inl ⟨hk, hon, ht⟩
    · exact .inr ⟨hk, hon, ht⟩

theorem masks_iff (l : List (Fin SOCD_COUNT)) (mask : Fin R → Fin C → Bool) :
    l.foldl (mask_pair s) mask k.1 k.2 = true ↔
      mask k.1 k.2 = true ∧ ∀ i ∈ l, ¬ Suppresses s i k := by
  induction l generalizing mask with
  | nil => simp
  | cons i l ih =>
    rw [List.foldl_cons, ih, mask_pair_iff, List.forall_mem_cons, and_assoc]

theorem reported_iff : (socd_action s).raw_matrix k.1 k.2 = true ↔
    (s.view k).on = true ∧ ∀ i, ¬ Suppresses s i k := by
  unfold socd_action
  rw [Bool.and_eq_true, masks_iff]
  simp only [List.mem_finRange, true_imp_iff, true_and]
  rfl

end Masks

/-! ## What a pair promises -/

section Promise

variable {s : Scanner R C} {i : Fin SOCD_COUNT} {p : Pair R C}

def Reported (s : Scanner R C) (k : Fin R × Fin C) : Prop :=
  (socd_action s).raw_matrix k.1 k.2 = true

def single_types : List UInt8 :=
  [SOCD_PRI_DEEPER_TRAVEL_SINGLE, SOCD_PRI_LAST_KEYSTROKE, SOCD_PRI_KEY_1, SOCD_PRI_KEY_2,
    SOCD_PRI_NEUTRAL]

/-- The pair reports at most one key, or, when the type is the deeper travel,
both near the bottom and otherwise the deeper one alone. -/
structure Exclusive (s : Scanner R C) (p : Pair R C) : Prop where
  single : p.type ∈ single_types → ¬ (Reported s p.key_1 ∧ Reported s p.key_2)
  both : p.type = SOCD_PRI_DEEPER_TRAVEL → Reported s p.key_1 → Reported s p.key_2 →
    Bottom (s.view p.key_1) (s.view p.key_2)
  alone : p.type = SOCD_PRI_DEEPER_TRAVEL → BothOn s p →
    ¬ Bottom (s.view p.key_1) (s.view p.key_2) →
      Reported s p.key_1 ∧ ¬ Reported s p.key_2 ∧
        (s.view p.key_2).travel ≤ (s.view p.key_1).travel ∨
      Reported s p.key_2 ∧ ¬ Reported s p.key_1 ∧
        (s.view p.key_1).travel ≤ (s.view p.key_2).travel

def Remembers (state : UInt8) : Prop := state = KEY_1_ACTIVE ∨ state = KEY_2_ACTIVE

/-- Another pair suppresses the key. -/
def Overruled (s : Scanner R C) (i : Fin SOCD_COUNT) (k : Fin R × Fin C) : Prop :=
  ∃ j, j ≠ i ∧ Suppresses s j k

/-- One of the two keys was reported before the other one is pressed. -/
def Fresh (k1 k2 : View) : Prop := k1.reported ∧ k2.changed ∨ k2.reported ∧ k1.changed

/-- The pair has something to decide by while both of its keys are actuated.
A pair of the deeper travel needs that its deeper key is not overruled. -/
structure Decided (s : Scanner R C) (i : Fin SOCD_COUNT) (p : Pair R C) : Prop where
  single : p.type = SOCD_PRI_DEEPER_TRAVEL_SINGLE ∨
      p.type = SOCD_PRI_LAST_KEYSTROKE ∧ ¬ Fresh (s.view p.key_1) (s.view p.key_2) →
    BothOn s p → Remembers (s.state i) ∨ Overruled s i p.key_1 ∨ Overruled s i p.key_2
  first : p.type = SOCD_PRI_DEEPER_TRAVEL → BothOn s p →
    ¬ Bottom (s.view p.key_1) (s.view p.key_2) →
      (s.view p.key_2).travel < (s.view p.key_1).travel →
        ¬ Overruled s i p.key_1 ∧ (Remembers (s.state i) ∨ Overruled s i p.key_2)
  second : p.type = SOCD_PRI_DEEPER_TRAVEL → BothOn s p →
    ¬ Bottom (s.view p.key_1) (s.view p.key_2) →
      (s.view p.key_1).travel < (s.view p.key_2).travel →
        ¬ Overruled s i p.key_2 ∧ (Remembers (s.state i) ∨ Overruled s i p.key_1)
  tie : p.type = SOCD_PRI_DEEPER_TRAVEL → BothOn s p →
    ¬ Bottom (s.view p.key_1) (s.view p.key_2) →
      (s.view p.key_1).travel = (s.view p.key_2).travel →
        ¬ Overruled s i p.key_1 ∧ s.state i ≠ KEY_2_ACTIVE ∧
          (s.state i = KEY_1_ACTIVE ∨ Overruled s i p.key_2) ∨
        ¬ Overruled s i p.key_2 ∧ s.state i ≠ KEY_1_ACTIVE ∧
          (s.state i = KEY_2_ACTIVE ∨ Overruled s i p.key_1)

theorem reported_on {k : Fin R × Fin C} (h : Reported s k) : (s.view k).on = true :=
  (reported_iff.mp h).1

/-- The first key of a pair with both keys on is reported unless the pair
takes the second one, or another pair overrules it. -/
theorem reported_first_iff (hp : s.pair i = some p) (hne : p.key_1 ≠ p.key_2) (hon : BothOn s p) :
    Reported s p.key_1 ↔ ¬ TakesSecond s i p ∧ ¬ Overruled s i p.key_1 := by
  unfold Reported
  rw [reported_iff]
  constructor
  · rintro ⟨-, h⟩
    exact ⟨fun ht => h i ⟨p, hp, hon, .inl ⟨rfl, ht⟩⟩, fun ⟨j, _, hj⟩ => h j hj⟩
  · rintro ⟨ht, ho⟩
    refine ⟨hon.1, fun j hj => ?_⟩
    by_cases hji : j = i
    · subst hji
      obtain ⟨p', hp', -, h⟩ := hj
      cases hp.symm.trans hp'
      rcases h with ⟨-, h⟩ | ⟨h, -⟩
      · exact ht h
      · exact hne h
    · exact ho ⟨j, hji, hj⟩

theorem reported_second_iff (hp : s.pair i = some p) (hne : p.key_1 ≠ p.key_2) (hon : BothOn s p) :
    Reported s p.key_2 ↔ ¬ TakesFirst s i p ∧ ¬ Overruled s i p.key_2 := by
  unfold Reported
  rw [reported_iff]
  constructor
  · rintro ⟨-, h⟩
    exact ⟨fun ht => h i ⟨p, hp, hon, .inr ⟨rfl, ht⟩⟩, fun ⟨j, _, hj⟩ => h j hj⟩
  · rintro ⟨ht, ho⟩
    refine ⟨hon.2, fun j hj => ?_⟩
    by_cases hji : j = i
    · subst hji
      obtain ⟨p', hp', -, h⟩ := hj
      cases hp.symm.trans hp'
      rcases h with ⟨h, -⟩ | ⟨-, h⟩
      · exact hne h.symm
      · exact ht h
    · exact ho ⟨j, hji, hj⟩

theorem not_both_iff (hp : s.pair i = some p) (hne : p.key_1 ≠ p.key_2) (hon : BothOn s p) :
    ¬ (Reported s p.key_1 ∧ Reported s p.key_2) ↔
      (TakesFirst s i p ∨ TakesSecond s i p) ∨ Overruled s i p.key_1 ∨ Overruled s i p.key_2 := by
  rw [reported_first_iff hp hne hon, reported_second_iff hp hne hon]
  tauto

section Wins

variable {state : UInt8} {k1 k2 : View}

theorem deeper_of_lt (state : UInt8) (h : k2.travel < k1.travel) :
    (FirstDeeper state k1 k2 ↔ Remembers state) ∧ ¬ SecondDeeper state k1 k2 := by
  refine ⟨⟨fun hf => ?_, fun hr => ?_⟩, ?_⟩
  · rcases hf with hf | hf
    · exact .inr hf.1
    · exact .inl hf.1
  · rcases hr with h1 | h2
    · exact .inr ⟨h1, UInt8.le_of_lt h⟩
    · exact .inl ⟨h2, h⟩
  · rintro (⟨-, hlt⟩ | ⟨-, hle⟩)
    · exact UInt8.lt_asymm h hlt
    · exact UInt8.not_le.mpr h hle

theorem deeper_of_gt (state : UInt8) (h : k1.travel < k2.travel) :
    (SecondDeeper state k1 k2 ↔ Remembers state) ∧ ¬ FirstDeeper state k1 k2 := by
  refine ⟨⟨fun hf => ?_, fun hr => ?_⟩, ?_⟩
  · rcases hf with hf | hf
    · exact .inl hf.1
    · exact .inr hf.1
  · rcases hr with h1 | h2
    · exact .inl ⟨h1, h⟩
    · exact .inr ⟨h2, UInt8.le_of_lt h⟩
  · rintro (⟨-, hlt⟩ | ⟨-, hle⟩)
    · exact UInt8.lt_asymm h hlt
    · exact UInt8.not_le.mpr h hle

theorem deeper_of_eq (h : k1.travel = k2.travel) :
    (FirstDeeper state k1 k2 ↔ state = KEY_1_ACTIVE) ∧
      (SecondDeeper state k1 k2 ↔ state = KEY_2_ACTIVE) := by
  unfold FirstDeeper SecondDeeper
  rw [h]
  have hlt : ¬ k2.travel < k2.travel := UInt8.lt_irrefl _
  have hle : k2.travel ≤ k2.travel := UInt8.le_refl _
  constructor
  · rw [or_iff_right fun hc => hlt hc.2, and_iff_left hle]
  · rw [or_iff_right fun hc => hlt hc.2, and_iff_left hle]

theorem travel_trichotomy (x y : UInt8) : x < y ∨ x = y ∨ y < x := by
  rcases Nat.lt_trichotomy x.toNat y.toNat with h | h | h
  · exact .inl (UInt8.lt_iff_toNat_lt.mpr h)
  · exact .inr (.inl (UInt8.toNat_inj.mp h))
  · exact .inr (.inr (UInt8.lt_iff_toNat_lt.mpr h))

theorem deeper_iff : FirstDeeper state k1 k2 ∨ SecondDeeper state k1 k2 ↔ Remembers state := by
  rcases travel_trichotomy k1.travel k2.travel with h | h | h
  · rw [(deeper_of_gt _ h).1, or_iff_right (deeper_of_gt _ h).2]
  · rw [(deeper_of_eq h).1, (deeper_of_eq h).2]
    rfl
  · rw [(deeper_of_lt _ h).1, or_iff_left (deeper_of_lt _ h).2]

theorem single_wins : FirstWins SOCD_PRI_DEEPER_TRAVEL_SINGLE state k1 k2 ∨
    SecondWins SOCD_PRI_DEEPER_TRAVEL_SINGLE state k1 k2 ↔ Remembers state := by
  unfold FirstWins SecondWins
  by_cases hb : Bottom k1 k2
  · simp only [hb, true_and, not_true, false_and, or_false]
    rfl
  · simp only [hb, false_and, not_false_eq_true, true_and, false_or]
    exact deeper_iff

theorem last_wins : FirstWins SOCD_PRI_LAST_KEYSTROKE state k1 k2 ∨
    SecondWins SOCD_PRI_LAST_KEYSTROKE state k1 k2 ↔ Fresh k1 k2 ∨ Remembers state := by
  unfold FirstWins SecondWins Fresh Remembers
  rw [if_neg (by decide), if_neg (by decide), if_pos rfl, if_neg (by decide), if_neg (by decide),
    if_pos rfl]
  tauto

theorem fixed_wins {type : UInt8}
    (h : type = SOCD_PRI_KEY_1 ∨ type = SOCD_PRI_KEY_2 ∨ type = SOCD_PRI_NEUTRAL) :
    FirstWins type state k1 k2 ∨ SecondWins type state k1 k2 := by
  rcases h with rfl | rfl | rfl
  · exact .inl (.inl rfl)
  · exact .inr (.inl rfl)
  · exact .inl (.inr rfl)

end Wins

theorem single_iff (hp : s.pair i = some p) (hne : p.key_1 ≠ p.key_2) (hon : BothOn s p) :
    (p.type ∈ single_types → ¬ (Reported s p.key_1 ∧ Reported s p.key_2)) ↔
      (p.type = SOCD_PRI_DEEPER_TRAVEL_SINGLE ∨
        p.type = SOCD_PRI_LAST_KEYSTROKE ∧ ¬ Fresh (s.view p.key_1) (s.view p.key_2) →
          Remembers (s.state i) ∨ Overruled s i p.key_1 ∨ Overruled s i p.key_2) := by
  rw [not_both_iff hp hne hon]
  unfold TakesFirst TakesSecond single_types
  simp only [List.mem_cons, List.not_mem_nil, or_false]
  constructor
  · rintro h (ht | ⟨ht, hfresh⟩)
    · have hw := h (.inl ht)
      rw [ht, single_wins] at hw
      exact hw
    · have hw := h (.inr (.inl ht))
      rw [ht, last_wins, or_iff_right hfresh] at hw
      exact hw
  · rintro h (ht | ht | ht)
    · rw [ht, single_wins]
      exact h (.inl ht)
    · by_cases hfresh : Fresh (s.view p.key_1) (s.view p.key_2)
      · rw [ht, last_wins]
        exact .inl (.inl hfresh)
      · rw [ht, last_wins, or_iff_right hfresh]
        exact h (.inr ⟨ht, hfresh⟩)
    · exact .inl (fixed_wins ht)

theorem takes_deeper (ht : p.type = SOCD_PRI_DEEPER_TRAVEL)
    (hb : ¬ Bottom (s.view p.key_1) (s.view p.key_2)) :
    (TakesFirst s i p ↔ FirstDeeper (s.state i) (s.view p.key_1) (s.view p.key_2)) ∧
      (TakesSecond s i p ↔ SecondDeeper (s.state i) (s.view p.key_1) (s.view p.key_2)) := by
  unfold TakesFirst TakesSecond FirstWins SecondWins
  rw [ht, if_pos rfl, if_pos rfl, and_iff_right hb, and_iff_right hb]
  exact ⟨Iff.rfl, Iff.rfl⟩

def DeeperAlone (s : Scanner R C) (p : Pair R C) : Prop :=
  Reported s p.key_1 ∧ ¬ Reported s p.key_2 ∧
    (s.view p.key_2).travel ≤ (s.view p.key_1).travel ∨
  Reported s p.key_2 ∧ ¬ Reported s p.key_1 ∧
    (s.view p.key_1).travel ≤ (s.view p.key_2).travel

section Deeper

variable (hp : s.pair i = some p) (hne : p.key_1 ≠ p.key_2) (hon : BothOn s p)
  (ht : p.type = SOCD_PRI_DEEPER_TRAVEL) (hb : ¬ Bottom (s.view p.key_1) (s.view p.key_2))

include hp hne hon ht hb

theorem alone_of_lt (hlt : (s.view p.key_2).travel < (s.view p.key_1).travel) :
    DeeperAlone s p ↔ ¬ Overruled s i p.key_1 ∧
      (Remembers (s.state i) ∨ Overruled s i p.key_2) := by
  unfold DeeperAlone
  rw [reported_first_iff hp hne hon, reported_second_iff hp hne hon, (takes_deeper ht hb).1,
    (takes_deeper ht hb).2, (deeper_of_lt _ hlt).1]
  have hsecond := (deeper_of_lt (s.state i) hlt).2
  have hle := UInt8.le_of_lt hlt
  have hnle := UInt8.not_le.mpr hlt
  tauto

theorem alone_of_gt (hlt : (s.view p.key_1).travel < (s.view p.key_2).travel) :
    DeeperAlone s p ↔ ¬ Overruled s i p.key_2 ∧
      (Remembers (s.state i) ∨ Overruled s i p.key_1) := by
  unfold DeeperAlone
  rw [reported_first_iff hp hne hon, reported_second_iff hp hne hon, (takes_deeper ht hb).1,
    (takes_deeper ht hb).2, (deeper_of_gt _ hlt).1]
  have hfirst := (deeper_of_gt (s.state i) hlt).2
  have hle := UInt8.le_of_lt hlt
  have hnle := UInt8.not_le.mpr hlt
  tauto

theorem alone_of_eq (heq : (s.view p.key_1).travel = (s.view p.key_2).travel) :
    DeeperAlone s p ↔
      ¬ Overruled s i p.key_1 ∧ s.state i ≠ KEY_2_ACTIVE ∧
        (s.state i = KEY_1_ACTIVE ∨ Overruled s i p.key_2) ∨
      ¬ Overruled s i p.key_2 ∧ s.state i ≠ KEY_1_ACTIVE ∧
        (s.state i = KEY_2_ACTIVE ∨ Overruled s i p.key_1) := by
  unfold DeeperAlone
  rw [reported_first_iff hp hne hon, reported_second_iff hp hne hon, (takes_deeper ht hb).1,
    (takes_deeper ht hb).2, (deeper_of_eq heq).1, (deeper_of_eq heq).2, heq]
  tauto

end Deeper

theorem exclusive_iff (hp : s.pair i = some p) (hne : p.key_1 ≠ p.key_2) :
    Exclusive s p ↔ Decided s i p := by
  by_cases hon : BothOn s p
  swap
  · have hboth : ∀ {P : Prop}, Reported s p.key_1 → Reported s p.key_2 → P :=
      fun h1 h2 => absurd ⟨reported_on h1, reported_on h2⟩ hon
    refine iff_of_true ⟨fun _ h => hboth h.1 h.2, fun _ => hboth, fun _ h => absurd h hon⟩
      ⟨fun _ h => absurd h hon, ?_, ?_, ?_⟩
    all_goals exact fun _ h => absurd h hon
  constructor
  · intro h
    refine ⟨fun ht _ => (single_iff hp hne hon).mp h.single ht, fun ht _ hb hlt => ?_,
      fun ht _ hb hlt => ?_, fun ht _ hb heq => ?_⟩
    · exact (alone_of_lt hp hne hon ht hb hlt).mp (h.alone ht hon hb)
    · exact (alone_of_gt hp hne hon ht hb hlt).mp (h.alone ht hon hb)
    · exact (alone_of_eq hp hne hon ht hb heq).mp (h.alone ht hon hb)
  · intro h
    have halone : p.type = SOCD_PRI_DEEPER_TRAVEL → BothOn s p →
        ¬ Bottom (s.view p.key_1) (s.view p.key_2) → DeeperAlone s p := by
      intro ht _ hb
      rcases travel_trichotomy (s.view p.key_1).travel (s.view p.key_2).travel with hlt | heq | hlt
      · exact (alone_of_gt hp hne hon ht hb hlt).mpr (h.second ht hon hb hlt)
      · exact (alone_of_eq hp hne hon ht hb heq).mpr (h.tie ht hon hb heq)
      · exact (alone_of_lt hp hne hon ht hb hlt).mpr (h.first ht hon hb hlt)
    refine ⟨(single_iff hp hne hon).mpr fun ht => h.single ht hon, fun ht h1 h2 => ?_, halone⟩
    by_contra hb
    rcases halone ht hon hb with hd | hd
    · exact hd.2.1 h2
    · exact hd.2.1 h1

end Promise

/-! ## Runs -/

/-- What happens to the scanner: an input of the board, the read of a column
whose change passes the debounce, and `analog_matrix_task` at the end of a
scan, with the reading of the encoder switch. -/
inductive Tick (R C : Nat)
  | input (x : Input R C)
  | column (col : Fin C)
  | task (encoder : Option ((Fin R × Fin C) × Bool))

def matrix_read_rows_on_col (s : Scanner R C) (col : Fin C) : Scanner R C :=
  { s with
    analog_raw_matrix := fun r c =>
      if c = col then analog_matrix_get_key_state s.board r c else s.analog_raw_matrix r c
    changed_matrix := fun r c =>
      if c = col ∧ analog_matrix_get_key_state s.board r c ≠ s.analog_raw_matrix r c then true
      else s.changed_matrix r c }

def finish_scan (cfg : Config R C) (s : Scanner R C) (encoder : Option ((Fin R × Fin C) × Bool)) :
    Scanner R C :=
  let s := socd_action s
  { s with
    changed_matrix := fun _ _ => false
    raw_matrix := fun r c =>
      match encoder with
      | none => s.raw_matrix r c && cfg.hasKey r c
      | some (k, pressed) =>
        if (r, c) = k then pressed else s.raw_matrix r c && cfg.hasKey r c }

def tick (cfg : Config R C) (s : Scanner R C) : Tick R C → Scanner R C
  | .input x => { s with board := react cfg s.board x }
  | .column col => matrix_read_rows_on_col s col
  | .task encoder => finish_scan cfg s encoder

/-- At the end of a scan each pair of two keys has the property. -/
def AtTask (P : Scanner R C → Fin SOCD_COUNT → Pair R C → Prop) (s : Scanner R C) :
    Tick R C → Prop
  | .task _ => ∀ i p, s.pair i = some p → p.key_1 ≠ p.key_2 → P s i p
  | .input _ | .column _ => True

/-- In every run of scans, inputs of the keys and commands of the host, each
pair keeps its promise exactly when it is decided, whatever the other pairs are. -/
theorem a_pair_is_exclusive_once_decided (cfg : Config R C) (s : Scanner R C)
    (ticks : List (Tick R C)) :
    Along (tick cfg) (AtTask fun s _ p => Exclusive s p) s ticks ↔
      Along (tick cfg) (AtTask Decided) s ticks := by
  refine Along.iff (I := fun _ => True) (fun s x _ => ?_) (fun _ _ _ _ => trivial) trivial
  cases x with
  | input x => exact Iff.rfl
  | column col => exact Iff.rfl
  | task encoder =>
    refine forall_congr' fun i => forall_congr' fun p => forall_congr' fun hp => ?_
    exact forall_congr' fun hne => (exclusive_iff hp hne).symm

/-! ## The other keys -/

def InPair (s : Scanner R C) (i : Fin SOCD_COUNT) (k : Fin R × Fin C) : Prop :=
  ∃ p, s.pair i = some p ∧ (k = p.key_1 ∨ k = p.key_2)

def SharesNoKey (s : Scanner R C) (i : Fin SOCD_COUNT) : Prop :=
  ∀ j, j ≠ i → ∀ k, InPair s i k → ¬ InPair s j k

/-- No key is invented and none is dropped that a pair has no say in: a key of no pair, and
the only actuated key of a pair that shares no key. -/
structure Unharmed (s : Scanner R C) : Prop where
  actuated : ∀ k, Reported s k → (s.view k).on = true
  unpaired : ∀ k, (∀ i, ¬ InPair s i k) → (Reported s k ↔ (s.view k).on = true)
  only_first : ∀ i p, s.pair i = some p → SharesNoKey s i → (s.view p.key_1).on = true →
    (s.view p.key_2).on = false → Reported s p.key_1
  only_second : ∀ i p, s.pair i = some p → SharesNoKey s i → (s.view p.key_2).on = true →
    (s.view p.key_1).on = false → Reported s p.key_2

theorem Suppresses.inPair {s : Scanner R C} {i : Fin SOCD_COUNT} {k : Fin R × Fin C}
    (h : Suppresses s i k) : InPair s i k := by
  obtain ⟨p, hp, -, hk⟩ := h
  exact ⟨p, hp, hk.imp And.left And.left⟩

theorem reported_of_unshared {s : Scanner R C} {i : Fin SOCD_COUNT} {p : Pair R C}
    {k : Fin R × Fin C} (hp : s.pair i = some p) (hk : k = p.key_1 ∨ k = p.key_2)
    (hshare : SharesNoKey s i) (hon : (s.view k).on = true) (hnot : ¬ BothOn s p) :
    Reported s k := by
  refine reported_iff.mpr ⟨hon, fun j hj => ?_⟩
  by_cases hji : j = i
  · subst hji
    obtain ⟨q, hq, hboth, -⟩ := hj
    rw [hp] at hq
    cases hq
    exact hnot hboth
  · exact hshare j hji k ⟨p, hp, hk⟩ hj.inPair

theorem unharmed (s : Scanner R C) : Unharmed s where
  actuated _ h := reported_on h
  unpaired k h := reported_iff.trans (and_iff_left fun i hi => h i hi.inPair)
  only_first i p hp hshare hon hoff :=
    reported_of_unshared hp (.inl rfl) hshare hon fun hboth => by simp [hboth.2] at hoff
  only_second i p hp hshare hon hoff :=
    reported_of_unshared hp (.inr rfl) hshare hon fun hboth => by simp [hboth.1] at hoff

def AtScan (P : Scanner R C → Prop) (s : Scanner R C) : Tick R C → Prop
  | .task _ => P s
  | .input _ | .column _ => True

/-- In every run of scans, inputs of the keys and commands of the host, from any state of the
pairs, `socd_action` invents no key and drops none that no pair decides. -/
theorem socd_invents_and_drops_no_other_key (cfg : Config R C) (s : Scanner R C)
    (ticks : List (Tick R C)) : Along (tick cfg) (AtScan Unharmed) s ticks := by
  refine Along.of_forall (fun s x => ?_) s ticks
  cases x with
  | task encoder => exact unharmed s
  | input x => trivial
  | column col => trivial

/-! ## A failing run -/

def sixRowsScanner : Scanner 6 15 :=
  ⟨sixRowsBoard, fun _ _ => false, fun _ _ => false, fun _ _ => false, fun _ => 0⟩

/-- The host pairs the first two keys, the last keystroke first. Both keys go
down within the first scan, and both are reported. -/
theorem two_keys_at_once_are_both_reported : ¬ ∀ ticks : List (Tick 6 15),
    Along (tick sixRows) (AtTask fun s _ p => Exclusive s p) sixRowsScanner ticks := by
  intro h
  obtain ⟨-, -, -, -, -, htask, -⟩ := h [
    .input (.rx (packet [0xA9, AMC_SET_SOCD, 0, 0, 0, 0, 1, 0, SOCD_PRI_LAST_KEYSTROKE])),
    .input (.sample 0 0 ⟨2200, 200, false, .unfinished⟩),
    .input (.sample 0 1 ⟨2200, 200, false, .unfinished⟩), .column 0, .column 1, .task none]
  have hpair := htask ⟨0, by decide⟩ ⟨(0, 0), (0, 1), SOCD_PRI_LAST_KEYSTROKE⟩
    (by decide +kernel) (by decide)
  refine hpair.single (by decide) ⟨?_, ?_⟩
  · unfold Reported
    decide +kernel
  · unfold Reported
    decide +kernel

end keychron_qmk.analog_matrix
