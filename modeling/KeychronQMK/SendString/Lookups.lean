-- The tables have an entry for each of the 128 characters of ASCII, and a delay
-- is an `int`. A string may have other bytes and longer delays: it looks up what
-- there is exactly when it has none, and what it holds down it releases.
import Mathlib.Algebra.Ring.Int.Defs
import KeychronQMK.SendString.Pieces

namespace keychron_qmk.send_string

def INT_MAX : Nat := 2 ^ 31 - 1

/-- A table is read inside, and a signed result does not overflow. -/
def Event.Valid : Event → Prop
  | lookup mem index => index < mem.size
  | signed value => -(2 ^ 31) ≤ value ∧ value < 2 ^ 31
  | _ => True

instance : DecidablePred Event.Valid
  | .lookup mem index => inferInstanceAs (Decidable (index < mem.size))
  | .signed _ => inferInstanceAs (Decidable (_ ∧ _))
  | .register_code _ | .unregister_code _ | .tap_code _ | .tap_code_delay .. | .send_string_task
  | .wait_ms _ => .isTrue trivial

/-- Each key that is registered is unregistered after it. -/
def Undone : List Event → Prop
  | [] => True
  | .register_code keycode :: events => .unregister_code keycode ∈ events ∧ Undone events
  | _ :: events => Undone events

/-- A character is looked up inside the tables, and leaves nothing registered. -/
def CharSafe (cfg : Config) (interval c : UInt8) : Prop :=
  (∀ e ∈ send_char_with_delay cfg interval c, e.Valid) ∧
    Undone (send_char_with_delay cfg interval c)

/-- All turns of a string read inside the tables and compute without overflow,
and a plain character leaves nothing registered. -/
def StringSafe (cfg : Config) (interval : UInt8) (s : List UInt8) : Prop :=
  ∀ turn ∈ (send_string_with_delay_impl cfg interval s).1, (∀ e ∈ turn.events, e.Valid) ∧
    (turn.ascii_code ≠ SS_QMK_PREFIX → Undone turn.events)

/-! ## The condition -/

/-- The number that digits denote. -/
def value (digits : List UInt8) : Nat := digits.foldl (fun n d => n * 10 + (d.toNat - 48)) 0

/-- A character of ASCII, or a delay that an `int` can hold. -/
def Piece.Harmless : Piece → Prop
  | char c .. => c < 128
  | delay digits .. => value digits ≤ INT_MAX
  | _ => True

def Tail.Harmless : Tail → Prop
  | delay digits _ => value digits ≤ INT_MAX
  | _ => True

def Harmless (s : List UInt8) : Prop :=
  ∀ r : Reading s, (∀ p ∈ r.pieces, p.Harmless) ∧ r.tail.Harmless

/-! ## Characters -/

section

variable {cfg : Config} {interval : UInt8}

theorem valid_paced {e : Event} (h : e.Valid) : ∀ e' ∈ paced cfg interval e, e'.Valid := by
  intro e' he'
  simp only [paced, task, List.mem_append, List.mem_singleton] at he'
  rcases he' with (rfl | he') | rfl
  · exact h
  · split_ifs at he'
    · simp at he'
    · rw [List.mem_singleton.mp he']
      trivial
    · simp at he'
  · trivial

theorem undone_register (keycode : UInt8) (es : List Event) :
    Undone (paced cfg interval (.register_code keycode) ++ es) ↔
      .unregister_code keycode ∈ es ∧ Undone es := by
  unfold paced task
  split_ifs <;> simp [Undone]

theorem undone_unregister (keycode : UInt8) (es : List Event) :
    Undone (paced cfg interval (.unregister_code keycode) ++ es) ↔ Undone es := by
  unfold paced task
  split_ifs <;> simp [Undone]

theorem undone_tap (keycode : UInt8) : Undone (paced cfg interval (.tap_code keycode)) := by
  unfold paced task
  split_ifs <;> simp [Undone]

theorem mem_paced (e : Event) : e ∈ paced cfg interval e := by
  simp [paced]

theorem undone_send_char (c : UInt8) : Undone (send_char_with_delay cfg interval c) := by
  unfold send_char_with_delay
  have hdead : Undone (if PGM_LOADBIT cfg .dead c then paced cfg interval (.tap_code KC_SPACE) else []) := by
    split
    · exact undone_tap _
    · trivial
  cases PGM_LOADBIT cfg .shift c <;> cases PGM_LOADBIT cfg .altgr c
  all_goals
    simp [Undone, undone_register, undone_unregister, mem_paced, hdead]

theorem valid_send_char_iff (c : UInt8) :
    (∀ e ∈ send_char_with_delay cfg interval c, e.Valid) ↔ c < 128 := by
  have hlt : c < 128 ↔ c.toNat < 128 := UInt8.lt_iff_toNat_lt
  rw [hlt]
  constructor
  · intro h
    exact h (.lookup .keycode c.toNat) (by simp [send_char_with_delay])
  · intro h e he
    have hpaced : ∀ (b : Bool) (e' : Event), e'.Valid →
        e ∈ (if b then paced cfg interval e' else []) → e.Valid := by
      intro b e' hvalid hmem
      cases b
      · simp at hmem
      · exact valid_paced hvalid e hmem
    have hpart : c.toNat / 8 < 16 := by omega
    simp only [send_char_with_delay, List.mem_append, List.mem_cons, List.not_mem_nil,
      or_false] at he
    rcases he with ((((((rfl | rfl | rfl | rfl) | he) | he) | (rfl | rfl)) | he) | he) | he
    · exact h
    · exact hpart
    · exact hpart
    · exact hpart
    · exact hpaced _ _ (by trivial) he
    · exact hpaced _ _ (by trivial) he
    · trivial
    · trivial
    · exact hpaced _ _ (by trivial) he
    · exact hpaced _ _ (by trivial) he
    · exact hpaced _ _ (by trivial) he

/-! ## Delays -/

theorem toInt_of_lt {n : Nat} (h : n ≤ INT_MAX) : toInt (n : Int) = n := by
  unfold INT_MAX at h
  unfold toInt
  rw [Int.bmod_eq_of_le] <;> omega

theorem le_value_from (digits : List UInt8) (n : Nat) :
    n ≤ digits.foldl (fun n d => n * 10 + (d.toNat - 48)) n := by
  induction digits generalizing n with
  | nil => exact le_rfl
  | cons d digits ih => exact (by omega : n ≤ n * 10 + (d.toNat - 48)).trans (ih _)

/-- A delay overflows exactly when its number does. -/
theorem valid_read_delay_iff {digits : List UInt8} (hall : ∀ d ∈ digits, isdigit d = true) {n : Nat}
    (hn : n ≤ INT_MAX) : (∀ e ∈ (read_delay n digits).2.2.1, e.Valid) ↔
      digits.foldl (fun n d => n * 10 + (d.toNat - 48)) n ≤ INT_MAX := by
  induction digits generalizing n with
  | nil => exact iff_of_true (fun e he => absurd he List.not_mem_nil) hn
  | cons d digits ih =>
    obtain ⟨hd, hall⟩ := List.forall_mem_cons.mp hall
    have hdigit : 48 ≤ d.toNat ∧ d.toNat ≤ 57 := by
      simpa [isdigit, UInt8.le_iff_toNat_le] using hd
    rw [read_delay, if_pos hd, List.foldl_cons]
    rw [List.forall_mem_cons, List.forall_mem_cons]
    have hvalid : ∀ m : Nat, (Event.signed (m : Int)).Valid ↔ m ≤ INT_MAX := by
      intro m
      simp only [Event.Valid, INT_MAX]
      omega
    have htens : (n : Int) * 10 = ((n * 10 : Nat) : Int) := by push_cast; rfl
    rw [htens, hvalid]
    by_cases hfits : n * 10 ≤ INT_MAX
    · have hsum : ((n * 10 : Nat) : Int) + (d.toNat - 48) =
          ((n * 10 + (d.toNat - 48) : Nat) : Int) := by omega
      rw [toInt_of_lt hfits, hsum, hvalid]
      by_cases hfits' : n * 10 + (d.toNat - 48) ≤ INT_MAX
      · rw [toInt_of_lt hfits', ih hall hfits']
        exact ⟨fun h => h.2.2, fun h => ⟨hfits, hfits', h⟩⟩
      · have hle := le_value_from digits (n * 10 + (d.toNat - 48))
        exact iff_of_false (fun h => hfits' h.2.1) fun h => hfits' (hle.trans h)
    · have hle := le_value_from digits (n * 10 + (d.toNat - 48))
      exact iff_of_false (fun h => hfits h.1) fun h => hfits (by omega)

theorem valid_codeTurn (events : List Event) :
    (∀ e ∈ (codeTurn cfg interval events).events, e.Valid) ↔ ∀ e ∈ events, e.Valid := by
  have hrest : ∀ e ∈ task cfg ++ [.wait_ms interval.toNat], e.Valid := by
    unfold task
    split <;> simp [Event.Valid]
  unfold codeTurn
  rw [List.append_assoc, List.forall_mem_append]
  exact and_iff_left hrest

theorem valid_delayEvents {digits : List UInt8} (hall : ∀ d ∈ digits, isdigit d = true) :
    (∀ e ∈ delayEvents digits, e.Valid) ↔ value digits ≤ INT_MAX := by
  unfold delayEvents
  rw [List.forall_mem_append]
  refine (and_iff_left ?_).trans (valid_read_delay_iff hall (Nat.zero_le _))
  simp [Event.Valid]

theorem valid_op (op : Op) (keycode : UInt8) : ∀ e ∈ op.events cfg keycode, e.Valid := by
  have htask : ∀ e ∈ task cfg, e.Valid := by
    unfold task
    split <;> simp [Event.Valid]
  cases op with
  | tap => simp [Op.events, Event.Valid]
  | down => exact List.forall_mem_cons.mpr ⟨trivial, htask⟩
  | up => exact List.forall_mem_cons.mpr ⟨trivial, htask⟩

/-! ## Strings -/

def TurnSafe (turn : Turn) : Prop :=
  (∀ e ∈ turn.events, e.Valid) ∧ (turn.ascii_code ≠ SS_QMK_PREFIX → Undone turn.events)

theorem turnSafe_code_iff (events : List Event) :
    TurnSafe (codeTurn cfg interval events) ↔ ∀ e ∈ events, e.Valid := by
  unfold TurnSafe
  rw [valid_codeTurn]
  exact and_iff_left fun h => absurd rfl h

theorem turnSafe_piece_iff (p : Piece) : TurnSafe (p.turn cfg interval) ↔ p.Harmless := by
  cases p with
  | char c nonzero plain =>
    refine Iff.trans ?_ (@valid_send_char_iff cfg interval c)
    exact and_iff_left fun _ => undone_send_char c
  | code op keycode =>
    exact (turnSafe_code_iff _).trans (iff_of_true (valid_op op keycode) trivial)
  | delay digits stop all => exact (turnSafe_code_iff _).trans (valid_delayEvents all)
  | unknown c other =>
    exact (turnSafe_code_iff _).trans
      (iff_of_true (fun e he => absurd he List.not_mem_nil) trivial)

theorem turnSafe_tail_iff (t : Tail) :
    (∀ turn ∈ t.turns cfg interval, TurnSafe turn) ↔ t.Harmless := by
  cases t with
  | whole => exact iff_of_true (fun e he => absurd he List.not_mem_nil) trivial
  | prefix_only =>
    rw [Tail.turns, List.forall_mem_singleton, turnSafe_code_iff]
    exact iff_of_true (fun e he => absurd he List.not_mem_nil) trivial
  | delay digits all =>
    rw [Tail.turns, List.forall_mem_singleton, turnSafe_code_iff, valid_delayEvents all]
    exact Iff.rfl
  | cut op =>
    rw [Tail.turns, List.forall_mem_singleton, turnSafe_code_iff]
    exact iff_of_true (valid_op op 0) trivial

theorem stringSafe_reading_iff {s : List UInt8} (r : Reading s) :
    StringSafe cfg interval s ↔ (∀ p ∈ r.pieces, p.Harmless) ∧ r.tail.Harmless := by
  unfold StringSafe
  rw [impl_reading cfg interval r]
  rw [List.forall_mem_append, List.forall_mem_map]
  refine and_congr (forall₂_congr fun p _ => turnSafe_piece_iff p) ?_
  exact turnSafe_tail_iff r.tail

end

/-- A character is safe exactly when it is one of ASCII, and a string exactly
when its characters are and an `int` can hold its delays. -/
theorem sent_safely_iff (cfg : Config) (interval : UInt8) :
    (∀ c, CharSafe cfg interval c ↔ c < 128) ∧
      ∀ s, StringSafe cfg interval s ↔ Harmless s := by
  refine ⟨fun c => (and_iff_left (undone_send_char c)).trans (valid_send_char_iff c), fun s => ?_⟩
  constructor
  · exact fun h r => (stringSafe_reading_iff r).mp h
  · intro h
    obtain ⟨r⟩ := exists_reading s
    exact (stringSafe_reading_iff r).mpr (h r)

/-- The byte 0xE9 has no entry in any table. -/
theorem a_byte_is_looked_up_outside : ¬ ∀ (cfg : Config) (interval : UInt8) (s : List UInt8),
    0 ∈ s → StringSafe cfg interval s := by
  intro h
  have hsafe := h ⟨fun _ _ => 0, false⟩ 0 [0xE9, 0] (by decide)
  let r : Reading [0xE9, 0] := ⟨[.char 0xE9 (by decide) (by decide)], .whole, [0], rfl, rfl⟩
  have hchar := ((stringSafe_reading_iff r).mp hsafe).1 _ List.mem_cons_self
  exact absurd hchar (by decide : ¬ (0xE9 : UInt8) < 128)

end keychron_qmk.send_string
