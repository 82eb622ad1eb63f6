-- What a string says: the characters and the codes that it is made of, and
-- what is left where it ends. The loop does them in order.
import KeychronQMK.SendString.Funs
import Mathlib.Data.List.TakeWhile

namespace keychron_qmk.send_string

/-! ## Pieces -/

/-- A code with a keycode behind it. -/
inductive Op
  | tap
  | down
  | up
  deriving DecidableEq

namespace Op

def code : Op → UInt8
  | tap => SS_TAP_CODE
  | down => SS_DOWN_CODE
  | up => SS_UP_CODE

def events (cfg : Config) (keycode : UInt8) : Op → List Event
  | tap => [.tap_code keycode]
  | down => .register_code keycode :: task cfg
  | up => .unregister_code keycode :: task cfg

end Op

/-- A character, or a whole code. -/
inductive Piece
  | char (c : UInt8) (nonzero : c ≠ 0) (plain : c ≠ SS_QMK_PREFIX)
  | code (op : Op) (keycode : UInt8)
  | delay (digits : List UInt8) (stop : UInt8) (all : ∀ d ∈ digits, isdigit d = true)
      (stops : isdigit stop = false) (nonzero : stop ≠ 0)
  | unknown (c : UInt8) (other : SS_DELAY_CODE < c)

/-- What stands before the null: nothing, a prefix, a delay, or a code whose
keycode is missing. -/
inductive Tail
  | whole
  | prefix_only
  | delay (digits : List UInt8) (all : ∀ d ∈ digits, isdigit d = true)
  | cut (op : Op)

namespace Piece

def bytes : Piece → List UInt8
  | char c .. => [c]
  | code op keycode => [SS_QMK_PREFIX, op.code, keycode]
  | delay digits stop .. => SS_QMK_PREFIX :: SS_DELAY_CODE :: (digits ++ [stop])
  | unknown c _ => [SS_QMK_PREFIX, c]

end Piece

namespace Tail

def bytes : Tail → List UInt8
  | whole => []
  | prefix_only => [SS_QMK_PREFIX]
  | delay digits _ => SS_QMK_PREFIX :: SS_DELAY_CODE :: digits
  | cut op => [SS_QMK_PREFIX, op.code]

/-- A null follows, or all bytes end within the code. -/
def Meets : Tail → List UInt8 → Prop
  | cut _, rest => rest = []
  | _, rest => (getter rest).1 = 0

end Tail

/-- A string as its pieces, with the rest from the null on. -/
structure Reading (s : List UInt8) where
  pieces : List Piece
  tail : Tail
  rest : List UInt8
  bytes_eq : pieces.flatMap Piece.bytes ++ (tail.bytes ++ rest) = s
  meets : tail.Meets rest

theorem digits_split (s : List UInt8) : ∃ digits rest, s = digits ++ rest ∧
    (∀ d ∈ digits, isdigit d = true) ∧ isdigit (getter rest).1 = false := by
  refine ⟨s.takeWhile isdigit, s.dropWhile isdigit, List.takeWhile_append_dropWhile.symm,
    fun d hd => List.mem_takeWhile_imp hd, ?_⟩
  cases hrest : s.dropWhile isdigit with
  | nil => rfl
  | cons c rest =>
    have hhead := List.head?_dropWhile_not isdigit s
    rw [hrest] at hhead
    simpa using hhead

/-- A string starts with a piece, or it ends. -/
theorem first_piece (s : List UInt8) :
    (∃ p : Piece, ∃ s', s = p.bytes ++ s') ∨ ∃ t : Tail, ∃ rest, s = t.bytes ++ rest ∧ t.Meets rest := by
  cases s with
  | nil => exact .inr ⟨.whole, [], rfl, rfl⟩
  | cons c s =>
    by_cases hzero : c = 0
    · exact .inr ⟨.whole, c :: s, rfl, hzero⟩
    · by_cases hprefix : c = SS_QMK_PREFIX
      · subst hprefix
        cases s with
        | nil => exact .inr ⟨.prefix_only, [], rfl, rfl⟩
        | cons code s =>
          -- the codes that take a keycode
          have hop : ∀ op : Op, code = op.code → (∃ p : Piece, ∃ s',
              SS_QMK_PREFIX :: code :: s = p.bytes ++ s') ∨ ∃ t : Tail, ∃ rest,
                SS_QMK_PREFIX :: code :: s = t.bytes ++ rest ∧ t.Meets rest := by
            rintro op rfl
            cases s with
            | nil => exact .inr ⟨.cut op, [], rfl, rfl⟩
            | cons keycode s => exact .inl ⟨.code op keycode, s, rfl⟩
          by_cases htap : code = SS_TAP_CODE
          · exact hop .tap htap
          by_cases hdown : code = SS_DOWN_CODE
          · exact hop .down hdown
          by_cases hup : code = SS_UP_CODE
          · exact hop .up hup
          by_cases hdelay : code = SS_DELAY_CODE
          · subst hdelay
            obtain ⟨digits, rest, rfl, hall, hstop⟩ := digits_split s
            by_cases hnull : (getter rest).1 = 0
            · exact .inr ⟨.delay digits hall, rest, rfl, hnull⟩
            · cases rest with
              | nil => exact absurd rfl hnull
              | cons stop rest =>
                refine .inl ⟨.delay digits stop hall hstop hnull, rest, ?_⟩
                simp [Piece.bytes]
          by_cases hnull : code = 0
          · exact .inr ⟨.prefix_only, code :: s, rfl, hnull⟩
          · refine .inl ⟨.unknown code ?_, s, rfl⟩
            rw [UInt8.lt_iff_toNat_lt]
            simp only [← UInt8.toNat_inj, SS_TAP_CODE, SS_DOWN_CODE, SS_UP_CODE, SS_DELAY_CODE,
              UInt8.reduceToNat] at *
            omega
      · exact .inl ⟨.char c hzero hprefix, s, rfl⟩

theorem Piece.bytes_pos (p : Piece) : 0 < p.bytes.length := by
  cases p <;> simp [bytes]

theorem exists_reading (s : List UInt8) : Nonempty (Reading s) := by
  induction hn : s.length using Nat.strong_induction_on generalizing s with
  | h n ih =>
    rcases first_piece s with ⟨p, s', rfl⟩ | ⟨t, rest, rfl, hmeets⟩
    · have hpos := p.bytes_pos
      rw [List.length_append] at hn
      obtain ⟨r⟩ := ih s'.length (by omega) s' rfl
      refine ⟨⟨p :: r.pieces, r.tail, r.rest, ?_, r.meets⟩⟩
      rw [List.flatMap_cons, List.append_assoc, r.bytes_eq]
    · exact ⟨⟨[], t, rest, rfl, hmeets⟩⟩

/-! ## What the loop does -/

section

variable (cfg : Config) (interval : UInt8)

def codeTurn (events : List Event) : Turn :=
  ⟨SS_QMK_PREFIX, events ++ task cfg ++ [.wait_ms interval.toNat]⟩

def delayEvents (digits : List UInt8) : List Event :=
  (read_delay 0 digits).2.2.1 ++ [.wait_ms (read_delay 0 digits).2.1]

def Piece.turn : Piece → Turn
  | char c .. => ⟨c, send_char_with_delay cfg interval c⟩
  | code op keycode => codeTurn cfg interval (op.events cfg keycode)
  | delay digits .. => codeTurn cfg interval (delayEvents digits)
  | unknown .. => codeTurn cfg interval []

def Tail.turns : Tail → List Turn
  | whole => []
  | prefix_only => [codeTurn cfg interval []]
  | delay digits _ => [codeTurn cfg interval (delayEvents digits)]
  | cut op => [codeTurn cfg interval (op.events cfg 0)]

variable {digits rest s : List UInt8}

theorem read_delay_digits (hall : ∀ d ∈ digits, isdigit d = true)
    (hstop : isdigit (getter rest).1 = false) (ms : Int) :
    read_delay ms (digits ++ rest) = ((getter rest).1, (read_delay ms digits).2.1,
      (read_delay ms digits).2.2.1, (getter rest).2) := by
  induction digits generalizing ms with
  | nil =>
    cases rest with
    | nil => rfl
    | cons c rest =>
      have hstop : isdigit c = false := hstop
      rw [List.nil_append, read_delay, read_delay, if_neg (by simp [hstop])]
      rfl
  | cons d digits ih =>
    obtain ⟨hd, hall⟩ := List.forall_mem_cons.mp hall
    rw [List.cons_append, read_delay, if_pos hd, read_delay, if_pos hd]
    dsimp only
    rw [ih hall]

theorem impl_code {last : UInt8} {events : List Event} (h : send_code cfg s = (last, events, rest))
    (hlast : last ≠ 0) :
    send_string_with_delay_impl cfg interval (SS_QMK_PREFIX :: s) =
      (codeTurn cfg interval events :: (send_string_with_delay_impl cfg interval rest).1,
        (send_string_with_delay_impl cfg interval rest).2) := by
  rw [send_string_with_delay_impl]
  simp only [getter_cons, h]
  rw [dif_neg (by decide), if_pos trivial, if_neg hlast]
  rfl

theorem impl_code_end {events : List Event} (h : send_code cfg s = (0, events, rest)) :
    send_string_with_delay_impl cfg interval (SS_QMK_PREFIX :: s) =
      ([codeTurn cfg interval events], rest) := by
  rw [send_string_with_delay_impl]
  simp only [getter_cons, h]
  rfl

theorem send_code_op (op : Op) (s : List UInt8) :
    send_code cfg (op.code :: s) = (op.code, op.events cfg (getter s).1, (getter s).2) := by
  cases op <;> rfl

theorem send_code_delay (hall : ∀ d ∈ digits, isdigit d = true)
    (hstop : isdigit (getter rest).1 = false) :
    send_code cfg (SS_DELAY_CODE :: (digits ++ rest)) =
      ((getter rest).1, delayEvents digits, (getter rest).2) := by
  unfold send_code
  simp only [getter_cons, read_delay_digits hall hstop]
  rfl

theorem Op.code_ne_zero (op : Op) : op.code ≠ 0 := by
  cases op <;> decide

/-- The loop does a piece in one turn. -/
theorem impl_piece (p : Piece) (s : List UInt8) :
    send_string_with_delay_impl cfg interval (p.bytes ++ s) =
      (p.turn cfg interval :: (send_string_with_delay_impl cfg interval s).1,
        (send_string_with_delay_impl cfg interval s).2) := by
  cases p with
  | char c nonzero plain =>
    rw [Piece.bytes, List.singleton_append, send_string_with_delay_impl]
    simp only [getter_cons, nonzero, plain, dite_false, if_false]
    rfl
  | code op keycode => exact impl_code cfg interval (send_code_op cfg op _) op.code_ne_zero
  | delay digits stop all stops nonzero =>
    have hbytes : (Piece.delay digits stop all stops nonzero).bytes ++ s =
        SS_QMK_PREFIX :: (SS_DELAY_CODE :: (digits ++ stop :: s)) := by
      simp [Piece.bytes]
    rw [hbytes]
    exact impl_code cfg interval (send_code_delay cfg all stops) nonzero
  | unknown c other =>
    have hc : SS_DELAY_CODE.toNat < c.toNat := other
    have hne : ∀ d : UInt8, d.toNat ≤ SS_DELAY_CODE.toNat → c ≠ d := by
      rintro d hd rfl
      omega
    have htap := hne SS_TAP_CODE (by decide)
    have hdown := hne SS_DOWN_CODE (by decide)
    have hup := hne SS_UP_CODE (by decide)
    have hdelay := hne SS_DELAY_CODE (by decide)
    have hcode : send_code cfg (c :: s) = (c, [], s) := by
      unfold send_code
      simp only [getter_cons, htap, hdown, hup, hdelay, if_false]
    exact impl_code cfg interval hcode (hne 0 (by decide))

theorem impl_tail {t : Tail} (h : t.Meets rest) :
    send_string_with_delay_impl cfg interval (t.bytes ++ rest) =
      (t.turns cfg interval, (getter rest).2) := by
  cases t with
  | whole =>
    have h : (getter rest).1 = 0 := h
    rw [Tail.bytes, List.nil_append, send_string_with_delay_impl, dif_pos h]
    rfl
  | prefix_only =>
    have h : (getter rest).1 = 0 := h
    have hcode : send_code cfg rest = (0, [], (getter rest).2) := by
      unfold send_code
      simp only [h]
      rfl
    exact impl_code_end cfg interval hcode
  | delay digits all =>
    have hcode := send_code_delay cfg all (by rw [h]; rfl)
    rw [h] at hcode
    exact impl_code_end cfg interval hcode
  | cut op =>
    subst h
    have hnil : send_string_with_delay_impl cfg interval [] = ([], []) := by
      rw [send_string_with_delay_impl]
      exact dif_pos rfl
    have hcut := impl_code cfg interval (send_code_op cfg op []) op.code_ne_zero
    have hrest : (getter []).2 = [] := rfl
    rw [hrest, hnil] at hcut
    exact hcut

theorem impl_pieces (pieces : List Piece) (s : List UInt8) :
    send_string_with_delay_impl cfg interval (pieces.flatMap Piece.bytes ++ s) =
      (pieces.map (Piece.turn cfg interval) ++ (send_string_with_delay_impl cfg interval s).1,
        (send_string_with_delay_impl cfg interval s).2) := by
  induction pieces with
  | nil => rfl
  | cons p pieces ih =>
    rw [List.flatMap_cons, List.append_assoc, impl_piece, ih]
    rfl

theorem impl_reading (r : Reading s) :
    send_string_with_delay_impl cfg interval s =
      (r.pieces.map (Piece.turn cfg interval) ++ r.tail.turns cfg interval, (getter r.rest).2) := by
  conv_lhs => rw [← r.bytes_eq]
  rw [impl_pieces, impl_tail cfg interval r.meets]

theorem impl_length (h : s ≠ []) :
    (send_string_with_delay_impl cfg interval s).2.length < s.length := by
  obtain ⟨r⟩ := exists_reading s
  have hlength := congrArg List.length r.bytes_eq
  simp only [List.length_append] at hlength
  rw [impl_reading cfg interval r]
  cases hrest : r.rest with
  | nil => exact List.length_pos_iff.mpr h
  | cons c rest =>
    rw [hrest, List.length_cons] at hlength
    simp only [getter_cons]
    omega

end

end keychron_qmk.send_string
