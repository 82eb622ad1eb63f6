-- The playback of a macro of the dynamic keymap: `dynamic_keymap_macro_send`
-- skips the strings before it and types what follows. A macro that ends with a
-- code without its keycode takes the null for it, and goes on in the next one.
import KeychronQMK.Keymap.DynamicKeymap
import KeychronQMK.SendString.Pieces

namespace keychron_qmk.dynamic_keymap

open send_string

structure MacroConfig extends Config where
  DYNAMIC_KEYMAP_MACRO_COUNT : Nat
  DYNAMIC_KEYMAP_MACRO_DELAY : UInt8
  send_string : send_string.Config

section

variable (cfg : MacroConfig)

/-! ## Playback -/

def dynamic_keymap_read_byte (offset : Nat) (e : Eeprom) : UInt8 :=
  (nvm_dynamic_keymap_macro_read_buffer cfg.toConfig offset 1 e).headD 0

/-- The bytes of the macro buffer from an offset on, as
`send_string_get_next_nvm` gives them. -/
def macro_bytes (offset : Nat) (e : Eeprom) : List UInt8 :=
  nvm_dynamic_keymap_macro_read_buffer cfg.toConfig offset
    (cfg.DYNAMIC_KEYMAP_MACRO_EEPROM_SIZE - offset) e

/-- The loop that skips null characters. It is none past the end. -/
def skip_macros : Nat → List UInt8 → Option (List UInt8)
  | 0, s => some s
  | _ + 1, [] => none
  | id + 1, b :: s => skip_macros (if b = 0 then id else id + 1) s

/-- The bytes from the start of a playback on, its turns, and the bytes that it
leaves. -/
structure Played where
  start : List UInt8
  turns : List Turn
  rest : List UInt8

def dynamic_keymap_macro_send (id : UInt8) (e : Eeprom) : Option Played :=
  if cfg.DYNAMIC_KEYMAP_MACRO_COUNT ≤ id.toNat then none
  else if dynamic_keymap_read_byte cfg (cfg.DYNAMIC_KEYMAP_MACRO_EEPROM_SIZE - 1) e ≠ 0 then none
  else (skip_macros id.toNat (macro_bytes cfg 0 e)).map fun start =>
    let (turns, rest) :=
      send_string_with_delay_impl cfg.send_string cfg.DYNAMIC_KEYMAP_MACRO_DELAY start
    ⟨start, turns, rest⟩

/-! ## Macros -/

/-- The string behind `id` others. -/
structure MacroAt (buffer : List UInt8) (id : Nat) where
  front : List (List UInt8)
  string : List UInt8
  behind : List UInt8
  front_length : front.length = id
  front_nonzero : ∀ s ∈ front, 0 ∉ s
  nonzero : 0 ∉ string
  bytes_eq : front.flatMap (· ++ [0]) ++ (string ++ 0 :: behind) = buffer

def MacroAt.offset {buffer : List UInt8} {id : Nat} (m : MacroAt buffer id) : Nat :=
  (m.front.flatMap (· ++ [0])).length

/-- The offsets of the bytes that a playback takes from the buffer. -/
def consumed (id : UInt8) (e : Eeprom) : List Nat :=
  match dynamic_keymap_macro_send cfg id e with
  | none => []
  | some p => List.range' (cfg.DYNAMIC_KEYMAP_MACRO_EEPROM_SIZE - p.start.length)
      (p.start.length - p.rest.length)

/-- A playback takes the string of its macro with the null, or nothing where
there is none. -/
def StaysInside (id : UInt8) (e : Eeprom) : Prop :=
  (id.toNat < cfg.DYNAMIC_KEYMAP_MACRO_COUNT → ∀ m : MacroAt (macro_bytes cfg 0 e) id.toNat,
    consumed cfg id e = List.range' m.offset (m.string.length + 1)) ∧
  (id.toNat < cfg.DYNAMIC_KEYMAP_MACRO_COUNT → IsEmpty (MacroAt (macro_bytes cfg 0 e) id.toNat) →
    consumed cfg id e = []) ∧
  (cfg.DYNAMIC_KEYMAP_MACRO_COUNT ≤ id.toNat → consumed cfg id e = [])

/-- The last code of a string has no keycode. -/
def Truncated (string : List UInt8) : Prop := ∃ r : Reading string, ∃ op, r.tail = .cut op

def WholeOrLast (id : UInt8) (e : Eeprom) : Prop :=
  id.toNat < cfg.DYNAMIC_KEYMAP_MACRO_COUNT → ∀ m : MacroAt (macro_bytes cfg 0 e) id.toNat,
    Truncated m.string → m.behind = []

/-! ## Bytes -/

theorem macro_bytes_length (offset : Nat) (e : Eeprom) :
    (macro_bytes cfg offset e).length = cfg.DYNAMIC_KEYMAP_MACRO_EEPROM_SIZE - offset := by
  simp [macro_bytes, nvm_dynamic_keymap_macro_read_buffer, read_region]

variable {e : Eeprom}

theorem macro_bytes_last
    (h : dynamic_keymap_read_byte cfg (cfg.DYNAMIC_KEYMAP_MACRO_EEPROM_SIZE - 1) e = 0) :
    ∃ front, macro_bytes cfg 0 e = front ++ [0] := by
  have hsize : cfg.DYNAMIC_KEYMAP_MACRO_EEPROM_SIZE =
      cfg.DYNAMIC_KEYMAP_MACRO_EEPROM_SIZE - 1 + 1 := by
    unfold Config.DYNAMIC_KEYMAP_MACRO_EEPROM_SIZE
    omega
  unfold dynamic_keymap_read_byte at h
  unfold macro_bytes
  unfold nvm_dynamic_keymap_macro_read_buffer read_region at h ⊢
  rw [hsize] at h ⊢
  generalize cfg.DYNAMIC_KEYMAP_MACRO_EEPROM_SIZE - 1 = n at h ⊢
  have h : e (cfg.DYNAMIC_KEYMAP_MACRO_EEPROM_ADDR + n) = 0 := by simpa using h
  rw [Nat.sub_zero, List.range_succ, List.map_append]
  refine ⟨_, congrArg _ ?_⟩
  simp [h]

/-! ## Skipping -/

variable {s : List UInt8}

theorem skip_string (h : 0 ∉ s) (id : Nat) (rest : List UInt8) :
    skip_macros (id + 1) (s ++ 0 :: rest) = skip_macros id rest := by
  induction s with
  | nil => rfl
  | cons b s ih =>
    obtain ⟨hb, hs⟩ := not_or.mp (mt List.mem_cons.mpr h)
    rw [List.cons_append, skip_macros, if_neg (Ne.symm hb), ih hs]

theorem skip_strings {front : List (List UInt8)} (h : ∀ s ∈ front, 0 ∉ s) (rest : List UInt8) :
    skip_macros front.length (front.flatMap (· ++ [0]) ++ rest) = some rest := by
  induction front with
  | nil => cases rest <;> rfl
  | cons s front ih =>
    obtain ⟨hs, hfront⟩ := List.forall_mem_cons.mp h
    rw [List.flatMap_cons, List.length_cons, List.append_assoc, List.append_assoc,
      List.singleton_append, skip_string hs, ih hfront]

theorem split_null (h : 0 ∈ s) : ∃ string behind, 0 ∉ string ∧ s = string ++ 0 :: behind := by
  induction s with
  | nil => exact absurd h List.not_mem_nil
  | cons b s ih =>
    by_cases hb : b = 0
    · exact ⟨[], s, List.not_mem_nil, by rw [hb]; rfl⟩
    · obtain ⟨string, behind, hstring, heq⟩ := ih (List.mem_of_ne_of_mem (Ne.symm hb) h)
      refine ⟨b :: string, behind, ?_, by rw [heq]; rfl⟩
      exact fun hmem => (List.mem_cons.mp hmem).elim (fun h0 => hb h0.symm) hstring

theorem skip_macros_some {id : Nat} {rest : List UInt8} (h : skip_macros id s = some rest) :
    ∃ front : List (List UInt8), front.length = id ∧ (∀ t ∈ front, 0 ∉ t) ∧
      s = front.flatMap (· ++ [0]) ++ rest := by
  induction id generalizing s with
  | zero =>
    have h : some s = some rest := by
      cases s <;> exact h
    exact ⟨[], rfl, List.forall_mem_nil _, by rw [Option.some.inj h]; rfl⟩
  | succ id ih =>
    by_cases hnull : 0 ∈ s
    · obtain ⟨string, behind, hstring, rfl⟩ := split_null hnull
      rw [skip_string hstring] at h
      obtain ⟨front, hlength, hfront, rfl⟩ := ih h
      refine ⟨string :: front, by rw [List.length_cons, hlength],
        List.forall_mem_cons.mpr ⟨hstring, hfront⟩, by simp⟩
    · -- without a null the loop runs to the end
      have hnone : ∀ s : List UInt8, 0 ∉ s → skip_macros (id + 1) s = none := by
        intro s hs
        induction s with
        | nil => rfl
        | cons b s ih =>
          obtain ⟨hb, hs⟩ := not_or.mp (mt List.mem_cons.mpr hs)
          rw [skip_macros, if_neg (Ne.symm hb), ih hs]
      rw [hnone s hnull] at h
      cases h

theorem MacroAt.skip {buffer : List UInt8} {id : Nat} (m : MacroAt buffer id) :
    skip_macros id buffer = some (m.string ++ 0 :: m.behind) := by
  have hskip := skip_strings m.front_nonzero (m.string ++ 0 :: m.behind)
  rwa [m.front_length, m.bytes_eq] at hskip

/-! ## One macro -/

section

variable (keys : send_string.Config) (interval : UInt8)

variable {string : List UInt8}

theorem impl_whole (hnonzero : 0 ∉ string) (h : ¬ Truncated string) (behind : List UInt8) :
    (send_string_with_delay_impl keys interval (string ++ 0 :: behind)).2 = behind := by
  obtain ⟨⟨pieces, tail, rest, hbytes, hmeets⟩⟩ := exists_reading string
  have hwhole : ∀ rest, tail.Meets rest ↔ (getter rest).1 = 0 := by
    intro rest'
    cases htail : tail with
    | cut op => exact absurd ⟨⟨pieces, tail, rest, hbytes, hmeets⟩, op, htail⟩ h
    | _ => exact Iff.rfl
  have hrest : rest = [] := by
    cases rest with
    | nil => rfl
    | cons b rest =>
      have hb : b = 0 := (hwhole _).mp hmeets
      rw [← hbytes, hb] at hnonzero
      simp at hnonzero
  subst hrest
  have hbytes' : pieces.flatMap Piece.bytes ++ (tail.bytes ++ 0 :: behind) =
      string ++ 0 :: behind := by
    rw [← hbytes]
    simp
  rw [impl_reading keys interval ⟨pieces, tail, 0 :: behind, hbytes', (hwhole _).mpr rfl⟩]
  rfl

theorem impl_truncated (h : Truncated string) (behind : List UInt8) :
    (send_string_with_delay_impl keys interval (string ++ 0 :: behind)).2 =
      (send_string_with_delay_impl keys interval behind).2 := by
  obtain ⟨⟨pieces, tail, rest, hbytes, hmeets⟩, op, htail⟩ := h
  subst htail
  have heq : string ++ 0 :: behind =
      (pieces ++ [Piece.code op 0]).flatMap Piece.bytes ++ behind := by
    rw [← hbytes, hmeets]
    simp [Piece.bytes, Tail.bytes]
  rw [heq, impl_pieces]

end

variable {id : UInt8}

theorem macro_consumed (hid : id.toNat < cfg.DYNAMIC_KEYMAP_MACRO_COUNT)
    (hlast : dynamic_keymap_read_byte cfg (cfg.DYNAMIC_KEYMAP_MACRO_EEPROM_SIZE - 1) e = 0)
    (m : MacroAt (macro_bytes cfg 0 e) id.toNat) :
    consumed cfg id e = List.range' m.offset ((m.string ++ 0 :: m.behind).length -
      (send_string_with_delay_impl cfg.send_string cfg.DYNAMIC_KEYMAP_MACRO_DELAY
        (m.string ++ 0 :: m.behind)).2.length) := by
  have hlength := congrArg List.length m.bytes_eq
  rw [macro_bytes_length, List.length_append] at hlength
  unfold consumed dynamic_keymap_macro_send
  rw [if_neg (not_le.mpr hid), if_neg (not_not.mpr hlast), m.skip]
  dsimp only [Option.map_some]
  congr 1
  unfold MacroAt.offset
  omega

theorem consumed_truncated (hid : id.toNat < cfg.DYNAMIC_KEYMAP_MACRO_COUNT)
    (hlast : dynamic_keymap_read_byte cfg (cfg.DYNAMIC_KEYMAP_MACRO_EEPROM_SIZE - 1) e = 0)
    (m : MacroAt (macro_bytes cfg 0 e) id.toNat) (h : Truncated m.string)
    (hbehind : m.behind ≠ []) :
    consumed cfg id e ≠ List.range' m.offset (m.string.length + 1) := by
  intro heq
  have hlt := impl_length cfg.send_string cfg.DYNAMIC_KEYMAP_MACRO_DELAY hbehind
  have hlen := congrArg List.length heq
  rw [macro_consumed cfg hid hlast m, impl_truncated _ _ h, List.length_range', List.length_range',
    List.length_append, List.length_cons] at hlen
  omega

theorem consumed_none (hid : id.toNat < cfg.DYNAMIC_KEYMAP_MACRO_COUNT)
    (hlast : dynamic_keymap_read_byte cfg (cfg.DYNAMIC_KEYMAP_MACRO_EEPROM_SIZE - 1) e = 0)
    (h : IsEmpty (MacroAt (macro_bytes cfg 0 e) id.toNat)) : consumed cfg id e = [] := by
  unfold consumed dynamic_keymap_macro_send
  rw [if_neg (not_le.mpr hid), if_neg (not_not.mpr hlast)]
  cases hskip : skip_macros id.toNat (macro_bytes cfg 0 e) with
  | none => rfl
  | some start =>
    obtain ⟨front, hfront, hnonzero, heq⟩ := skip_macros_some hskip
    obtain ⟨init, hinit⟩ := macro_bytes_last cfg hlast
    have hstart : start = [] := by
      by_contra hne
      -- the last byte is the null of the string
      have hnull : 0 ∈ start := by
        have hend : start.getLast hne = 0 := by
          have hall := congrArg List.getLast? (heq.symm.trans hinit)
          rw [List.getLast?_append_of_ne_nil _ hne, List.getLast?_eq_some_getLast hne] at hall
          simpa using hall
        exact hend ▸ List.getLast_mem hne
      obtain ⟨string, behind, hstring, rfl⟩ := split_null hnull
      exact h.false ⟨front, string, behind, hfront, hnonzero, hstring, heq.symm⟩
    subst hstart
    simp

/-- A playback stays inside its macro exactly when the macro does not end with a
code that lacks its keycode, or is the last one. -/
theorem macro_stays_inside_iff (id : UInt8) (e : Eeprom)
    (hlast : dynamic_keymap_read_byte cfg (cfg.DYNAMIC_KEYMAP_MACRO_EEPROM_SIZE - 1) e = 0) :
    StaysInside cfg id e ↔ WholeOrLast cfg id e := by
  have hnone : cfg.DYNAMIC_KEYMAP_MACRO_COUNT ≤ id.toNat → consumed cfg id e = [] := by
    intro hid
    unfold consumed dynamic_keymap_macro_send
    rw [if_pos hid]
  unfold StaysInside WholeOrLast
  rw [and_iff_left ⟨fun hid => consumed_none cfg hid hlast, hnone⟩]
  refine forall_congr' fun hid => forall_congr' fun m => ?_
  by_cases htruncated : Truncated m.string
  · rw [imp_iff_right htruncated]
    by_cases hbehind : m.behind = []
    · refine iff_of_true ?_ hbehind
      have hnil := impl_reading cfg.send_string cfg.DYNAMIC_KEYMAP_MACRO_DELAY
        (⟨[], .whole, [], rfl, rfl⟩ : Reading [])
      rw [macro_consumed cfg hid hlast m, impl_truncated _ _ htruncated, hbehind, hnil,
        List.length_append]
      rfl
    · exact iff_of_false (consumed_truncated cfg hid hlast m htruncated hbehind) hbehind
  · rw [macro_consumed cfg hid hlast m, impl_whole _ _ m.nonzero htruncated]
    refine iff_of_true ?_ fun h => absurd h htruncated
    congr 1
    rw [List.length_append, List.length_cons]
    omega

end

theorem zero_le_byte : 0 ≤ 255 := by decide

theorem one_le_byte : 1 ≤ 255 := by decide

def oneKey : MacroConfig where
  DYNAMIC_KEYMAP_LAYER_COUNT := 1
  MATRIX_ROWS := 1
  MATRIX_COLS := 1
  NUM_ENCODERS := 0
  DYNAMIC_KEYMAP_EEPROM_ADDR := 0
  DYNAMIC_KEYMAP_EEPROM_MAX_ADDR := 102
  layers_le := one_le_byte
  rows_le := one_le_byte
  cols_le := one_le_byte
  encoders_le := zero_le_byte
  max_addr_le := by decide
  macros_fit := by decide
  DYNAMIC_KEYMAP_MACRO_COUNT := 16
  DYNAMIC_KEYMAP_MACRO_DELAY := 10
  send_string := ⟨fun _ _ => 0, false⟩

/-- Without macros a playback takes the null at the start. -/
theorem an_empty_macro_stays_inside : StaysInside oneKey 0 fun _ => 0 := by
  refine (macro_stays_inside_iff oneKey 0 (fun _ => 0) (by decide +kernel)).mpr ?_
  intro _ m htruncated
  -- a code in the string would be in the buffer
  obtain ⟨⟨pieces, tail, rest, hbytes, hmeets⟩, op, htail⟩ := htruncated
  dsimp only at htail
  subst htail
  have hmem : SS_QMK_PREFIX ∈ macro_bytes oneKey 0 fun _ => 0 := by
    rw [← m.bytes_eq, ← hbytes]
    simp [Tail.bytes]
  exact absurd hmem (by decide +kernel)

/-- The first macro is a tap without its keycode, the second one types an a. -/
def cutMacro : Eeprom := fun addr => if addr = 2 ∨ addr = 3 then 1 else if addr = 5 then 0x61 else 0

/-- The first macro types the a. -/
theorem a_cut_macro_runs_on : ¬ ∀ (cfg : MacroConfig) (id : UInt8) (e : Eeprom),
    dynamic_keymap_read_byte cfg (cfg.DYNAMIC_KEYMAP_MACRO_EEPROM_SIZE - 1) e = 0 →
      StaysInside cfg id e := by
  intro h
  have hlast : dynamic_keymap_read_byte oneKey (oneKey.DYNAMIC_KEYMAP_MACRO_EEPROM_SIZE - 1)
      cutMacro = 0 := by decide +kernel
  let m : MacroAt (macro_bytes oneKey 0 cutMacro) (0 : UInt8).toNat :=
    ⟨[], [1, 1], macro_bytes oneKey 3 cutMacro, rfl, List.forall_mem_nil _, by decide,
      by decide +kernel⟩
  refine consumed_truncated oneKey (by decide) hlast m ?_ ?_ ((h oneKey 0 cutMacro hlast).1
    (by decide) m)
  · exact ⟨⟨[], .cut .tap, [], rfl, rfl⟩, .tap, rfl⟩
  · exact List.ne_nil_of_length_pos (by rw [macro_bytes_length]; decide)

end keychron_qmk.dynamic_keymap
