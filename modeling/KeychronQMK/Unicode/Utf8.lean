-- The strings of Unicode characters, after `utf8.c` and `send_unicode_string` of
-- `unicode.c`, where a `char` has no sign. The decoder takes as many bytes as the
-- first one announces and does not look at the others, so it stays in the string
-- exactly if the announced lengths fill it.
import Mathlib.Data.List.Basic
import Mathlib.Order.Nat

namespace keychron_qmk.unicode

/-! ## Decoding -/

/-- The code point, where the next one starts, and the bytes that were read. -/
structure Decoded where
  code_point : Int
  next : Nat
  reads : List Nat

def bits (byte mask : UInt8) (shift : Nat) : Nat := (byte &&& mask).toNat <<< shift

section

variable (mem : Nat → UInt8)

def decode_bytes (str : Nat) : Decoded :=
  if mem str < 0x80 then ⟨(mem str).toNat, str + 1, [str]⟩
  else if mem str &&& 0xE0 = 0xC0 then
    ⟨(bits (mem str) 0x1F 6 ||| bits (mem (str + 1)) 0x3F 0 : Nat), str + 2, [str, str + 1]⟩
  else if mem str &&& 0xF0 = 0xE0 then
    ⟨(bits (mem str) 0x0F 12 ||| bits (mem (str + 1)) 0x3F 6 ||| bits (mem (str + 2)) 0x3F 0 : Nat),
      str + 3, [str, str + 1, str + 2]⟩
  else if mem str &&& 0xF8 = 0xF0 ∧ mem str ≤ 0xF4 then
    ⟨(bits (mem str) 0x07 18 ||| bits (mem (str + 1)) 0x3F 12 ||| bits (mem (str + 2)) 0x3F 6 |||
        bits (mem (str + 3)) 0x3F 0 : Nat), str + 4, [str, str + 1, str + 2, str + 3]⟩
  else ⟨-1, str + 1, [str]⟩

def decode_utf8 (str : Nat) : Decoded :=
  let d := decode_bytes mem str
  -- part of a UTF-16 surrogate pair
  if 0xD800 ≤ d.code_point ∧ d.code_point ≤ 0xDFFF then { d with code_point := -1 } else d

/-! ## Sending -/

/-- The calls of `register_unicode`, the bytes that were read, and where the string
ended. -/
structure Sent where
  code_points : List UInt32
  reads : List Nat
  terminator : Option Nat

def send_from : Nat → Nat → Option Sent
  | 0, _ => none
  | turns + 1, str =>
    if mem str = 0 then some ⟨[], [str], some str⟩
    else
      let d := decode_utf8 mem str
      (send_from turns d.next).map fun sent =>
        { sent with
          code_points := (if 0 ≤ d.code_point then [.ofNat d.code_point.toNat] else []) ++
            sent.code_points
          reads := str :: d.reads ++ sent.reads }

/-- `NULL` is `none`. -/
def send_unicode_string (turns : Nat) : Option Nat → Option Sent
  | none => some ⟨[], [], none⟩
  | some str => send_from mem turns str

end

/-! ## Announced lengths -/

def announced (first : UInt8) : Nat :=
  if first < 0x80 then 1
  else if first &&& 0xE0 = 0xC0 then 2
  else if first &&& 0xF0 = 0xE0 then 3
  else if first &&& 0xF8 = 0xF0 ∧ first ≤ 0xF4 then 4
  else 1

/-- The bytes that are announced behind the end of the string, with so many owed
before it. -/
def owed : Nat → List UInt8 → Nat
  | owing, [] => owing
  | 0, first :: bytes => owed (announced first - 1) bytes
  | owing + 1, _ :: bytes => owed owing bytes

/-- A string in the memory, with the terminator. -/
structure Terminated (mem : Nat → UInt8) (str : Nat) (bytes : List UInt8) : Prop where
  byte : ∀ i b, bytes[i]? = some b → mem (str + i) = b ∧ b ≠ 0
  nul : mem (str + bytes.length) = 0

def StaysInside (mem : Nat → UInt8) (str : Nat) (bytes : List UInt8) : Prop :=
  ∃ turns sent, send_unicode_string mem turns (some str) = some sent ∧
    sent.terminator = some (str + bytes.length) ∧ ∀ r ∈ sent.reads, r ≤ str + bytes.length

section

variable {mem : Nat → UInt8} {str : Nat} {bytes : List UInt8}

theorem announced_pos (first : UInt8) : 0 < announced first := by
  unfold announced
  split_ifs <;> omega

theorem decode_next (mem : Nat → UInt8) (str : Nat) :
    (decode_utf8 mem str).next = str + announced (mem str) ∧
      (decode_utf8 mem str).reads = List.range' str (announced (mem str)) := by
  have hbytes : (decode_bytes mem str).next = str + announced (mem str) ∧
      (decode_bytes mem str).reads = List.range' str (announced (mem str)) := by
    unfold decode_bytes announced
    split_ifs <;> exact ⟨rfl, rfl⟩
  unfold decode_utf8
  dsimp only
  split_ifs <;> exact hbytes

variable {owing turns : Nat}

theorem owed_of_le (h : owing ≤ bytes.length) : owed owing bytes = owed 0 (bytes.drop owing) := by
  induction bytes generalizing owing with
  | nil =>
    rw [Nat.le_zero.mp h]
    rfl
  | cons first bytes ih =>
    cases owing with
    | zero => rfl
    | succ owing => exact ih (Nat.le_of_succ_le_succ h)

theorem owed_of_lt (h : bytes.length < owing) : owed owing bytes ≠ 0 := by
  induction bytes generalizing owing with
  | nil => exact h.ne'
  | cons first bytes ih =>
    cases owing with
    | zero => exact absurd h (Nat.not_lt_zero _)
    | succ owing => exact ih (Nat.lt_of_succ_lt_succ h)

theorem Terminated.drop (h : Terminated mem str bytes) {n : Nat} (hn : n ≤ bytes.length) :
    Terminated mem (str + n) (bytes.drop n) := by
  constructor
  · intro i b hb
    rw [List.getElem?_drop] at hb
    rw [Nat.add_assoc]
    exact h.byte (n + i) b hb
  · rw [List.length_drop, Nat.add_assoc, Nat.add_sub_cancel' hn]
    exact h.nul

theorem Terminated.first {first : UInt8} (h : Terminated mem str (first :: bytes)) :
    mem str = first ∧ mem str ≠ 0 := by
  obtain ⟨heq, hne⟩ := h.byte 0 first rfl
  exact ⟨heq, heq.symm ▸ hne⟩

theorem terminated_getD (h : 0 ∉ bytes) : Terminated (fun i => bytes.getD i 0) 0 bytes := by
  constructor
  · intro i b hb
    rw [Nat.zero_add, List.getD_eq_getElem?_getD, hb]
    refine ⟨rfl, fun hzero => h ?_⟩
    rw [← hzero]
    exact List.mem_of_getElem? hb
  · rw [Nat.zero_add, List.getD_eq_getElem?_getD, List.getElem?_eq_none le_rfl]
    rfl

theorem send_turn (hne : mem str ≠ 0) (turns : Nat) :
    send_from mem (turns + 1) str = (send_from mem turns (str + announced (mem str))).map fun sent =>
      { sent with
        code_points := (if 0 ≤ (decode_utf8 mem str).code_point then
          [.ofNat (decode_utf8 mem str).code_point.toNat] else []) ++ sent.code_points
        reads := str :: List.range' str (announced (mem str)) ++ sent.reads } := by
  obtain ⟨hnext, hreads⟩ := decode_next mem str
  conv_lhs => unfold send_from
  rw [if_neg hne]
  dsimp only
  rw [hnext, hreads]

/-- Where the announced lengths fill the string, the loop ends at the terminator. -/
theorem send_of_filled (h : Terminated mem str bytes) (howed : owed 0 bytes = 0)
    (hturns : bytes.length < turns) : ∃ sent, send_from mem turns str = some sent ∧
      sent.terminator = some (str + bytes.length) ∧ ∀ r ∈ sent.reads, r ≤ str + bytes.length := by
  induction turns generalizing str bytes with
  | zero => exact absurd hturns (Nat.not_lt_zero _)
  | succ turns ih =>
    cases bytes with
    | nil =>
      refine ⟨⟨[], [str], some str⟩, ?_, rfl, List.forall_mem_singleton.mpr le_rfl⟩
      exact if_pos h.nul
    | cons first bytes =>
      obtain ⟨hfirst, hne⟩ := h.first
      have hpos := announced_pos first
      have hlength : announced first ≤ (first :: bytes).length := by
        by_contra hlong
        rw [List.length_cons] at hlong
        exact owed_of_lt (by omega : bytes.length < announced first - 1) howed
      have hdrop : owed 0 ((first :: bytes).drop (announced first)) = 0 := by
        obtain ⟨n, hn⟩ := Nat.exists_eq_succ_of_ne_zero hpos.ne'
        rw [hn] at hlength ⊢
        rw [List.drop_succ_cons, ← owed_of_le (Nat.le_of_succ_le_succ hlength)]
        rw [owed, hn] at howed
        exact howed
      obtain ⟨sent, hsent, hend, hreads⟩ := ih (h.drop hlength) hdrop (by
        rw [List.length_drop]
        omega)
      have htotal : str + announced first + ((first :: bytes).drop (announced first)).length =
          str + (first :: bytes).length := by
        rw [List.length_drop]
        omega
      rw [htotal] at hend hreads
      rw [send_turn hne, hfirst, hsent]
      refine ⟨_, rfl, hend, List.forall_mem_append.mpr ⟨?_, hreads⟩⟩
      refine List.forall_mem_cons.mpr ⟨Nat.le_add_right _ _, fun r hr => ?_⟩
      have := (List.mem_range'_1.mp hr).2
      omega

/-- Where they run over its end, the loop goes on behind the terminator. -/
theorem send_of_cut (h : Terminated mem str bytes) (howed : owed 0 bytes ≠ 0) {sent : Sent}
    (hsent : send_from mem turns str = some sent) : ∃ r ∈ sent.reads, str + bytes.length < r := by
  induction turns generalizing str bytes sent with
  | zero => cases hsent
  | succ turns ih =>
    cases bytes with
    | nil => exact absurd rfl howed
    | cons first bytes =>
      obtain ⟨hfirst, hne⟩ := h.first
      rw [send_turn hne, hfirst, Option.map_eq_some_iff] at hsent
      obtain ⟨rest, hrest, rfl⟩ := hsent
      have hpos := announced_pos first
      obtain ⟨n, hn⟩ := Nat.exists_eq_succ_of_ne_zero hpos.ne'
      by_cases hlength : announced first ≤ (first :: bytes).length
      · have hdrop : owed 0 ((first :: bytes).drop (announced first)) ≠ 0 := by
          rw [hn] at hlength ⊢
          rw [List.drop_succ_cons, ← owed_of_le (Nat.le_of_succ_le_succ hlength)]
          rw [owed, hn] at howed
          exact howed
        obtain ⟨r, hr, hlt⟩ := ih (h.drop hlength) hdrop hrest
        refine ⟨r, List.mem_append_right _ hr, ?_⟩
        rw [List.length_drop] at hlt
        omega
      · -- the next turn looks for the terminator behind it
        refine ⟨str + announced first, List.mem_append_right _ ?_, by omega⟩
        cases turns with
        | zero => cases hrest
        | succ turns =>
          by_cases hnul : mem (str + announced first) = 0
          · unfold send_from at hrest
            rw [if_pos hnul] at hrest
            rw [← Option.some.inj hrest]
            exact List.mem_cons_self
          · rw [send_turn hnul, Option.map_eq_some_iff] at hrest
            obtain ⟨rest', -, rfl⟩ := hrest
            exact List.mem_cons_self

end

/-- A string is sent up to its terminator, and no byte behind it is read, exactly if
the lengths that its bytes announce fill it. -/
theorem stays_inside_iff (mem : Nat → UInt8) (str : Nat) (bytes : List UInt8)
    (h : Terminated mem str bytes) : StaysInside mem str bytes ↔ owed 0 bytes = 0 := by
  constructor
  · rintro ⟨turns, sent, hsent, -, hreads⟩
    by_contra howed
    obtain ⟨r, hr, hlt⟩ := send_of_cut h howed hsent
    exact absurd (hreads r hr) (Nat.not_le_of_lt hlt)
  · intro howed
    obtain ⟨sent, hsent, hend, hreads⟩ := send_of_filled h howed (Nat.lt_succ_self _)
    exact ⟨bytes.length + 1, sent, hsent, hend, hreads⟩

theorem a_whole_character_stays_inside :
    StaysInside (fun i => [0xC3, 0xA9].getD i 0) 0 [0xC3, 0xA9] :=
  (stays_inside_iff _ 0 _ (terminated_getD (by decide))).mpr (by decide)

/-- Half a character takes the terminator for its other half. -/
theorem half_a_character_runs_over :
    ¬ ∀ mem str bytes, Terminated mem str bytes → StaysInside mem str bytes := by
  intro h
  have hterminated : Terminated (fun i => [0xC3].getD i 0) 0 [0xC3] := terminated_getD (by decide)
  obtain ⟨turns, sent, hsent, -, hreads⟩ := h _ 0 [0xC3] hterminated
  obtain ⟨r, hr, hlt⟩ := send_of_cut hterminated (by decide) hsent
  exact absurd (hreads r hr) (Nat.not_le_of_lt hlt)

end keychron_qmk.unicode
