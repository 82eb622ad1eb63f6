-- The macros that `_generate_macros_function` of `lib/python/qmk/keymap.py` writes: the
-- texts as string literals, the actions as SS_ calls, and literals merged where two quotes
-- stand side by side, which may be an escaped one and the end of its literal.
import KeychronQMK.KeymapC.Generate
import Mathlib.Data.List.Basic

namespace keychron_qmk.keymap_c

open replacement

/-! ## The code -/

def is_identifier (c : Char) : Bool := c.isAlphanum || c = '_'

/-- The name of a basic keycode, without `KC_`. -/
structure keycode where
  name : str
  identifier : name.all is_identifier = true

inductive macro_fragment where
  | text (s : str)
  | delay (duration : Nat)
  | beep
  | tap (keycodes : List keycode)
  | down (keycodes : List keycode)
  | up (keycodes : List keycode)

def escape_text (s : str) : str :=
  let s := replace ['\\'] ['\\', '\\'] s
  let s := replace ['\r', '\n'] ['\\', 'n'] s
  let s := replace ['\n'] ['\\', 'n'] s
  let s := replace ['\r'] ['\\', 'n'] s
  let s := replace ['\t'] ['\\', 't'] s
  replace ['\"'] ['\\', '\"'] s

def key_call (action : str) (keycode : keycode) : str :=
  "SS_".toList ++ action ++ "(X_".toList ++ keycode.name ++ ")".toList

def fragment_text : macro_fragment → str
  | .text s => '\"' :: (escape_text s ++ ['\"'])
  | .delay duration => "SS_DELAY(".toList ++ digits duration ++ ")".toList
  | .beep => "\"\\a\"".toList
  | .tap keycodes =>
    if 1 < keycodes.length then
      keycodes.dropLast.flatMap (key_call "DOWN".toList) ++
        keycodes.getLast?.toList.flatMap (key_call "TAP".toList) ++
        keycodes.dropLast.reverse.flatMap (key_call "UP".toList)
    else keycodes.flatMap (key_call "TAP".toList)
  | .down keycodes => keycodes.flatMap (key_call "DOWN".toList)
  | .up keycodes => keycodes.flatMap (key_call "UP".toList)

/-- Two quotes side by side are removed. -/
def merge_quotes (s : str) : str := replace ['\"', '\"'] [] s

def send_string_argument (fragments : List macro_fragment) : str :=
  merge_quotes (fragments.flatMap fragment_text)

def case_line (i : Nat) : str := "            case QK_MACRO_".toList ++ digits i ++ ":".toList

def send_string_line (argument : str) : str :=
  "                SEND_STRING(".toList ++ argument ++ ");".toList

def macro_lines (fragments : List macro_fragment × Nat) : List str :=
  [case_line fragments.2, send_string_line (send_string_argument fragments.1),
    "                return false;".toList]

def generate_macros_function (macros : List (List macro_fragment)) : List str :=
  ["bool process_record_user(uint16_t keycode, keyrecord_t *record) \x7b".toList,
    "    if (record->event.pressed) \x7b".toList, "        switch (keycode) \x7b".toList] ++
  macros.zipIdx.flatMap macro_lines ++
  ["        \x7d".toList, "    \x7d".toList, "\n    return true;".toList, "\x7d;".toList, [] ]

/-! ## What the argument denotes -/

inductive action where
  | tap (keycode : keycode)
  | down (keycode : keycode)
  | up (keycode : keycode)
  | delay (ms : Nat)

/-- What is typed: a character, or what an SS_ call does. -/
inductive typed where
  | char (c : Char)
  | action (a : action)

/-- The simple escapes of C, without numbers. -/
def unescape : Char → Option Char
  | 'n' => some '\n'
  | 't' => some '\t'
  | 'r' => some '\r'
  | 'a' => some '\x07'
  | 'b' => some '\x08'
  | 'f' => some '\x0c'
  | 'v' => some '\x0b'
  | '\\' => some '\\'
  | '\"' => some '\"'
  | '\'' => some '\''
  | '?' => some '?'
  | _ => none

def keycode_of (name : str) : Option keycode :=
  if h : name.all is_identifier = true then some ⟨name, h⟩ else none

/-- What an SS_ call does, which is read up to its closing bracket. -/
def parse_call : str → Option action
  | 'S' :: 'S' :: '_' :: 'T' :: 'A' :: 'P' :: '(' :: 'X' :: '_' :: name =>
    (keycode_of name).map .tap
  | 'S' :: 'S' :: '_' :: 'D' :: 'O' :: 'W' :: 'N' :: '(' :: 'X' :: '_' :: name =>
    (keycode_of name).map .down
  | 'S' :: 'S' :: '_' :: 'U' :: 'P' :: '(' :: 'X' :: '_' :: name => (keycode_of name).map .up
  | 'S' :: 'S' :: '_' :: 'D' :: 'E' :: 'L' :: 'A' :: 'Y' :: '(' :: ms =>
    if ms ≠ [] ∧ ms.all Char.isDigit then some (.delay (Nat.ofDigitChars 10 ms 0)) else none
  | _ => none

/-- Where the reader is: between two tokens, in a literal, behind a backslash in it, or in
an SS_ call of which some characters are read. -/
inductive mode where
  | outside
  | inside
  | escaped
  | call (read : str)

/-- The literals and SS_ calls of an expression, as the C compiler reads them. -/
def decode : mode → str → Option (List typed)
  | .outside, [] => some []
  | .inside, [] | .escaped, [] | .call _, [] => none
  | .outside, c :: s => if c = '\"' then decode .inside s else decode (.call [c]) s
  | .inside, c :: s =>
    if c = '\"' then decode .outside s
    else if c = '\\' then decode .escaped s
    else if c = '\n' then none
    else (decode .inside s).map (.char c :: ·)
  | .escaped, c :: s => (unescape c).bind fun d => (decode .inside s).map (.char d :: ·)
  | .call read, c :: s =>
    if c = ')' then (parse_call read).bind fun a => (decode .outside s).map (.action a :: ·)
    else decode (.call (read ++ [c])) s

/-- An expression of literals and SS_ calls, of which there is one at least. -/
def Denotes (argument : str) (what : List typed) : Prop :=
  argument ≠ [] ∧ decode .outside argument = some what

/-- The end of a line, however it is written, as a newline. -/
def line_breaks : str → str
  | [] => []
  | '\r' :: '\n' :: s => '\n' :: line_breaks s
  | '\r' :: s => '\n' :: line_breaks s
  | c :: s => c :: line_breaks s

def chord (keycodes : List keycode) : List action :=
  keycodes.dropLast.map .down ++ keycodes.getLast?.toList.map .tap ++
    keycodes.dropLast.reverse.map .up

def fragment_actions : macro_fragment → List typed
  | .text s => (line_breaks s).map .char
  | .delay duration => [.action (.delay duration)]
  | .beep => [.char '\x07']
  | .tap keycodes => (chord keycodes).map .action
  | .down keycodes => (keycodes.map action.down).map .action
  | .up keycodes => (keycodes.map action.up).map .action

/-! ## The text of a literal -/

/-- A character of a literal: one that stands for itself, or an escape. -/
inductive unit_t where
  | plain (c : Char) (ordinary : c ≠ '\"' ∧ c ≠ '\\' ∧ c ≠ '\n')
  | escape (letter value : Char) (known : unescape letter = some value)

def unit_t.src : unit_t → str
  | .plain c _ => [c]
  | .escape letter _ _ => ['\\', letter]

def unit_t.value : unit_t → Char
  | .plain c _ => c
  | .escape _ value _ => value

/-- The unit of a character without a carriage return. -/
def unit_of (c : Char) : unit_t :=
  if hslash : c = '\\' then .escape '\\' '\\' rfl
  else if hline : c = '\n' then .escape 'n' '\n' rfl
  else if c = '\t' then .escape 't' '\t' rfl
  else if hquote : c = '\"' then .escape '\"' '\"' rfl
  else .plain c ⟨hquote, hslash, hline⟩

theorem unit_of_value (c : Char) : (unit_of c).value = c := by
  unfold unit_of
  split_ifs with h h h h
  · exact h.symm
  · exact h.symm
  · exact h.symm
  · exact h.symm
  · rfl

/-- The replacements behind the first two, each of one letter. -/
def escape_letters (s : str) : str :=
  replace ['\"'] ['\\', '\"'] (replace ['\t'] ['\\', 't'] (replace ['\r'] ['\\', 'n']
    (replace ['\n'] ['\\', 'n'] s)))

variable {c : Char}

theorem escape_letters_cons (hc : c ≠ '\\') (s : str) : escape_letters (c :: s) =
    (unit_of (if c = '\r' then '\n' else c)).src ++ escape_letters s := by
  unfold escape_letters unit_of
  simp only [replace_letter, List.flatMap_cons, List.flatMap_append]
  by_cases hnewline : c = '\n'
  · subst hnewline
    rfl
  by_cases hreturn : c = '\r'
  · subst hreturn
    rfl
  by_cases htab : c = '\t'
  · subst htab
    rfl
  by_cases hquote : c = '\"'
  · subst hquote
    rfl
  · simp [hc, hnewline, hreturn, htab, hquote, unit_t.src]

theorem escape_text_return_newline (s : str) :
    escape_text ('\r' :: '\n' :: s) = '\\' :: 'n' :: escape_text s := by
  rfl

variable {s a : str}

theorem escape_text_cons (hc : c = '\r' → ¬ ['\n'] <+: s) :
    escape_text (c :: s) = (unit_of (if c = '\r' then '\n' else c)).src ++ escape_text s := by
  change escape_letters (replace ['\r', '\n'] ['\\', 'n'] (replace ['\\'] ['\\', '\\'] _)) =
    _ ++ escape_letters (replace ['\r', '\n'] ['\\', 'n'] (replace ['\\'] ['\\', '\\'] s))
  rw [replace_letter _ '\\', List.flatMap_cons, ← replace_letter]
  by_cases hslash : c = '\\'
  · subst hslash
    rfl
  · -- No line break begins with the character behind the first replacement either.
    have hbreak : ¬ ['\r', '\n'] <+: c :: replace ['\\'] ['\\', '\\'] s := by
      intro h
      rw [List.cons_prefix_cons] at h
      refine hc h.1.symm ?_
      have hnext := h.2
      cases s with
      | nil => exact absurd hnext (by decide)
      | cons d s =>
        rw [replace_letter, List.flatMap_cons] at hnext
        split at hnext
        · exact absurd (List.cons_prefix_cons.mp hnext).1 (by decide)
        · exact List.cons_prefix_cons.mpr ⟨(List.cons_prefix_cons.mp hnext).1, List.nil_prefix⟩
    rw [if_neg hslash, List.singleton_append, replace_cons _ hbreak, escape_letters_cons hslash]

theorem escape_text_eq (s : str) :
    escape_text s = (line_breaks s).flatMap fun c => (unit_of c).src := by
  induction s using line_breaks.induct with
  | case1 => rfl
  | case2 s ih =>
    rw [escape_text_return_newline, ih, line_breaks, List.flatMap_cons]
    rfl
  | case3 s hnext ih =>
    rw [escape_text_cons, ih, line_breaks, List.flatMap_cons, if_pos rfl]
    · exact hnext
    · rintro - ⟨t, rfl⟩
      exact hnext t rfl
  | case4 c s hpair hreturn ih =>
    rw [escape_text_cons, ih, line_breaks, List.flatMap_cons, if_neg hreturn]
    · exact hpair
    · exact hreturn
    · exact fun h => absurd h hreturn

/-! ## The quotes of a text -/

theorem merge_pair (s : str) : merge_quotes ('\"' :: '\"' :: s) = merge_quotes s :=
  replace_append [] (List.cons_ne_nil '\"' ['\"']) s

theorem merge_plain (hc : c ≠ '\"') (s : str) : merge_quotes (c :: s) = c :: merge_quotes s :=
  replace_cons [] fun h => hc (List.cons_prefix_cons.mp h).1.symm

theorem merge_quote (hs : ¬ ['\"'] <+: s) : merge_quotes ('\"' :: s) = '\"' :: merge_quotes s :=
  replace_cons [] fun h => hs (List.cons_prefix_cons.mp h).2

theorem merge_append (ha : '\"' ∉ a) (s : str) : merge_quotes (a ++ s) = a ++ merge_quotes s := by
  induction a with
  | nil => rfl
  | cons c a ih =>
    rw [List.cons_append, merge_plain (fun h => ha (h ▸ List.mem_cons_self)),
      ih (fun h => ha (List.mem_cons_of_mem c h)), List.cons_append]

/-! ## The actions -/

def action.src : action → str
  | .tap keycode => key_call "TAP".toList keycode
  | .down keycode => key_call "DOWN".toList keycode
  | .up keycode => key_call "UP".toList keycode
  | .delay ms => "SS_DELAY(".toList ++ digits ms ++ ")".toList

theorem keycode_of_name (keycode : keycode) : keycode_of keycode.name = some keycode :=
  dif_pos keycode.identifier

theorem parse_tap (keycode : keycode) :
    parse_call ("SS_TAP(X_".toList ++ keycode.name) = some (.tap keycode) := by
  have hcall : ∀ name : str, parse_call ("SS_TAP(X_".toList ++ name) =
      (keycode_of name).map .tap := fun name => rfl
  rw [hcall, keycode_of_name, Option.map_some]

theorem parse_down (keycode : keycode) :
    parse_call ("SS_DOWN(X_".toList ++ keycode.name) = some (.down keycode) := by
  have hcall : ∀ name : str, parse_call ("SS_DOWN(X_".toList ++ name) =
      (keycode_of name).map .down := fun name => rfl
  rw [hcall, keycode_of_name, Option.map_some]

theorem parse_up (keycode : keycode) :
    parse_call ("SS_UP(X_".toList ++ keycode.name) = some (.up keycode) := by
  have hcall : ∀ name : str, parse_call ("SS_UP(X_".toList ++ name) =
      (keycode_of name).map .up := fun name => rfl
  rw [hcall, keycode_of_name, Option.map_some]

theorem parse_delay (ms : Nat) :
    parse_call ("SS_DELAY(".toList ++ digits ms) = some (.delay ms) := by
  have hcall : ∀ s : str, parse_call ("SS_DELAY(".toList ++ s) =
      if s ≠ [] ∧ s.all Char.isDigit then some (.delay (Nat.ofDigitChars 10 s 0)) else none :=
    fun s => rfl
  have hdigits : (digits ms).all Char.isDigit = true :=
    List.all_eq_true.mpr fun c hc => Nat.isDigit_of_mem_toDigits (by decide) (by decide) hc
  rw [hcall, if_pos ⟨Nat.toDigits_ne_nil, hdigits⟩, digits, Nat.ofDigitChars_ten_toDigits]

/-- A character that ends neither a call nor a literal. -/
def inner (c : Char) : Bool := c ≠ ')' && c ≠ '\"'

theorem inner_identifier (hc : is_identifier c = true) : inner c = true := by
  by_contra hnot
  rw [inner, Bool.and_eq_true, decide_eq_true_eq, decide_eq_true_eq, not_and_or, not_not,
    not_not] at hnot
  rcases hnot with rfl | rfl
  · exact absurd hc Bool.false_ne_true
  · exact absurd hc Bool.false_ne_true

theorem inner_digit (hc : c.isDigit = true) : inner c = true :=
  inner_identifier (by simp [is_identifier, Char.isAlphanum, hc])

theorem action_src (a : action) : ∃ read, a.src = 'S' :: read ++ [')'] ∧
    read.all inner = true ∧ parse_call ('S' :: read) = some a := by
  have hname : ∀ (before : str) (keycode : keycode), before.all inner = true →
      (before ++ keycode.name).all inner = true := by
    intro before keycode hbefore
    rw [List.all_append, hbefore, Bool.true_and]
    refine List.all_eq_true.mpr fun c hc => inner_identifier ?_
    exact List.all_eq_true.mp keycode.identifier c hc
  cases a with
  | tap keycode =>
    exact ⟨"S_TAP(X_".toList ++ keycode.name, rfl, hname _ keycode rfl, parse_tap keycode⟩
  | down keycode =>
    exact ⟨"S_DOWN(X_".toList ++ keycode.name, rfl, hname _ keycode rfl, parse_down keycode⟩
  | up keycode =>
    exact ⟨"S_UP(X_".toList ++ keycode.name, rfl, hname _ keycode rfl, parse_up keycode⟩
  | delay ms =>
    refine ⟨"S_DELAY(".toList ++ digits ms, rfl, ?_, parse_delay ms⟩
    have hname : "S_DELAY(".toList.all inner = true := rfl
    rw [List.all_append, hname, Bool.true_and]
    refine List.all_eq_true.mpr fun c hc => inner_digit ?_
    exact Nat.isDigit_of_mem_toDigits (by decide) (by decide) hc

theorem decode_call {a : str} (ha : ')' ∉ a) (read s : str) :
    decode (.call read) (a ++ ')' :: s) =
      (parse_call (read ++ a)).bind fun b => (decode .outside s).map (.action b :: ·) := by
  induction a generalizing read with
  | nil => rw [List.nil_append, decode, if_pos rfl, List.append_nil]
  | cons c a ih =>
    rw [List.mem_cons, not_or] at ha
    rw [List.cons_append, decode, if_neg fun h => ha.1 h.symm, ih ha.2, List.append_assoc,
      List.singleton_append]

theorem decode_action (a : action) (s : str) :
    decode .outside (a.src ++ s) = (decode .outside s).map (.action a :: ·) := by
  obtain ⟨read, hsrc, hread, hparse⟩ := action_src a
  rw [hsrc, List.append_assoc, List.singleton_append, List.cons_append, decode, if_neg (by decide),
    decode_call fun h => absurd (List.all_eq_true.mp hread _ h) (by decide),
    List.singleton_append, hparse, Option.bind_some]

theorem decode_actions (actions : List action) (s : str) :
    decode .outside (actions.flatMap action.src ++ s) =
      (decode .outside s).map (actions.map .action ++ ·) := by
  induction actions with
  | nil => simp
  | cons a actions ih =>
    rw [List.flatMap_cons, List.append_assoc, decode_action, ih, Option.map_map]
    rfl

theorem quote_not_mem_action (a : action) : '\"' ∉ a.src := by
  obtain ⟨read, hsrc, hread, -⟩ := action_src a
  rw [hsrc]
  intro h
  rcases List.mem_append.mp h with h | h
  · rcases List.mem_cons.mp h with h | h
    · exact absurd h (by decide)
    · exact absurd (List.all_eq_true.mp hread _ h) (by decide)
  · exact absurd h (by decide)

theorem quote_not_mem_actions (actions : List action) : '\"' ∉ actions.flatMap action.src := by
  intro h
  obtain ⟨a, -, ha⟩ := List.mem_flatMap.mp h
  exact quote_not_mem_action a ha

/-! ## Pieces -/

/-- What a fragment gives: one literal, or calls. -/
inductive piece where
  | literal (units : List unit_t)
  | calls (actions : List action)

def piece.src : piece → str
  | .literal units => '\"' :: (units.flatMap unit_t.src ++ ['\"'])
  | .calls actions => actions.flatMap action.src

def piece.typed : piece → List typed
  | .literal units => units.map fun u => .char u.value
  | .calls actions => actions.map .action

/-- Text comes next, behind what gives nothing. -/
def Continued : List piece → Prop
  | [] => False
  | .literal [] :: pieces => Continued pieces
  | .literal (_ :: _) :: _ => True
  | .calls [] :: pieces => Continued pieces
  | .calls (_ :: _) :: _ => False

def EndsInQuote (units : List unit_t) : Prop :=
  units.getLast?.map unit_t.src = some ['\\', '\"']

def Fits : List piece → Prop
  | [] => True
  | .literal units :: pieces => (EndsInQuote units → Continued pieces) ∧ Fits pieces
  | .calls _ :: pieces => Fits pieces

theorem unit_src_cons (u : unit_t) : ∃ c s, u.src = c :: s ∧ c ≠ '\"' := by
  cases u with
  | plain c ordinary => exact ⟨c, [], rfl, ordinary.1⟩
  | escape letter value known => exact ⟨'\\', [letter], rfl, by decide⟩

/-- The reading of a merged text, from between two tokens, from the end of a literal, and
from a backslash that has lost its quote. -/
structure Reads (pieces : List piece) : Prop where
  outside : ∀ what, decode .outside (merge_quotes (pieces.flatMap piece.src)) = some what ↔
    Fits pieces ∧ what = pieces.flatMap piece.typed
  closing : ∀ what, decode .inside (merge_quotes ('\"' :: pieces.flatMap piece.src)) = some what ↔
    Fits pieces ∧ what = pieces.flatMap piece.typed
  escaped : ∀ what, decode .escaped (merge_quotes (pieces.flatMap piece.src)) = some what ↔
    Continued pieces ∧ Fits pieces ∧ what = .char '\"' :: pieces.flatMap piece.typed

theorem Reads.nil : Reads [] where
  outside what := by
    rw [List.flatMap_nil, merge_quotes, replace_nil, decode]
    simp [Fits, eq_comm]
  closing what := by
    rw [List.flatMap_nil, merge_quote (by decide), merge_quotes, replace_nil, decode, if_pos rfl,
      decode]
    simp [Fits, eq_comm]
  escaped what := by
    rw [List.flatMap_nil, merge_quotes, replace_nil, decode]
    simp [Continued]

theorem decode_unit (u : unit_t) (hs : u.src = ['\\', '\"'] → ¬ ['\"'] <+: s) :
    decode .inside (merge_quotes (u.src ++ s)) =
      (decode .inside (merge_quotes s)).map (.char u.value :: ·) := by
  cases u with
  | plain c ordinary =>
    obtain ⟨hquote, hslash, hnewline⟩ := ordinary
    rw [unit_t.src, List.singleton_append, merge_plain hquote, decode, if_neg hquote, if_neg hslash,
      if_neg hnewline, unit_t.value]
  | escape letter value known =>
    have hletter : merge_quotes (letter :: s) = letter :: merge_quotes s := by
      by_cases hquote : letter = '\"'
      · subst hquote
        exact merge_quote (hs rfl)
      · exact merge_plain hquote s
    rw [unit_t.src, List.cons_append, List.singleton_append, merge_plain (by decide), hletter,
      decode, if_neg (by decide), if_pos rfl, decode, known, Option.bind_some, unit_t.value]

theorem quote_value {u : unit_t} (h : u.src = ['\\', '\"']) : u.value = '\"' := by
  cases u with
  | plain c ordinary => cases h
  | escape letter value known =>
    obtain rfl : letter = '\"' := by simpa [unit_t.src] using h
    exact (Option.some.inj known).symm

variable {pieces : List piece}

/-- The rest of a literal and what follows. -/
theorem Reads.literal (h : Reads pieces) (units : List unit_t) (what : List typed) :
    decode .inside (merge_quotes (units.flatMap unit_t.src ++ '\"' :: pieces.flatMap piece.src)) =
        some what ↔
      (EndsInQuote units → Continued pieces) ∧ Fits pieces ∧
        what = (piece.literal units).typed ++ pieces.flatMap piece.typed := by
  induction units generalizing what with
  | nil =>
    rw [List.flatMap_nil, List.nil_append, h.closing]
    simp [EndsInQuote, piece.typed]
  | cons u units ih =>
    rw [List.flatMap_cons, List.append_assoc]
    cases units with
    | nil =>
      by_cases hquote : u.src = ['\\', '\"']
      · -- The escaped quote and the end of the literal are removed.
        rw [hquote, List.flatMap_nil, List.nil_append, List.cons_append, List.singleton_append,
          merge_plain (by decide), merge_pair, decode, if_neg (by decide), if_pos rfl, h.escaped]
        simp [EndsInQuote, piece.typed, hquote, quote_value hquote]
      · rw [decode_unit u fun h => absurd h hquote, Option.map_eq_some_iff]
        simp only [ih]
        simp [EndsInQuote, piece.typed, hquote, @eq_comm _ what]
    | cons v units =>
      obtain ⟨c, s, hsrc, hc⟩ := unit_src_cons v
      rw [decode_unit u, Option.map_eq_some_iff]
      · simp only [ih]
        simp [EndsInQuote, piece.typed, List.getLast?_cons_cons, eq_comm, and_assoc]
      · intro _ hprefix
        rw [List.flatMap_cons, hsrc] at hprefix
        exact hc (List.cons_prefix_cons.mp hprefix).1.symm

theorem literal_src (units : List unit_t) (s : str) :
    (piece.literal units).src ++ s = '\"' :: (units.flatMap unit_t.src ++ '\"' :: s) := by
  rw [piece.src, List.cons_append, List.append_assoc, List.singleton_append]

theorem not_quote_prefix {u : unit_t} : ¬ ['\"'] <+: u.src ++ s := by
  obtain ⟨c, t, hsrc, hc⟩ := unit_src_cons u
  rw [hsrc]
  exact fun h => hc (List.cons_prefix_cons.mp h).1.symm

theorem Reads.cons_literal (h : Reads pieces) (units : List unit_t) :
    Reads (.literal units :: pieces) := by
  cases units with
  | nil =>
    have hsrc : (piece.literal [] :: pieces).flatMap piece.src =
        '\"' :: '\"' :: pieces.flatMap piece.src := rfl
    constructor
    · intro what
      rw [hsrc, merge_pair, h.outside]
      simp [Fits, EndsInQuote, piece.typed]
    · intro what
      rw [hsrc, merge_pair, h.closing]
      simp [Fits, EndsInQuote, piece.typed]
    · intro what
      rw [hsrc, merge_pair, h.escaped]
      simp [Fits, Continued, EndsInQuote, piece.typed]
  | cons u units =>
    have hrest := h.literal (u :: units)
    have hopen : merge_quotes ((piece.literal (u :: units) :: pieces).flatMap piece.src) =
        '\"' :: merge_quotes
          ((u :: units).flatMap unit_t.src ++ '\"' :: pieces.flatMap piece.src) := by
      rw [List.flatMap_cons, literal_src]
      refine merge_quote ?_
      rw [List.flatMap_cons, List.append_assoc]
      exact not_quote_prefix
    constructor
    · intro what
      rw [hopen, decode, if_pos rfl, hrest]
      simp [Fits, and_assoc]
    · intro what
      rw [List.flatMap_cons, literal_src, merge_pair, hrest]
      simp [Fits, and_assoc]
    · intro what
      rw [hopen, decode, unescape, Option.bind_some, Option.map_eq_some_iff]
      simp only [hrest]
      simp [Fits, Continued, and_assoc, @eq_comm _ what]

theorem Reads.cons_calls (h : Reads pieces) (actions : List action) :
    Reads (.calls actions :: pieces) := by
  cases actions with
  | nil =>
    have hsrc : (piece.calls [] :: pieces).flatMap piece.src = pieces.flatMap piece.src := rfl
    constructor
    · intro what
      rw [hsrc, h.outside]
      simp [Fits, piece.typed]
    · intro what
      rw [hsrc, h.closing]
      simp [Fits, piece.typed]
    · intro what
      rw [hsrc, h.escaped]
      simp [Fits, Continued, piece.typed]
  | cons a actions =>
    have hsrc : merge_quotes ((piece.calls (a :: actions) :: pieces).flatMap piece.src) =
        (a :: actions).flatMap action.src ++ merge_quotes (pieces.flatMap piece.src) :=
      merge_append (quote_not_mem_actions _) _
    have houtside : ∀ what, decode .outside (merge_quotes
        ((piece.calls (a :: actions) :: pieces).flatMap piece.src)) = some what ↔
          Fits (.calls (a :: actions) :: pieces) ∧
            what = (piece.calls (a :: actions) :: pieces).flatMap piece.typed := by
      intro what
      rw [hsrc, decode_actions, Option.map_eq_some_iff]
      simp only [h.outside]
      simp [Fits, piece.typed, @eq_comm _ what]
    obtain ⟨read, hfirst, -, -⟩ := action_src a
    refine ⟨houtside, fun what => ?_, fun what => ?_⟩
    · rw [← houtside what, merge_quote, decode, if_pos rfl]
      rw [List.flatMap_cons, piece.src, List.flatMap_cons, hfirst]
      exact fun h => absurd (List.cons_prefix_cons.mp h).1 (by decide)
    · rw [hsrc, List.flatMap_cons, hfirst, List.append_assoc, List.append_assoc, List.cons_append,
        decode]
      simp [unescape, Continued]

theorem reads (pieces : List piece) : Reads pieces := by
  induction pieces with
  | nil => exact .nil
  | cons p pieces ih =>
    cases p with
    | literal units => exact ih.cons_literal units
    | calls actions => exact ih.cons_calls actions

/-! ## Macros -/

def TextFollows : List macro_fragment → Prop
  | [] => False
  | .text [] :: fragments => TextFollows fragments
  | .text (_ :: _) :: _ => True
  | .beep :: _ => True
  | .delay _ :: _ => False
  | .tap keycodes :: fragments | .down keycodes :: fragments | .up keycodes :: fragments =>
    keycodes = [] ∧ TextFollows fragments

def QuotesFit : List macro_fragment → Prop
  | [] => True
  | .text s :: fragments => (s.getLast? = some '\"' → TextFollows fragments) ∧ QuotesFit fragments
  | .beep :: fragments | .delay _ :: fragments | .tap _ :: fragments | .down _ :: fragments |
    .up _ :: fragments => QuotesFit fragments

def piece_of : macro_fragment → piece
  | .text s => .literal ((line_breaks s).map unit_of)
  | .beep => .literal [.escape 'a' '\x07' rfl]
  | .delay duration => .calls [.delay duration]
  | .tap keycodes => .calls (chord keycodes)
  | .down keycodes => .calls (keycodes.map .down)
  | .up keycodes => .calls (keycodes.map .up)

theorem calls_src (call : keycode → action) (keycodes : List keycode) :
    (piece.calls (keycodes.map call)).src = keycodes.flatMap fun k => (call k).src :=
  List.flatMap_map ..

theorem chord_src (keycodes : List keycode) :
    (piece.calls (chord keycodes)).src = fragment_text (.tap keycodes) := by
  unfold fragment_text piece.src chord
  dsimp only
  split
  · rw [List.flatMap_append, List.flatMap_append, List.flatMap_map, List.flatMap_map,
      List.flatMap_map]
    rfl
  · rename_i hshort
    cases keycodes with
    | nil => rfl
    | cons k rest =>
      cases rest with
      | nil => rfl
      | cons l rest => exact absurd (by simp) hshort

theorem piece_of_src (f : macro_fragment) : (piece_of f).src = fragment_text f := by
  cases f with
  | text s =>
    unfold fragment_text piece_of piece.src
    dsimp only
    rw [escape_text_eq, List.flatMap_map]
  | beep => rfl
  | delay duration => exact List.append_nil _
  | tap keycodes => exact chord_src keycodes
  | down keycodes => exact calls_src .down keycodes
  | up keycodes => exact calls_src .up keycodes

theorem piece_of_typed (f : macro_fragment) : (piece_of f).typed = fragment_actions f := by
  cases f with
  | text s =>
    rw [piece_of, piece.typed, fragment_actions, List.map_map]
    exact List.map_congr_left fun c _ => congrArg typed.char (unit_of_value c)
  | beep | delay | tap | down | up => rfl

theorem line_breaks_eq_nil : line_breaks s = [] ↔ s = [] := by
  induction s using line_breaks.induct <;> simp [line_breaks]

theorem getLast?_quote :
    (c :: s).getLast? = some '\"' ↔ s.getLast? = some '\"' ∨ s = [] ∧ c = '\"' := by
  cases s with
  | nil => simp
  | cons d s => simp [List.getLast?_cons_cons]

theorem line_breaks_getLast? (s : str) :
    (line_breaks s).getLast? = some '\"' ↔ s.getLast? = some '\"' := by
  induction s using line_breaks.induct with
  | case1 => rfl
  | case2 s ih => simp [line_breaks, getLast?_quote, ih]
  | case3 s hnext ih => simp [line_breaks, getLast?_quote, ih]
  | case4 c s hpair hreturn ih => simp [line_breaks, getLast?_quote, ih, line_breaks_eq_nil]

theorem unit_of_src_quote : (unit_of c).src = ['\\', '\"'] ↔ c = '\"' := by
  constructor
  · intro h
    rw [← unit_of_value c, quote_value h]
  · rintro rfl
    rfl

theorem ends_in_quote_iff (s : str) :
    EndsInQuote ((line_breaks s).map unit_of) ↔ s.getLast? = some '\"' := by
  rw [← line_breaks_getLast?, EndsInQuote, List.getLast?_map, Option.map_map,
    Option.map_eq_some_iff]
  simp [unit_of_src_quote]

theorem continued_literal {units : List unit_t} :
    Continued (.literal units :: pieces) ↔ units = [] → Continued pieces := by
  cases units <;> simp [Continued]

theorem continued_calls {actions : List action} :
    Continued (.calls actions :: pieces) ↔ actions = [] ∧ Continued pieces := by
  cases actions <;> simp [Continued]

theorem chord_eq_nil {keycodes : List keycode} : chord keycodes = [] ↔ keycodes = [] := by
  cases keycodes with
  | nil => exact iff_of_true rfl rfl
  | cons k keycodes => simp [chord, List.getLast?_cons]

variable {fragments : List macro_fragment}

theorem continued_iff : Continued (fragments.map piece_of) ↔ TextFollows fragments := by
  induction fragments with
  | nil => rfl
  | cons f fragments ih =>
    rw [List.map_cons]
    cases f with
    | text s =>
      rw [piece_of, continued_literal, List.map_eq_nil_iff, line_breaks_eq_nil, ih]
      cases s <;> simp [TextFollows]
    | beep => simp [piece_of, continued_literal, TextFollows]
    | delay duration => simp [piece_of, continued_calls, TextFollows]
    | tap keycodes => rw [piece_of, continued_calls, chord_eq_nil, ih, TextFollows]
    | down keycodes => rw [piece_of, continued_calls, List.map_eq_nil_iff, ih, TextFollows]
    | up keycodes => rw [piece_of, continued_calls, List.map_eq_nil_iff, ih, TextFollows]

theorem fits_iff : Fits (fragments.map piece_of) ↔ QuotesFit fragments := by
  induction fragments with
  | nil => rfl
  | cons f fragments ih =>
    cases f with
    | text s =>
      rw [List.map_cons, piece_of, Fits, QuotesFit, ends_in_quote_iff, continued_iff, ih]
    | beep =>
      rw [List.map_cons, piece_of, Fits, QuotesFit, ih]
      exact and_iff_right fun h => absurd h (by simp [EndsInQuote, unit_t.src])
    | delay | tap | down | up => rw [List.map_cons, piece_of, Fits, QuotesFit, ih]

theorem merged_eq_nil (h : pieces.flatMap piece.typed = []) :
    merge_quotes (pieces.flatMap piece.src) = [] := by
  induction pieces with
  | nil => rfl
  | cons p pieces ih =>
    rw [List.flatMap_cons, List.append_eq_nil_iff] at h
    obtain ⟨hp, hrest⟩ := h
    cases p with
    | literal units =>
      obtain rfl := List.map_eq_nil_iff.mp hp
      exact (merge_pair _).trans (ih hrest)
    | calls actions =>
      obtain rfl := List.map_eq_nil_iff.mp hp
      exact ih hrest

/-- The argument denotes what the fragments type exactly when their quotes fit and they
type something. -/
theorem argument_denotes_iff (fragments : List macro_fragment) :
    Denotes (send_string_argument fragments) (fragments.flatMap fragment_actions) ↔
      QuotesFit fragments ∧ fragments.flatMap fragment_actions ≠ [] := by
  have hsrc : send_string_argument fragments =
      merge_quotes ((fragments.map piece_of).flatMap piece.src) := by
    rw [send_string_argument, List.flatMap_map]
    exact congrArg merge_quotes (List.flatMap_congr fun f _ => (piece_of_src f).symm)
  have htyped : fragments.flatMap fragment_actions =
      (fragments.map piece_of).flatMap piece.typed := by
    rw [List.flatMap_map]
    exact List.flatMap_congr fun f _ => (piece_of_typed f).symm
  rw [Denotes, hsrc, htyped, (reads _).outside, fits_iff]
  constructor
  · rintro ⟨hne, hfits, -⟩
    exact ⟨hfits, fun h => hne (merged_eq_nil h)⟩
  · rintro ⟨hfits, htypes⟩
    refine ⟨fun hnil => htypes ?_, hfits, rfl⟩
    have hread := ((reads (fragments.map piece_of)).outside _).mpr ⟨fits_iff.mpr hfits, rfl⟩
    rw [hnil, decode] at hread
    exact (Option.some.inj hread).symm

/-! ## The lines -/

variable {macros : List (List macro_fragment)} {i j : Nat}

theorem macro_lines_getElem? {fragments : List macro_fragment} (h : macros[i]? = some fragments)
    (k : Nat) (hj : j < 3) :
    ((macros.zipIdx k).flatMap macro_lines)[3 * i + j]? = (macro_lines (fragments, k + i))[j]? := by
  induction macros generalizing i k with
  | nil => cases h
  | cons m macros ih =>
    rw [List.zipIdx_cons, List.flatMap_cons]
    cases i with
    | zero =>
      obtain rfl := Option.some.inj h
      rw [Nat.mul_zero, Nat.zero_add, Nat.add_zero]
      exact List.getElem?_append_left hj
    | succ i =>
      rw [List.getElem?_append_right (by simp [macro_lines]; omega)]
      have hrest := ih h (k + 1)
      rw [Nat.add_right_comm, Nat.add_assoc] at hrest
      rw [← hrest]
      congr 1
      simp [macro_lines]
      omega

theorem macro_lines_zero (fragments : List macro_fragment × Nat) :
    (macro_lines fragments)[0]? = some (case_line fragments.2) := by
  rw [macro_lines, List.getElem?_cons_zero]

theorem macro_lines_one (fragments : List macro_fragment × Nat) : (macro_lines fragments)[1]? =
    some (send_string_line (send_string_argument fragments.1)) := by
  rw [macro_lines, List.getElem?_cons_succ, List.getElem?_cons_zero]

theorem generated_line {fragments : List macro_fragment} (h : macros[i]? = some fragments)
    (hj : j < 3) :
    (generate_macros_function macros)[3 * i + 3 + j]? = (macro_lines (fragments, i))[j]? := by
  have hbody := macro_lines_getElem? h 0 hj
  rw [Nat.zero_add] at hbody
  have hlines : (macro_lines (fragments, i)).length = 3 := rfl
  have hin : 3 * i + j < (macros.zipIdx.flatMap macro_lines).length := by
    by_contra hout
    rw [List.getElem?_eq_none (Nat.le_of_not_lt hout), eq_comm, List.getElem?_eq_none_iff,
      hlines] at hbody
    omega
  have hindex : 3 * i + 3 + j - 3 = 3 * i + j := by omega
  rw [generate_macros_function, List.append_assoc, List.getElem?_append_right (by simp; omega)]
  change (_ ++ _)[3 * i + 3 + j - 3]? = _
  rw [hindex, List.getElem?_append_left hin, hbody]

theorem send_string_line_injective : Function.Injective send_string_line := by
  intro a b h
  exact List.append_cancel_left (List.append_cancel_right h)

/-- For every macro the lines of its case send an argument that denotes what it types,
exactly when in each macro the quotes fit and something is typed. -/
theorem macros_are_typed_iff (macros : List (List macro_fragment)) :
    (∀ i fragments, macros[i]? = some fragments →
      (generate_macros_function macros)[3 * i + 3]? = some (case_line i) ∧
        ∃ argument, (generate_macros_function macros)[3 * i + 4]? =
            some (send_string_line argument) ∧
          Denotes argument (fragments.flatMap fragment_actions)) ↔
      ∀ fragments ∈ macros, QuotesFit fragments ∧ fragments.flatMap fragment_actions ≠ [] := by
  have hcase : ∀ {i fragments}, macros[i]? = some fragments →
      (generate_macros_function macros)[3 * i + 3]? = some (case_line i) := by
    intro i fragments hi
    have hline := generated_line hi (Nat.succ_pos 2)
    rwa [macro_lines_zero] at hline
  have hsend : ∀ {i fragments}, macros[i]? = some fragments →
      (generate_macros_function macros)[3 * i + 4]? =
        some (send_string_line (send_string_argument fragments)) := by
    intro i fragments hi
    have hline := generated_line hi (Nat.one_lt_succ_succ 1)
    rwa [macro_lines_one] at hline
  constructor
  · intro h fragments hmem
    obtain ⟨i, hi⟩ := List.mem_iff_getElem?.mp hmem
    obtain ⟨-, argument, hline, hdenotes⟩ := h i fragments hi
    rw [hsend hi, Option.some.injEq] at hline
    obtain rfl := send_string_line_injective hline
    exact (argument_denotes_iff fragments).mp hdenotes
  · intro h i fragments hi
    exact ⟨hcase hi, _, hsend hi,
      (argument_denotes_iff fragments).mpr (h fragments (List.mem_of_getElem? hi))⟩

def ENT : keycode := ⟨"ENT".toList, rfl⟩

def greeting : List macro_fragment := [.text "say \"hi\"".toList, .tap [ENT]]

/-- The backslash of the last quote is left, and the literal does not end. -/
theorem a_quote_before_a_key_is_lost :
    send_string_argument greeting = "\"say \\\"hi\\SS_TAP(X_ENT)".toList ∧
      ∀ what, ¬ Denotes (send_string_argument greeting) what := by
  have hargument : send_string_argument greeting = "\"say \\\"hi\\SS_TAP(X_ENT)".toList := by
    decide
  refine ⟨hargument, fun what h => ?_⟩
  have hread : decode .outside "\"say \\\"hi\\SS_TAP(X_ENT)".toList = none := rfl
  rw [Denotes, hargument, hread] at h
  exact Option.some_ne_none what h.2.symm

end keychron_qmk.keymap_c
