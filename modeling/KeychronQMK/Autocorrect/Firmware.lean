-- Autocorrect on the keyboard
-- (`quantum/process_keycode/process_autocorrect.c`) with the library that the
-- generator makes, and when it triggers.
import KeychronQMK.Autocorrect.Walk
import KeychronQMK.Process.RepeatKey

namespace keychron_qmk.autocorrect

open repeats (between IS_QK_MOD_TAP IS_QK_LAYER_TAP IS_QK_SWAP_HANDS)

/-! ## The library -/

structure library where
  autocorrect_data : List UInt8
  AUTOCORRECT_MIN_LENGTH : Nat
  AUTOCORRECT_MAX_LENGTH : Nat

/-- `generate_autocorrect_data` for a dictionary: none when an assertion
fails. -/
def generate_autocorrect_data (autocorrections : List (str × str)) : Option library :=
  let lengths := autocorrections.map fun e => e.1.length
  (serialize_trie (make_trie autocorrections)).map fun data =>
    { autocorrect_data := data
      AUTOCORRECT_MIN_LENGTH := lengths.min?.getD 0
      AUTOCORRECT_MAX_LENGTH := lengths.max?.getD 0 }

/-! ## The keys -/

/-- The code of the event of a key with its modifiers, one-shot ones included:
`typed` is what it types as a word break, and `edit` what it does to the text
when it does not type into it. -/
structure stroke where
  keycode : UInt16
  pressed : Bool
  tap_count : Nat
  mods : UInt8
  typed : Char
  edit : str → str

def MOD_LSFT : UInt8 := 0x02
def MOD_RSFT : UInt8 := 0x12
def MOD_MASK_SHIFT : UInt8 := 0x22

def IS_LSFT : UInt16 → Bool := between 0x0200 0x02FF

def IS_RSFT : UInt16 → Bool := between 0x1200 0x12FF

def IS_AUTOCORRECT : UInt16 → Bool := between 0x7C74 0x7C76

/-- `KC_LSFT`, `KC_RSFT`, `KC_CAPS`, `QK_LAYER_MOD`, and the ranges from
`QK_TO` to `QK_PERSISTENT_DEF_LAYER`, which follow one another. -/
def excluded (keycode : UInt16) : Bool :=
  keycode = 0xE1 || keycode = 0xE5 || keycode = 0x39 || between 0x5000 0x51FF keycode ||
    between 0x5200 0x52FF keycode

/-- What the handler returns: the keycode and the modifiers to process, or that
the key is not processed, with the buffer kept or emptied. -/
inductive handled where
  | process (keycode : UInt16) (mods : UInt8)
  | escape
  | reset
  deriving DecidableEq

def process_autocorrect_default_handler (keycode : UInt16) (tap_count : Nat) (mods : UInt8) :
    handled :=
  let check_mods (keycode : UInt16) : handled :=
    if mods &&& ~~~MOD_MASK_SHIFT ≠ 0 then .reset else .process keycode mods
  if excluded keycode then .escape
  else if IS_LSFT keycode then .process (keycode &&& 0xFF) (mods ||| MOD_LSFT)
  else if IS_RSFT keycode then .process (keycode &&& 0xFF) (mods ||| MOD_RSFT)
  else if IS_QK_LAYER_TAP keycode || IS_QK_MOD_TAP keycode then
    if tap_count = 0 then .escape else check_mods (keycode &&& 0xFF)
  else if IS_QK_SWAP_HANDS keycode then .escape
  else check_mods keycode

/-- What a key does to the buffer. -/
inductive input where
  | ignore
  | clear
  | backspace
  | append (keycode : UInt8)
  | enter
  deriving DecidableEq

def buffer_check (keycode : UInt16) (mods : UInt8) : input :=
  if between 0x04 0x1D keycode then .append keycode.toUInt8
  else if between 0x1E 0x27 keycode || between 0x2B 0x33 keycode || between 0x35 0x38 keycode then
    .append KC_SPC
  else if keycode = 0x28 then .enter
  else if keycode = 0x2A then .backspace
  else if keycode = 0x34 then .append (if mods &&& MOD_MASK_SHIFT ≠ 0 then KC_SPC else KC_QUOT)
  else .clear

namespace stroke

variable (k : stroke)

def handler : handled := process_autocorrect_default_handler k.keycode k.tap_count k.mods

def input : input :=
  match k.handler with
  | .process keycode mods => buffer_check keycode mods
  | .escape => .ignore
  | .reset => .clear

end stroke

/-! ## process_autocorrect -/

structure autocorrect_t where
  typo_buffer : List UInt8
  autocorrect_enable : Bool

/-- The backspaces and the text that are sent. -/
structure correction_t where
  backspaces : Nat
  changes : List UInt8
  deriving DecidableEq

def c_string (bytes : List UInt8) : List UInt8 := bytes.takeWhile (· ≠ 0)

section

variable (lib : library)

def check (typo_buffer : List UInt8) : Option correction_t :=
  if typo_buffer.length < lib.AUTOCORRECT_MIN_LENGTH then none
  else (walk lib.autocorrect_data typo_buffer.reverse 0).map fun state =>
    { backspaces := (read_byte lib.autocorrect_data state &&& 63).toNat
      changes := c_string (lib.autocorrect_data.drop (state + 1)) }

/-- The buffer without its oldest character if it is full. -/
def rotate (typo_buffer : List UInt8) : List UInt8 :=
  if lib.AUTOCORRECT_MAX_LENGTH ≤ typo_buffer.length then
    (typo_buffer.drop 1).take (lib.AUTOCORRECT_MAX_LENGTH - 1)
  else typo_buffer

/-- The buffer after a keycode, whether the key is processed further, and the
correction that is applied. -/
def append (typo_buffer : List UInt8) (keycode : UInt8) :
    List UInt8 × Bool × Option correction_t :=
  let typo_buffer := rotate lib typo_buffer ++ [keycode]
  match check lib typo_buffer with
  | none => (typo_buffer, true, none)
  | some correction =>
    if keycode = KC_SPC then ([KC_SPC], true, some correction) else ([], false, some correction)

def process_autocorrect (s : autocorrect_t) (k : stroke) :
    autocorrect_t × Bool × Option correction_t :=
  if IS_AUTOCORRECT k.keycode ∧ k.pressed then
    if k.keycode = 0x7C74 then ({ s with autocorrect_enable := true }, false, none)
    else if k.keycode = 0x7C75 then (⟨[], false⟩, false, none)
    else (⟨[], !s.autocorrect_enable⟩, false, none)
  else if !s.autocorrect_enable then ({ s with typo_buffer := [] }, true, none)
  else if !k.pressed then (s, true, none)
  else
    let appended (typo_buffer : List UInt8) (keycode : UInt8) :=
      let (typo_buffer, passed, fired) := append lib typo_buffer keycode
      ({ s with typo_buffer }, passed, fired)
    match k.input with
    | .ignore => (s, true, none)
    | .clear => ({ s with typo_buffer := [] }, true, none)
    | .backspace => ({ s with typo_buffer := s.typo_buffer.dropLast }, true, none)
    | .append keycode => appended s.typo_buffer keycode
    | .enter => appended [] KC_SPC

def typed_buffer (s : autocorrect_t) (k : stroke) : Option (List UInt8) :=
  if ¬ (IS_AUTOCORRECT k.keycode ∧ k.pressed) ∧ s.autocorrect_enable ∧ k.pressed then
    match k.input with
    | .append keycode => some (rotate lib s.typo_buffer ++ [keycode])
    | .enter => some (rotate lib [] ++ [KC_SPC])
    | _ => none
  else none

end

/-! ## When it triggers -/

def sent (e : str × str) : correction_t where
  backspaces := (backspaces e.1 e.2).toNat
  changes := c_string ((changes e.1 e.2).map fun c => UInt8.ofNat c.toNat)

section

variable {autocorrections : List (str × str)} {lib : library}

theorem generated_data (hlib : generate_autocorrect_data autocorrections = some lib) :
    serialize_trie (make_trie autocorrections) = some lib.autocorrect_data := by
  obtain ⟨data, hdata, rfl⟩ := Option.map_eq_some_iff.mp hlib
  exact hdata

variable {e : str × str}

theorem generated_lengths (hlib : generate_autocorrect_data autocorrections = some lib)
    (he : e ∈ autocorrections) :
    lib.AUTOCORRECT_MIN_LENGTH ≤ e.1.length ∧ e.1.length ≤ lib.AUTOCORRECT_MAX_LENGTH := by
  obtain ⟨data, -, rfl⟩ := Option.map_eq_some_iff.mp hlib
  have hmem : e.1.length ∈ autocorrections.map fun e => e.1.length :=
    List.mem_map.mpr ⟨e, he, rfl⟩
  obtain ⟨least, hleast⟩ := Option.ne_none_iff_exists'.mp
    (mt List.min?_eq_none_iff.mp (List.ne_nil_of_mem hmem))
  obtain ⟨greatest, hgreatest⟩ := Option.ne_none_iff_exists'.mp
    (mt List.max?_eq_none_iff.mp (List.ne_nil_of_mem hmem))
  rw [hleast, hgreatest]
  exact ⟨(List.min?_eq_some_iff.mp hleast).2 _ hmem, (List.max?_eq_some_iff.mp hgreatest).2 _ hmem⟩

theorem generated_nonempty (hlib : generate_autocorrect_data autocorrections = some lib) :
    autocorrections ≠ [] := by
  rintro rfl
  have hdata := generated_data hlib
  unfold serialize_trie at hdata
  dsimp only at hdata
  split at hdata
  case isFalse => cases hdata
  case isTrue hasserted => exact hasserted.1 (.branch 0 .nil) List.mem_cons_self rfl

theorem max_length_pos (h : Parsed autocorrections)
    (hlib : generate_autocorrect_data autocorrections = some lib) :
    0 < lib.AUTOCORRECT_MAX_LENGTH := by
  obtain ⟨e, he⟩ := List.exists_mem_of_ne_nil _ (generated_nonempty hlib)
  have hlength := (generated_lengths hlib he).2
  have hpos := List.length_pos_of_ne_nil (h.nonempty e he)
  omega

theorem c_string_append (s post : List UInt8) : c_string (s ++ 0 :: post) = c_string s := by
  induction s with
  | nil => simp [c_string]
  | cons b s ih =>
    unfold c_string at ih ⊢
    rw [List.cons_append, List.takeWhile_cons, List.takeWhile_cons, ih]

theorem c_string_leaf {data : List UInt8} {state : Nat}
    (h : leaf_data e.1 e.2 <+: data.drop state) :
    c_string (data.drop (state + 1)) = (sent e).changes := by
  obtain ⟨post, hpost⟩ := prefix_drop_succ h
  rw [← hpost]
  change c_string ((_ ++ [0]) ++ post) = _
  rw [List.append_assoc]
  exact c_string_append _ post

variable {b a : List Char}

theorem check_of_ends (h : Parsed autocorrections)
    (hlib : generate_autocorrect_data autocorrections = some lib)
    (hb : ∀ c ∈ b, (TYPO_CHARS c).isSome) (he : e ∈ autocorrections) (hends : e.1 <:+ b) :
    check lib (b.map key_code) = some (sent e) := by
  obtain ⟨hmin, -⟩ := generated_lengths hlib he
  have hlength := hends.length_le
  have hreverse : ∀ c ∈ b.reverse, (TYPO_CHARS c).isSome := fun c hc =>
    hb c (List.mem_reverse.mp hc)
  obtain ⟨state, hwalk, hleaf, hfits⟩ := walk_eq_some h (generated_data hlib) hreverse he
    (List.reverse_prefix.mpr hends)
  have hcode : (read_byte lib.autocorrect_data state &&& 63).toNat =
      (backspaces e.1 e.2).toNat := by
    obtain ⟨⟨-, hmany⟩, -⟩ := hfits
    rw [read_leaf hleaf]
    exact (leaf_code (by omega)).2
  unfold check
  rw [if_neg (by rw [List.length_map]; omega), ← List.map_reverse, hwalk, Option.map_some,
    c_string_leaf hleaf, hcode]
  rfl

theorem check_of_no_end (h : Parsed autocorrections)
    (hlib : generate_autocorrect_data autocorrections = some lib)
    (hb : ∀ c ∈ b, (TYPO_CHARS c).isSome) (hno : ∀ e ∈ autocorrections, ¬ e.1 <:+ b) :
    check lib (b.map key_code) = none := by
  have hreverse : ∀ c ∈ b.reverse, (TYPO_CHARS c).isSome := fun c hc =>
    hb c (List.mem_reverse.mp hc)
  have hwalk := walk_eq_none h (generated_data hlib) hreverse
    fun e he hprefix => hno e he (List.reverse_prefix.mp hprefix)
  unfold check
  rw [← List.map_reverse, hwalk]
  split <;> rfl

theorem one_end (h : Parsed autocorrections) {e' : str × str} (he : e ∈ autocorrections)
    (he' : e' ∈ autocorrections) (hends : e.1 <:+ b) (hends' : e'.1 <:+ b) : e = e' := by
  by_contra hne
  have : Std.Symm fun e e' : str × str => ¬ Overlap e.1 e'.1 :=
    ⟨fun _ _ hno hoverlap => hno hoverlap.symm⟩
  have happart := h.apart.forall he he' hne
  rcases List.suffix_or_suffix_of_suffix hends hends' with hin | hin
  · exact happart (.inl hin.isInfix)
  · exact happart (.inr hin.isInfix)

theorem codes_inj (ha : ∀ c ∈ a, (TYPO_CHARS c).isSome) (hb : ∀ c ∈ b, (TYPO_CHARS c).isSome)
    (h : a.map key_code = b.map key_code) : a = b := by
  induction a generalizing b with
  | nil => exact (List.map_eq_nil_iff.mp h.symm).symm
  | cons c a ih =>
    obtain ⟨c', b, rfl, hc, hrest⟩ := List.map_eq_cons_iff.mp h.symm
    obtain ⟨ha, has⟩ := List.forall_mem_cons.mp ha
    obtain ⟨hb, hbs⟩ := List.forall_mem_cons.mp hb
    rw [key_code_inj ha hb hc.symm, ih has hbs hrest.symm]

/-- Keys end with the codes of a typo exactly when their characters end with
it. -/
theorem codes_suffix (ha : ∀ c ∈ a, (TYPO_CHARS c).isSome) (hb : ∀ c ∈ b, (TYPO_CHARS c).isSome) :
    a.map key_code <:+ b.map key_code ↔ a <:+ b := by
  refine ⟨fun h => ?_, fun h => h.map key_code⟩
  have hdrop := List.suffix_iff_eq_drop.mp h
  rw [List.length_map, List.length_map, ← List.map_drop] at hdrop
  have hsame := codes_inj ha (fun c hc => hb c (List.mem_of_mem_drop hc)) hdrop
  rw [hsame]
  exact List.drop_suffix _ _

/-! ## The keys of the buffer -/

/-- The character of a typo with a keycode. -/
def char_of (keycode : UInt8) : Char :=
  if keycode = KC_SPC then ':'
  else if keycode = KC_QUOT then QUOTE
  else Char.ofNat (keycode.toNat + 'a'.toNat - KC_A.toNat)

theorem key_code_char_of {keycode : UInt8}
    (h : 4 ≤ keycode.toNat ∧ keycode.toNat ≤ 29 ∨ keycode = KC_SPC ∨ keycode = KC_QUOT) :
    (TYPO_CHARS (char_of keycode)).isSome ∧ key_code (char_of keycode) = keycode := by
  rcases h with ⟨hlow, hhigh⟩ | rfl | rfl
  · have hletters : ∀ n : Fin 26, (TYPO_CHARS (char_of (UInt8.ofNat (n.val + 4)))).isSome ∧
        key_code (char_of (UInt8.ofNat (n.val + 4))) = UInt8.ofNat (n.val + 4) := by decide
    have hletter := hletters ⟨keycode.toNat - 4, by omega⟩
    rwa [show keycode.toNat - 4 + 4 = keycode.toNat by omega, UInt8.ofNat_toNat] at hletter
  · decide
  · decide

variable {code : UInt8}

theorem buffer_check_append {keycode : UInt16} {mods : UInt8}
    (h : buffer_check keycode mods = .append code) :
    4 ≤ code.toNat ∧ code.toNat ≤ 29 ∨ code = KC_SPC ∨ code = KC_QUOT := by
  unfold buffer_check at h
  split_ifs at h with hletter hbreak henter hback hquote hshift
  · left
    cases h
    simp only [between, decide_eq_true_eq, UInt16.le_iff_toNat_le] at hletter
    have hlow : (4 : UInt16).toNat = 4 := rfl
    have hhigh : (0x1D : UInt16).toNat = 29 := rfl
    have hsmall : keycode.toUInt8.toNat = keycode.toNat % 256 := UInt16.toNat_toUInt8 keycode
    omega
  · cases h
    exact .inr (.inl rfl)
  · cases h
    exact .inr (.inl rfl)
  · cases h
    exact .inr (.inr rfl)

theorem input_append {k : stroke} (h : k.input = .append code) :
    (TYPO_CHARS (char_of code)).isSome ∧ key_code (char_of code) = code := by
  unfold stroke.input at h
  split at h
  · exact key_code_char_of (buffer_check_append h)
  · cases h
  · cases h

def Buffered (lib : library) (typo_buffer : List UInt8) : Prop :=
  ∃ b : List Char, typo_buffer = b.map key_code ∧ (∀ c ∈ b, (TYPO_CHARS c).isSome) ∧
    b.length ≤ lib.AUTOCORRECT_MAX_LENGTH

namespace Buffered

theorem nil (lib : library) : Buffered lib [] := ⟨[], rfl, by simp, by simp⟩

theorem boundary (hpos : 0 < lib.AUTOCORRECT_MAX_LENGTH) : Buffered lib [KC_SPC] :=
  ⟨[':'], by decide, List.forall_mem_singleton.mpr (by decide), hpos⟩

variable {typo_buffer : List UInt8}

theorem dropLast (h : Buffered lib typo_buffer) : Buffered lib typo_buffer.dropLast := by
  obtain ⟨b, rfl, hchars, hlength⟩ := h
  refine ⟨b.dropLast, by rw [List.map_dropLast], fun c hc => hchars c (List.mem_of_mem_dropLast hc),
    ?_⟩
  rw [List.length_dropLast]
  omega

theorem rotated (h : Buffered lib typo_buffer) (hpos : 0 < lib.AUTOCORRECT_MAX_LENGTH) :
    ∃ b : List Char, rotate lib typo_buffer = b.map key_code ∧
      (∀ c ∈ b, (TYPO_CHARS c).isSome) ∧ b.length < lib.AUTOCORRECT_MAX_LENGTH := by
  obtain ⟨b, rfl, hchars, hlength⟩ := h
  unfold rotate
  split
  · refine ⟨(b.drop 1).take (lib.AUTOCORRECT_MAX_LENGTH - 1), by rw [List.map_take, List.map_drop],
      fun c hc => hchars c (List.mem_of_mem_drop (List.mem_of_mem_take hc)), ?_⟩
    rw [List.length_take]
    omega
  · rename_i hroom
    rw [List.length_map] at hroom
    exact ⟨b, rfl, hchars, by omega⟩

theorem append (h : Buffered lib typo_buffer) (hpos : 0 < lib.AUTOCORRECT_MAX_LENGTH) {c : Char}
    (hc : (TYPO_CHARS c).isSome) : Buffered lib (rotate lib typo_buffer ++ [key_code c]) := by
  obtain ⟨b, hrotate, hchars, hlength⟩ := h.rotated hpos
  refine ⟨b ++ [c], by simp [hrotate], ?_, by simpa using Nat.succ_le_of_lt hlength⟩
  intro d hd
  rcases List.mem_append.mp hd with hd | hd
  · exact hchars d hd
  · rwa [List.mem_singleton.mp hd]

end Buffered

/-! ## One key -/

variable {s : autocorrect_t} {k : stroke}

variable {buffer : List UInt8}

theorem process_typed (h : typed_buffer lib s k = some buffer) :
    (s.autocorrect_enable ∧ k.pressed) ∧ ∃ old code,
      (k.input = .append code ∧ old = s.typo_buffer ∨
        k.input = .enter ∧ code = KC_SPC ∧ old = []) ∧
      buffer = rotate lib old ++ [code] ∧
      process_autocorrect lib s k =
        ({ s with typo_buffer := (append lib old code).1 }, (append lib old code).2) := by
  unfold typed_buffer at h
  split at h
  case isFalse => cases h
  case isTrue hconditions =>
    obtain ⟨hother, henable, hpressed⟩ := hconditions
    refine ⟨⟨henable, hpressed⟩, ?_⟩
    unfold process_autocorrect
    rw [if_neg hother, henable, hpressed]
    cases hinput : k.input with
    | append code =>
      rw [hinput] at h
      exact ⟨s.typo_buffer, code, .inl ⟨rfl, rfl⟩, (Option.some.inj h).symm, rfl⟩
    | enter =>
      rw [hinput] at h
      exact ⟨[], KC_SPC, .inr ⟨rfl, rfl, rfl⟩, (Option.some.inj h).symm, rfl⟩
    | ignore | clear | backspace =>
      rw [hinput] at h
      cases h

/-- Another key triggers nothing: it empties the buffer, leaves it, or takes its
last key away. -/
theorem process_untyped (h : typed_buffer lib s k = none) :
    (process_autocorrect lib s k).2.2 = none ∧
      ((process_autocorrect lib s k).1.typo_buffer = [] ∨
        ((process_autocorrect lib s k).1.typo_buffer = s.typo_buffer ∧
          ((process_autocorrect lib s k).2.1 →
            s.autocorrect_enable ∧ (k.pressed → k.input = .ignore))) ∨
        ((process_autocorrect lib s k).1.typo_buffer = s.typo_buffer.dropLast ∧
          (process_autocorrect lib s k).2.1 ∧ s.autocorrect_enable ∧ k.pressed ∧
          k.input = .backspace)) := by
  unfold typed_buffer at h
  unfold process_autocorrect
  by_cases hother : IS_AUTOCORRECT k.keycode ∧ k.pressed
  · rw [if_pos hother]
    split_ifs
    · exact ⟨rfl, .inr (.inl ⟨rfl, by simp⟩)⟩
    · exact ⟨rfl, .inl rfl⟩
    · exact ⟨rfl, .inl rfl⟩
  · rw [if_neg hother]
    cases henable : s.autocorrect_enable with
    | false => exact ⟨rfl, .inl rfl⟩
    | true =>
      cases hpressed : k.pressed with
      | false => exact ⟨rfl, .inr (.inl ⟨rfl, by simp⟩)⟩
      | true =>
        rw [if_pos ⟨hother, henable, hpressed⟩] at h
        cases hinput : k.input <;> rw [hinput] at h
        case append => cases h
        case enter => cases h
        case ignore => exact ⟨rfl, .inr (.inl ⟨rfl, by simp⟩)⟩
        case clear => exact ⟨rfl, .inl rfl⟩
        case backspace => exact ⟨rfl, .inr (.inr ⟨rfl, rfl, rfl, rfl, rfl⟩)⟩

theorem typed_buffered (hs : Buffered lib s.typo_buffer) (hpos : 0 < lib.AUTOCORRECT_MAX_LENGTH)
    (h : typed_buffer lib s k = some buffer) : Buffered lib buffer := by
  obtain ⟨-, old, code, ⟨hinput, rfl⟩ | ⟨-, rfl, rfl⟩, rfl, -⟩ := process_typed h
  · obtain ⟨hchar, hcode⟩ := input_append hinput
    have happend := hs.append hpos hchar
    rwa [hcode] at happend
  · exact (Buffered.nil lib).append hpos (c := ':') (by decide)

theorem append_fired (old : List UInt8) (code : UInt8) :
    (append lib old code).2.2 = check lib (rotate lib old ++ [code]) := by
  unfold append
  dsimp only
  cases check lib (rotate lib old ++ [code]) with
  | none => rfl
  | some correction =>
    dsimp only
    split <;> rfl

theorem fires_iff (h : Parsed autocorrections)
    (hlib : generate_autocorrect_data autocorrections = some lib)
    (hs : Buffered lib s.typo_buffer) :
    (process_autocorrect lib s k).2.2.isSome ↔
      ∃ buffer, typed_buffer lib s k = some buffer ∧
        ∃ e ∈ autocorrections, e.1.map key_code <:+ buffer := by
  cases htyped : typed_buffer lib s k with
  | none => simp [(process_untyped htyped).1]
  | some buffer =>
    obtain ⟨b, hb, hchars, -⟩ := typed_buffered hs (max_length_pos h hlib) htyped
    obtain ⟨-, old, code, -, hbuffer, hprocess⟩ := process_typed htyped
    rw [hprocess, append_fired, ← hbuffer, hb]
    constructor
    · intro hfired
      by_contra hno
      have hnone : ∀ e ∈ autocorrections, ¬ e.1 <:+ b := fun e he hends =>
        hno ⟨_, rfl, e, he, hends.map key_code⟩
      rw [check_of_no_end h hlib hchars hnone] at hfired
      cases hfired
    · rintro ⟨_, hsame, e, he, hends⟩
      rw [← Option.some.inj hsame, codes_suffix (h.chars e he) hchars] at hends
      rw [check_of_ends h hlib hchars he hends]
      rfl

theorem append_buffered (hpos : 0 < lib.AUTOCORRECT_MAX_LENGTH) {old : List UInt8}
    (h : Buffered lib (rotate lib old ++ [code])) : Buffered lib (append lib old code).1 := by
  unfold append
  dsimp only
  split
  · exact h
  · split
    · exact .boundary hpos
    · exact .nil lib

theorem process_buffered (hpos : 0 < lib.AUTOCORRECT_MAX_LENGTH)
    (hs : Buffered lib s.typo_buffer) :
    Buffered lib (process_autocorrect lib s k).1.typo_buffer := by
  cases htyped : typed_buffer lib s k with
  | some buffer =>
    have hbuffered := typed_buffered hs hpos htyped
    obtain ⟨-, old, code, -, hbuffer, hprocess⟩ := process_typed htyped
    rw [hprocess]
    rw [hbuffer] at hbuffered
    exact append_buffered hpos hbuffered
  | none =>
    obtain ⟨-, hempty | ⟨hkept, -⟩ | ⟨hlast, -⟩⟩ := process_untyped htyped
    · rw [hempty]
      exact .nil lib
    · rwa [hkept]
    · rw [hlast]
      exact hs.dropLast

end

end keychron_qmk.autocorrect