-- The strings that autocorrect hands to `apply_autocorrect`: the word with the
-- typo as it is typed and as it is corrected, each in an array of its own.
import KeychronQMK.Autocorrect.Agreement
import KeychronQMK.Lib.Store

namespace keychron_qmk.autocorrect

open runs bounded

/-! ## The arrays -/

/-- The loop from the end of the buffer to a space that is not the last key:
the length of the word, the last key counted, and where it starts. -/
def scan_word (typo_buffer : List UInt8) : Nat → Nat → Nat × Nat
  | 0, typo_len => (typo_len, 0)
  | i + 1, typo_len =>
    if typo_buffer.getD i 0 = KC_SPC ∧ i + 1 ≠ typo_buffer.length then (typo_len, i + 1)
    else scan_word typo_buffer i (typo_len + 1)

/-- `typo_buffer[i] - KC_A + 'a'` -/
def letter (keycode : UInt8) : UInt8 := keycode - KC_A + 97

def strcpy (dest : List UInt8) (i : Int) (s : List UInt8) : Option (List UInt8) :=
  store dest i (c_string s ++ [0])

/-- The arrays `typo` and `correct` for a buffer that triggers: none when a write
is outside of them. -/
def gather (lib : library) (typo_buffer : List UInt8) (c : correction_t) :
    Option (List UInt8 × List UInt8) :=
  let space_last := typo_buffer.getLast? = some KC_SPC
  let scanned := scan_word typo_buffer typo_buffer.length 0
  let typo_len := if space_last then scanned.1 - 1 else scanned.1
  let typo_start := scanned.2
  let offset := if space_last then c.backspaces else c.backspaces + 1
  (store (List.replicate (lib.AUTOCORRECT_MAX_LENGTH + 1) 0) 0
      (((typo_buffer.drop typo_start).take typo_len).map letter)).bind fun typo =>
    (strcpy (List.replicate (lib.AUTOCORRECT_MAX_LENGTH + 10) 0) 0 typo).bind fun correct =>
      (strcpy correct ((typo_len : Int) - (offset : Int)) c.changes).map fun correct =>
        (typo, correct)

/-! ## The word with the typo -/

/-- What the word has in front of the typo, without the outer word breaks of the
typo. -/
def before_typo (e : str × str) (keys : str) : str :=
  (keys.take (keys.length - trailing e.1 - (strip e.1).length)).rtakeWhile (· ≠ ':')

def typo_word (e : str × str) (keys : str) : str := before_typo e keys ++ strip e.1

def correct_word (e : str × str) (keys : str) : str := before_typo e keys ++ e.2

def ascii (s : str) : List UInt8 := s.map fun c => UInt8.ofNat c.toNat

/-- The writes stay inside of the arrays, and the strings are the word with the
typo before and after the correction. -/
def Assembles (lib : library) (typo_buffer : List UInt8) (e : str × str) : Prop :=
  ∃ typo correct, (check lib typo_buffer).bind (gather lib typo_buffer) = some (typo, correct) ∧
    c_string typo = ascii (typo_word e (typo_buffer.map char_of)) ∧
    c_string correct = ascii (correct_word e (typo_buffer.map char_of))

/-- The typo is within one word, with no key that is no letter, and its correction
has room. -/
structure Fits (lib : library) (keys : str) (e : str × str) : Prop where
  inner : ':' ∉ strip e.1
  ending : trailing e.1 ≤ 1 ∨ typo_word e keys = []
  letters : QUOTE ∉ typo_word e keys
  text : Char.ofNat 0 ∉ changes e.1 e.2
  room : (correct_word e keys).length ≤ lib.AUTOCORRECT_MAX_LENGTH + 9

/-! ## The word at the end of the buffer -/

def last_word (b : str) : str :=
  (if b.getLast? = some ':' then b.dropLast else b).rtakeWhile (· ≠ ':')

theorem scan_word_eq {typo_buffer p : List UInt8} {rest : List UInt8}
    (hbuffer : typo_buffer = p ++ rest) (hrest : rest ≠ []) (k : Nat) :
    scan_word typo_buffer p.length k = (k + (p.rtakeWhile (· ≠ KC_SPC)).length,
      p.length - (p.rtakeWhile (· ≠ KC_SPC)).length) := by
  induction p using List.reverseRecOn generalizing k rest with
  | nil => rfl
  | append_singleton p x ih =>
    have hlength : (p ++ [x]).length = p.length + 1 := by simp
    have hget : typo_buffer.getD p.length 0 = x := by
      rw [hbuffer, List.append_assoc, List.getD_eq_getElem?_getD, List.getElem?_append_right le_rfl]
      simp
    have hmore : p.length + 1 ≠ typo_buffer.length := by
      have hpos := List.length_pos_of_ne_nil hrest
      rw [hbuffer, List.length_append, hlength]
      omega
    have htail : typo_buffer = p ++ x :: rest := by
      rw [hbuffer, List.append_assoc, List.singleton_append]
    rw [hlength, scan_word, hget, List.rtakeWhile_concat]
    by_cases hx : x = KC_SPC
    · rw [if_pos ⟨hx, hmore⟩, if_neg (by simp [hx])]
      rfl
    · rw [if_neg fun h => hx h.1, if_pos (by simp [hx]),
        ih htail (List.cons_ne_nil _ _), List.length_append,
        List.length_singleton]
      refine Prod.ext ?_ ?_
      · dsimp only
        omega
      · dsimp only
        omega

theorem codes_rtakeWhile {b : str} (hb : ∀ c ∈ b, (TYPO_CHARS c).isSome) :
    (b.map key_code).rtakeWhile (· ≠ KC_SPC) = (b.rtakeWhile (· ≠ ':')).map key_code := by
  induction b using List.reverseRecOn with
  | nil => rfl
  | append_singleton b c ih =>
    have hc : (TYPO_CHARS c).isSome := hb c (by simp)
    have hbreak : key_code c = KC_SPC ↔ c = ':' :=
      ⟨fun h => key_code_inj hc (by decide) h, fun h => by rw [h]; rfl⟩
    rw [List.map_append, List.map_singleton, List.rtakeWhile_concat, List.rtakeWhile_concat,
      ih fun d hd => hb d (List.mem_append_left _ hd)]
    by_cases hcolon : c = ':'
    · have hcode := hbreak.mpr hcolon
      rw [if_neg (by simp [hcode]), if_neg (by simp [hcolon])]
      rfl
    · have hcode := mt hbreak.mp hcolon
      rw [if_pos (by simp [hcode]), if_pos (by simp [hcolon])]
      simp

/-- The letters of a word, where the quote becomes another byte. -/
def letters (b : str) : List UInt8 := b.map fun c => letter (key_code c)

theorem letter_key_code {c : Char} (hc : (TYPO_CHARS c).isSome) (hbreak : c ≠ ':') :
    letter (key_code c) = (if c = QUOTE then 145 else UInt8.ofNat c.toNat) ∧
      letter (key_code c) ≠ 0 := by
  obtain ⟨rfl, hcode⟩ | ⟨hcolon, -⟩ | ⟨n, hn, hcode⟩ := typo_kinds hc
  · rw [hcode]
    decide
  · exact absurd hcolon hbreak
  · have hall : ∀ n : Fin 26, letter (UInt8.ofNat (n.val + 97 + 4 - 97)) = UInt8.ofNat (n.val + 97) ∧
        letter (UInt8.ofNat (n.val + 97 + 4 - 97)) ≠ 0 := by decide
    have hquote : c ≠ QUOTE := by
      rintro rfl
      have h39 : QUOTE.toNat = 39 := rfl
      omega
    rw [hcode, if_neg hquote, hn]
    exact hall n

theorem mem_rtakeWhile {α : Type*} {p : α → Bool} {l : List α} {x : α} (h : x ∈ l.rtakeWhile p) :
    x ∈ l := (List.rtakeWhile_suffix p l).mem h

theorem last_word_chars {b : str} (hb : ∀ c ∈ b, (TYPO_CHARS c).isSome) :
    ∀ c ∈ last_word b, (TYPO_CHARS c).isSome ∧ c ≠ ':' := by
  intro c hc
  have hbreak : c ≠ ':' := by simpa using List.mem_rtakeWhile_imp hc
  have hmem := mem_rtakeWhile hc
  split at hmem
  · exact ⟨hb c (List.mem_of_mem_dropLast hmem), hbreak⟩
  · exact ⟨hb c hmem, hbreak⟩

theorem last_word_length (b : str) : (last_word b).length ≤ b.length := by
  have hle := (List.rtakeWhile_suffix (· ≠ ':')
    (if b.getLast? = some ':' then b.dropLast else b)).length_le
  refine hle.trans ?_
  split
  · rw [List.length_dropLast]
    omega
  · exact le_rfl

theorem c_string_zero {s : List UInt8} (hs : ∀ x ∈ s, x ≠ 0) (rest : List UInt8) :
    c_string (s ++ 0 :: rest) = s := by
  rw [c_string_append]
  exact List.takeWhile_eq_self_iff.mpr fun x hx => by simpa using hs x hx

/-- The loops find the last word of the keys. -/
theorem scanned_letters {b : str} (hb : ∀ c ∈ b, (TYPO_CHARS c).isSome) (hne : b ≠ []) :
    (if (b.map key_code).getLast? = some KC_SPC then
        (scan_word (b.map key_code) (b.map key_code).length 0).1 - 1
      else (scan_word (b.map key_code) (b.map key_code).length 0).1) = (last_word b).length ∧
    (((b.map key_code).drop (scan_word (b.map key_code) (b.map key_code).length 0).2).take
        (last_word b).length).map letter = letters (last_word b) := by
  obtain ⟨front, c, rfl⟩ : ∃ front c, b = front ++ [c] := by
    rcases List.eq_nil_or_concat b with hnil | ⟨front, c, hconcat⟩
    · exact absurd hnil hne
    · exact ⟨front, c, by rw [hconcat, List.concat_eq_append]⟩
  have hc : (TYPO_CHARS c).isSome := hb c (by simp)
  have hfront : ∀ d ∈ front, (TYPO_CHARS d).isSome := fun d hd => hb d (List.mem_append_left _ hd)
  have hbreak : some (key_code c) = some KC_SPC ↔ c = ':' :=
    ⟨fun h => key_code_inj hc (by decide) (Option.some.inj h), fun h => by rw [h]; rfl⟩
  have hmap : (front ++ [c]).map key_code = front.map key_code ++ [key_code c] := by simp
  have hscan : scan_word (front.map key_code ++ [key_code c])
      (front.map key_code ++ [key_code c]).length 0 =
      (1 + (front.rtakeWhile (· ≠ ':')).length,
        front.length - (front.rtakeWhile (· ≠ ':')).length) := by
    rw [List.length_append, List.length_singleton, scan_word, if_neg fun h => h.2 (by simp),
      scan_word_eq rfl (List.cons_ne_nil _ _), codes_rtakeWhile hfront, List.length_map,
      List.length_map, Nat.zero_add]
  rw [hmap, hscan, List.getLast?_concat]
  have hsuffix : front.drop (front.length - (front.rtakeWhile (· ≠ ':')).length) =
      front.rtakeWhile (· ≠ ':') :=
    (List.suffix_iff_eq_drop.mp (List.rtakeWhile_suffix _ front)).symm
  have hdrop : (front.map key_code ++ [key_code c]).drop
      (front.length - (front.rtakeWhile (· ≠ ':')).length) =
      (front.rtakeWhile (· ≠ ':') ++ [c]).map key_code := by
    rw [List.drop_append_of_le_length (by rw [List.length_map]; omega), ← List.map_drop, hsuffix]
    simp
  rw [hdrop]
  unfold last_word letters
  rw [List.getLast?_concat]
  by_cases hcolon : c = ':'
  · rw [if_pos (hbreak.mpr hcolon), if_pos (congrArg some hcolon), List.dropLast_concat]
    refine ⟨by omega, ?_⟩
    rw [List.map_append, List.take_append_of_le_length (by simp), List.take_of_length_le (by simp),
      List.map_map]
    rfl
  · rw [if_neg (mt hbreak.mp hcolon), if_neg (mt Option.some.inj hcolon), List.rtakeWhile_concat, if_pos (by simp [hcolon]),
      List.take_of_length_le (by simp), List.map_map]
    exact ⟨by simp [Nat.add_comm], rfl⟩

section

variable {lib : library} {b : str} {c : correction_t}

theorem letters_ne_zero (hb : ∀ c ∈ b, (TYPO_CHARS c).isSome ∧ c ≠ ':') : ∀ x ∈ letters b, x ≠ 0 := by
  intro x hx
  obtain ⟨c, hc, rfl⟩ := List.mem_map.mp hx
  exact (letter_key_code (hb c hc).1 (hb c hc).2).2

theorem space_last_iff (hb : ∀ c ∈ b, (TYPO_CHARS c).isSome) :
    (b.map key_code).getLast? = some KC_SPC ↔ b.getLast? = some ':' := by
  rw [List.getLast?_map, Option.map_eq_some_iff]
  constructor
  · rintro ⟨c, hlast, hcode⟩
    have hcolon : key_code c = key_code ':' := hcode
    rw [hlast, key_code_inj (hb c (List.mem_of_getLast? hlast)) (by decide) hcolon]
  · intro hlast
    exact ⟨':', hlast, rfl⟩

/-- How many letters of the word are kept in front of the text that is sent. -/
def kept (b : str) (c : correction_t) : Int :=
  (last_word b).length - (if b.getLast? = some ':' then c.backspaces else c.backspaces + 1 : Nat)

/-- The word is copied twice, and the text is copied behind what is kept of it. -/
theorem gather_eq (hb : ∀ c ∈ b, (TYPO_CHARS c).isSome) (hne : b ≠ [])
    (hlength : b.length ≤ lib.AUTOCORRECT_MAX_LENGTH) :
    ∃ rest rest', rest'.length = lib.AUTOCORRECT_MAX_LENGTH + 9 - (last_word b).length ∧
      gather lib (b.map key_code) c =
        (strcpy (letters (last_word b) ++ 0 :: rest') (kept b c) c.changes).map fun correct =>
          (letters (last_word b) ++ 0 :: rest, correct) := by
  obtain ⟨hlen, hletters⟩ := scanned_letters hb hne
  have hzero := letters_ne_zero (last_word_chars hb)
  have hsize : (letters (last_word b)).length = (last_word b).length := List.length_map _
  have hshort := last_word_length b
  obtain ⟨rest, htypo⟩ : ∃ rest,
      store (List.replicate (lib.AUTOCORRECT_MAX_LENGTH + 1) 0) 0 (letters (last_word b)) =
        some (letters (last_word b) ++ 0 :: rest) := by
    refine ⟨List.replicate (lib.AUTOCORRECT_MAX_LENGTH - (last_word b).length) 0, ?_⟩
    rw [store_zero _ (by rw [List.length_replicate]; omega), hsize, List.drop_replicate,
      ← List.replicate_succ, Nat.sub_add_comm (by omega)]
  have hcopy : ∀ rest : List UInt8,
      strcpy (List.replicate (lib.AUTOCORRECT_MAX_LENGTH + 10) 0) 0
        (letters (last_word b) ++ 0 :: rest) =
      some (letters (last_word b) ++
        0 :: List.replicate (lib.AUTOCORRECT_MAX_LENGTH + 9 - (last_word b).length) 0) := by
    intro rest
    unfold strcpy
    have hroom : (letters (last_word b) ++ [0]).length ≤
        (List.replicate (lib.AUTOCORRECT_MAX_LENGTH + 10) (0 : UInt8)).length := by
      rw [List.length_append, hsize, List.length_singleton, List.length_replicate]
      omega
    rw [c_string_zero hzero, store_zero _ hroom, List.drop_replicate, List.length_append,
      List.length_singleton, hsize, List.append_assoc, List.singleton_append,
      show lib.AUTOCORRECT_MAX_LENGTH + 10 - ((last_word b).length + 1) =
        lib.AUTOCORRECT_MAX_LENGTH + 9 - (last_word b).length by omega]
  refine ⟨rest, List.replicate _ 0, List.length_replicate, ?_⟩
  unfold gather kept
  dsimp only
  rw [hlen, hletters, htypo, Option.bind_some, hcopy, Option.bind_some]
  by_cases hspace : b.getLast? = some ':'
  · rw [if_pos hspace, if_pos ((space_last_iff hb).mpr hspace)]
  · rw [if_neg hspace, if_neg (mt (space_last_iff hb).mp hspace)]

/-- The strings that come out, when all writes are inside of the arrays. -/
theorem gather_iff (hb : ∀ c ∈ b, (TYPO_CHARS c).isSome) (hne : b ≠ [])
    (hlength : b.length ≤ lib.AUTOCORRECT_MAX_LENGTH) (hc : ∀ x ∈ c.changes, x ≠ 0)
    (t k : List UInt8) :
    (∃ typo correct, gather lib (b.map key_code) c = some (typo, correct) ∧
        c_string typo = t ∧ c_string correct = k) ↔
      0 ≤ kept b c ∧ (kept b c).toNat + c.changes.length ≤ lib.AUTOCORRECT_MAX_LENGTH + 9 ∧
        letters (last_word b) = t ∧
        (letters (last_word b)).take (kept b c).toNat ++ c.changes = k := by
  obtain ⟨rest, rest', hrest', hgather⟩ := gather_eq (c := c) hb hne hlength
  have hzero := letters_ne_zero (last_word_chars hb)
  have hsize : (letters (last_word b)).length = (last_word b).length := List.length_map _
  have hshort := last_word_length b
  have hchanges : c_string c.changes = c.changes :=
    List.takeWhile_eq_self_iff.mpr fun x hx => by simpa using hc x hx
  have harray : (letters (last_word b) ++ 0 :: rest').length = lib.AUTOCORRECT_MAX_LENGTH + 10 := by
    rw [List.length_append, List.length_cons, hrest', hsize]
    omega
  have hsent : c.changes ++ [0] ≠ [] := by simp
  rw [hgather]
  unfold strcpy
  rw [hchanges]
  rcases lt_or_ge (kept b c) 0 with hneg | hpos
  · rw [store_neg _ hneg hsent]
    simp [hneg]
  · obtain ⟨n, hn⟩ := Int.eq_ofNat_of_zero_le hpos
    have hkept : n ≤ (letters (last_word b)).length := by
      unfold kept at hn
      omega
    rw [hn, Int.toNat_natCast, store_nat _ _ hsent, harray, List.length_append,
      List.length_singleton]
    by_cases hroom : n + c.changes.length ≤ lib.AUTOCORRECT_MAX_LENGTH + 9
    · rw [if_pos (by omega), List.take_append_of_le_length hkept]
      have hcorrect : ∀ end_ : List UInt8, c_string ((letters (last_word b)).take n ++
          (c.changes ++ [0]) ++ end_) = (letters (last_word b)).take n ++ c.changes := by
        intro end_
        rw [← List.append_assoc, List.append_assoc _ [0], List.singleton_append]
        refine c_string_zero (fun x hx => ?_) _
        rcases List.mem_append.mp hx with hx | hx
        · exact hzero x (List.mem_of_mem_take hx)
        · exact hc x hx
      constructor
      · rintro ⟨typo, correct, hsome, ht, hk⟩
        obtain ⟨rfl, rfl⟩ := Prod.mk.inj (Option.some.inj hsome)
        rw [c_string_zero hzero] at ht
        rw [hcorrect] at hk
        exact ⟨Int.natCast_nonneg n, hroom, ht, hk⟩
      · rintro ⟨-, -, ht, hk⟩
        exact ⟨_, _, rfl, by rw [c_string_zero hzero, ht], by rw [hcorrect, hk]⟩
    · rw [if_neg (by omega)]
      simp [hroom]

end

/-! ## The word of a typo -/

theorem rtakeWhile_append {α : Type*} {p : α → Bool} (l : List α) {m : List α}
    (hm : ∀ x ∈ m, p x) : (l ++ m).rtakeWhile p = l.rtakeWhile p ++ m := by
  induction m using List.reverseRecOn with
  | nil => simp
  | append_singleton m x ih =>
    rw [← List.append_assoc, List.rtakeWhile_concat, if_pos (hm x (by simp)),
      ih fun y hy => hm y (List.mem_append_left _ hy), List.append_assoc]

theorem char_of_key_code {c : Char} (hc : (TYPO_CHARS c).isSome) : char_of (key_code c) = c := by
  have hkinds : 4 ≤ (key_code c).toNat ∧ (key_code c).toNat ≤ 29 ∨ key_code c = KC_SPC ∨
      key_code c = KC_QUOT := by
    obtain ⟨-, hcode⟩ | ⟨-, hcode⟩ | ⟨n, -, hcode⟩ := typo_kinds hc
    · exact .inr (.inr hcode)
    · exact .inr (.inl hcode)
    · left
      have hall : ∀ n : Fin 26, 4 ≤ (UInt8.ofNat (n.val + 97 + 4 - 97)).toNat ∧
          (UInt8.ofNat (n.val + 97 + 4 - 97)).toNat ≤ 29 := by decide
      rw [hcode]
      exact hall n
  obtain ⟨hchar, hcode⟩ := key_code_char_of hkinds
  exact key_code_inj hchar hc hcode

section

variable {e : str × str} {b front trail : str}

theorem before_typo_eq (hbody : b = front ++ strip e.1 ++ trail)
    (htrail : trail.length = trailing e.1) : before_typo e b = front.rtakeWhile (· ≠ ':') := by
  have hlength : b.length - trailing e.1 - (strip e.1).length = front.length := by
    rw [hbody]
    simp only [List.length_append]
    omega
  unfold before_typo
  rw [hlength, hbody, List.append_assoc, List.take_left]

theorem ends_split (hends : e.1 <:+ b) : ∃ front trail, b = front ++ strip e.1 ++ trail ∧
    (∀ c ∈ trail, c = ':') ∧ trail.length = trailing e.1 := by
  obtain ⟨pre, hpre⟩ := hends
  obtain ⟨lead, trail, hsplit, hbreaks, hlength⟩ := strip_trail e.1
  exact ⟨pre ++ lead, trail, by rw [← hpre, List.append_assoc pre, List.append_assoc pre,
    ← hsplit], hbreaks, hlength⟩

theorem getLast_iff (hne : e.1 ≠ []) (hends : e.1 <:+ b) :
    b.getLast? = some ':' ↔ 1 ≤ trailing e.1 := by
  obtain ⟨pre, rfl⟩ := hends
  rw [← word_boundary_iff, List.getLast?_append_of_ne_nil _ hne]
  rfl

theorem kept_sent (h : LeafAsserted e.1 e.2) (hne : e.1 ≠ []) (hends : e.1 <:+ b) :
    kept b (sent e) =
      (last_word b).length - ((strip e.1).length - common (strip e.1) e.2 : Nat) := by
  unfold kept
  rw [sent_backspaces]
  by_cases hend : 1 ≤ trailing e.1
  · rw [if_pos ((getLast_iff hne hends).mpr hend), if_pos hend]
  · have hlt := common_lt h hend
    rw [if_neg (mt (getLast_iff hne hends).mp hend), if_neg hend]
    omega

/-- A typo within one word: it is in the last word that the code finds. -/
theorem last_word_eq (hne : e.1 ≠ []) (hends : e.1 <:+ b) (hinner : ':' ∉ strip e.1)
    (hending : trailing e.1 ≤ 1 ∨ typo_word e b = []) : last_word b = typo_word e b := by
  obtain ⟨front, trail, hsplit, hbreaks, htrail⟩ := ends_split hends
  have hletters : ∀ c ∈ strip e.1, decide (c ≠ ':') = true := fun c hc => by
    have hbreak : c ≠ ':' := fun hsame => hinner (hsame ▸ hc)
    simpa using hbreak
  have hlast := getLast_iff hne hends
  unfold typo_word at hending ⊢
  rw [before_typo_eq hsplit htrail] at hending ⊢
  rw [← rtakeWhile_append front hletters]
  unfold last_word
  rcases Nat.lt_or_ge (trailing e.1) 1 with hnone | hsome
  · have hnil : trail = [] := List.length_eq_zero_iff.mp (by omega)
    rw [if_neg (mt hlast.mp (by omega)), hsplit, hnil, List.append_nil]
  · obtain ⟨more, c, rfl⟩ : ∃ more c, trail = more ++ [c] := by
      rcases List.eq_nil_or_concat trail with hnil | ⟨more, c, hconcat⟩
      · rw [hnil, List.length_nil] at htrail
        omega
      · exact ⟨more, c, by rw [hconcat, List.concat_eq_append]⟩
    rw [if_pos (hlast.mpr hsome), hsplit, ← List.append_assoc, List.dropLast_concat]
    rw [List.length_append, List.length_singleton] at htrail
    rcases List.eq_nil_or_concat more with hnil | ⟨more', d, hconcat⟩
    · rw [hnil, List.append_nil]
    · -- with another word break in front of the last one, both words are empty
      have hd : d = ':' := hbreaks d (by simp [hconcat])
      rw [hconcat, List.concat_eq_append, List.length_append, List.length_singleton] at htrail
      rw [hconcat, List.concat_eq_append, ← List.append_assoc, List.rtakeWhile_concat, hd,
        if_neg (by simp), rtakeWhile_append front hletters]
      exact (hending.resolve_left (by omega)).symm

theorem last_word_nil (hne : e.1 ≠ []) (hends : e.1 <:+ b) (htwo : 2 ≤ trailing e.1) :
    last_word b = [] := by
  obtain ⟨front, trail, hsplit, hbreaks, htrail⟩ := ends_split hends
  obtain ⟨more, c, d, rfl⟩ : ∃ more c d, trail = more ++ [c] ++ [d] := by
    rcases List.eq_nil_or_concat trail with hnil | ⟨rest, d, hconcat⟩
    · rw [hnil, List.length_nil] at htrail
      omega
    · rcases List.eq_nil_or_concat rest with hnil | ⟨more, c, hrest⟩
      · rw [hconcat, hnil] at htrail
        simp at htrail
        omega
      · exact ⟨more, c, d, by rw [hconcat, hrest, List.concat_eq_append, List.concat_eq_append]⟩
  have hc : c = ':' := hbreaks c (by simp)
  unfold last_word
  rw [if_pos ((getLast_iff hne hends).mpr (by omega)), hsplit, ← List.append_assoc,
    List.dropLast_concat, ← List.append_assoc, List.rtakeWhile_concat, hc, if_neg (by simp)]

end

/-! ## When they are right -/

section

variable {autocorrections : List (str × str)} {lib : library} {e : str × str} {b : str}

theorem typo_word_chars (hb : ∀ c ∈ b, (TYPO_CHARS c).isSome)
    (htypo : ∀ c ∈ e.1, (TYPO_CHARS c).isSome) : ∀ c ∈ typo_word e b, (TYPO_CHARS c).isSome := by
  intro c hc
  rcases List.mem_append.mp hc with hc | hc
  · exact hb c (List.mem_of_mem_take (mem_rtakeWhile hc))
  · exact htypo c (mem_strip hc)

theorem letters_eq_ascii {w : str} (hw : ∀ c ∈ w, (TYPO_CHARS c).isSome ∧ c ≠ ':')
    (hquote : QUOTE ∉ w) : letters w = ascii w := by
  refine List.map_congr_left fun c hc => ?_
  have hc' : c ≠ QUOTE := fun hsame => hquote (hsame ▸ hc)
  rw [(letter_key_code (hw c hc).1 (hw c hc).2).1, if_neg hc']

theorem letters_ge {w : str} (hw : ∀ c ∈ w, (TYPO_CHARS c).isSome ∧ c ≠ ':') {x : UInt8}
    (hx : x ∈ letters w) : 97 ≤ x.toNat := by
  obtain ⟨c, hc, rfl⟩ := List.mem_map.mp hx
  obtain ⟨hchar, hbreak⟩ := hw c hc
  obtain ⟨hletter, -⟩ := letter_key_code hchar hbreak
  rw [hletter]
  split
  · decide
  · rename_i hquote
    obtain ⟨hsame, -⟩ | ⟨hsame, -⟩ | ⟨n, hn, -⟩ := typo_kinds hchar
    · exact absurd hsame hquote
    · exact absurd hsame hbreak
    · rw [UInt8.toNat_ofNat', Nat.mod_eq_of_lt (by omega)]
      omega

theorem sent_zero_free (e : str × str) : ∀ x ∈ (sent e).changes, x ≠ 0 := by
  intro x hx
  simpa using List.mem_takeWhile_imp hx

theorem sent_whole_iff (h : LeafAsserted e.1 e.2) :
    (sent e).changes = ascii (changes e.1 e.2) ↔ Char.ofNat 0 ∉ changes e.1 e.2 := by
  constructor
  · intro hwhole hmem
    have hzero : (0 : UInt8) ∈ ascii (changes e.1 e.2) := List.mem_map.mpr ⟨_, hmem, rfl⟩
    rw [← hwhole] at hzero
    exact sent_zero_free e 0 hzero rfl
  · intro hno
    refine List.takeWhile_eq_self_iff.mpr fun x hx => ?_
    obtain ⟨c, hc, rfl⟩ := List.mem_map.mp hx
    have hascii := h.2 c hc
    have hzero : UInt8.ofNat c.toNat ≠ 0 := by
      intro hz
      have hnat : c.toNat = 0 := by
        have htoNat := congrArg UInt8.toNat hz
        rwa [UInt8.toNat_ofNat', Nat.mod_eq_of_lt (by omega)] at htoNat
      refine hno ?_
      rwa [← hnat, Char.ofNat_toNat]
    simpa using hzero

/-- For a typo within one word the strings are right exactly when the word has no
quote and the correction has room and no zero. -/
theorem copied_iff (h : LeafAsserted e.1 e.2) (hne : e.1 ≠ []) (hends : e.1 <:+ b)
    (hinner : ':' ∉ strip e.1) (hending : trailing e.1 ≤ 1 ∨ typo_word e b = [])
    (hletters : letters (last_word b) = ascii (typo_word e b)) :
    (0 ≤ kept b (sent e) ∧
        (kept b (sent e)).toNat + (sent e).changes.length ≤ lib.AUTOCORRECT_MAX_LENGTH + 9 ∧
        (letters (last_word b)).take (kept b (sent e)).toNat ++ (sent e).changes =
          ascii (correct_word e b)) ↔
      Char.ofNat 0 ∉ changes e.1 e.2 ∧
        (correct_word e b).length ≤ lib.AUTOCORRECT_MAX_LENGTH + 9 := by
  obtain ⟨hle, hle'⟩ := common_le (strip e.1) e.2
  have hkept : kept b (sent e) =
      ((before_typo e b).length + common (strip e.1) e.2 : Nat) := by
    rw [kept_sent h hne hends, last_word_eq hne hends hinner hending]
    unfold typo_word
    rw [List.length_append]
    omega
  have htake : (ascii (typo_word e b)).take ((before_typo e b).length + common (strip e.1) e.2) =
      ascii (before_typo e b) ++ ascii (e.2.take (common (strip e.1) e.2)) := by
    unfold typo_word ascii
    rw [← List.map_take, List.take_length_add_append, take_common, List.map_append]
  have hcorrect : ascii (correct_word e b) = ascii (before_typo e b) ++
      ascii (e.2.take (common (strip e.1) e.2)) ++ ascii (changes e.1 e.2) := by
    unfold correct_word ascii changes
    rw [List.append_assoc, ← List.map_append, ← List.map_append, List.take_append_drop]
  have hlength : (correct_word e b).length =
      (before_typo e b).length + common (strip e.1) e.2 + (changes e.1 e.2).length := by
    unfold correct_word changes
    rw [List.length_append, List.length_drop]
    omega
  rw [hletters, hkept, Int.toNat_natCast, htake, hcorrect, List.append_cancel_left_eq,
    sent_whole_iff h, hlength]
  have hsame : Char.ofNat 0 ∉ changes e.1 e.2 →
      (sent e).changes.length = (changes e.1 e.2).length := fun hno => by
    rw [(sent_whole_iff h).mpr hno]
    exact List.length_map _
  constructor
  · rintro ⟨-, hroom, hno⟩
    exact ⟨hno, by rw [← hsame hno]; exact hroom⟩
  · rintro ⟨hno, hroom⟩
    exact ⟨Int.natCast_nonneg _, by rw [hsame hno]; exact hroom, hno⟩

/-- For the keys of a buffer that ends with the typo. -/
theorem assembles_iff (h : Parsed autocorrections)
    (hlib : generate_autocorrect_data autocorrections = some lib) (he : e ∈ autocorrections)
    (hb : ∀ c ∈ b, (TYPO_CHARS c).isSome) (hlength : b.length ≤ lib.AUTOCORRECT_MAX_LENGTH)
    (hends : e.1 <:+ b) : Assembles lib (b.map key_code) e ↔ Fits lib b e := by
  have hfits := leaf_asserted h hlib he
  have hne := h.nonempty e he
  have hbne : b ≠ [] := fun hnil => hne (List.suffix_nil.mp (hnil ▸ hends))
  have hkeys : (b.map key_code).map char_of = b := by
    rw [List.map_map]
    exact (List.map_congr_left fun c hc => char_of_key_code (hb c hc)).trans (List.map_id _)
  have hlast := last_word_chars hb
  have hword := typo_word_chars hb (h.chars e he)
  unfold Assembles
  rw [check_of_ends h hlib hb he hends, Option.bind_some, hkeys,
    gather_iff hb hbne hlength (sent_zero_free e)]
  constructor
  · rintro ⟨hpos, hroom, htypo, hcorrect⟩
    have hge : ∀ c ∈ typo_word e b, 97 ≤ c.toNat := by
      intro c hc
      have hmem : UInt8.ofNat c.toNat ∈ letters (last_word b) := by
        rw [htypo]
        exact List.mem_map_of_mem hc
      have hbyte := letters_ge hlast hmem
      have hsmall := typo_chars_ascii (hword c hc)
      rwa [UInt8.toNat_ofNat', Nat.mod_eq_of_lt (by omega)] at hbyte
    have hinner : ':' ∉ strip e.1 := fun hmem =>
      absurd (hge ':' (List.mem_append_right _ hmem)) (by decide)
    have hending : trailing e.1 ≤ 1 ∨ typo_word e b = [] := by
      rcases Nat.lt_or_ge 1 (trailing e.1) with htwo | hone
      · rw [last_word_nil hne hends htwo] at htypo
        exact .inr (List.map_eq_nil_iff.mp htypo.symm)
      · exact .inl hone
    obtain ⟨htext, hfit⟩ :=
      (copied_iff hfits hne hends hinner hending htypo).mp ⟨hpos, hroom, hcorrect⟩
    exact ⟨hinner, hending, fun hmem => absurd (hge QUOTE hmem) (by decide), htext, hfit⟩
  · intro hfit
    have hsame := last_word_eq hne hends hfit.inner hfit.ending
    have htypo : letters (last_word b) = ascii (typo_word e b) := by
      rw [← hsame]
      exact letters_eq_ascii hlast (by rw [hsame]; exact hfit.letters)
    obtain ⟨hpos, hroom, hcorrect⟩ :=
      (copied_iff hfits hne hends hfit.inner hfit.ending htypo).mpr ⟨hfit.text, hfit.room⟩
    exact ⟨hpos, hroom, htypo, hcorrect⟩

end

/-! ## Every run -/

/-- When a key triggers a correction, the strings are right exactly when they fit. -/
def Copied (autocorrections : List (str × str)) (lib : library) (x : session) (k : stroke) : Prop :=
  ∀ buffer, typed_buffer lib x.keyboard k = some buffer →
    ∀ e ∈ autocorrections, e.1.map key_code <:+ buffer →
      (Assembles lib buffer e ↔ Fits lib (buffer.map char_of) e)

/-- Whatever is typed, a typo that triggers gets its word before and after the
correction into the arrays exactly when it fits. -/
theorem words_are_assembled_exactly_when_they_fit {autocorrections : List (str × str)}
    {lib : library} (h : Parsed autocorrections)
    (hlib : generate_autocorrect_data autocorrections = some lib) (autocorrect_enable : Bool)
    (text : str) (ks : List stroke) :
    Along (step lib) (Copied autocorrections lib) (start autocorrect_enable text) ks := by
  have hpos := max_length_pos h hlib
  refine Along.imp (I := fun x => Buffered lib x.keyboard.typo_buffer) (C := fun _ _ => True)
    (fun x k hx _ => ⟨?_, process_buffered hpos hx⟩) (.boundary hpos)
    (.of_forall (fun _ _ => trivial) _ _)
  intro buffer htyped e he hends
  obtain ⟨b, rfl, hchars, hlength⟩ := typed_buffered hx hpos htyped
  have hkeys : (b.map key_code).map char_of = b := by
    rw [List.map_map]
    exact (List.map_congr_left fun c hc => char_of_key_code (hchars c hc)).trans (List.map_id _)
  rw [codes_suffix (h.chars e he) hchars] at hends
  rw [hkeys]
  exact assembles_iff h hlib he hchars hlength hends

theorem words_of_thier_are_assembled :
    Along (step THIER) (Copied [("thier".toList, "their".toList)] THIER) (start true [])
      ("thier".toList.map fun c => press (c, ' ')) :=
  words_are_assembled_exactly_when_they_fit
    { nonempty := by simp
      chars := List.forall_mem_singleton.mpr (List.all_eq_true.mp (by decide))
      length := by decide
      apart := List.pairwise_singleton _ _ } rfl true [] _

/-- The typo `:the:the:` of the default dictionary: the two words are seven keys, four
of which are replaced, and the code finds three of them. The text is written from in
front of `correct` on. -/
theorem the_the_is_written_outside :
    Parsed [(":the:the:".toList, "the".toList)] ∧
      ∃ lib, generate_autocorrect_data [(":the:the:".toList, "the".toList)] = some lib ∧
        ∃ ks k buffer c,
          typed_buffer lib (List.foldl (step lib) (start true []) ks).keyboard k = some buffer ∧
            check lib buffer = some c ∧ gather lib buffer c = none := by
  refine ⟨?_, _, rfl, "the:the".toList.map fun c => press (c, ' '), press (':', ' '), _, _, rfl,
    rfl, by decide⟩
  exact ⟨by simp, List.forall_mem_singleton.mpr (List.all_eq_true.mp (by decide)), by decide,
    List.pairwise_singleton _ _⟩

end keychron_qmk.autocorrect
