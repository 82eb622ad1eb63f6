-- The corrections of autocorrect: what the text becomes when one is sent, and
-- for which dictionaries each typo is replaced by its correction.
import KeychronQMK.Autocorrect.Firmware

namespace keychron_qmk.autocorrect

open runs

/-! ## The text -/

/-- What a key that is passed on does to the text: letters are without case. A key
with another modifier than Shift does not type. -/
def stroke.types (k : stroke) (autocorrect_enable : Bool) (text : str) : str :=
  if !autocorrect_enable then k.edit text
  else if !k.pressed then text
  else if k.handler = .escape then text
  else if k.mods &&& ~~~MOD_MASK_SHIFT ≠ 0 then k.edit text
  else match k.input with
    | .ignore => text
    | .clear => k.edit text
    | .backspace => text.dropLast
    | .append code => text ++ [if code = KC_SPC then k.typed else char_of code]
    | .enter => text ++ [k.typed]

def correction_t.apply (c : correction_t) (text : str) : str :=
  text.take (text.length - c.backspaces) ++ c.changes.map fun b => Char.ofNat b.toNat

/-- The keyboard and the text typed so far. -/
structure session where
  keyboard : autocorrect_t
  text : str

def step (lib : library) (x : session) (k : stroke) : session :=
  let (keyboard, passed, fired) := process_autocorrect lib x.keyboard k
  let text := (fired.map fun c => c.apply x.text).getD x.text
  ⟨keyboard, if passed then k.types x.keyboard.autocorrect_enable text else text⟩

/-- The word breaks at the end of a typo. -/
def trailing (typo : str) : Nat := (typo.rtakeWhile (· = ':')).length

/-- The text that ends with a typo, with the typo replaced by its correction: the
word breaks around it stay. -/
def corrected (e : str × str) (text : str) : str :=
  text.take (text.length - trailing e.1 - (strip e.1).length) ++ e.2 ++
    text.drop (text.length - trailing e.1)

/-! ## The correction that is sent -/

/-- The dictionary entries that are replaced: a typo with more than one word
break at its end is its own correction, what is kept of a typo has no word
break in it, and what is sent has no zero in it. -/
structure Whole (e : str × str) : Prop where
  ending : trailing e.1 ≤ 1 ∨ e.2 = strip e.1
  kept : ':' ∉ e.2.take (common (strip e.1) e.2)
  text : Char.ofNat 0 ∉ changes e.1 e.2

/-- The text has the characters of the typo, and any for its word breaks. -/
def Spells : str → str → Prop := List.Forall₂ fun c x => c ≠ ':' → x = c

theorem common_le (s s' : str) : common s s' ≤ s.length ∧ common s s' ≤ s'.length := by
  induction s generalizing s' with
  | nil => simp [common]
  | cons c s ih =>
    cases s' with
    | nil => simp [common]
    | cons c' s' =>
      have := ih s'
      unfold common
      split
      · simpa using this
      · simp

theorem common_self (s : str) : common s s = s.length := by
  induction s with
  | nil => rfl
  | cons c s ih => simp [common, ih]

theorem take_common (s s' : str) : s.take (common s s') = s'.take (common s s') := by
  induction s generalizing s' with
  | nil => simp [common]
  | cons c s ih =>
    cases s' with
    | nil => simp [common]
    | cons c' s' =>
      unfold common
      split
      · rename_i hc
        rw [List.take_succ_cons, List.take_succ_cons, ih, hc]
      · rfl

theorem spells_without_break {s x : str} (h : Spells s x) (hs : ':' ∉ s) : x = s := by
  induction h with
  | nil => rfl
  | cons hc _ ih =>
    obtain ⟨hbreak, hrest⟩ := not_or.mp (List.mem_cons.not.mp hs)
    rw [hc (Ne.symm hbreak), ih hrest]

/-- The typo is its word breaks at the start, what is left of it, and its word
breaks at the end. -/
theorem strip_split {typo : str} (h : strip typo ≠ []) :
    ∃ lead trail, typo = lead ++ strip typo ++ trail ∧ (∀ c ∈ lead, c = ':') ∧
      (∀ c ∈ trail, c = ':') ∧ trail.length = trailing typo ∧ (strip typo).head h ≠ ':' := by
  let p : Char → Bool := fun c => c = ':'
  have hall : ¬ ∀ c ∈ typo.dropWhile p, p c := mt List.rdropWhile_eq_nil_iff.mpr h
  have htrailing : typo.rtakeWhile p = (typo.dropWhile p).rtakeWhile p := by
    have hshort : ((typo.dropWhile p).reverse.takeWhile p).length ≠
        (typo.dropWhile p).reverse.length := by
      intro hsame
      refine hall fun c hc => ?_
      have hwhole := List.takeWhile_eq_self_iff.mp
        ((List.takeWhile_prefix p).eq_of_length hsame)
      exact hwhole c (List.mem_reverse.mpr hc)
    have hsplit : typo.reverse = (typo.dropWhile p).reverse ++ (typo.takeWhile p).reverse := by
      rw [← List.reverse_append, List.takeWhile_append_dropWhile]
    unfold List.rtakeWhile
    rw [hsplit, List.takeWhile_append, if_neg hshort]
  refine ⟨typo.takeWhile p, (typo.dropWhile p).rtakeWhile p, ?_, ?_, ?_, ?_, ?_⟩
  · have hbody : strip typo ++ (typo.dropWhile p).rtakeWhile p = typo.dropWhile p :=
      List.rdropWhile_append_rtakeWhile
    rw [List.append_assoc, hbody, List.takeWhile_append_dropWhile]
  · intro c hc
    simpa [p] using List.mem_takeWhile_imp hc
  · intro c hc
    simpa [p] using List.mem_rtakeWhile_imp hc
  · exact congrArg List.length htrailing.symm
  · have hstart : strip typo <+: typo.dropWhile p := List.rdropWhile_prefix p _
    have hne : typo.dropWhile p ≠ [] := fun hnil => h (List.prefix_nil.mp (hnil ▸ hstart))
    have hhead := List.head_dropWhile_not p hne
    rw [hstart.head h]
    simpa [p] using hhead

theorem word_boundary_iff (typo : str) : word_boundary_ending typo ↔ 1 ≤ trailing typo := by
  unfold word_boundary_ending trailing
  rw [Nat.one_le_iff_ne_zero, Ne, List.length_eq_zero_iff, List.rtakeWhile_eq_nil_iff]
  rcases List.eq_nil_or_concat typo with rfl | ⟨front, c, rfl⟩
  · simp
  · simp

section

variable {e : str × str}

theorem sent_chars (h : LeafAsserted e.1 e.2) :
    ((sent e).changes.map fun b => Char.ofNat b.toNat) =
      (changes e.1 e.2).takeWhile (· ≠ Char.ofNat 0) := by
  unfold sent c_string
  have hascii := h.2
  generalize changes e.1 e.2 = cs at hascii
  induction cs with
  | nil => rfl
  | cons c cs ih =>
    obtain ⟨hc, hcs⟩ := List.forall_mem_cons.mp hascii
    have hback : Char.ofNat (UInt8.ofNat c.toNat).toNat = c := by
      rw [UInt8.toNat_ofNat', Nat.mod_eq_of_lt (by omega), Char.ofNat_toNat]
    have hzero : UInt8.ofNat c.toNat = 0 ↔ c = Char.ofNat 0 := by
      constructor
      · intro hz
        rw [← hback, hz]
        rfl
      · rintro rfl
        rfl
    rw [List.map_cons, List.takeWhile_cons, List.takeWhile_cons]
    by_cases hz : c = Char.ofNat 0
    · simp [hz]
    · have hnz : UInt8.ofNat c.toNat ≠ 0 := mt hzero.mp hz
      simp only [hz, hnz, ne_eq, not_false_eq_true, decide_true, if_true, List.map_cons, hback,
        ih hcs]

/-- The backspaces delete what is not kept of the typo, without the key that
is swallowed. -/
theorem sent_backspaces (e : str × str) :
    (sent e).backspaces = if 1 ≤ trailing e.1 then (strip e.1).length - common (strip e.1) e.2
      else (strip e.1).length - common (strip e.1) e.2 - 1 := by
  unfold sent backspaces
  dsimp only
  by_cases hend : 1 ≤ trailing e.1
  · rw [if_pos ((word_boundary_iff e.1).mpr hend), if_pos hend]
    omega
  · rw [if_neg (mt (word_boundary_iff e.1).mp hend), if_neg hend]
    omega

theorem common_lt (h : LeafAsserted e.1 e.2) (hend : ¬ 1 ≤ trailing e.1) :
    common (strip e.1) e.2 + 1 ≤ (strip e.1).length := by
  obtain ⟨⟨hpos, -⟩, -⟩ := h
  unfold backspaces at hpos
  rw [if_neg (mt (word_boundary_iff e.1).mp hend)] at hpos
  omega

/-- The text when the last key of the typo has been handled: a word break is
passed on. -/
def outcome (e : str × str) (text : str) (last : Char) : str :=
  if 1 ≤ trailing e.1 then (sent e).apply text ++ [last] else (sent e).apply text

variable {text front body trail : str} {last : Char}

theorem corrected_eq (hbody : body.length = (strip e.1).length)
    (htrail : trail.length = trailing e.1) :
    corrected e (front ++ body ++ trail) = front ++ e.2 ++ trail := by
  have htake : (front ++ body ++ trail).length - trailing e.1 - (strip e.1).length =
      front.length := by
    simp only [List.length_append]
    omega
  have hdrop : (front ++ body ++ trail).length - trailing e.1 = (front ++ body).length := by
    simp only [List.length_append]
    omega
  unfold corrected
  rw [htake, hdrop, List.drop_left, List.append_assoc front body, List.take_left]

/-- Where the backspaces end, and what is sent there. -/
theorem outcome_eq (h : LeafAsserted e.1 e.2) (hbody : body.length = (strip e.1).length)
    (htrail : trail.length = trailing e.1) (hafter : text ++ [last] = front ++ body ++ trail) :
    outcome e text last =
      if 1 ≤ trailing e.1 then
        (front ++ body ++ trail).take
            (front.length + common (strip e.1) e.2 + (trailing e.1 - 1)) ++
          (changes e.1 e.2).takeWhile (· ≠ Char.ofNat 0) ++ [last]
      else front ++ body.take (common (strip e.1) e.2) ++
        (changes e.1 e.2).takeWhile (· ≠ Char.ofNat 0) := by
  have hlength : text.length + 1 = front.length + body.length + trail.length := by
    have := congrArg List.length hafter
    simpa [Nat.add_assoc] using this
  have hle := (common_le (strip e.1) e.2).1
  have htext : ∀ m ≤ text.length, text.take m = (front ++ body ++ trail).take m := by
    intro m hm
    rw [← hafter, List.take_append_of_le_length hm]
  unfold outcome correction_t.apply
  rw [sent_chars h, sent_backspaces]
  by_cases hend : 1 ≤ trailing e.1
  · rw [if_pos hend, if_pos hend, if_pos hend, htext _ (by omega)]
    congr 4
    omega
  · have hlt := common_lt h hend
    rw [if_neg hend, if_neg hend, if_neg hend, htext _ (by omega)]
    have hnil : trail = [] := List.length_eq_zero_iff.mp (by omega)
    subst hnil
    rw [List.append_nil]
    have hcount : text.length - ((strip e.1).length - common (strip e.1) e.2 - 1) =
        front.length + common (strip e.1) e.2 := by
      omega
    rw [hcount, List.take_length_add_append]

/-- A typo with at most one word break at its end is replaced when what is kept
and what is sent make the correction. -/
theorem outcome_corrected_iff (h : LeafAsserted e.1 e.2)
    (hbody : body.length = (strip e.1).length) (htrail : trail.length = trailing e.1)
    (hafter : text ++ [last] = front ++ body ++ trail) (hone : trailing e.1 ≤ 1) :
    outcome e text last = corrected e (text ++ [last]) ↔
      body.take (common (strip e.1) e.2) ++ (changes e.1 e.2).takeWhile (· ≠ Char.ofNat 0) =
        e.2 := by
  have hle := (common_le (strip e.1) e.2).1
  rw [hafter, corrected_eq hbody htrail, outcome_eq h hbody htrail hafter]
  split
  · rename_i hend
    have hlast : trail = [last] := by
      obtain ⟨x, rfl⟩ := List.length_eq_one_iff.mp (by omega : trail.length = 1)
      have := List.append_inj_right' hafter rfl
      exact this.symm
    have hcount : front.length + common (strip e.1) e.2 + (trailing e.1 - 1) =
        front.length + common (strip e.1) e.2 := by omega
    rw [hcount, List.append_assoc front, List.take_length_add_append,
      List.take_append_of_le_length (by omega), hlast, List.append_assoc front,
      List.append_cancel_right_eq, List.append_cancel_left_eq]
  · rename_i hend
    have hnil : trail = [] := List.length_eq_zero_iff.mp (by omega)
    rw [hnil, List.append_nil, List.append_assoc, List.append_cancel_left_eq]

/-- Nothing is deleted and nothing is sent for a typo that is its own
correction. -/
theorem outcome_same (hsame : e.2 = strip e.1) (hend : 1 ≤ trailing e.1) (text : str)
    (last : Char) : outcome e text last = text ++ [last] := by
  have hall : common (strip e.1) e.2 = (strip e.1).length := by rw [hsame, common_self]
  have hnothing : changes e.1 e.2 = [] := by
    unfold changes
    rw [hall, hsame, List.drop_length]
  have hkeeps : (sent e).backspaces = 0 := by
    rw [sent_backspaces, if_pos hend, hall, Nat.sub_self]
  have hempty : (sent e).changes = [] := by
    unfold sent
    rw [hnothing]
    rfl
  unfold outcome correction_t.apply
  rw [if_pos hend, hkeeps, hempty, Nat.sub_zero, List.take_length, List.map_nil, List.append_nil]

/-- A whole entry is replaced wherever its typo ends the text. -/
theorem Whole.outcome (hwhole : Whole e) (h : LeafAsserted e.1 e.2)
    (hspells : Spells (strip e.1) body) (htrail : trail.length = trailing e.1)
    (hafter : text ++ [last] = front ++ body ++ trail) :
    outcome e text last = corrected e (text ++ [last]) := by
  have hbody : body.length = (strip e.1).length := hspells.length_eq.symm
  have hkept : body.take (common (strip e.1) e.2) = e.2.take (common (strip e.1) e.2) := by
    have hpart : Spells ((strip e.1).take (common (strip e.1) e.2))
        (body.take (common (strip e.1) e.2)) := List.forall₂_take _ hspells
    rw [take_common] at hpart
    exact spells_without_break hpart hwhole.kept
  by_cases hone : trailing e.1 ≤ 1
  · have hwhole_text : (changes e.1 e.2).takeWhile (· ≠ Char.ofNat 0) = changes e.1 e.2 := by
      rw [List.takeWhile_eq_self_iff]
      intro c hc
      have hne : c ≠ Char.ofNat 0 := fun hzero => hwhole.text (hzero ▸ hc)
      simpa using hne
    rw [outcome_corrected_iff h hbody htrail hafter hone, hkept, hwhole_text]
    exact List.take_append_drop _ _
  · have hsame : e.2 = strip e.1 := hwhole.ending.resolve_left hone
    have hall : common (strip e.1) e.2 = (strip e.1).length := by rw [hsame, common_self]
    rw [hall, List.take_of_length_le (by omega), hsame, List.take_length] at hkept
    rw [outcome_same hsame (by omega), hafter, corrected_eq hbody htrail, hsame, hkept]

end

/-! ## The buffer reads the text -/

/-- The keys of the buffer are those that typed the end of the text. A word break
in front of them may stand for none. -/
def Reads (typo_buffer : List UInt8) (text : str) : Prop :=
  ∃ b cs : List Char, typo_buffer = b.map key_code ∧ (∀ c ∈ b, (TYPO_CHARS c).isSome) ∧
    cs <:+ text ∧ (Spells b cs ∨ ∃ b', b = ':' :: b' ∧ Spells b' cs)

theorem spells_append {a b cs : List Char} (h : Spells (a ++ b) cs) :
    ∃ x y, cs = x ++ y ∧ Spells a x ∧ Spells b y := by
  induction a generalizing cs with
  | nil => exact ⟨[], cs, rfl, .nil, h⟩
  | cons c a ih =>
    obtain ⟨x, cs, hc, hrest, rfl⟩ := List.forall₂_cons_left_iff.mp h
    obtain ⟨xs, ys, rfl, hxs, hys⟩ := ih hrest
    exact ⟨x :: xs, ys, rfl, .cons hc hxs, hys⟩

namespace Reads

variable {typo_buffer : List UInt8} {text : str}

theorem nil (text : str) : Reads [] text :=
  ⟨[], [], rfl, by simp, List.nil_suffix, .inl .nil⟩

theorem boundary (text : str) : Reads [KC_SPC] text :=
  ⟨[':'], [], by decide, List.forall_mem_singleton.mpr (by decide), List.nil_suffix,
    .inr ⟨[], rfl, .nil⟩⟩

theorem tail {code : UInt8} (h : Reads (code :: typo_buffer) text) : Reads typo_buffer text := by
  obtain ⟨b, cs, hb, hchars, hcs, hspells⟩ := h
  obtain ⟨c, b, rfl, -, hrest⟩ := List.map_eq_cons_iff.mp hb.symm
  have hchars' := (List.forall_mem_cons.mp hchars).2
  rcases hspells with hspells | ⟨b', hb', hspells⟩
  · obtain ⟨x, cs, -, hbehind, rfl⟩ := List.forall₂_cons_left_iff.mp hspells
    exact ⟨b, cs, hrest.symm, hchars', (List.suffix_cons _ _).trans hcs, .inl hbehind⟩
  · obtain ⟨-, rfl⟩ := List.cons.inj hb'
    exact ⟨b, cs, hrest.symm, hchars', hcs, .inl hspells⟩

theorem dropLast (h : Reads typo_buffer text) : Reads typo_buffer.dropLast text.dropLast := by
  obtain ⟨b, cs, rfl, hchars, ⟨front, rfl⟩, hspells⟩ := h
  have hsuffix : cs.dropLast <:+ (front ++ cs).dropLast := by
    rcases eq_or_ne cs [] with rfl | hne
    · exact List.nil_suffix
    · exact ⟨front, (List.dropLast_append_of_ne_nil hne).symm⟩
  have hdrop : ∀ {b}, Spells b cs → Spells b.dropLast cs.dropLast := by
    intro b hspells
    rw [List.dropLast_eq_take, List.dropLast_eq_take, ← hspells.length_eq]
    exact List.forall₂_take _ hspells
  rw [← List.map_dropLast]
  rcases hspells with hspells | ⟨b', rfl, hspells⟩
  · exact ⟨b.dropLast, cs.dropLast, rfl, fun c hc => hchars c (List.mem_of_mem_dropLast hc),
      hsuffix, .inl (hdrop hspells)⟩
  · rcases eq_or_ne b' [] with rfl | hne
    · exact .nil _
    · exact ⟨_, cs.dropLast, rfl, fun c hc => hchars c (List.mem_of_mem_dropLast hc), hsuffix,
        .inr ⟨b'.dropLast, List.dropLast_cons_of_ne_nil hne, hdrop hspells⟩⟩

theorem push (h : Reads typo_buffer text) {c x : Char} (hc : (TYPO_CHARS c).isSome)
    (hx : c ≠ ':' → x = c) : Reads (typo_buffer ++ [key_code c]) (text ++ [x]) := by
  obtain ⟨b, cs, rfl, hchars, ⟨front, rfl⟩, hspells⟩ := h
  refine ⟨b ++ [c], cs ++ [x], by simp, ?_, ⟨front, by simp⟩, ?_⟩
  · intro d hd
    rcases List.mem_append.mp hd with hd | hd
    · exact hchars d hd
    · rwa [List.mem_singleton.mp hd]
  · rcases hspells with hspells | ⟨b', rfl, hspells⟩
    · exact .inl (List.rel_append hspells (.cons hx .nil))
    · exact .inr ⟨b' ++ [c], rfl, List.rel_append hspells (.cons hx .nil)⟩

/-- A typo at the end of the keys has its letters at the end of the text. -/
theorem ends (h : Reads typo_buffer text) {typo : str} (htypo : ∀ c ∈ typo, (TYPO_CHARS c).isSome)
    (hends : typo.map key_code <:+ typo_buffer) (hne : strip typo ≠ []) :
    ∃ front body trail, text = front ++ body ++ trail ∧ Spells (strip typo) body ∧
      trail.length = trailing typo := by
  obtain ⟨b, cs, rfl, hchars, ⟨pre, rfl⟩, hspells⟩ := h
  rw [codes_suffix htypo hchars] at hends
  obtain ⟨lead, trail, hsplit, -, -, hlength, hhead⟩ := strip_split hne
  obtain ⟨keys, hkeys⟩ := hends
  -- the letters are real keys in both cases
  have hreal : ∃ more, Spells (more ++ (strip typo ++ trail)) cs := by
    rcases hspells with hspells | ⟨b', hb', hspells⟩
    · exact ⟨keys ++ lead, by rwa [← hkeys, hsplit, List.append_assoc lead,
        ← List.append_assoc keys] at hspells⟩
    · subst hb'
      rcases List.cons_eq_append_iff.mp hkeys.symm with ⟨rfl, htypo'⟩ | ⟨keys', -, hb'⟩
      · rw [hsplit] at htypo'
        cases lead with
        | nil =>
          obtain ⟨c, body, hbody⟩ := List.exists_cons_of_ne_nil hne
          simp only [hbody, List.head_cons] at hhead
          rw [hbody] at htypo'
          exact absurd (List.cons.inj htypo').1 hhead
        | cons c lead =>
          obtain ⟨-, hrest⟩ := List.cons.inj htypo'
          have hbehind : lead ++ strip typo ++ trail = b' := hrest
          exact ⟨lead, by rwa [← List.append_assoc, hbehind]⟩
      · exact ⟨keys' ++ lead, by rwa [hb', hsplit, List.append_assoc lead,
          ← List.append_assoc keys'] at hspells⟩
  obtain ⟨more, hreal⟩ := hreal
  obtain ⟨x, y, rfl, -, hy⟩ := spells_append hreal
  obtain ⟨body, tr, rfl, hbody, htr⟩ := spells_append hy
  exact ⟨pre ++ x, body, tr, by simp, hbody, by rw [← hlength, htr.length_eq]⟩

end Reads

/-! ## One key -/

/-- The handler takes a key with Shift in its keycode before it looks at the
modifiers: it is no typing under another modifier. -/
def stroke.Typing (k : stroke) : Prop :=
  IS_LSFT k.keycode ∨ IS_RSFT k.keycode → k.mods &&& ~~~MOD_MASK_SHIFT = 0

section

variable {k : stroke}

/-- A key that the handler lets be processed is one under no modifier but
Shift. -/
theorem handler_process (hk : k.Typing) {keycode : UInt16} {mods : UInt8}
    (h : k.handler = .process keycode mods) : k.mods &&& ~~~MOD_MASK_SHIFT = 0 := by
  unfold stroke.handler process_autocorrect_default_handler at h
  dsimp only at h
  split_ifs at h with hexcluded hleft hright htap hheld hmods hswap hmods
  · exact hk (.inl hleft)
  · exact hk (.inr hright)
  · exact not_not.mp hmods
  · exact not_not.mp hmods

theorem types_of_input (hk : k.Typing) (hpressed : k.pressed) (hignore : k.input ≠ .ignore)
    (hclear : k.input ≠ .clear) (text : str) :
    k.types true text = match k.input with
      | .backspace => text.dropLast
      | .append code => text ++ [if code = KC_SPC then k.typed else char_of code]
      | .enter => text ++ [k.typed]
      | _ => text := by
  cases hhandler : k.handler with
  | escape => exact absurd (by unfold stroke.input; rw [hhandler]) hignore
  | reset => exact absurd (by unfold stroke.input; rw [hhandler]) hclear
  | process keycode mods =>
    have hmods := handler_process hk hhandler
    unfold stroke.types
    rw [hpressed, hhandler, hmods, if_neg (by simp), if_neg (by simp), if_neg (by simp),
      if_neg (by simp)]
    cases hinput : k.input with
    | ignore => rfl
    | clear => exact absurd hinput hclear
    | backspace | append | enter => rfl

theorem types_of_ignore (h : k.pressed → k.input = .ignore) (text : str) :
    k.types true text = text := by
  unfold stroke.types
  cases hpressed : k.pressed with
  | false => rfl
  | true =>
    have hinput := h hpressed
    have hescape : k.handler = .escape := by
      unfold stroke.input at hinput
      split at hinput
      · unfold buffer_check at hinput
        split_ifs at hinput
      · assumption
      · cases hinput
    rw [hescape]
    rfl

variable {autocorrections : List (str × str)} {lib : library} {x : session}

theorem rotated_reads (hs : Buffered lib x.keyboard.typo_buffer)
    (h : Reads x.keyboard.typo_buffer x.text) :
    Reads (rotate lib x.keyboard.typo_buffer) x.text := by
  obtain ⟨b, hb, -, hlength⟩ := hs
  have hsize : x.keyboard.typo_buffer.length = b.length := by rw [hb, List.length_map]
  unfold rotate
  split
  · rw [List.take_of_length_le (by rw [List.length_drop]; omega)]
    cases hbuffer : x.keyboard.typo_buffer with
    | nil => exact .nil _
    | cons code rest =>
      rw [hbuffer] at h
      exact h.tail
  · exact h

variable {buffer : List UInt8}

/-- The key that is appended to the buffer types the character that it is
there. -/
theorem typed_reads (hs : Buffered lib x.keyboard.typo_buffer)
    (h : Reads x.keyboard.typo_buffer x.text) (hk : k.Typing)
    (htyped : typed_buffer lib x.keyboard k = some buffer) :
    ∃ last, (∀ text, k.types x.keyboard.autocorrect_enable text = text ++ [last]) ∧
      Reads buffer (x.text ++ [last]) := by
  obtain ⟨⟨henable, hpressed⟩, old, code, hkey, rfl, -⟩ := process_typed htyped
  rw [henable]
  rcases hkey with ⟨hinput, rfl⟩ | ⟨hinput, rfl, rfl⟩
  · obtain ⟨hchar, hcode⟩ := input_append hinput
    refine ⟨if code = KC_SPC then k.typed else char_of code, fun text => ?_, ?_⟩
    · rw [types_of_input hk hpressed (by simp [hinput]) (by simp [hinput]), hinput]
    · have hpush := (rotated_reads hs h).push hchar
        (x := if code = KC_SPC then k.typed else char_of code) fun hbreak => by
          have hspc : code ≠ KC_SPC := fun hsame => hbreak (by rw [hsame]; rfl)
          rw [if_neg hspc]
      rwa [hcode] at hpush
  · refine ⟨k.typed, fun text => ?_, ?_⟩
    · rw [types_of_input hk hpressed (by simp [hinput]) (by simp [hinput]), hinput]
    · have hempty : rotate lib [] = [] := by
        unfold rotate
        split <;> simp
      rw [hempty]
      exact (Reads.nil x.text).push (c := ':') (x := k.typed) (by decide) fun h => absurd rfl h

/-- A key that triggers: the text gets the correction, and the buffer starts
again. -/
theorem step_fires (h : Parsed autocorrections)
    (hlib : generate_autocorrect_data autocorrections = some lib)
    (hs : Buffered lib x.keyboard.typo_buffer)
    (htyped : typed_buffer lib x.keyboard k = some buffer) {e : str × str}
    (he : e ∈ autocorrections) (hends : e.1.map key_code <:+ buffer) {last : Char}
    (hlast : ∀ text, k.types x.keyboard.autocorrect_enable text = text ++ [last]) :
    (step lib x k).text = outcome e x.text last ∧
      ((step lib x k).keyboard.typo_buffer = [] ∨
        (step lib x k).keyboard.typo_buffer = [KC_SPC]) := by
  obtain ⟨b, hb, hchars, -⟩ := typed_buffered hs (max_length_pos h hlib) htyped
  obtain ⟨-, old, code, -, hbuffer, hprocess⟩ := process_typed htyped
  have hcheck : check lib (rotate lib old ++ [code]) = some (sent e) := by
    rw [← hbuffer, hb]
    rw [hb, codes_suffix (h.chars e he) hchars] at hends
    exact check_of_ends h hlib hchars he hends
  have hbreak : code = KC_SPC ↔ 1 ≤ trailing e.1 := by
    obtain ⟨front, c, hfront⟩ := (List.eq_nil_or_concat e.1).resolve_left (h.nonempty e he)
    rw [List.concat_eq_append] at hfront
    have hc : (TYPO_CHARS c).isSome := h.chars e he c (by simp [hfront])
    have hcode : key_code c = code := by
      rw [hfront, hbuffer, List.map_append] at hends
      obtain ⟨pre, hpre⟩ := hends
      rw [← List.append_assoc] at hpre
      exact List.singleton_inj.mp (List.append_inj_right' hpre rfl)
    rw [← word_boundary_iff, ← hcode]
    unfold word_boundary_ending
    rw [hfront, List.getLast?_concat, Option.some.injEq]
    exact ⟨fun hspc => key_code_inj hc (by decide) hspc, fun hc' => by rw [hc']; rfl⟩
  have happend : append lib old code =
      if code = KC_SPC then ([KC_SPC], true, some (sent e)) else ([], false, some (sent e)) := by
    unfold append
    dsimp only
    rw [hcheck]
  unfold step outcome
  rw [hprocess, happend]
  by_cases hspc : code = KC_SPC
  · rw [if_pos hspc, if_pos (hbreak.mp hspc)]
    exact ⟨hlast _, .inr rfl⟩
  · rw [if_neg hspc, if_neg (mt hbreak.mpr hspc)]
    exact ⟨rfl, .inl rfl⟩

theorem step_quiet (h : Parsed autocorrections)
    (hlib : generate_autocorrect_data autocorrections = some lib)
    (hs : Buffered lib x.keyboard.typo_buffer)
    (htyped : typed_buffer lib x.keyboard k = some buffer)
    (hno : ∀ e ∈ autocorrections, ¬ e.1.map key_code <:+ buffer) :
    (step lib x k).text = k.types x.keyboard.autocorrect_enable x.text ∧
      (step lib x k).keyboard = { x.keyboard with typo_buffer := buffer } := by
  obtain ⟨b, hb, hchars, -⟩ := typed_buffered hs (max_length_pos h hlib) htyped
  obtain ⟨-, old, code, -, hbuffer, hprocess⟩ := process_typed htyped
  have hcheck : check lib (rotate lib old ++ [code]) = none := by
    rw [← hbuffer, hb]
    refine check_of_no_end h hlib hchars fun e he hends => hno e he ?_
    rw [hb]
    exact hends.map key_code
  have happend : append lib old code = (buffer, true, none) := by
    unfold append
    dsimp only
    rw [hcheck, hbuffer]
  unfold step
  rw [hprocess, happend]
  exact ⟨rfl, rfl⟩

/-- A typo at the end of the buffer is replaced by its correction. -/
def Corrects (autocorrections : List (str × str)) (lib : library) (x : session) (k : stroke) :
    Prop :=
  ∀ buffer, typed_buffer lib x.keyboard k = some buffer →
    ∀ e ∈ autocorrections, e.1.map key_code <:+ buffer →
      (step lib x k).text = corrected e (k.types x.keyboard.autocorrect_enable x.text)

/-! ## Runs -/

def Sound (lib : library) (x : session) : Prop :=
  Buffered lib x.keyboard.typo_buffer ∧ Reads x.keyboard.typo_buffer x.text

theorem step_sound (h : Parsed autocorrections)
    (hlib : generate_autocorrect_data autocorrections = some lib) (hx : Sound lib x)
    (hk : k.Typing) : Sound lib (step lib x k) := by
  obtain ⟨hs, hreads⟩ := hx
  refine ⟨process_buffered (max_length_pos h hlib) hs, ?_⟩
  cases htyped : typed_buffer lib x.keyboard k with
  | some buffer =>
    obtain ⟨last, hlast, hbuffer⟩ := typed_reads hs hreads hk htyped
    by_cases hends : ∃ e ∈ autocorrections, e.1.map key_code <:+ buffer
    · obtain ⟨e, he, hends⟩ := hends
      obtain ⟨-, hempty | hspc⟩ := step_fires h hlib hs htyped he hends hlast
      · rw [hempty]
        exact .nil _
      · rw [hspc]
        exact .boundary _
    · obtain ⟨htext, hkeyboard⟩ := step_quiet h hlib hs htyped fun e he hin =>
        hends ⟨e, he, hin⟩
      rw [htext, hkeyboard, hlast]
      exact hbuffer
  | none =>
    obtain ⟨hfired, hbuffer⟩ := process_untyped htyped
    have htext : (step lib x k).text =
        if (process_autocorrect lib x.keyboard k).2.1 then
          k.types x.keyboard.autocorrect_enable x.text
        else x.text := by
      unfold step
      dsimp only
      rw [hfired]
      rfl
    change Reads (process_autocorrect lib x.keyboard k).1.typo_buffer _
    rcases hbuffer with hempty | ⟨hkept, hpassed⟩ | ⟨hlast, hpassed, henable, hpressed, hinput⟩
    · rw [hempty]
      exact .nil _
    · rw [htext, hkept]
      split
      · rename_i hpass
        obtain ⟨henable, hignore⟩ := hpassed hpass
        rw [henable, types_of_ignore hignore]
        exact hreads
      · exact hreads
    · rw [htext, if_pos hpassed, hlast, henable,
        types_of_input hk hpressed (by simp [hinput]) (by simp [hinput]), hinput]
      exact hreads.dropLast

theorem leaf_asserted (h : Parsed autocorrections)
    (hlib : generate_autocorrect_data autocorrections = some lib) {e : str × str}
    (he : e ∈ autocorrections) : LeafAsserted e.1 e.2 := by
  have hreverse : ∀ c ∈ e.1.reverse, (TYPO_CHARS c).isSome := fun c hc =>
    h.chars e he c (List.mem_reverse.mp hc)
  obtain ⟨-, -, -, hfits⟩ := walk_eq_some h (generated_data hlib) hreverse he List.prefix_rfl
  exact hfits

/-- A whole dictionary corrects its typos. -/
theorem step_corrects (h : Parsed autocorrections)
    (hlib : generate_autocorrect_data autocorrections = some lib) (hx : Sound lib x)
    (hk : k.Typing) (hwhole : ∀ e ∈ autocorrections, Whole e) :
    Corrects autocorrections lib x k := by
  intro buffer htyped e he hends
  obtain ⟨hs, hreads⟩ := hx
  obtain ⟨last, hlast, hbuffer⟩ := typed_reads hs hreads hk htyped
  rw [(step_fires h hlib hs htyped he hends hlast).1, hlast]
  have hfits := leaf_asserted h hlib he
  by_cases hne : strip e.1 = []
  · -- nothing but word breaks, of which one may be the boundary in the buffer
    have hpos : 1 ≤ trailing e.1 := by
      by_contra hend
      have := common_lt hfits hend
      rw [hne] at this
      simp at this
    rcases (hwhole e he).ending with hone | hsame
    · have hnothing : Spells (strip e.1) [] := by
        rw [hne]
        exact .nil
      have hafter : x.text ++ [last] = x.text ++ [] ++ [last] := by simp
      refine (hwhole e he).outcome hfits hnothing ?_ hafter
      rw [List.length_singleton]
      omega
    · rw [outcome_same hsame hpos]
      unfold corrected
      rw [hsame, hne, List.length_nil, Nat.sub_zero, List.append_nil, List.take_append_drop]
  · obtain ⟨front, body, trail, hafter, hbody, htrail⟩ := hbuffer.ends (h.chars e he) hends hne
    exact (hwhole e he).outcome hfits hbody htrail hafter

end

end keychron_qmk.autocorrect
