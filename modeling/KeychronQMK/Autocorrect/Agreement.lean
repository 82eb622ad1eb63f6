-- The generator of autocorrect and the keyboard agree: when a correction is
-- sent, and the dictionaries whose typos are all replaced.
import KeychronQMK.Autocorrect.Corrections

namespace keychron_qmk.autocorrect

open runs

/-! ## A typo that is typed -/

/-- The key of a character, with what it types as a word break. -/
def press (c : Char × Char) : stroke where
  keycode := (key_code c.1).toUInt16
  pressed := true
  tap_count := 0
  mods := 0
  typed := c.2
  edit := id

def typed_char (c : Char × Char) : Char := if c.1 = ':' then c.2 else c.1

theorem press_typing (c : Char × Char) : (press c).Typing := fun _ => UInt8.zero_and

theorem press_input {c : Char × Char} (h : (TYPO_CHARS c.1).isSome) :
    (press c).input = .append (key_code c.1) := by
  have hletters : ∀ n : Fin 26, let code := UInt8.ofNat (n.val + 97 + 4 - 97)
      process_autocorrect_default_handler code.toUInt16 0 0 = .process code.toUInt16 0 ∧
        buffer_check code.toUInt16 0 = .append code := by decide
  have hall : process_autocorrect_default_handler (key_code c.1).toUInt16 0 0 =
        .process (key_code c.1).toUInt16 0 ∧
      buffer_check (key_code c.1).toUInt16 0 = .append (key_code c.1) := by
    obtain ⟨-, hk⟩ | ⟨-, hk⟩ | ⟨n, -, hk⟩ := typo_kinds h <;> rw [hk]
    · decide
    · decide
    · exact hletters n
  unfold stroke.input stroke.handler press
  rw [hall.1]
  exact hall.2

section

variable {autocorrections : List (str × str)} {lib : library}

theorem press_typed {c : Char × Char} (hc : (TYPO_CHARS c.1).isSome) {s : autocorrect_t}
    (henable : s.autocorrect_enable)
    (hroom : s.typo_buffer.length < lib.AUTOCORRECT_MAX_LENGTH) :
    typed_buffer lib s (press c) = some (s.typo_buffer ++ [key_code c.1]) := by
  have hkey : ¬ (IS_AUTOCORRECT (press c).keycode ∧ (press c).pressed) := by
    rintro ⟨hkey, -⟩
    have hsmall : (press c).keycode.toNat < 256 := by
      exact UInt8.toNat_lt _
    simp only [IS_AUTOCORRECT, repeats.between, decide_eq_true_eq, UInt16.le_iff_toNat_le] at hkey
    have hlow : (0x7C74 : UInt16).toNat = 31860 := rfl
    omega
  unfold typed_buffer rotate
  rw [if_pos ⟨hkey, henable, rfl⟩, press_input hc]
  rw [if_neg (by omega)]

theorem press_types {c : Char × Char} (hc : (TYPO_CHARS c.1).isSome) (text : str) :
    (press c).types true text = text ++ [typed_char c] := by
  have hinput := press_input hc
  rw [types_of_input (press_typing c) rfl (by simp [hinput]) (by simp [hinput]), hinput]
  obtain ⟨hchar, hcode⟩ := input_append hinput
  have hbreak : key_code c.1 = KC_SPC ↔ c.1 = ':' :=
    ⟨fun h => key_code_inj hc (by decide) h, fun h => by rw [h]; rfl⟩
  dsimp only
  rw [key_code_inj hchar hc hcode]
  simp only [hbreak]
  rfl

/-- The session after keys that were typed into an empty text. -/
def pressed (cs : List (Char × Char)) : session :=
  ⟨⟨cs.map fun c => key_code c.1, true⟩, cs.map typed_char⟩

@[simp] theorem pressed_buffer (cs : List (Char × Char)) :
    (pressed cs).keyboard.typo_buffer = cs.map fun c => key_code c.1 := rfl

@[simp] theorem pressed_enable (cs : List (Char × Char)) :
    (pressed cs).keyboard.autocorrect_enable = true := rfl

theorem codes_fst (cs : List (Char × Char)) :
    (cs.map fun c => key_code c.1) = (cs.map Prod.fst).map key_code := by
  rw [List.map_map]
  rfl

theorem pressed_buffered {cs : List (Char × Char)} (hcs : ∀ c ∈ cs, (TYPO_CHARS c.1).isSome)
    (hroom : cs.length ≤ lib.AUTOCORRECT_MAX_LENGTH) :
    Buffered lib (pressed cs).keyboard.typo_buffer := by
  refine ⟨cs.map Prod.fst, codes_fst cs, fun d hd => ?_, by rwa [List.length_map]⟩
  obtain ⟨d', hd', rfl⟩ := List.mem_map.mp hd
  exact hcs d' hd'

/-- The keys of characters of which no typo ends any part are typed into the text
and the buffer. -/
theorem press_run (h : Parsed autocorrections)
    (hlib : generate_autocorrect_data autocorrections = some lib) {cs : List (Char × Char)}
    (hcs : ∀ c ∈ cs, (TYPO_CHARS c.1).isSome) (hroom : cs.length ≤ lib.AUTOCORRECT_MAX_LENGTH)
    (hno : ∀ e ∈ autocorrections, ¬ e.1 <:+: cs.map Prod.fst) :
    (cs.map press).foldl (step lib) (pressed []) = pressed cs := by
  induction cs using List.reverseRecOn with
  | nil => rfl
  | append_singleton cs c ih =>
    have hbefore : ∀ d ∈ cs, (TYPO_CHARS d.1).isSome := fun d hd =>
      hcs d (List.mem_append_left _ hd)
    have hc : (TYPO_CHARS c.1).isSome := hcs c (by simp)
    rw [List.length_append, List.length_singleton] at hroom
    have hnone : ∀ e ∈ autocorrections, ¬ e.1 <:+: cs.map Prod.fst := fun e he hin =>
      hno e he (hin.trans (by simpa using (List.prefix_append _ _).isInfix))
    rw [List.map_append, List.foldl_append, ih hbefore (by omega) hnone]
    have hsound : Buffered lib (pressed cs).keyboard.typo_buffer :=
      pressed_buffered hbefore (by omega)
    have htyped : typed_buffer lib (pressed cs).keyboard (press c) =
        some ((cs.map fun c => key_code c.1) ++ [key_code c.1]) :=
      press_typed hc rfl (by
        rw [pressed_buffer, List.length_map]
        omega)
    have hquiet : ∀ e ∈ autocorrections,
        ¬ e.1.map key_code <:+ (cs.map fun c => key_code c.1) ++ [key_code c.1] := by
      intro e he hends
      have hcodes : (cs.map fun c => key_code c.1) ++ [key_code c.1] =
          ((cs ++ [c]).map Prod.fst).map key_code := by simp
      have hchars : ∀ d ∈ (cs ++ [c]).map Prod.fst, (TYPO_CHARS d).isSome := by
        intro d hd
        obtain ⟨d', hd', rfl⟩ := List.mem_map.mp hd
        exact hcs d' hd'
      rw [hcodes, codes_suffix (h.chars e he) hchars] at hends
      exact hno e he hends.isInfix
    obtain ⟨htext, hkeyboard⟩ := step_quiet h hlib hsound htyped hquiet
    rw [pressed_enable, press_types hc] at htext
    unfold pressed at hkeyboard htext ⊢
    rw [List.map_append, List.map_append]
    exact congrArg₂ session.mk hkeyboard htext

end

/-! ## Word breaks that show -/

/-- Two characters that no entry has: the word breaks at the end of a typo type
the first one, the others the second one. -/
def MARK : Char := Char.ofNat 1000
def INNER_MARK : Char := Char.ofNat 1001

/-- What the keys of a typo type with a character for the word breaks. -/
def marked (mark : Char) (typo : str) : str := typo.map fun c => if c = ':' then mark else c

section

variable {e : str × str} {text front trail : str} {last : Char}

theorem typo_chars_ascii {c : Char} (h : (TYPO_CHARS c).isSome) : c.toNat < 128 := by
  obtain ⟨rfl, -⟩ | ⟨rfl, -⟩ | ⟨n, hn, -⟩ := typo_kinds h
  · decide
  · decide
  · omega

theorem mem_strip {typo : str} {c : Char} (h : c ∈ strip typo) : c ∈ typo :=
  (List.dropWhile_suffix _).mem ((List.rdropWhile_prefix _ _).mem h)

theorem correction_ascii (hchars : ∀ c ∈ e.1, (TYPO_CHARS c).isSome) (h : LeafAsserted e.1 e.2) :
    ∀ c ∈ e.2, c.toNat < 128 := by
  intro c hc
  rw [← List.take_append_drop (common (strip e.1) e.2) e.2, ← take_common] at hc
  rcases List.mem_append.mp hc with hc | hc
  · exact typo_chars_ascii (hchars c (mem_strip (List.mem_of_mem_take hc)))
  · exact h.2 c hc

/-- When the typo is typed with characters for its word breaks that show where
they are, only a whole entry is replaced. -/
theorem whole_of_outcome (hchars : ∀ c ∈ e.1, (TYPO_CHARS c).isSome) (h : LeafAsserted e.1 e.2)
    (htrail : trail.length = trailing e.1) (hmark : ∀ c ∈ trail, c = MARK)
    (hafter : text ++ [last] = front ++ marked INNER_MARK (strip e.1) ++ trail)
    (heq : outcome e text last = corrected e (text ++ [last])) : Whole e := by
  have hascii := correction_ascii hchars h
  have hstrip : ∀ c ∈ strip e.1, c.toNat < 128 := fun c hc =>
    typo_chars_ascii (hchars c (mem_strip hc))
  have hbody : (marked INNER_MARK (strip e.1)).length = (strip e.1).length := List.length_map _
  have hcorrected : corrected e (front ++ marked INNER_MARK (strip e.1) ++ trail) =
      front ++ e.2 ++ trail := corrected_eq hbody htrail
  have houtcome := outcome_eq h hbody htrail hafter
  have hcount := (common_le (strip e.1) e.2).1
  have hcount' := (common_le (strip e.1) e.2).2
  have hchanges : (changes e.1 e.2).length = e.2.length - common (strip e.1) e.2 :=
    List.length_drop
  -- all of the text is sent: the lengths agree
  have hsent : (changes e.1 e.2).takeWhile (· ≠ Char.ofNat 0) = changes e.1 e.2 := by
    refine (List.takeWhile_prefix _).eq_of_length ?_
    have hlength := congrArg List.length heq
    rw [hafter, hcorrected, houtcome] at hlength
    split_ifs at hlength with hend
    · simp only [List.length_append, List.length_take, List.length_singleton, hbody] at hlength
      omega
    · simp only [List.length_append, List.length_take, hbody] at hlength
      omega
  have htext : Char.ofNat 0 ∉ changes e.1 e.2 := by
    intro hzero
    rw [List.takeWhile_eq_self_iff] at hsent
    simpa using hsent _ hzero
  rw [hsent] at houtcome
  -- what is kept of the typo shows no word break
  have hunmarked : ∀ s : str, (∀ c ∈ s, c.toNat < 128) → marked INNER_MARK s = s → ':' ∉ s := by
    intro s hs hsame hbreak
    have hmem : INNER_MARK ∈ marked INNER_MARK s :=
      List.mem_map.mpr ⟨':', hbreak, if_pos rfl⟩
    rw [hsame] at hmem
    exact absurd (hs _ hmem) (by decide)
  have hsplit : e.2.take (common (strip e.1) e.2) ++ changes e.1 e.2 = e.2 :=
    List.take_append_drop _ _
  by_cases hone : trailing e.1 ≤ 1
  · have hkept := (outcome_corrected_iff h hbody htrail hafter hone).mp heq
    unfold marked at hkept
    rw [hsent, ← List.map_take] at hkept
    have hsame : marked INNER_MARK ((strip e.1).take (common (strip e.1) e.2)) =
        (strip e.1).take (common (strip e.1) e.2) := by
      rw [take_common (strip e.1) e.2]
      rw [take_common (strip e.1) e.2] at hkept
      exact List.append_cancel_right (hkept.trans hsplit.symm)
    refine ⟨.inl hone, ?_, htext⟩
    rw [← take_common]
    exact hunmarked _ (fun c hc => hstrip c (List.mem_of_mem_take hc)) hsame
  · have hsame : e.2 = strip e.1 := by
      by_contra hne
      obtain ⟨rest, mark, rfl⟩ : ∃ rest mark, trail = rest ++ [mark] := by
        rcases List.eq_nil_or_concat trail with hnil | ⟨rest, mark, hconcat⟩
        · rw [hnil, List.length_nil] at htrail
          omega
        · exact ⟨rest, mark, by rw [hconcat, List.concat_eq_append]⟩
      rw [List.length_append, List.length_singleton] at htrail
      rw [hafter, hcorrected, houtcome, if_pos (by omega)] at heq
      have heq' := (List.append_inj' (heq.trans (List.append_assoc _ _ _).symm) rfl).1
      rcases List.eq_nil_or_concat (changes e.1 e.2) with hnil | ⟨sent, c, hconcat⟩
      · -- what is kept is all of the correction, and the next letter is not a mark
        rw [hnil, List.append_nil] at heq' hsplit
        have hlength : e.2.length = common (strip e.1) e.2 := by
          rw [hnil, List.length_nil] at hchanges
          omega
        have hlt : common (strip e.1) e.2 < (strip e.1).length := by
          refine lt_of_le_of_ne hcount fun hall => hne ?_
          rw [← hsplit, ← take_common, hall, List.take_length]
        have hat := congrArg (fun s => s[front.length + common (strip e.1) e.2]?) heq'
        have hbefore : front.length + common (strip e.1) e.2 <
            (front ++ marked INNER_MARK (strip e.1)).length := by
          rw [List.length_append]
          omega
        have hletter : (marked INNER_MARK (strip e.1))[common (strip e.1) e.2]? =
            some (if (strip e.1)[common (strip e.1) e.2] = ':' then INNER_MARK
              else (strip e.1)[common (strip e.1) e.2]) := by
          simp [marked, hlt]
        have hmarks : 0 < rest.length := by omega
        rw [List.getElem?_take_of_lt (by omega), List.getElem?_append_left hbefore,
          List.getElem?_append_right (by omega), Nat.add_sub_cancel_left,
          List.getElem?_append_right (by rw [List.length_append]; omega), List.length_append,
          hlength, Nat.sub_self, hletter, List.getElem?_eq_getElem hmarks] at hat
        have hmarked := hmark _ (List.mem_append_left [mark] (List.getElem_mem hmarks))
        rw [← Option.some.inj hat] at hmarked
        split_ifs at hmarked with hbreak
        · exact absurd hmarked (by decide)
        · have hsmall := hstrip _ (List.getElem_mem hlt)
          rw [hmarked] at hsmall
          exact absurd hsmall (by decide)
      · -- the last letter that is sent is not a mark
        rw [List.concat_eq_append] at hconcat
        obtain ⟨rest', mark', rfl⟩ : ∃ rest' mark', rest = rest' ++ [mark'] := by
          rcases List.eq_nil_or_concat rest with hnil | ⟨rest', mark', hrest⟩
          · rw [hnil, List.length_nil] at htrail
            omega
          · exact ⟨rest', mark', by rw [hrest, List.concat_eq_append]⟩
        rw [hconcat, ← List.append_assoc] at heq'
        have hends := heq'.trans (List.append_assoc _ _ _).symm
        have hc : c = mark' := List.singleton_inj.mp (List.append_inj' hends rfl).2
        have hmarked := hmark mark' (by simp)
        have hmem : c ∈ e.2 := by
          rw [← hsplit, hconcat]
          simp
        rw [hc, hmarked] at hmem
        exact absurd (hascii _ hmem) (by decide)
    rw [outcome_same hsame (by omega), hafter, hcorrected, List.append_cancel_right_eq,
      List.append_cancel_left_eq, hsame] at heq
    refine ⟨.inr hsame, ?_, htext⟩
    rw [hsame]
    exact fun hbreak => hunmarked _ hstrip heq (List.mem_of_mem_take hbreak)

end

/-! ## Every run -/

/-- The keyboard after it has been plugged in: a word break in the buffer. -/
def start (autocorrect_enable : Bool) (text : str) : session :=
  ⟨⟨[KC_SPC], autocorrect_enable⟩, text⟩

def ac_on : stroke := ⟨0x7C74, true, 0, 0, ' ', id⟩

/-- A key that selects all of the text and deletes it. -/
def clear_all : stroke := ⟨0x4C, true, 0, 0, ' ', fun _ => []⟩

/-- A correction is applied exactly when the buffer with the key ends with a typo,
and it ends with no other one. -/
def Triggers (autocorrections : List (str × str)) (lib : library) (x : session) (k : stroke) :
    Prop :=
  ((process_autocorrect lib x.keyboard k).2.2.isSome ↔
      ∃ buffer, typed_buffer lib x.keyboard k = some buffer ∧
        ∃ e ∈ autocorrections, e.1.map key_code <:+ buffer) ∧
    ∀ buffer, typed_buffer lib x.keyboard k = some buffer →
      ∀ e ∈ autocorrections, ∀ e' ∈ autocorrections,
        e.1.map key_code <:+ buffer → e'.1.map key_code <:+ buffer → e = e'

section

variable {autocorrections : List (str × str)} {lib : library}

theorem start_sound (h : Parsed autocorrections)
    (hlib : generate_autocorrect_data autocorrections = some lib) (autocorrect_enable : Bool)
    (text : str) : Sound lib (start autocorrect_enable text) :=
  ⟨.boundary (max_length_pos h hlib), .boundary text⟩

theorem step_triggers (h : Parsed autocorrections)
    (hlib : generate_autocorrect_data autocorrections = some lib) {x : session} {k : stroke}
    (hs : Buffered lib x.keyboard.typo_buffer) : Triggers autocorrections lib x k := by
  refine ⟨fires_iff h hlib hs, fun buffer htyped e he e' he' hends hends' => ?_⟩
  obtain ⟨b, rfl, hchars, -⟩ := typed_buffered hs (max_length_pos h hlib) htyped
  rw [codes_suffix (h.chars e he) hchars] at hends
  rw [codes_suffix (h.chars e' he') hchars] at hends'
  exact one_end h he he' hends hends'

/-- The characters of a typo, each with what it types as a word break. -/
def marked_keys (typo : str) : List (Char × Char) :=
  (typo.take (typo.length - trailing typo)).map (fun c => (c, INNER_MARK)) ++
    (typo.drop (typo.length - trailing typo)).map fun c => (c, MARK)

theorem fst_marked_keys (typo : str) : (marked_keys typo).map Prod.fst = typo := by
  unfold marked_keys
  rw [List.map_append, List.map_map, List.map_map]
  change List.map id _ ++ List.map id _ = _
  rw [List.map_id, List.map_id, List.take_append_drop]

theorem strip_trail (typo : str) : ∃ lead trail, typo = lead ++ strip typo ++ trail ∧
    (∀ c ∈ trail, c = ':') ∧ trail.length = trailing typo := by
  by_cases hne : strip typo = []
  · have hbreaks : ∀ c ∈ typo, c = ':' := by
      have hdrop := List.rdropWhile_eq_nil_iff.mp hne
      intro c hc
      rw [← List.takeWhile_append_dropWhile (p := fun c => decide (c = ':')) (l := typo)] at hc
      rcases List.mem_append.mp hc with hc | hc
      · simpa using List.mem_takeWhile_imp hc
      · simpa using hdrop c hc
    have hall : typo.rtakeWhile (· = ':') = typo :=
      List.rtakeWhile_eq_self_iff.mpr fun c hc => by simpa using hbreaks c hc
    exact ⟨[], typo, by simp [hne], hbreaks, congrArg List.length hall.symm⟩
  · obtain ⟨lead, trail, hsplit, -, hbreaks, hlength, -⟩ := strip_split hne
    exact ⟨lead, trail, hsplit, hbreaks, hlength⟩

theorem typed_marked_keys (typo : str) :
    ∃ front trail, (marked_keys typo).map typed_char =
        front ++ marked INNER_MARK (strip typo) ++ trail ∧
      trail.length = trailing typo ∧ ∀ c ∈ trail, c = MARK := by
  obtain ⟨lead, trail, hsplit, hbreaks, hlength⟩ := strip_trail typo
  have hfront : typo.length - trailing typo = (lead ++ strip typo).length := by
    have := congrArg List.length hsplit
    rw [List.length_append] at this
    omega
  refine ⟨marked INNER_MARK lead, marked MARK trail, ?_, ?_, ?_⟩
  · unfold marked_keys
    rw [hfront]
    have htake : typo.take (lead ++ strip typo).length = lead ++ strip typo :=
      (congrArg (List.take _) hsplit).trans List.take_left
    have hdrop : typo.drop (lead ++ strip typo).length = trail :=
      (congrArg (List.drop _) hsplit).trans List.drop_left
    rw [htake, hdrop]
    simp only [List.map_append, List.map_map]
    rfl
  · rw [← hlength]
    exact List.length_map _
  · intro c hc
    obtain ⟨d, hd, rfl⟩ := List.mem_map.mp hc
    exact if_pos (hbreaks d hd)

/-- An entry whose typo is replaced when it is typed into an empty text is whole. -/
theorem whole_of_corrects (h : Parsed autocorrections)
    (hlib : generate_autocorrect_data autocorrections = some lib)
    (hruns : ∀ autocorrect_enable text ks, (∀ k ∈ ks, k.Typing) →
      Along (step lib) (Corrects autocorrections lib) (start autocorrect_enable text) ks)
    {e : str × str} (he : e ∈ autocorrections) : Whole e := by
  have hfits := leaf_asserted h hlib he
  have hlength := (generated_lengths hlib he).2
  obtain ⟨front, trail, htyped, htrail, hmark⟩ := typed_marked_keys e.1
  have hfst := fst_marked_keys e.1
  have hkeys_length := congrArg List.length hfst
  rw [List.length_map] at hkeys_length
  obtain ⟨keys, c, hkeys⟩ : ∃ keys c, marked_keys e.1 = keys ++ [c] := by
    rcases List.eq_nil_or_concat (marked_keys e.1) with hnil | ⟨keys, c, hconcat⟩
    · rw [hnil] at hfst
      exact absurd hfst.symm (h.nonempty e he)
    · exact ⟨keys, c, by rw [hconcat, List.concat_eq_append]⟩
  rw [hkeys, List.map_append, List.map_singleton] at htyped hfst
  rw [hkeys, List.length_append, List.length_singleton] at hkeys_length
  have hchars : ∀ d ∈ keys ++ [c], (TYPO_CHARS d.1).isSome := by
    intro d hd
    refine h.chars e he d.1 ?_
    rw [← hfst, ← List.map_singleton, ← List.map_append]
    exact List.mem_map_of_mem hd
  have hbefore : ∀ d ∈ keys, (TYPO_CHARS d.1).isSome := fun d hd =>
    hchars d (List.mem_append_left _ hd)
  have hc : (TYPO_CHARS c.1).isSome := hchars c (by simp)
  -- no typo ends before the last key
  have hno : ∀ e' ∈ autocorrections, ¬ e'.1 <:+: keys.map Prod.fst := by
    intro e' he' hin
    by_cases hsame : e' = e
    · have hle := hin.length_le
      rw [hsame, List.length_map] at hle
      omega
    · have : Std.Symm fun e e' : str × str => ¬ Overlap e.1 e'.1 :=
        ⟨fun _ _ hno hoverlap => hno hoverlap.symm⟩
      refine h.apart.forall he' he hsame (.inl (hin.trans ?_))
      rw [← hfst]
      exact (List.prefix_append _ _).isInfix
  have hrun := press_run h hlib hbefore (by omega) hno
  have hcorrects := hruns false [] ([ac_on, clear_all] ++ (keys.map press ++ [press c])) (by
    simp only [List.mem_append, List.mem_cons, List.mem_map, List.not_mem_nil, or_false]
    rintro k ((rfl | rfl) | (⟨d, -, rfl⟩ | rfl))
    · exact fun _ => by decide
    · exact fun _ => by decide
    · exact press_typing d
    · exact press_typing c)
  have hpressed := (Along.append.mp (Along.append.mp hcorrects).2).2
  have hstart : [ac_on, clear_all].foldl (step lib) (start false []) = pressed [] := rfl
  rw [hstart, hrun] at hpressed
  have hbuffer : typed_buffer lib (pressed keys).keyboard (press c) =
      some ((keys.map fun c => key_code c.1) ++ [key_code c.1]) :=
    press_typed hc rfl (by
      rw [pressed_buffer, List.length_map]
      omega)
  have hends : e.1.map key_code = (keys.map fun c => key_code c.1) ++ [key_code c.1] := by
    rw [← hfst]
    simp
  have hsuffix : e.1.map key_code <:+ (keys.map fun c => key_code c.1) ++ [key_code c.1] := by
    rw [hends]
  have hbuffered : Buffered lib (pressed keys).keyboard.typo_buffer :=
    pressed_buffered hbefore (by omega)
  have hfires := (step_fires h hlib hbuffered hbuffer he hsuffix (press_types hc)).1
  have htext := hpressed.1 _ hbuffer e he hsuffix
  rw [hfires, pressed_enable, press_types hc] at htext
  exact whole_of_outcome (h.chars e he) hfits htrail hmark htyped htext

end

def THIER : library where
  autocorrect_data := [0x15, 0x08, 0x0C, 0x0B, 0x17, 0x00, 0x82, 0x65, 0x69, 0x72, 0x00]
  AUTOCORRECT_MIN_LENGTH := 5
  AUTOCORRECT_MAX_LENGTH := 5

end keychron_qmk.autocorrect
