-- The walk of `process_autocorrect` over the serialized trie
-- (`quantum/process_keycode/process_autocorrect.c`), and that it finds what
-- the trie finds.
import KeychronQMK.Autocorrect.Serialize

namespace keychron_qmk.autocorrect

open trie

/-! ## The walk -/

def read_byte (autocorrect_data : List UInt8) (state : Nat) : UInt8 := autocorrect_data.getD state 0

/-- The loop over the characters of a branch, with the bytes after `state`:
the state at the matching one. -/
def search (key : UInt8) : UInt8 → List UInt8 → Nat → Option Nat
  | code, rest, state =>
    if code = key then some state
    else if code = 0 then none
    else match rest with
      | _ :: _ :: code :: rest => search key code rest (state + 3)
      | _ => none

def follow (autocorrect_data : List UInt8) (key : UInt8) (state : Nat) : Option Nat :=
  let code := read_byte autocorrect_data state
  if code &&& 64 ≠ 0 then
    (search key (code &&& 63) (autocorrect_data.drop (state + 1)) state).map fun state =>
      (read_byte autocorrect_data (state + 1)).toNat |||
        (read_byte autocorrect_data (state + 2)).toNat <<< 8
  else if code ≠ key then none
  else if read_byte autocorrect_data (state + 1) = 0 then some (state + 2)
  else some (state + 1)

/-- The loop over the buffer, from its last key back: the state of the leaf. -/
def walk (autocorrect_data : List UInt8) : List UInt8 → Nat → Option Nat
  | [], _ => none
  | key :: keys, state =>
    match follow autocorrect_data key state with
    | none => none
    | some state =>
      if autocorrect_data.length ≤ state then none
      else if read_byte autocorrect_data state &&& 128 ≠ 0 then some state
      else walk autocorrect_data keys state

/-! ## Where the entries stand -/

mutual

/-- The bytes of the entry and of all below it stand at their offsets, and
those of a link right after its chain. -/
def Entry.Laid (data : List UInt8) : Entry → Prop
  | .leaf byte_offset typo correction => leaf_data typo correction <+: data.drop byte_offset
  | .chain byte_offset chars link =>
    chars.map key_code ++ [0] <+: data.drop byte_offset ∧
      link.byte_offset = byte_offset + chars.length + 1 ∧ link.Laid data
  | .branch byte_offset links =>
    serialize_links 64 links ++ [0] <+: data.drop byte_offset ∧ links.Laid data

def Links.Laid (data : List UInt8) : Links → Prop
  | .nil => True
  | .cons _ link rest => link.Laid data ∧ rest.Laid data

end

def Entry.bytes (e : Entry) : List UInt8 := e.table.flatMap serialize

def Links.bytes (links : Links) : List UInt8 := links.table.flatMap serialize

@[simp] theorem bytes_leaf (o : Nat) (typo correction : str) :
    (Entry.leaf o typo correction).bytes = leaf_data typo correction := by
  simp [Entry.bytes, Entry.table, serialize]

@[simp] theorem bytes_chain (o : Nat) (chars : List Char) (link : Entry) :
    (Entry.chain o chars link).bytes = chars.map key_code ++ [0] ++ link.bytes := rfl

@[simp] theorem bytes_branch (o : Nat) (links : Links) :
    (Entry.branch o links).bytes = serialize_links 64 links ++ [0] ++ links.bytes := rfl

@[simp] theorem bytes_nil : Links.nil.bytes = [] := rfl

@[simp] theorem bytes_cons (c : Char) (link : Entry) (rest : Links) :
    (Links.cons c link rest).bytes = link.bytes ++ rest.bytes := by
  simp [Links.bytes, Links.table, Entry.bytes]

@[simp] theorem place_byte_offset (o : Nat) (e : Entry) : (e.place o).byte_offset = o := by
  cases e <;> rfl

@[simp] theorem place_links_length (o : Nat) (links : Links) :
    (links.place o).length = links.length := by
  match links with
  | .nil => rfl
  | .cons c link rest =>
    have ih := place_links_length (o + link.total) rest
    simp [Links.place, Links.length, ih]

@[simp] theorem length_serialize_links (flag : UInt8) (links : Links) :
    (serialize_links flag links).length = 3 * links.length := by
  match links with
  | .nil => rfl
  | .cons c link rest =>
    have ih := length_serialize_links 0 rest
    simp [serialize_links, encode_link, Links.length, ih]
    omega

mutual

@[simp] theorem length_bytes (o : Nat) (e : Entry) : (e.place o).bytes.length = e.total := by
  match e with
  | .leaf _ typo correction => simp [Entry.place, Entry.total]
  | .chain _ chars link =>
    have ih := length_bytes (o + chars.length + 1) link
    simp [Entry.place, Entry.total, ih]
    omega
  | .branch _ links =>
    have ih := length_links_bytes (o + 3 * links.length + 1) links
    simp [Entry.place, Entry.total, ih]
    omega

@[simp] theorem length_links_bytes (o : Nat) (links : Links) :
    (links.place o).bytes.length = links.total := by
  match links with
  | .nil => rfl
  | .cons c link rest =>
    have h := length_bytes o link
    have ih := length_links_bytes (o + link.total) rest
    simp [Links.place, Links.total, h, ih]

end

mutual

@[simp] theorem place_total (o : Nat) (e : Entry) : (e.place o).total = e.total := by
  match e with
  | .leaf _ typo correction => rfl
  | .chain _ chars link =>
    have ih := place_total (o + chars.length + 1) link
    simp [Entry.place, Entry.total, ih]
  | .branch _ links =>
    have ih := place_links_total (o + 3 * links.length + 1) links
    simp [Entry.place, Entry.total, ih]

@[simp] theorem place_links_total (o : Nat) (links : Links) :
    (links.place o).total = links.total := by
  match links with
  | .nil => rfl
  | .cons c link rest =>
    have h := place_total o link
    have ih := place_links_total (o + link.total) rest
    simp [Links.place, Links.total, h, ih]

end

theorem prefix_drop {α : Type} (pre s post : List α) : s <+: (pre ++ (s ++ post)).drop pre.length := by
  simp

mutual

theorem laid_place (e : Entry) (pre post : List UInt8) {o : Nat} (ho : o = pre.length) :
    (e.place o).Laid (pre ++ ((e.place o).bytes ++ post)) := by
  match e with
  | .leaf _ typo correction =>
    rw [ho, Entry.place, bytes_leaf]
    exact prefix_drop _ _ _
  | .chain _ chars link =>
    have hlength : o + chars.length + 1 = (pre ++ (chars.map key_code ++ [0])).length := by
      simp [ho, Nat.add_assoc]
    have ih := laid_place link (pre ++ (chars.map key_code ++ [0])) post hlength
    rw [Entry.place, bytes_chain, List.append_assoc _ _ post]
    refine ⟨?_, place_byte_offset _ _, ?_⟩
    · rw [ho]
      exact prefix_drop _ _ _
    · rwa [List.append_assoc] at ih
  | .branch _ links =>
    have hlength : o + 3 * links.length + 1 = (pre ++ (serialize_links 64
        (links.place (o + 3 * links.length + 1)) ++ [0])).length := by
      simp [ho, Nat.add_assoc]
    have ih := laid_links links (pre ++ (serialize_links 64
      (links.place (o + 3 * links.length + 1)) ++ [0])) post hlength
    rw [Entry.place, bytes_branch, List.append_assoc _ _ post]
    refine ⟨?_, ?_⟩
    · rw [ho]
      exact prefix_drop _ _ _
    · rwa [List.append_assoc] at ih

theorem laid_links (links : Links) (pre post : List UInt8) {o : Nat} (ho : o = pre.length) :
    (links.place o).Laid (pre ++ ((links.place o).bytes ++ post)) := by
  match links with
  | .nil => trivial
  | .cons c link rest =>
    have hlink := laid_place link pre ((rest.place (o + link.total)).bytes ++ post) ho
    have hlength : o + link.total = (pre ++ (link.place o).bytes).length := by
      simp [ho]
    have hrest := laid_links rest (pre ++ (link.place o).bytes) post hlength
    rw [Links.place, bytes_cons, List.append_assoc]
    refine ⟨hlink, ?_⟩
    rwa [List.append_assoc] at hrest

end

/-! ## Keycodes of typos -/

variable {c : Char}

theorem typo_kinds (h : (TYPO_CHARS c).isSome) :
    c = QUOTE ∧ key_code c = KC_QUOT ∨ c = ':' ∧ key_code c = KC_SPC ∨
      ∃ n : Fin 26, c.toNat = n.val + 97 ∧ key_code c = UInt8.ofNat (n.val + 97 + 4 - 97) := by
  have ha : 'a'.toNat = 97 := rfl
  have hz : 'z'.toNat = 122 := rfl
  unfold key_code
  unfold TYPO_CHARS at h ⊢
  split_ifs at h ⊢ with hquote hbreak hrange
  · exact .inl ⟨hquote, rfl⟩
  · exact .inr (.inl ⟨hbreak, rfl⟩)
  · obtain ⟨hlow, hhigh⟩ := hrange
    have hback : c.toNat - 97 + 97 = c.toNat := by omega
    refine .inr (.inr ⟨⟨c.toNat - 97, by omega⟩, hback.symm, ?_⟩)
    change UInt8.ofNat (c.toNat + 4 - 97) = UInt8.ofNat (c.toNat - 97 + 97 + 4 - 97)
    rw [hback]
  · cases h

theorem key_code_flags (h : (TYPO_CHARS c).isSome) :
    key_code c ≠ 0 ∧ key_code c &&& 64 = 0 ∧ key_code c &&& 128 = 0 ∧
      (key_code c ||| 64) &&& 63 = key_code c ∧ (key_code c ||| 64) &&& 64 ≠ 0 ∧
      (key_code c ||| 64) &&& 128 = 0 := by
  have hcodes : ∀ n : Fin 26, let code := UInt8.ofNat (n.val + 97 + 4 - 97)
      code ≠ 0 ∧ code &&& 64 = 0 ∧ code &&& 128 = 0 ∧ (code ||| 64) &&& 63 = code ∧
        (code ||| 64) &&& 64 ≠ 0 ∧ (code ||| 64) &&& 128 = 0 := by decide
  obtain ⟨-, hk⟩ | ⟨-, hk⟩ | ⟨n, -, hk⟩ := typo_kinds h <;> rw [hk]
  · decide
  · decide
  · exact hcodes n

theorem key_code_inj {c' : Char} (h : (TYPO_CHARS c).isSome) (h' : (TYPO_CHARS c').isSome)
    (hcode : key_code c = key_code c') : c = c' := by
  have hletter : ∀ n : Fin 26, UInt8.ofNat (n.val + 97 + 4 - 97) ≠ KC_QUOT ∧
      UInt8.ofNat (n.val + 97 + 4 - 97) ≠ KC_SPC := by decide
  have hletters : ∀ n m : Fin 26,
      UInt8.ofNat (n.val + 97 + 4 - 97) = UInt8.ofNat (m.val + 97 + 4 - 97) → n = m := by decide
  obtain ⟨hc, hk⟩ | ⟨hc, hk⟩ | ⟨n, hc, hk⟩ := typo_kinds h <;>
  obtain ⟨hc', hk'⟩ | ⟨hc', hk'⟩ | ⟨m, hc', hk'⟩ := typo_kinds h' <;>
  rw [hk, hk'] at hcode
  · rw [hc, hc']
  · cases hcode
  · exact absurd hcode.symm (hletter m).1
  · cases hcode
  · rw [hc, hc']
  · exact absurd hcode.symm (hletter m).2
  · exact absurd hcode (hletter n).1
  · exact absurd hcode (hletter n).2
  · have hnm := hletters n m hcode
    have hnat : c.toNat = c'.toNat := by rw [hc, hc', hnm]
    exact Char.toNat_inj.mp hnat

/-! ## What a table finds -/

mutual

/-- The first leaf on the way along the keys, with its offset. -/
def Entry.find : List Char → Entry → Option (Nat × str × str)
  | _, .leaf byte_offset typo correction => some (byte_offset, typo, correction)
  | ks, .chain _ chars link => if chars <+: ks then link.find (ks.drop chars.length) else none
  | [], .branch _ _ => none
  | k :: ks, .branch _ links => links.find k ks

def Links.find (k : Char) (ks : List Char) : Links → Option (Nat × str × str)
  | .nil => none
  | .cons c link rest => if c = k then link.find ks else rest.find k ks

end

def Links.get? (k : Char) : Links → Option Entry
  | .nil => none
  | .cons c link rest => if c = k then some link else rest.get? k

mutual

/-- Chains are not empty, and the characters are those of typos. -/
def Entry.Chars : Entry → Prop
  | .leaf _ _ _ => True
  | .chain _ chars link => chars ≠ [] ∧ (∀ c ∈ chars, (TYPO_CHARS c).isSome) ∧ link.Chars
  | .branch _ links => links.Chars

def Links.Chars : Links → Prop
  | .nil => True
  | .cons c link rest => (TYPO_CHARS c).isSome ∧ link.Chars ∧ rest.Chars

end

/-- The walk into a node: a leaf ends it. -/
def enter (data : List UInt8) (keys : List UInt8) (state : Nat) : Option Nat :=
  if data.length ≤ state then none
  else if read_byte data state &&& 128 ≠ 0 then some state
  else walk data keys state

theorem walk_cons (data : List UInt8) (key : UInt8) (keys : List UInt8) (state : Nat) :
    walk data (key :: keys) state = (follow data key state).bind (enter data keys) := by
  rw [walk]
  cases follow data key state <;> rfl

/-! ## Bytes at an offset -/

section

variable {data s : List UInt8} {o : Nat}

theorem read_of_laid (h : s <+: data.drop o) {i : Nat} (hi : i < s.length) :
    read_byte data (o + i) = s.getD i 0 := by
  obtain ⟨post, hpost⟩ := h
  have hdrop : read_byte data (o + i) = (data.drop o).getD i 0 := by
    simp [read_byte, List.getD_eq_getElem?_getD]
  rw [hdrop, ← hpost, List.getD_eq_getElem?_getD, List.getD_eq_getElem?_getD,
    List.getElem?_append_left hi]

theorem lt_of_laid (h : s <+: data.drop o) (hs : s ≠ []) : o < data.length := by
  have hlength := h.length_le
  have hpos := List.length_pos_of_ne_nil hs
  rw [List.length_drop] at hlength
  omega

theorem enter_of_laid {b : UInt8} (h : b :: s <+: data.drop o) (hb : b &&& 128 = 0)
    (keys : List UInt8) : enter data keys o = walk data keys o := by
  have hlt := lt_of_laid h (by simp)
  have hread : read_byte data o = b := read_of_laid h (i := 0) (by simp)
  unfold enter
  rw [if_neg (by omega), hread, if_neg (not_not_intro hb)]

end

/-! ## The walk finds what the table finds -/

section

variable {data : List UInt8}

variable {o : Nat}

theorem prefix_drop_succ {b : UInt8} {s : List UInt8} (h : b :: s <+: data.drop o) :
    s <+: data.drop (o + 1) := by
  obtain ⟨post, hpost⟩ := h
  have htail : data.drop (o + 1) = (data.drop o).tail := by simp
  rw [htail, ← hpost]
  exact List.prefix_append _ _

/-- A chain reads its letters one after another. -/
theorem walk_chain {chars : List Char} (hne : chars ≠ [])
    (hchars : ∀ c ∈ chars, (TYPO_CHARS c).isSome)
    (hlaid : chars.map key_code ++ [0] <+: data.drop o) {ks : List Char}
    (hks : ∀ c ∈ ks, (TYPO_CHARS c).isSome) :
    walk data (ks.map key_code) o =
      if chars <+: ks then
        enter data ((ks.drop chars.length).map key_code) (o + chars.length + 1)
      else none := by
  induction chars generalizing o ks with
  | nil => exact absurd rfl hne
  | cons c chars ih =>
    obtain ⟨hc, hrest⟩ := List.forall_mem_cons.mp hchars
    obtain ⟨hzero, hbranch, -⟩ := key_code_flags hc
    cases ks with
    | nil => simp [walk]
    | cons k ks =>
      obtain ⟨hk, hkeys⟩ := List.forall_mem_cons.mp hks
      have hread : read_byte data o = key_code c := read_of_laid hlaid (i := 0) (by simp)
      have hnext := prefix_drop_succ hlaid
      rw [List.map_cons, walk_cons]
      unfold follow
      rw [hread, if_neg (not_not_intro hbranch)]
      by_cases hck : c = k
      · subst hck
        rw [if_neg (not_not_intro rfl)]
        cases chars with
        | nil =>
          have hend : read_byte data (o + 1) = 0 := read_of_laid hnext (i := 0) (by simp)
          rw [if_pos hend, if_pos (by simp)]
          rfl
        | cons c' chars =>
          obtain ⟨hc', -⟩ := List.forall_mem_cons.mp hrest
          obtain ⟨hzero', -, hleaf', -⟩ := key_code_flags hc'
          have hmore : read_byte data (o + 1) = key_code c' := read_of_laid hnext (i := 0) (by simp)
          rw [hmore, if_neg hzero', Option.bind_some, enter_of_laid hnext hleaf',
            ih (by simp) hrest hnext hkeys]
          simp only [List.cons_prefix_cons, true_and, List.length_cons, List.drop_succ_cons]
          rw [show o + 1 + (chars.length + 1) + 1 = o + (chars.length + 1 + 1) + 1 by omega]
      · have hne : key_code c ≠ key_code k := fun hsame => hck (key_code_inj hc hk hsame)
        rw [if_pos hne, if_neg fun hprefix => hck (List.cons_prefix_cons.mp hprefix).1]
        rfl

def link_at (data : List UInt8) (state : Nat) : Nat :=
  (read_byte data (state + 1)).toNat ||| (read_byte data (state + 2)).toNat <<< 8

theorem link_at_of_laid {link : Entry} {s : List UInt8}
    (h : encode_link link ++ s <+: data.drop (o + 1)) (hlink : link.byte_offset < 65536) :
    link_at data o = link.byte_offset := by
  have hlow : read_byte data (o + 1) = UInt8.ofNat (link.byte_offset &&& 255) :=
    read_of_laid h (i := 0) (by simp [encode_link])
  have hhigh : read_byte data (o + 1 + 1) = UInt8.ofNat (link.byte_offset >>> 8) :=
    read_of_laid h (i := 1) (by simp [encode_link])
  have hmask : link.byte_offset &&& 255 = link.byte_offset % 256 :=
    Nat.and_two_pow_sub_one_eq_mod _ 8
  have hshift : link.byte_offset >>> 8 = link.byte_offset / 256 := Nat.shiftRight_eq_div_pow _ 8
  have hjoin := Nat.two_pow_add_eq_or_of_lt (i := 8) (b := link.byte_offset % 256)
    (Nat.mod_lt _ (by decide)) (link.byte_offset / 256)
  have hleft : (link.byte_offset / 256) <<< 8 = 2 ^ 8 * (link.byte_offset / 256) := by
    rw [Nat.shiftLeft_eq, Nat.mul_comm]
  unfold link_at
  rw [hlow, show o + 2 = o + 1 + 1 from rfl, hhigh, hmask, hshift]
  simp only [UInt8.toNat_ofNat']
  rw [Nat.mod_eq_of_lt (by omega : link.byte_offset % 256 < 2 ^ 8),
    Nat.mod_eq_of_lt (by omega : link.byte_offset / 256 < 2 ^ 8), hleft, Nat.or_comm, ← hjoin]
  omega

theorem offset_lt_of_laid {e : Entry} (h : e.Laid data) : e.byte_offset < data.length := by
  cases e with
  | leaf o typo correction => exact lt_of_laid h (by simp [leaf_data])
  | chain o chars link => exact lt_of_laid h.1 (by simp)
  | branch o links => exact lt_of_laid h.1 (by simp)

/-- The loop over the links of a branch stops at the link of the letter. -/
theorem search_links {links : Links} (hchars : links.Chars) (hlinks : links.Laid data)
    (hlength : data.length ≤ 0xffff) {k : Char} (hk : (TYPO_CHARS k).isSome) {o : Nat}
    {code : UInt8} {rest : List UInt8} (hbytes : code :: rest = serialize_links 0 links ++ [0])
    (hlaid : rest <+: data.drop (o + 1)) :
    (search (key_code k) code (data.drop (o + 1)) o).map (link_at data) =
      (links.get? k).map Entry.byte_offset := by
  match links with
  | .nil =>
    obtain ⟨hcode, -⟩ := List.cons.inj hbytes
    have hk0 := (key_code_flags hk).1
    rw [hcode]
    unfold search
    rw [if_neg (Ne.symm hk0), if_pos rfl]
    rfl
  | .cons c link links =>
    obtain ⟨hc, -, hrest⟩ := hchars
    obtain ⟨hlink, hlinks⟩ := hlinks
    have hoffset : link.byte_offset < 65536 := by
      have := offset_lt_of_laid hlink
      omega
    have hsplit : code :: rest =
        (key_code c ||| 0) :: (encode_link link ++ (serialize_links 0 links ++ [0])) := by
      rw [hbytes, ← List.append_assoc]
      rfl
    rw [UInt8.or_zero] at hsplit
    obtain ⟨hcode, hrest_bytes⟩ := List.cons.inj hsplit
    rw [hcode]
    rw [hrest_bytes] at hlaid
    by_cases hck : c = k
    · unfold search Links.get?
      rw [if_pos (by rw [hck]), if_pos hck]
      simp [link_at_of_laid hlaid hoffset]
    · have hne : key_code c ≠ key_code k := fun hsame => hck (key_code_inj hc hk hsame)
      obtain ⟨code', rest', hnext⟩ : ∃ code' rest',
          code' :: rest' = serialize_links 0 links ++ [0] := by
        cases links with
        | nil => exact ⟨_, _, rfl⟩
        | cons => exact ⟨_, _, rfl⟩
      rw [← hnext] at hlaid
      have hlaid' : rest' <+: data.drop (o + 3 + 1) :=
        prefix_drop_succ (prefix_drop_succ (prefix_drop_succ hlaid))
      have ih := search_links hrest hlinks hlength hk hnext hlaid'
      obtain ⟨post, hpost⟩ := hlaid
      have hlater : data.drop (o + 3 + 1) = rest' ++ post := by
        have hdrop : data.drop (o + 3 + 1) = (data.drop (o + 1)).drop 3 := by
          rw [List.drop_drop]
        rw [hdrop, ← hpost]
        rfl
      rw [hlater] at ih
      rw [← hpost]
      unfold Links.get?
      rw [if_neg hck, ← ih]
      change (search (key_code k) (key_code c) (_ :: _ :: code' :: (rest' ++ post)) o).map _ = _
      rw [search, if_neg hne, if_neg (key_code_flags hc).1]

theorem follow_branch {links : Links} (hne : links.length ≠ 0) (hchars : links.Chars)
    (hlinks : links.Laid data) (hlength : data.length ≤ 0xffff)
    (hlaid : serialize_links 64 links ++ [0] <+: data.drop o) {k : Char}
    (hk : (TYPO_CHARS k).isSome) :
    follow data (key_code k) o = (links.get? k).map Entry.byte_offset := by
  match links with
  | .nil => exact absurd rfl hne
  | .cons c link rest =>
    obtain ⟨-, -, -, hmask, hbranch, -⟩ := key_code_flags hchars.1
    have hread : read_byte data o = key_code c ||| 64 := read_of_laid hlaid (i := 0) (by simp)
    have hsame : key_code c :: (encode_link link ++ serialize_links 0 rest ++ [0]) =
        serialize_links 0 (.cons c link rest) ++ [0] := by
      rw [serialize_links, UInt8.or_zero]
      rfl
    unfold follow
    rw [hread, if_pos hbranch, hmask]
    exact search_links hchars hlinks hlength hk hsame (prefix_drop_succ hlaid)

theorem links_find (k : Char) (ks : List Char) (links : Links) :
    links.find k ks = (links.get? k).bind (Entry.find ks) := by
  match links with
  | .nil => rfl
  | .cons c link rest =>
    have ih := links_find k ks rest
    unfold Links.find Links.get?
    split
    · rfl
    · exact ih

theorem enter_inner {e : Entry} (hlaid : e.Laid data) (hchars : e.Chars) (hasserted : e.Asserted)
    (hinner : ∀ o typo correction, e ≠ .leaf o typo correction) (keys : List UInt8) :
    enter data keys e.byte_offset = walk data keys e.byte_offset := by
  match e with
  | .leaf o typo correction => exact absurd rfl (hinner o typo correction)
  | .chain o [] link => exact absurd rfl hchars.1
  | .chain o (c :: chars) link =>
    obtain ⟨-, -, hflag, -⟩ := key_code_flags (hchars.2.1 c List.mem_cons_self)
    exact enter_of_laid hlaid.1 hflag keys
  | .branch o .nil => exact absurd rfl hasserted
  | .branch o (.cons c link rest) =>
    obtain ⟨-, -, -, -, -, hflag⟩ := key_code_flags hchars.1
    exact enter_of_laid hlaid.1 hflag keys

theorem leaf_code {n : Nat} (h : n ≤ 63) :
    UInt8.ofNat (n + 128) &&& 128 ≠ 0 ∧ (UInt8.ofNat (n + 128) &&& 63).toNat = n := by
  have hcodes : ∀ n : Fin 64,
      UInt8.ofNat (n.val + 128) &&& 128 ≠ 0 ∧ (UInt8.ofNat (n.val + 128) &&& 63).toNat = n := by
    decide
  exact hcodes ⟨n, by omega⟩

theorem read_leaf {typo correction : str} (h : leaf_data typo correction <+: data.drop o) :
    read_byte data o = UInt8.ofNat ((backspaces typo correction).toNat + 128) :=
  read_of_laid h (i := 0) (by simp [leaf_data])

mutual

/-- From the node of an entry the walk gets to the leaf that the table finds. -/
theorem enter_eq_find {e : Entry} (hlaid : e.Laid data) (hchars : e.Chars)
    (hasserted : ∀ x ∈ e.table, x.Asserted) (hlength : data.length ≤ 0xffff) {ks : List Char}
    (hks : ∀ c ∈ ks, (TYPO_CHARS c).isSome) :
    enter data (ks.map key_code) e.byte_offset = (e.find ks).map Prod.fst := by
  match e with
  | .leaf o typo correction =>
    have hleaf : LeafAsserted typo correction := hasserted (.leaf o typo correction) (by
      simp [Entry.table])
    obtain ⟨⟨-, hmany⟩, -⟩ := hleaf
    have hlt : o < data.length := offset_lt_of_laid hlaid
    have hflag := (leaf_code (n := (backspaces typo correction).toNat) (by omega)).1
    change enter data (ks.map key_code) o = some o
    unfold enter
    rw [if_neg (by omega), read_leaf hlaid, if_pos hflag]
  | .chain o chars link =>
    have hwalk := enter_inner hlaid hchars (hasserted _ List.mem_cons_self) (by simp)
    obtain ⟨hbytes, hoffset, hlink⟩ := hlaid
    obtain ⟨hne, hletters, hlink_chars⟩ := hchars
    have hbelow : ∀ x ∈ link.table, x.Asserted := fun x hx =>
      hasserted x (List.mem_cons_of_mem _ hx)
    have hrest : ∀ c ∈ ks.drop chars.length, (TYPO_CHARS c).isSome := fun c hc =>
      hks c (List.mem_of_mem_drop hc)
    have ih := enter_eq_find hlink hlink_chars hbelow hlength hrest
    rw [hoffset] at ih
    rw [hwalk, Entry.byte_offset, walk_chain hne hletters hbytes hks, Entry.find]
    split
    · exact ih
    · rfl
  | .branch o links =>
    have hne : links.length ≠ 0 := hasserted (.branch o links) List.mem_cons_self
    have hwalk := enter_inner hlaid hchars hne (by simp)
    obtain ⟨hbytes, hlinks⟩ := hlaid
    have hbelow : ∀ x ∈ links.table, x.Asserted := fun x hx =>
      hasserted x (List.mem_cons_of_mem _ hx)
    rw [hwalk, Entry.byte_offset]
    cases ks with
    | nil => rfl
    | cons k ks =>
      obtain ⟨hk, hks⟩ := List.forall_mem_cons.mp hks
      rw [List.map_cons, walk_cons, follow_branch hne hchars hlinks hlength hbytes hk, Entry.find,
        links_find]
      cases hget : links.get? k with
      | none => rfl
      | some link => exact enter_links hlinks hchars hbelow hlength hks hget

theorem enter_links {links : Links} (hlaid : links.Laid data) (hchars : links.Chars)
    (hasserted : ∀ x ∈ links.table, x.Asserted) (hlength : data.length ≤ 0xffff) {ks : List Char}
    (hks : ∀ c ∈ ks, (TYPO_CHARS c).isSome) {k : Char} {link : Entry}
    (hlink : links.get? k = some link) :
    enter data (ks.map key_code) link.byte_offset = (link.find ks).map Prod.fst := by
  match links with
  | .nil => cases hlink
  | .cons c first rest =>
    obtain ⟨hfirst, hrest⟩ := hlaid
    obtain ⟨-, hfirst_chars, hrest_chars⟩ := hchars
    unfold Links.get? at hlink
    split at hlink
    · rw [← Option.some.inj hlink]
      exact enter_eq_find hfirst hfirst_chars
        (fun x hx => hasserted x (List.mem_append_left _ hx)) hlength hks
    · exact enter_links hrest hrest_chars
        (fun x hx => hasserted x (List.mem_append_right _ hx)) hlength hks hlink

end

mutual

theorem find_laid {e : Entry} (hlaid : e.Laid data) (hasserted : ∀ x ∈ e.table, x.Asserted)
    {ks : List Char} {o : Nat} {typo correction : str}
    (hfind : e.find ks = some (o, typo, correction)) :
    leaf_data typo correction <+: data.drop o ∧ LeafAsserted typo correction := by
  match e with
  | .leaf _ _ _ =>
    cases hfind
    exact ⟨hlaid, hasserted (.leaf o typo correction) (by simp [Entry.table])⟩
  | .chain _ chars link =>
    rw [Entry.find] at hfind
    split at hfind
    · exact find_laid hlaid.2.2 (fun x hx => hasserted x (List.mem_cons_of_mem _ hx)) hfind
    · cases hfind
  | .branch _ links =>
    cases ks with
    | nil => cases hfind
    | cons k ks =>
      exact find_links_laid hlaid.2 (fun x hx => hasserted x (List.mem_cons_of_mem _ hx)) hfind

theorem find_links_laid {links : Links} (hlaid : links.Laid data)
    (hasserted : ∀ x ∈ links.table, x.Asserted) {k : Char} {ks : List Char} {o : Nat}
    {typo correction : str} (hfind : links.find k ks = some (o, typo, correction)) :
    leaf_data typo correction <+: data.drop o ∧ LeafAsserted typo correction := by
  match links with
  | .nil => cases hfind
  | .cons c link rest =>
    obtain ⟨hlink, hrest⟩ := hlaid
    unfold Links.find at hfind
    split at hfind
    · exact find_laid hlink (fun x hx => hasserted x (List.mem_append_left _ hx)) hfind
    · exact find_links_laid hrest (fun x hx => hasserted x (List.mem_append_right _ hx)) hfind

end

end

/-! ## The table finds what the trie finds -/

mutual

theorem chars_place {o : Nat} {e : Entry} (h : e.Chars) : (e.place o).Chars := by
  match e with
  | .leaf _ _ _ => trivial
  | .chain _ chars link => exact ⟨h.1, h.2.1, chars_place h.2.2⟩
  | .branch _ links => exact chars_links_place h

theorem chars_links_place {o : Nat} {links : Links} (h : links.Chars) : (links.place o).Chars := by
  match links with
  | .nil => trivial
  | .cons c link rest => exact ⟨h.1, chars_place h.2.1, chars_links_place h.2.2⟩

end

theorem chars_chain_of (hc : (TYPO_CHARS c).isSome) {e : Entry} (h : e.Chars) :
    (chain_of c e).Chars := by
  match e with
  | .leaf _ _ _ => exact ⟨by simp, by simpa using hc, trivial⟩
  | .chain _ chars link => exact ⟨by simp, List.forall_mem_cons.mpr ⟨hc, h.2.1⟩, h.2.2⟩
  | .branch _ links => exact ⟨by simp, by simpa using hc, h⟩

mutual

theorem chars_traverse {t : Trie Char (str × str)} (h : t.Letters fun c => (TYPO_CHARS c).isSome) :
    (traverse t).Chars := by
  match t with
  | .node (some _) _ => trivial
  | .node none .nil => trivial
  | .node none (.cons c child .nil) => exact chars_chain_of h.1 (chars_traverse h.2.1)
  | .node none (.cons c child (.cons c' child' rest)) => exact chars_traverse_links h

theorem chars_traverse_links {cs : Children Char (str × str)}
    (h : cs.Letters fun c => (TYPO_CHARS c).isSome) : (traverse_links cs).Chars := by
  match cs with
  | .nil => trivial
  | .cons c child rest => exact ⟨h.1, chars_traverse h.2.1, chars_traverse_links h.2.2⟩

end

mutual

theorem find_place (o : Nat) (e : Entry) (ks : List Char) :
    ((e.place o).find ks).map Prod.snd = (e.find ks).map Prod.snd := by
  match e with
  | .leaf _ _ _ => rw [Entry.place, Entry.find, Entry.find]; rfl
  | .chain _ chars link =>
    rw [Entry.place, Entry.find, Entry.find]
    split
    · exact find_place _ link _
    · rfl
  | .branch _ links =>
    cases ks with
    | nil => rfl
    | cons k ks => exact find_links_place _ links k ks

theorem find_links_place (o : Nat) (links : Links) (k : Char) (ks : List Char) :
    ((links.place o).find k ks).map Prod.snd = (links.find k ks).map Prod.snd := by
  match links with
  | .nil => rfl
  | .cons c link rest =>
    rw [Links.place, Links.find, Links.find]
    split
    · exact find_place _ link ks
    · exact find_links_place _ rest k ks

end

theorem find_chain_of (c : Char) (e : Entry) (ks : List Char) :
    (chain_of c e).find ks = match ks with
      | [] => none
      | k :: ks => if c = k then e.find ks else none := by
  match e with
  | .leaf _ _ _ => cases ks <;> simp [chain_of, Entry.find]
  | .chain _ chars link =>
    cases ks with
    | nil => simp [chain_of, Entry.find]
    | cons k ks =>
      by_cases hck : c = k <;> simp [chain_of, Entry.find, List.cons_prefix_cons, hck]
  | .branch _ links => cases ks <;> simp [chain_of, Entry.find]

mutual

theorem find_traverse (t : Trie Char (str × str)) (ks : List Char) :
    ((traverse t).find ks).map Prod.snd = Trie.find ks t := by
  match t with
  | .node (some _) _ => cases ks <;> rfl
  | .node none .nil => cases ks <;> rfl
  | .node none (.cons c child .nil) =>
    have hchild := find_traverse child
    rw [traverse, find_chain_of]
    cases ks with
    | nil => rfl
    | cons k ks =>
      change Option.map _ (if c = k then _ else _) = (if c = k then some child else none).bind _
      split
      · exact hchild ks
      · rfl
  | .node none (.cons c child (.cons c' child' rest)) =>
    cases ks with
    | nil => rfl
    | cons k ks => exact find_traverse_links (.cons c child (.cons c' child' rest)) k ks

theorem find_traverse_links (cs : Children Char (str × str)) (k : Char) (ks : List Char) :
    ((traverse_links cs).find k ks).map Prod.snd = (cs.get? k).bind (Trie.find ks) := by
  match cs with
  | .nil => rfl
  | .cons c child rest =>
    have hchild := find_traverse child ks
    have hrest := find_traverse_links rest k ks
    rw [traverse_links, Links.find, Children.get?]
    split
    · exact hchild
    · exact hrest

end

/-! ## The walk over the data of a dictionary -/

section

variable {autocorrections : List (str × str)} {data : List UInt8}

variable {ks : List Char}

/-- A typo that ends the keys is one in front of the keys in reverse, and no
other typo is there. -/
theorem find_make_trie (h : Parsed autocorrections) {e : str × str} :
    Trie.find ks (make_trie autocorrections) = some e ↔
      e ∈ autocorrections ∧ e.1.reverse <+: ks := by
  have hapart : (autocorrections.map fun e => (e.1.reverse, e)).Pairwise
      fun e e' => ¬ e.1 <+: e'.1 ∧ ¬ e'.1 <+: e.1 := by
    refine List.pairwise_map.mpr (h.apart.imp ?_)
    intro e e' hno
    simp only [List.reverse_prefix]
    exact ⟨fun hin => hno (.inl hin.isInfix), fun hin => hno (.inr hin.isInfix)⟩
  unfold make_trie
  rw [Trie.find_ofList_iff before hapart]
  constructor
  · rintro ⟨w, hmem, hw⟩
    obtain ⟨e', he', heq⟩ := List.mem_map.mp hmem
    cases heq
    exact ⟨he', hw⟩
  · rintro ⟨hmem, hw⟩
    exact ⟨e.1.reverse, List.mem_map.mpr ⟨e, hmem, rfl⟩, hw⟩

theorem letters_make_trie (h : Parsed autocorrections) :
    (make_trie autocorrections).Letters fun c => (TYPO_CHARS c).isSome := by
  refine Trie.letters_ofList before fun entry hentry k hk => ?_
  obtain ⟨e, he, rfl⟩ := List.mem_map.mp hentry
  exact h.chars e he k (List.mem_reverse.mp hk)

/-- The data is the bytes of the table, where the walk begins at the root. -/
theorem walk_eq_find (h : Parsed autocorrections)
    (hdata : serialize_trie (make_trie autocorrections) = some data) :
    ∃ root : Entry, root.Laid data ∧ (∀ x ∈ root.table, x.Asserted) ∧
      (∀ ks, (root.find ks).map Prod.snd = Trie.find ks (make_trie autocorrections)) ∧
      ∀ ks : List Char, (∀ c ∈ ks, (TYPO_CHARS c).isSome) →
        walk data (ks.map key_code) 0 = (root.find ks).map Prod.fst := by
  unfold serialize_trie at hdata
  dsimp only at hdata
  split at hdata
  case isFalse => cases hdata
  case isTrue hasserted =>
    obtain ⟨hasserted, htotal⟩ := hasserted
    have hbytes := Option.some.inj hdata
    set root := (traverse (make_trie autocorrections)).place 0 with hroot
    have hsame : data = [] ++ (root.bytes ++ []) := by simp [← hbytes, Entry.bytes]
    have hlaid : root.Laid data := by
      rw [hsame]
      exact laid_place _ [] [] rfl
    have hchars : root.Chars := chars_place (chars_traverse (letters_make_trie h))
    have hfind : ∀ ks, (root.find ks).map Prod.snd = Trie.find ks (make_trie autocorrections) :=
      fun ks => by rw [hroot, find_place, find_traverse]
    have hlength : data.length ≤ 0xffff := by
      rw [← hbytes]
      change root.bytes.length ≤ _
      rw [length_bytes, ← place_total 0]
      exact htotal
    have hoffset : root.byte_offset = 0 := place_byte_offset 0 _
    refine ⟨root, hlaid, hasserted, hfind, fun ks hks => ?_⟩
    have hinner : ∀ o typo correction, root ≠ .leaf o typo correction := by
      intro o typo correction hleaf
      have hempty := hfind []
      rw [hleaf] at hempty
      obtain ⟨hmem, hprefix⟩ := (find_make_trie h).mp hempty.symm
      exact h.nonempty _ hmem (List.reverse_eq_nil_iff.mp (List.prefix_nil.mp hprefix))
    have hself : root ∈ root.table := by
      cases hcase : root with
      | leaf o typo correction => exact absurd hcase (hinner o typo correction)
      | chain => exact List.mem_cons_self
      | branch => exact List.mem_cons_self
    have henter := enter_inner hlaid hchars (hasserted root hself) hinner (ks.map key_code)
    rw [hoffset] at henter
    rw [← henter, ← hoffset]
    exact enter_eq_find hlaid hchars hasserted hlength hks

theorem walk_eq_some (h : Parsed autocorrections)
    (hdata : serialize_trie (make_trie autocorrections) = some data)
    (hks : ∀ c ∈ ks, (TYPO_CHARS c).isSome) {e : str × str} (he : e ∈ autocorrections)
    (hends : e.1.reverse <+: ks) :
    ∃ state, walk data (ks.map key_code) 0 = some state ∧
      leaf_data e.1 e.2 <+: data.drop state ∧ LeafAsserted e.1 e.2 := by
  obtain ⟨root, hlaid, hasserted, hfind, hwalk⟩ := walk_eq_find h hdata
  have hsome := hfind ks
  rw [(find_make_trie h).mpr ⟨he, hends⟩] at hsome
  obtain ⟨⟨state, typo, correction⟩, hroot, hsame⟩ := Option.map_eq_some_iff.mp hsome
  refine ⟨state, by rw [hwalk ks hks, hroot]; rfl, ?_⟩
  obtain ⟨hleaf, hfits⟩ := find_laid hlaid hasserted hroot
  rw [← hsame]
  exact ⟨hleaf, hfits⟩

theorem walk_eq_none (h : Parsed autocorrections)
    (hdata : serialize_trie (make_trie autocorrections) = some data)
    (hks : ∀ c ∈ ks, (TYPO_CHARS c).isSome) (hno : ∀ e ∈ autocorrections, ¬ e.1.reverse <+: ks) :
    walk data (ks.map key_code) 0 = none := by
  obtain ⟨root, -, -, hfind, hwalk⟩ := walk_eq_find h hdata
  rw [hwalk ks hks, Option.map_eq_none_iff, ← Option.map_eq_none_iff (f := Prod.snd), hfind ks]
  refine Option.eq_none_iff_forall_ne_some.mpr fun e hsome => ?_
  obtain ⟨he, hends⟩ := (find_make_trie h).mp hsome
  exact hno e he hends

end

end keychron_qmk.autocorrect
