-- The generator of autocorrect data:
-- `lib/python/qmk/cli/generate/autocorrect_data.py`.
import KeychronQMK.Lib.Trie
import Mathlib.Data.List.DropRight

namespace keychron_qmk.autocorrect

open trie

abbrev str := List Char

/-! ## The dictionary -/

def KC_A : UInt8 := 4
def KC_SPC : UInt8 := 0x2c
def KC_QUOT : UInt8 := 0x34

/-- The apostrophe. -/
def QUOTE : Char := Char.ofNat 39

def TYPO_CHARS (c : Char) : Option UInt8 :=
  if c = QUOTE then some KC_QUOT
  else if c = ':' then some KC_SPC
  else if 'a'.toNat ≤ c.toNat ∧ c.toNat ≤ 'z'.toNat then
    some (UInt8.ofNat (c.toNat + KC_A.toNat - 'a'.toNat))
  else none

/-- The keycode of a character of a typo. -/
def key_code (c : Char) : UInt8 := (TYPO_CHARS c).getD 0

def Overlap (typo other_typo : str) : Prop := typo <:+: other_typo ∨ other_typo <:+: typo

/-- What `parse_file` accepts: typos that are not empty, over the characters of
typos, at most 127 of them, none a part of another. -/
structure Parsed (autocorrections : List (str × str)) : Prop where
  nonempty : ∀ e ∈ autocorrections, e.1 ≠ []
  chars : ∀ e ∈ autocorrections, ∀ c ∈ e.1, (TYPO_CHARS c).isSome
  length : ∀ e ∈ autocorrections, e.1.length ≤ 127
  apart : autocorrections.Pairwise fun e e' => ¬ Overlap e.1 e'.1

/-! ## make_trie -/

/-- A dictionary is kept in the order of its keys: the code goes through one
in that order, or when it has a single item. -/
def before (c c' : Char) : Bool := c < c'

def make_trie (autocorrections : List (str × str)) : Trie Char (str × str) :=
  Trie.ofList before (autocorrections.map fun e => (e.1.reverse, e))

/-! ## serialize_trie -/

mutual

inductive Entry where
  | leaf (byte_offset : Nat) (typo correction : str)
  | chain (byte_offset : Nat) (chars : List Char) (link : Entry)
  | branch (byte_offset : Nat) (links : Links)

inductive Links where
  | nil
  | cons (c : Char) (link : Entry) (rest : Links)

end

def chain_of (c : Char) : Entry → Entry
  | .chain _ chars link => .chain 0 (c :: chars) link
  | e => .chain 0 [c] e

mutual

def traverse : Trie Char (str × str) → Entry
  | .node (some e) _ => .leaf 0 e.1 e.2
  | .node none (.cons c child .nil) => chain_of c (traverse child)
  | .node none children => .branch 0 (traverse_links children)

def traverse_links : Children Char (str × str) → Links
  | .nil => .nil
  | .cons c child rest => .cons c (traverse child) (traverse_links rest)

end

def strip (typo : str) : str := (typo.dropWhile (· = ':')).rdropWhile (· = ':')

/-- How many characters two texts have in common from their start on. -/
def common : str → str → Nat
  | c :: s, c' :: s' => if c = c' then common s s' + 1 else 0
  | _, _ => 0

def word_boundary_ending (typo : str) : Prop := typo.getLast? = some ':'

instance (typo : str) : Decidable (word_boundary_ending typo) := inferInstanceAs (Decidable (_ = _))

def backspaces (typo correction : str) : Int :=
  (strip typo).length - common (strip typo) correction - 1 +
    if word_boundary_ending typo then 1 else 0

/-- The part of the correction that is sent. -/
def changes (typo correction : str) : str := correction.drop (common (strip typo) correction)

def leaf_data (typo correction : str) : List UInt8 :=
  UInt8.ofNat ((backspaces typo correction).toNat + 128) ::
    ((changes typo correction).map fun c => UInt8.ofNat c.toNat) ++ [0]

/-- The assertion on the backspaces, and that the text is ASCII. -/
def LeafAsserted (typo correction : str) : Prop :=
  (0 ≤ backspaces typo correction ∧ backspaces typo correction ≤ 63) ∧
    ∀ c ∈ changes typo correction, c.toNat < 128

instance (typo correction : str) : Decidable (LeafAsserted typo correction) :=
  have := List.decidableBAll (fun c : Char => c.toNat < 128) (changes typo correction)
  inferInstanceAs (Decidable ((_ ∧ _) ∧ _))

def Entry.byte_offset : Entry → Nat
  | .leaf byte_offset _ _ | .chain byte_offset _ _ | .branch byte_offset _ => byte_offset

def encode_link (link : Entry) : List UInt8 :=
  [UInt8.ofNat (link.byte_offset &&& 255), UInt8.ofNat (link.byte_offset >>> 8)]

/-- The bytes of the links, where only the first character gets the flag. -/
def serialize_links (flag : UInt8) : Links → List UInt8
  | .nil => []
  | .cons c link rest => (key_code c ||| flag) :: (encode_link link ++ serialize_links 0 rest)

def serialize : Entry → List UInt8
  | .leaf _ typo correction => leaf_data typo correction
  | .chain _ chars _ => chars.map key_code ++ [0]
  | .branch _ links => serialize_links 64 links ++ [0]

def Links.length : Links → Nat
  | .nil => 0
  | .cons _ _ rest => rest.length + 1

mutual

def Entry.table : Entry → List Entry
  | .leaf byte_offset typo correction => [.leaf byte_offset typo correction]
  | .chain byte_offset chars link => .chain byte_offset chars link :: link.table
  | .branch byte_offset links => .branch byte_offset links :: links.table

def Links.table : Links → List Entry
  | .nil => []
  | .cons _ link rest => link.table ++ rest.table

end

mutual

def Entry.total : Entry → Nat
  | .leaf _ typo correction => (leaf_data typo correction).length
  | .chain _ chars link => chars.length + 1 + link.total
  | .branch _ links => 3 * links.length + 1 + links.total

def Links.total : Links → Nat
  | .nil => 0
  | .cons _ link rest => link.total + rest.total

end

mutual

/-- The byte offsets along the table, from the given one on. -/
def Entry.place (byte_offset : Nat) : Entry → Entry
  | .leaf _ typo correction => .leaf byte_offset typo correction
  | .chain _ chars link => .chain byte_offset chars (link.place (byte_offset + chars.length + 1))
  | .branch _ links =>
    .branch byte_offset (links.place (byte_offset + 3 * links.length + 1))

def Links.place (byte_offset : Nat) : Links → Links
  | .nil => .nil
  | .cons c link rest => .cons c (link.place byte_offset) (rest.place (byte_offset + link.total))

end

/-- The assertions of a table entry. Only an empty trie has a branch without
links, which has no data. -/
def Entry.Asserted : Entry → Prop
  | .leaf _ typo correction => LeafAsserted typo correction
  | .chain _ _ _ => True
  | .branch _ links => links.length ≠ 0

instance : ∀ e : Entry, Decidable e.Asserted
  | .leaf _ typo correction => inferInstanceAs (Decidable (LeafAsserted typo correction))
  | .chain _ _ _ => .isTrue trivial
  | .branch _ links => inferInstanceAs (Decidable (links.length ≠ 0))

/-- None when an assertion fails. -/
def serialize_trie (trie : Trie Char (str × str)) : Option (List UInt8) :=
  let root := (traverse trie).place 0
  if (∀ e ∈ root.table, e.Asserted) ∧ root.total ≤ 0xffff then some (root.table.flatMap serialize)
  else none

end keychron_qmk.autocorrect
