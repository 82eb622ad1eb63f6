-- The reader of `keymap.c` files: `_get_layers` of
-- `lib/python/qmk/keymap.py`, over the tokens that the lexer finds.
import KeychronQMK.KeymapC.Generate

namespace keychron_qmk.keymap_c

open replacement

/-! ## Tokens -/

/-- The token types that `_get_layers` tells apart. It compares them with `is`,
so the subtypes of these are among the others: hexadecimal literals,
operators, white space, comments. -/
inductive TokenType where
  | Name
  | Keyword
  | Keyword_Type
  | Punctuation
  | Literal_Number_Integer
  | other
  deriving DecidableEq

structure Token where
  type : TokenType
  text : str
  deriving DecidableEq

/-! ## _get_layers -/

structure Layer where
  name : Option str
  layout : Option str
  keycodes : List str
  deriving DecidableEq

/-- `not value` -/
def falsy : Option str → Bool
  | none => true
  | some s => s.isEmpty

/-- `dict(name=False, layout=False, keycodes=list())` -/
def Layer.new : Layer := ⟨none, none, []⟩

structure Reader where
  layers : List Layer
  keymap_certainty : Nat
  brace_depth : Int
  is_keymap : Bool
  is_layer : Bool
  is_adv_kc : Bool
  layer : Layer
  deriving DecidableEq

def Reader.new : Reader := ⟨[], 0, 0, false, false, false, .new⟩

def opening_braces : str := "(\x7b[".toList
def closing_braces : str := ")\x7d]".toList

/-- The aliases of two keycodes. -/
def kc_of (name : str) : str :=
  if name = "_______".toList then "KC_TRNS".toList
  else if name = "XXXXXXX".toList then "KC_NO".toList
  else name

namespace Reader

def extend (s : Reader) (text : str) : Option Reader :=
  if s.layer.keycodes = [] then none
  else some { s with layer.keycodes := s.layer.keycodes.modifyLast (· ++ text) }

def append (s : Reader) (kc : str) : Reader :=
  { s with layer.keycodes := s.layer.keycodes ++ [kc] }

def name (s : Reader) (text : str) : Option Reader :=
  if s.is_keymap then
    if falsy s.layer.name then
      if "LAYOUT".toList <+: text ∨ "KEYMAP".toList <+: text then
        some { s with layer.name := some "0".toList, layer.layout := some text }
      else some { s with layer.name := some text }
    else if falsy s.layer.layout then some { s with layer.layout := some text }
    else if s.is_layer then
      if s.is_adv_kc then s.extend (kc_of text) else some (s.append (kc_of text))
    else some s
  else if text = "PROGMEM".toList ∧ s.keymap_certainty = 2 then
    some { s with keymap_certainty := 3 }
  else if text = "keymaps".toList ∧ s.keymap_certainty = 3 then
    some { s with keymap_certainty := 4 }
  else if text = "MATRIX_ROWS".toList ∧ s.keymap_certainty = 4 then
    some { s with keymap_certainty := 5 }
  else if text = "MATRIX_COLS".toList ∧ s.keymap_certainty = 5 then
    some { s with keymap_certainty := 6 }
  else some s

def opening (s : Reader) (text : str) : Option Reader :=
  let s := { s with brace_depth := s.brace_depth + 1 }
  if s.is_keymap then
    if s.is_layer then { s with is_adv_kc := true }.extend text
    else if text = "(".toList ∧ s.brace_depth = 2 then some { s with is_layer := true }
    else some s
  else if text = "\x7b".toList ∧ s.keymap_certainty = 6 then some { s with is_keymap := true }
  else some s

def closing (s : Reader) (text : str) : Option Reader :=
  let s := { s with brace_depth := s.brace_depth - 1 }
  if s.is_keymap then
    if s.is_adv_kc then
      (s.extend text).map fun s =>
        if s.brace_depth = 2 then { s with is_adv_kc := false } else s
    else if text = ")".toList ∧ s.brace_depth = 1 then
      some { s with is_layer := false, layers := s.layers ++ [s.layer], layer := .new }
    else if text = "\x7d".toList ∧ s.brace_depth = 0 then
      some { s with is_keymap := false, keymap_certainty := 0 }
    else some s
  else some s

/-- Anything else counts only inside an advanced keycode. -/
def collect (s : Reader) (text : str) : Option Reader :=
  if s.is_adv_kc then s.extend text else some s

def step (s : Reader) (line : Token) : Option Reader :=
  match line.type with
  | .Name => s.name line.text
  | .Keyword =>
    if line.text = "const".toList ∧ s.keymap_certainty = 0 then
      some { s with keymap_certainty := 1 }
    else some s
  | .Keyword_Type =>
    if line.text = "uint16_t".toList ∧ s.keymap_certainty = 1 then
      some { s with keymap_certainty := 2 }
    else some s
  | .Punctuation =>
    if line.text <:+: opening_braces then s.opening line.text
    else if line.text <:+: closing_braces then s.closing line.text
    else s.collect line.text
  | .Literal_Number_Integer =>
    if s.is_keymap ∧ ¬ s.is_adv_kc then
      if falsy s.layer.name then some { s with layer.name := some line.text } else some s
    else s.collect line.text
  | .other => s.collect line.text

def read (s : Reader) (lines : List Token) : Option Reader := lines.foldlM step s

end Reader

/-- The lexer is a parameter. The result is none for an IndexError. -/
def get_layers (lex : str → List Token) (keymap : str) : Option (List Layer) :=
  (Reader.new.read (lex keymap)).map (·.layers)

/-! ## Keycodes -/

def IsIdentifier (s : str) : Prop := s ≠ [] ∧ ∀ c ∈ s, c.isAlphanum ∨ c = '_'

instance (s : str) : Decidable (IsIdentifier s) :=
  have := List.decidableBAll (fun c : Char => c.isAlphanum ∨ c = '_') s
  inferInstanceAs (Decidable (_ ∧ _))

def Token.Opens (t : Token) : Prop := t.type = .Punctuation ∧ t.text <:+: opening_braces

def Token.Closes (t : Token) : Prop :=
  t.type = .Punctuation ∧ ¬ t.text <:+: opening_braces ∧ t.text <:+: closing_braces

instance (t : Token) : Decidable t.Opens := inferInstanceAs (Decidable (_ ∧ _))
instance (t : Token) : Decidable t.Closes := inferInstanceAs (Decidable (_ ∧ ¬ _ ∧ _))

/-- From `depth` open braces on the braces balance, whatever their kind, and
outside of all braces there is nothing else. -/
def Nested : Nat → List Token → Prop
  | depth, [] => depth = 0
  | depth, t :: ts =>
    if t.Opens then Nested (depth + 1) ts
    else if t.Closes then 0 < depth ∧ Nested (depth - 1) ts
    else 0 < depth ∧ Nested depth ts

instance Nested.decidable : ∀ depth ts, Decidable (Nested depth ts)
  | depth, [] => inferInstanceAs (Decidable (depth = 0))
  | depth, t :: ts =>
    have := Nested.decidable (depth + 1) ts
    have := Nested.decidable (depth - 1) ts
    have := Nested.decidable depth ts
    inferInstanceAs (Decidable (if t.Opens then Nested (depth + 1) ts
      else if t.Closes then 0 < depth ∧ Nested (depth - 1) ts else 0 < depth ∧ Nested depth ts))

def punctuation (text : String) : Token := ⟨.Punctuation, text.toList⟩

/-- An identifier, an integer literal, or a function-like keycode. -/
inductive Keycode where
  | ident (name : str)
  | int (text : str) (hexadecimal : Bool)
  | call (name : str) (args : List Token)
  deriving DecidableEq

namespace Keycode

/-- The tokens after the name of a function-like keycode. -/
def parenthesized (args : List Token) : List Token := punctuation "(" :: (args ++ [punctuation ")"])

def tokens : Keycode → List Token
  | ident name => [⟨.Name, name⟩]
  | int text hexadecimal => [⟨if hexadecimal then .other else .Literal_Number_Integer, text⟩]
  | call name args => ⟨.Name, name⟩ :: parenthesized args

/-- An integer is some letters and digits here, a call has tokens that are not
empty between parentheses that balance. -/
def WellFormed : Keycode → Prop
  | ident name => IsIdentifier name
  | int text _ => text ≠ [] ∧ ∀ c ∈ text, c.isAlphanum
  | call name args => IsIdentifier name ∧ (∀ t ∈ args, t.text ≠ []) ∧ Nested 0 (parenthesized args)

instance : ∀ keycode : Keycode, Decidable keycode.WellFormed
  | .ident name => inferInstanceAs (Decidable (IsIdentifier name))
  | .int text _ =>
    have := List.decidableBAll (fun c : Char => c.isAlphanum = true) text
    inferInstanceAs (Decidable (text ≠ [] ∧ _))
  | .call name args => inferInstanceAs (Decidable (IsIdentifier name ∧ (∀ t ∈ args, t.text ≠ []) ∧ _))

instance (name : str) : ∀ keycode : Keycode, Decidable (∀ args, keycode ≠ .call name args)
  | .ident _ => .isTrue fun _ => by simp
  | .int _ _ => .isTrue fun _ => by simp
  | .call name' args' => decidable_of_iff (name' ≠ name)
    ⟨fun h _ heq => h (by injection heq), fun h heq => h args' (by rw [heq])⟩

end Keycode

def textOf (ts : List Token) : str := ts.flatMap (·.text)

/-- A keycode of the JSON keymap, perhaps in ANY(). -/
structure Entry where
  keycode : Keycode
  any : Bool
  deriving DecidableEq

namespace Entry

def json (entry : Entry) : str :=
  if entry.any then "ANY(".toList ++ textOf entry.keycode.tokens ++ ")".toList
  else textOf entry.keycode.tokens

/-- A call of ANY is ANY() around something. -/
def WellFormed (entry : Entry) : Prop :=
  entry.keycode.WellFormed ∧
    (entry.any = false → ∀ args, entry.keycode ≠ .call "ANY".toList args)

instance (entry : Entry) : Decidable entry.WellFormed := inferInstanceAs (Decidable (_ ∧ (_ → _)))

end Entry

/-! ## The text of a keymap -/

theorem not_mem_of_isIdentifier {s : str} (h : IsIdentifier s) : '(' ∉ s := by
  intro hmem
  rcases h.2 _ hmem with h' | h'
  · exact absurd h' (by decide)
  · exact absurd h' (by decide)

theorem takeWhile_name {name : str} (h : '(' ∉ name) (rest : str) :
    (name ++ '(' :: rest).takeWhile (· ≠ '(') = name := by
  rw [List.takeWhile_append_of_pos]
  · simp
  · intro c hc
    simp only [ne_eq, decide_not, Bool.not_eq_eq_eq_not, Bool.not_true, decide_eq_false_iff_not]
    rintro rfl
    exact h hc

theorem not_any_of_not_mem {s : str} (h : '(' ∉ s) : ¬ "ANY(".toList <+: s := by
  intro hany
  exact h (hany.subset (by decide))

variable {keycode : Keycode}

theorem Keycode.not_any (h : keycode.WellFormed)
    (hname : ∀ args, keycode ≠ .call "ANY".toList args) :
    ¬ "ANY(".toList <+: textOf keycode.tokens := by
  cases keycode with
  | ident name =>
    have htext : textOf (ident name).tokens = name := by simp [textOf, tokens]
    rw [htext]
    exact not_any_of_not_mem (not_mem_of_isIdentifier h)
  | int text hexadecimal =>
    have htext : textOf (int text hexadecimal).tokens = text := by simp [textOf, tokens]
    rw [htext]
    refine not_any_of_not_mem fun hmem => ?_
    exact absurd (h.2 _ hmem) (by decide)
  | call name args =>
    rintro ⟨rest, hrest⟩
    have htake := takeWhile_name (not_mem_of_isIdentifier h.1) (textOf (args ++ [punctuation ")"]))
    have htake' := takeWhile_name (show '(' ∉ "ANY".toList by decide) rest
    have hsame : "ANY".toList ++ '(' :: rest = name ++ '(' :: textOf (args ++ [punctuation ")"]) :=
      hrest
    rw [← hsame, htake'] at htake
    exact hname args (by rw [htake])

theorem strip_any_json {entry : Entry} (h : entry.WellFormed) :
    strip_any entry.json = textOf entry.keycode.tokens := by
  unfold strip_any Entry.json
  cases hany : entry.any with
  | true =>
    rw [if_pos rfl, if_pos]
    · rw [List.append_assoc]
      exact List.dropLast_concat
    · exact ⟨⟨_, (List.append_assoc _ _ _).symm⟩, ⟨_, rfl⟩⟩
  | false =>
    have hno := Keycode.not_any h.1 (h.2 hany)
    simp only [Bool.false_eq_true, if_false]
    rw [if_neg fun h' => hno h'.1]

/-! ## The tokens of a keymap -/

def space : Token := ⟨.other, " ".toList⟩
def newline : Token := ⟨.other, "\n".toList⟩

/-- `const uint16_t PROGMEM keymaps[][MATRIX_ROWS][MATRIX_COLS] = ` and the
opening brace. -/
def keymapsTokens : List Token :=
  [⟨.Keyword, "const".toList⟩, space, ⟨.Keyword_Type, "uint16_t".toList⟩, space,
    ⟨.Name, "PROGMEM".toList⟩, space, ⟨.Name, "keymaps".toList⟩, punctuation "[",
    punctuation "]", punctuation "[", ⟨.Name, "MATRIX_ROWS".toList⟩, punctuation "]",
    punctuation "[", ⟨.Name, "MATRIX_COLS".toList⟩, punctuation "]", space,
    ⟨.other, "=".toList⟩, space, punctuation "\x7b"]

/-- The tokens by which the reader knows the array, in their order. -/
def signature : List Token :=
  [⟨.Keyword, "const".toList⟩, ⟨.Keyword_Type, "uint16_t".toList⟩, ⟨.Name, "PROGMEM".toList⟩,
    ⟨.Name, "keymaps".toList⟩, ⟨.Name, "MATRIX_ROWS".toList⟩, ⟨.Name, "MATRIX_COLS".toList⟩,
    punctuation "\x7b"]

def keycodesTokens : List Keycode → List Token
  | [] => []
  | [keycode] => keycode.tokens
  | keycode :: keycodes => keycode.tokens ++ punctuation "," :: space :: keycodesTokens keycodes

def layerTokens (layout : str) (layer_num : Nat) (layer : List Keycode) : List Token :=
  [⟨.other, "    ".toList⟩, punctuation "[", ⟨.Literal_Number_Integer, digits layer_num⟩,
    punctuation "]", space, ⟨.other, "=".toList⟩, space, ⟨.Name, layout⟩, punctuation "("] ++
    keycodesTokens layer ++ [punctuation ")"]

def linesTokens (layout : str) : Nat → List (List Keycode) → List Token
  | _, [] => [newline, punctuation "\x7d", punctuation ";"]
  | layer_num, layer :: layers =>
    (if layer_num = 0 then [] else [punctuation ","]) ++
      newline :: (layerTokens layout layer_num layer ++ linesTokens layout (layer_num + 1) layers)

def keymapTokens (layout : str) (layers : List (List Keycode)) : List Token :=
  keymapsTokens ++ linesTokens layout 0 layers

def Entry.keycodes (keymap : List (List Entry)) : List (List Keycode) :=
  keymap.map (·.map (·.keycode))

def Entry.jsons (keymap : List (List Entry)) : List (List str) := keymap.map (·.map (·.json))

section

@[simp] theorem textOf_nil : textOf [] = [] := rfl

@[simp] theorem textOf_cons (t : Token) (ts : List Token) :
    textOf (t :: ts) = t.text ++ textOf ts := rfl

@[simp] theorem textOf_append (ts us : List Token) :
    textOf (ts ++ us) = textOf ts ++ textOf us := by
  simp [textOf]

theorem text_keycodes (keycodes : List Keycode) :
    List.intercalate ", ".toList (keycodes.map fun keycode => textOf keycode.tokens) =
      textOf (keycodesTokens keycodes) := by
  induction keycodes with
  | nil => rfl
  | cons keycode keycodes ih =>
    cases keycodes with
    | nil => simp [keycodesTokens, List.intercalate]
    | cons next keycodes =>
      rw [keycodesTokens, textOf_append, textOf_cons, textOf_cons, ← ih]
      · simp [List.intercalate, punctuation, space]
      · simp

theorem text_layer (layout : str) (layer_num : Nat) {layer : List Entry}
    (h : ∀ entry ∈ layer, entry.WellFormed) :
    layer_line layout layer_num (layer.map (·.json)) =
      textOf (layerTokens layout layer_num (layer.map (·.keycode))) := by
  have hstrip : (layer.map (·.json)).map strip_any =
      (layer.map (·.keycode)).map fun keycode => textOf keycode.tokens := by
    rw [List.map_map, List.map_map]
    exact List.map_congr_left fun entry hentry => strip_any_json (h entry hentry)
  unfold layer_line layerTokens
  rw [hstrip, text_keycodes]
  simp [punctuation, space]

variable {lines : List str}

theorem intercalate_concat (sep : str) (h : lines ≠ []) (line : str) :
    List.intercalate sep (lines ++ [line]) = List.intercalate sep lines ++ sep ++ line := by
  induction lines with
  | nil => exact absurd rfl h
  | cons first lines ih =>
    cases lines with
    | nil => simp [List.intercalate_cons_cons]
    | cons next lines =>
      rw [List.cons_append, List.cons_append, List.intercalate_cons_cons,
        List.intercalate_cons_cons, ← List.cons_append, ih (by simp)]
      simp

theorem intercalate_modifyLast (sep more : str) (h : lines ≠ []) :
    List.intercalate sep (lines.modifyLast (· ++ more)) = List.intercalate sep lines ++ more := by
  obtain ⟨lines, line, rfl⟩ := List.eq_nil_or_concat lines |>.resolve_left h
  rw [List.concat_eq_append, List.modifyLast_concat]
  cases lines with
  | nil => simp
  | cons first lines =>
    rw [intercalate_concat sep (by simp), intercalate_concat sep (by simp), List.append_assoc,
      List.append_assoc, List.append_assoc]

theorem modifyLast_ne_nil (more : str) (h : lines ≠ []) : lines.modifyLast (· ++ more) ≠ [] := by
  obtain ⟨lines, line, rfl⟩ := List.eq_nil_or_concat lines |>.resolve_left h
  rw [List.concat_eq_append, List.modifyLast_concat]
  simp

theorem add_layer_ne_nil (layout : str) (lines : List str) (layer_num : List str × Nat) :
    add_layer layout lines layer_num ≠ [] := by
  simp [add_layer]

theorem text_lines (layout : str) {layers : List (List Entry)}
    (h : ∀ layer ∈ layers, ∀ entry ∈ layer, entry.WellFormed) (layer_num : Nat)
    (hlines : lines ≠ []) :
    List.intercalate "\n".toList
      (((Entry.jsons layers).zipIdx layer_num).foldl (add_layer layout) lines ++ [END_LINE]) =
      List.intercalate "\n".toList lines ++
        textOf (linesTokens layout layer_num (Entry.keycodes layers)) := by
  induction layers generalizing layer_num lines with
  | nil =>
    change List.intercalate _ (lines ++ [END_LINE]) = _
    rw [intercalate_concat _ hlines, List.append_assoc]
    rfl
  | cons layer layers ih =>
    obtain ⟨hlayer, hlayers⟩ := List.forall_mem_cons.mp h
    have hline := text_layer layout layer_num hlayer
    have hrest := ih hlayers (layer_num + 1)
      (add_layer_ne_nil layout lines (layer.map (·.json), layer_num))
    change List.intercalate _ (((Entry.jsons layers).zipIdx (layer_num + 1)).foldl _
      (add_layer layout lines (layer.map (·.json), layer_num)) ++ _) = _
    rw [hrest]
    unfold add_layer
    rw [hline]
    change _ = _ ++ textOf ((if layer_num = 0 then [] else [punctuation ","]) ++
      newline :: (layerTokens layout layer_num (layer.map (·.keycode)) ++ linesTokens layout _ _))
    by_cases hzero : layer_num = 0
    · rw [if_neg (not_not.mpr hzero), if_pos hzero, intercalate_concat _ hlines]
      simp [newline, Entry.keycodes]
    · have hmodify := modifyLast_ne_nil ",".toList hlines
      rw [if_pos hzero, if_neg hzero, intercalate_concat _ hmodify,
        intercalate_modifyLast _ _ hlines]
      simp [newline, punctuation, Entry.keycodes]

theorem text_keymap (layout : str) {keymap : List (List Entry)}
    (h : ∀ layer ∈ keymap, ∀ entry ∈ layer, entry.WellFormed) :
    keymap_text layout (Entry.jsons keymap) =
      textOf (keymapTokens layout (Entry.keycodes keymap)) := by
  unfold keymap_text generate_keymap_table keymapTokens
  rw [text_lines layout h 0 (by simp), textOf_append]
  rfl

end

/-! ## What the reader finds -/

/-- What a token inside an advanced keycode adds to it. -/
def keptText (t : Token) : str :=
  match t.type with
  | .Name => kc_of t.text
  | .Keyword | .Keyword_Type => []
  | _ => t.text

def readKeycode : Keycode → List str
  | .ident name => [kc_of name]
  | .int _ _ => []
  | .call name args => [kc_of name ++ (Keycode.parenthesized args).flatMap keptText]

namespace Reader

def inKeymap (layers : List Layer) : Reader := ⟨layers, 6, 1, true, false, false, .new⟩

/-- In a layer, with so many open braces inside it. -/
def inLayer (layers : List Layer) (name layout : str) (keycodes : List str) (depth : Nat) :
    Reader :=
  ⟨layers, 6, (depth : Int) + 2, true, true, decide (0 < depth), ⟨some name, some layout, keycodes⟩⟩

section

variable {layers : List Layer} {name layout : str} {keycodes : List str} {depth : Nat}

theorem read_cons (s : Reader) (t : Token) (ts : List Token) :
    s.read (t :: ts) = (s.step t).bind fun s => s.read ts := rfl

theorem read_append (s : Reader) (ts us : List Token) :
    s.read (ts ++ us) = (s.read ts).bind fun s => s.read us :=
  List.foldlM_append

theorem extend_inLayer (kc text : str) :
    (inLayer layers name layout (keycodes ++ [kc]) depth).extend text =
      some (inLayer layers name layout (keycodes ++ [kc ++ text]) depth) := by
  simp [extend, inLayer, List.modifyLast_concat]

theorem collect_inLayer (kc text : str) (hdepth : 0 < depth) :
    (inLayer layers name layout (keycodes ++ [kc]) depth).collect text =
      some (inLayer layers name layout (keycodes ++ [kc ++ text]) depth) := by
  unfold collect
  rw [if_pos (by simpa [inLayer] using hdepth), extend_inLayer]

theorem name_inLayer (hname : name ≠ []) (hlayout : layout ≠ []) (text : str) :
    (inLayer layers name layout keycodes depth).name text =
      if 0 < depth then (inLayer layers name layout keycodes depth).extend (kc_of text)
      else some (inLayer layers name layout (keycodes ++ [kc_of text]) depth) := by
  simp [Reader.name, inLayer, falsy, hname, hlayout, append]

theorem step_collected (hname : name ≠ []) (hlayout : layout ≠ []) (kc : str) {t : Token}
    (hdepth : 0 < depth) (hopens : ¬ t.Opens) (hcloses : ¬ t.Closes) :
    (inLayer layers name layout (keycodes ++ [kc]) depth).step t =
      some (inLayer layers name layout (keycodes ++ [kc ++ keptText t]) depth) := by
  obtain ⟨type, text⟩ := t
  cases type with
  | Name =>
    change Reader.name _ text = _
    rw [name_inLayer hname hlayout, if_pos hdepth, extend_inLayer]
    rfl
  | Keyword => simp [step, keptText, inLayer]
  | Keyword_Type => simp [step, keptText, inLayer]
  | Punctuation =>
    have htext : ¬ text <:+: opening_braces := fun h => hopens ⟨rfl, h⟩
    have htext' : ¬ text <:+: closing_braces := fun h => hcloses ⟨rfl, htext, h⟩
    change (if text <:+: opening_braces then _ else if text <:+: closing_braces then _ else _) = _
    rw [if_neg htext, if_neg htext']
    exact collect_inLayer kc text hdepth
  | Literal_Number_Integer =>
    change (if _ ∧ _ then _ else _) = _
    rw [if_neg (by simp [inLayer, hdepth])]
    exact collect_inLayer kc text hdepth
  | other => exact collect_inLayer kc text hdepth

theorem step_opens (kc : str) {t : Token} (hopens : t.Opens) :
    (inLayer layers name layout (keycodes ++ [kc]) depth).step t =
      some (inLayer layers name layout (keycodes ++ [kc ++ keptText t]) (depth + 1)) := by
  obtain ⟨type, text⟩ := t
  obtain ⟨rfl, htext⟩ := hopens
  change (if text <:+: opening_braces then _ else _) = _
  rw [if_pos htext]
  simp [opening, inLayer, extend, List.modifyLast_concat, keptText]
  omega

theorem step_closes (kc : str) {t : Token} (hdepth : 0 < depth) (hcloses : t.Closes) :
    (inLayer layers name layout (keycodes ++ [kc]) depth).step t =
      some (inLayer layers name layout (keycodes ++ [kc ++ keptText t]) (depth - 1)) := by
  obtain ⟨type, text⟩ := t
  obtain ⟨rfl, hopens, htext⟩ := hcloses
  obtain ⟨depth, rfl⟩ := Nat.exists_eq_add_one.mpr hdepth
  change (if text <:+: opening_braces then _ else if text <:+: closing_braces then _ else _) = _
  rw [if_neg hopens, if_pos htext]
  simp only [closing, inLayer, extend, List.modifyLast_concat, keptText]
  have hdepth : ((depth + 1 : Nat) : Int) + 2 - 1 = depth + 2 := by omega
  simp only [hdepth]
  cases depth with
  | zero => simp
  | succ depth =>
    simp
    omega

theorem read_nested (hname : name ≠ []) (hlayout : layout ≠ []) (kc : str) {ts : List Token}
    (h : Nested depth ts) :
    (inLayer layers name layout (keycodes ++ [kc]) depth).read ts =
      some (inLayer layers name layout (keycodes ++ [kc ++ ts.flatMap keptText]) 0) := by
  induction ts generalizing depth kc with
  | nil =>
    obtain rfl : depth = 0 := h
    simp [read]
  | cons t ts ih =>
    unfold Nested at h
    rw [read_cons, List.flatMap_cons, ← List.append_assoc]
    split at h
    · rename_i hopens
      rw [step_opens kc hopens]
      exact ih _ h
    · rename_i hopens
      split at h
      · rename_i hcloses
        rw [step_closes kc h.1 hcloses]
        exact ih _ h.2
      · rename_i hcloses
        rw [step_collected hname hlayout kc h.1 hopens hcloses]
        exact ih _ h.2

theorem step_space : (inLayer layers name layout keycodes 0).step space =
    some (inLayer layers name layout keycodes 0) := rfl

theorem step_comma : (inLayer layers name layout keycodes 0).step (punctuation ",") =
    some (inLayer layers name layout keycodes 0) := rfl

theorem read_keycode (hname : name ≠ []) (hlayout : layout ≠ []) {keycode : Keycode}
    (h : keycode.WellFormed) :
    (inLayer layers name layout keycodes 0).read keycode.tokens =
      some (inLayer layers name layout (keycodes ++ readKeycode keycode) 0) := by
  cases keycode with
  | ident kc =>
    change ((inLayer layers name layout keycodes 0).name kc).bind some = _
    rw [name_inLayer hname hlayout]
    rfl
  | int text hexadecimal =>
    cases hexadecimal with
    | true => simp [Keycode.tokens, read, step, collect, inLayer, readKeycode]
    | false => simp [Keycode.tokens, read, step, inLayer, readKeycode, falsy, hname]
  | call kc args =>
    change ((inLayer layers name layout keycodes 0).name kc).bind
      (fun s => s.read (Keycode.parenthesized args)) = _
    rw [name_inLayer hname hlayout]
    exact read_nested hname hlayout (kc_of kc) h.2.2

variable {layer : List Keycode}

theorem read_keycodes (hname : name ≠ []) (hlayout : layout ≠ [])
    (h : ∀ keycode ∈ layer, keycode.WellFormed) :
    (inLayer layers name layout keycodes 0).read (keycodesTokens layer) =
      some (inLayer layers name layout (keycodes ++ layer.flatMap readKeycode) 0) := by
  induction layer generalizing keycodes with
  | nil => simp [keycodesTokens, read]
  | cons keycode layer ih =>
    obtain ⟨hkeycode, hlayer⟩ := List.forall_mem_cons.mp h
    cases layer with
    | nil =>
      rw [keycodesTokens, read_keycode hname hlayout hkeycode]
      simp
    | cons next layer =>
      rw [keycodesTokens, read_append, read_keycode hname hlayout hkeycode, Option.bind_some,
        read_cons, step_comma, Option.bind_some, read_cons, step_space, Option.bind_some,
        ih hlayer]
      · simp
      · simp

theorem read_layer_start (hname : name ≠ []) :
    (inKeymap layers).read [⟨.other, "    ".toList⟩, punctuation "[",
      ⟨.Literal_Number_Integer, name⟩, punctuation "]", space, ⟨.other, "=".toList⟩, space,
      ⟨.Name, layout⟩, punctuation "("] = some (inLayer layers name layout [] 0) := by
  obtain ⟨c, cs, rfl⟩ := List.exists_cons_of_ne_nil hname
  rfl

theorem read_layer_end : (inLayer layers name layout keycodes 0).read [punctuation ")"] =
    some (inKeymap (layers ++ [⟨some name, some layout, keycodes⟩])) := rfl

theorem read_layer (hlayout : layout ≠ []) (layer_num : Nat)
    (h : ∀ keycode ∈ layer, keycode.WellFormed) :
    (inKeymap layers).read (layerTokens layout layer_num layer) =
      some (inKeymap (layers ++
        [⟨some (digits layer_num), some layout, layer.flatMap readKeycode⟩])) := by
  have hname : digits layer_num ≠ [] := Nat.toDigits_ne_nil
  unfold layerTokens
  rw [read_append, read_append, read_layer_start hname, Option.bind_some,
    read_keycodes hname hlayout h, Option.bind_some, List.nil_append, read_layer_end]

/-- After the keymaps array. -/
def done (layers : List Layer) : Reader := ⟨layers, 0, 0, false, false, false, .new⟩

/-- The layers of the keymap as the reader finds them. -/
def found (layout : str) (layer_num : Nat) (keymap : List (List Keycode)) : List Layer :=
  (keymap.zipIdx layer_num).map fun layer =>
    ⟨some (digits layer.2), some layout, layer.1.flatMap readKeycode⟩

theorem read_lines (hlayout : layout ≠ []) (layer_num : Nat) {keymap : List (List Keycode)}
    (h : ∀ layer ∈ keymap, ∀ keycode ∈ layer, keycode.WellFormed) :
    (inKeymap layers).read (linesTokens layout layer_num keymap) =
      some (done (layers ++ found layout layer_num keymap)) := by
  induction keymap generalizing layers layer_num with
  | nil =>
    rw [found, List.zipIdx_nil, List.map_nil, List.append_nil]
    rfl
  | cons layer keymap ih =>
    obtain ⟨hlayer, hkeymap⟩ := List.forall_mem_cons.mp h
    have hcomma : (inKeymap layers).read (if layer_num = 0 then [] else [punctuation ","]) =
        some (inKeymap layers) := by
      split <;> rfl
    have hnewline : (inKeymap layers).step newline = some (inKeymap layers) := rfl
    rw [linesTokens, read_append, hcomma, Option.bind_some, read_cons, hnewline, Option.bind_some,
      read_append, read_layer hlayout layer_num hlayer, Option.bind_some, ih _ hkeymap,
      List.append_assoc]
    rfl

theorem read_signature : (Reader.new).read keymapsTokens = some (inKeymap []) := rfl

theorem read_before {before : List Token} (h : ∀ t ∈ before, t.type = .other) :
    (Reader.new).read before = some .new := by
  induction before with
  | nil => rfl
  | cons t before ih =>
    obtain ⟨ht, hbefore⟩ := List.forall_mem_cons.mp h
    have hstep : (Reader.new).step t = some .new := by
      unfold step
      rw [ht]
      rfl
    rw [read_cons, hstep, Option.bind_some, ih hbefore]

/-- Not in the array, and what is left of its signature is not in the rest. -/
structure Idle (s : Reader) (rest : List Token) : Prop where
  is_keymap : s.is_keymap = false
  is_adv_kc : s.is_adv_kc = false
  free : ¬ List.Sublist (signature.drop s.keymap_certainty) rest

section

variable {s : Reader} {t : Token} {rest : List Token}

theorem Idle.same (h : s.Idle (t :: rest)) (depth : Int) :
    Idle { s with brace_depth := depth } rest :=
  ⟨h.is_keymap, h.is_adv_kc, fun hsub => h.free (hsub.cons t)⟩

theorem Idle.next (h : s.Idle (t :: rest)) {c : Nat} (hc : s.keymap_certainty = c)
    (hnext : signature.drop c = t :: signature.drop (c + 1)) :
    Idle { s with keymap_certainty := c + 1 } rest := by
  refine ⟨h.is_keymap, h.is_adv_kc, fun hsub => h.free ?_⟩
  rw [hc, hnext]
  exact hsub.cons_cons t

/-- The certainty goes up only with the next token of the signature. -/
theorem Idle.step (h : s.Idle (t :: rest)) :
    ∃ s', s.step t = some s' ∧ s'.Idle rest ∧ s'.layers = s.layers := by
  have hsame : s.Idle rest := h.same s.brace_depth
  have hcollect : ∀ text, s.collect text = some s := by simp [collect, h.is_adv_kc]
  have hkeymap := h.is_keymap
  obtain ⟨type, text⟩ := t
  cases type with
  | Name =>
    change ∃ s', Reader.name s text = some s' ∧ _
    unfold Reader.name
    rw [if_neg (by simp [hkeymap])]
    split_ifs with h1 h2 h3 h4
    · obtain ⟨rfl, hc⟩ := h1
      exact ⟨_, rfl, h.next hc rfl, rfl⟩
    · obtain ⟨rfl, hc⟩ := h2
      exact ⟨_, rfl, h.next hc rfl, rfl⟩
    · obtain ⟨rfl, hc⟩ := h3
      exact ⟨_, rfl, h.next hc rfl, rfl⟩
    · obtain ⟨rfl, hc⟩ := h4
      exact ⟨_, rfl, h.next hc rfl, rfl⟩
    · exact ⟨s, rfl, hsame, rfl⟩
  | Keyword =>
    change ∃ s', (if _ ∧ _ then _ else _) = some s' ∧ _
    split
    · rename_i hconst
      obtain ⟨rfl, hc⟩ := hconst
      exact ⟨_, rfl, h.next hc rfl, rfl⟩
    · exact ⟨s, rfl, hsame, rfl⟩
  | Keyword_Type =>
    change ∃ s', (if _ ∧ _ then _ else _) = some s' ∧ _
    split
    · rename_i htype
      obtain ⟨rfl, hc⟩ := htype
      exact ⟨_, rfl, h.next hc rfl, rfl⟩
    · exact ⟨s, rfl, hsame, rfl⟩
  | Punctuation =>
    change ∃ s', (if text <:+: opening_braces then Reader.opening s text
      else if text <:+: closing_braces then Reader.closing s text
      else Reader.collect s text) = some s' ∧ _
    split_ifs
    · refine ⟨{ s with brace_depth := s.brace_depth + 1 }, ?_, h.same _, rfl⟩
      have hnot : ¬ (text = "\x7b".toList ∧ s.keymap_certainty = 6) := by
        rintro ⟨rfl, hc⟩
        apply h.free
        rw [hc]
        exact (List.nil_sublist rest).cons_cons _
      unfold opening
      rw [if_neg (by simp [hkeymap])]
      exact if_neg hnot
    · refine ⟨{ s with brace_depth := s.brace_depth - 1 }, ?_, h.same _, rfl⟩
      simp [closing, hkeymap]
    · exact ⟨s, hcollect text, hsame, rfl⟩
  | Literal_Number_Integer =>
    change ∃ s', (if _ ∧ _ then _ else Reader.collect s text) = some s' ∧ _
    rw [if_neg (by simp [hkeymap])]
    exact ⟨s, hcollect text, hsame, rfl⟩
  | other => exact ⟨s, hcollect text, hsame, rfl⟩

end

theorem Idle.read {s : Reader} {rest : List Token} (h : s.Idle rest) :
    ∃ s', s.read rest = some s' ∧ s'.layers = s.layers := by
  induction rest generalizing s with
  | nil => exact ⟨s, rfl, rfl⟩
  | cons t rest ih =>
    obtain ⟨s1, hstep, hidle, hlayers1⟩ := h.step
    obtain ⟨s2, hread, hlayers2⟩ := ih hidle
    refine ⟨s2, ?_, hlayers2.trans hlayers1⟩
    rw [read_cons, hstep, Option.bind_some, hread]

end

end Reader

/-! ## The keymap comes back -/

def canonicalToken (t : Token) : str := if t.type = .Name then kc_of t.text else t.text

def canonicalText (keycode : Keycode) : str := keycode.tokens.flatMap canonicalToken

/-- What the keymap says: the layers in their order, with their keycodes
without ANY() and without aliases. -/
def expected (layout : str) (keymap : List (List Keycode)) : List Layer :=
  (keymap.zipIdx).map fun layer =>
    ⟨some (digits layer.2), some layout, layer.1.map canonicalText⟩

/-- The keycode is no integer literal, and no argument of a function-like
keycode has a keyword or a type name in it. -/
def Keycode.Whole : Keycode → Prop
  | ident _ => True
  | int _ _ => False
  | call _ args => ∀ t ∈ args, t.type ≠ .Keyword ∧ t.type ≠ .Keyword_Type

instance : ∀ keycode : Keycode, Decidable keycode.Whole
  | .ident _ => .isTrue trivial
  | .int _ _ => .isFalse id
  | .call _ args => inferInstanceAs (Decidable (∀ t ∈ args, t.type ≠ _ ∧ t.type ≠ _))

def fileTokens (layout : str) (keymap : List (List Entry)) (before after : List Token) :
    List Token :=
  before ++ keymapTokens layout (Entry.keycodes keymap) ++ after

section

variable {α β : Type*} {f g : α → List β} {xs : List α}

theorem length_flatMap_le (h : ∀ x ∈ xs, (f x).length ≤ (g x).length) :
    (xs.flatMap f).length ≤ (xs.flatMap g).length := by
  induction xs with
  | nil => simp
  | cons x xs ih =>
    obtain ⟨hx, hxs⟩ := List.forall_mem_cons.mp h
    have hrest := ih hxs
    rw [List.flatMap_cons, List.flatMap_cons, List.length_append, List.length_append]
    omega

/-- When each part is at most as long as the other, the whole is equal only
when all parts are. -/
theorem flatMap_eq_iff (h : ∀ x ∈ xs, (f x).length ≤ (g x).length) :
    xs.flatMap f = xs.flatMap g ↔ ∀ x ∈ xs, f x = g x := by
  constructor
  · intro heq
    induction xs with
    | nil => simp
    | cons x xs ih =>
      obtain ⟨hx, hxs⟩ := List.forall_mem_cons.mp h
      have hrest := length_flatMap_le hxs
      rw [List.flatMap_cons, List.flatMap_cons] at heq
      have hlength := congrArg List.length heq
      rw [List.length_append, List.length_append] at hlength
      obtain ⟨hfirst, htail⟩ := List.append_inj heq (by omega)
      exact List.forall_mem_cons.mpr ⟨hfirst, ih hxs htail⟩
  · intro heq
    exact List.flatMap_congr heq

end

theorem keptText_cases (t : Token) : keptText t = canonicalToken t ∧ t.type ≠ .Keyword ∧
    t.type ≠ .Keyword_Type ∨ keptText t = [] ∧ canonicalToken t = t.text ∧
      (t.type = .Keyword ∨ t.type = .Keyword_Type) := by
  obtain ⟨type, text⟩ := t
  cases type <;> simp [keptText, canonicalToken]

theorem keptText_le (t : Token) : (keptText t).length ≤ (canonicalToken t).length := by
  rcases keptText_cases t with ⟨hkept, -⟩ | ⟨hkept, -⟩
  · rw [hkept]
  · rw [hkept]
    exact Nat.zero_le _

theorem keptText_iff {t : Token} (h : t.text ≠ []) :
    keptText t = canonicalToken t ↔ t.type ≠ .Keyword ∧ t.type ≠ .Keyword_Type := by
  rcases keptText_cases t with ⟨hkept, hwhole⟩ | ⟨hkept, htext, hkeyword⟩
  · exact iff_of_true hkept hwhole
  · refine iff_of_false ?_ ?_
    · rw [hkept, htext]
      exact fun hnil => h hnil.symm
    · rintro ⟨h1, h2⟩
      exact hkeyword.elim h1 h2

theorem readKeycode_iff (h : keycode.WellFormed) :
    readKeycode keycode = [canonicalText keycode] ↔ keycode.Whole := by
  cases keycode with
  | ident name =>
    simp [readKeycode, canonicalText, canonicalToken, Keycode.tokens, Keycode.Whole]
  | int text hexadecimal => simp [readKeycode, Keycode.Whole]
  | call name args =>
    have hsplit : readKeycode (.call name args) = [canonicalText (.call name args)] ↔
        (Keycode.parenthesized args).flatMap keptText =
          (Keycode.parenthesized args).flatMap canonicalToken := by
      change [kc_of name ++ _] = [kc_of name ++ _] ↔ _
      rw [List.singleton_inj, List.append_cancel_left_eq]
      exact Iff.rfl
    rw [hsplit, flatMap_eq_iff fun t _ => keptText_le t]
    constructor
    · intro hkept t ht
      have hmem : t ∈ Keycode.parenthesized args := by simp [Keycode.parenthesized, ht]
      exact (keptText_iff (h.2.1 t ht)).mp (hkept t hmem)
    · intro hwhole t ht
      simp only [Keycode.parenthesized, List.mem_cons, List.mem_append, List.not_mem_nil,
        or_false] at ht
      rcases ht with rfl | ht | rfl
      · rfl
      · exact (keptText_iff (h.2.1 t ht)).mpr (hwhole t ht)
      · rfl

/-- Every layer of the file is found, and no other. -/
theorem get_layers_eq {keymap_json : KeymapJson} {keymap : List (List Entry)}
    {before after : List Token} {lex : str → List Token}
    (hlayout : keymap_json.layout ≠ [])
    (hwell : ∀ layer ∈ keymap, ∀ entry ∈ layer, entry.WellFormed)
    (hbefore : ∀ t ∈ before, t.type = .other)
    (hafter : ¬ List.Sublist signature after)
    (hlex : lex (generate_c keymap_json) = fileTokens keymap_json.layout keymap before after) :
    get_layers lex (generate_c keymap_json) =
      some (Reader.found keymap_json.layout 0 (Entry.keycodes keymap)) := by
  have hkeycodes : ∀ layer ∈ Entry.keycodes keymap, ∀ keycode ∈ layer, keycode.WellFormed := by
    intro layer hlayer keycode hkeycode
    obtain ⟨entries, hentries, rfl⟩ := List.mem_map.mp hlayer
    obtain ⟨entry, hentry, rfl⟩ := List.mem_map.mp hkeycode
    exact (hwell entries hentries entry hentry).1
  unfold get_layers fileTokens at *
  rw [hlex, Reader.read_append, Reader.read_append, Reader.read_before hbefore, Option.bind_some,
    keymapTokens, Reader.read_append, Reader.read_signature, Option.bind_some,
    Reader.read_lines hlayout 0 hkeycodes, Option.bind_some, List.nil_append]
  have hidle : (Reader.done (Reader.found keymap_json.layout 0 (Entry.keycodes keymap))).Idle after :=
    ⟨rfl, rfl, hafter⟩
  obtain ⟨s, hread, hlayers⟩ := hidle.read
  rw [hread, Option.map_some, hlayers]
  rfl

theorem readKeycode_length (keycode : Keycode) : (readKeycode keycode).length ≤ 1 := by
  cases keycode with
  | ident name => exact Nat.le_refl 1
  | int text hexadecimal => exact Nat.zero_le 1
  | call name args => exact Nat.le_refl 1

theorem layer_iff {layer : List Keycode} (h : ∀ keycode ∈ layer, keycode.WellFormed) :
    layer.flatMap readKeycode = layer.map canonicalText ↔ ∀ keycode ∈ layer, keycode.Whole := by
  have hmap : layer.map canonicalText = layer.flatMap fun keycode => [canonicalText keycode] :=
    List.map_eq_flatMap
  rw [hmap, flatMap_eq_iff fun keycode _ => readKeycode_length keycode]
  exact forall₂_congr fun keycode hkeycode => readKeycode_iff (h keycode hkeycode)

theorem found_iff (layout : str) {keymap : List (List Keycode)}
    (h : ∀ layer ∈ keymap, ∀ keycode ∈ layer, keycode.WellFormed) :
    Reader.found layout 0 keymap = expected layout keymap ↔
      ∀ layer ∈ keymap, ∀ keycode ∈ layer, keycode.Whole := by
  unfold Reader.found expected
  rw [List.map_inj_left]
  constructor
  · intro hsame layer hlayer
    obtain ⟨i, hi, rfl⟩ := List.mem_iff_getElem.mp hlayer
    have hmem : (keymap[i], i) ∈ keymap.zipIdx := by
      rw [List.mem_zipIdx_iff_getElem?]
      exact List.getElem?_eq_getElem hi
    have hkeycodes := congrArg Layer.keycodes (hsame _ hmem)
    exact (layer_iff (h _ hlayer)).mp hkeycodes
  · intro hwhole layer hlayer
    have hmem : layer.1 ∈ keymap := List.mem_of_getElem? (List.mem_zipIdx_iff_getElem?.mp hlayer)
    rw [(layer_iff (h _ hmem)).mpr (hwhole _ hmem)]

theorem text_file (keymap_json : KeymapJson) (keymap : List (List Entry))
    (before after : List Token) (hjson : keymap_json.layers = Entry.jsons keymap)
    (hwell : ∀ layer ∈ keymap, ∀ entry ∈ layer, entry.WellFormed)
    (hplace : NoPlaceholder (keymap_text keymap_json.layout keymap_json.layers))
    (hbefore : textOf before = file_header keymap_json.hostlang ++ "\n".toList)
    (hafter : textOf after = "\n".toList ++ file_footer keymap_json) :
    textOf (fileTokens keymap_json.layout keymap before after) = generate_c keymap_json := by
  rw [generate_c_eq keymap_json hplace, fileTokens, textOf_append, textOf_append, hbefore, hafter,
    ← text_keymap _ hwell, hjson]
  simp

/-- With a lexer that finds the tokens of the file, and no other signature of
an array after the keymap, the reader gives the layers of the keymap exactly
when all keycodes are whole. -/
theorem layers_come_back_exactly_when_whole (keymap_json : KeymapJson)
    (keymap : List (List Entry)) (before after : List Token) (lex : str → List Token)
    (hjson : keymap_json.layers = Entry.jsons keymap) (hlayout : IsIdentifier keymap_json.layout)
    (hwell : ∀ layer ∈ keymap, ∀ entry ∈ layer, entry.WellFormed)
    (hplace : NoPlaceholder (keymap_text keymap_json.layout keymap_json.layers))
    (hbefore : textOf before = file_header keymap_json.hostlang ++ "\n".toList)
    (hafter : textOf after = "\n".toList ++ file_footer keymap_json)
    (hother : ∀ t ∈ before, t.type = .other) (hfree : ¬ List.Sublist signature after)
    (hlex : lex (textOf (fileTokens keymap_json.layout keymap before after)) =
      fileTokens keymap_json.layout keymap before after) :
    get_layers lex (generate_c keymap_json) =
      some (expected keymap_json.layout (Entry.keycodes keymap)) ↔
    ∀ layer ∈ keymap, ∀ entry ∈ layer, entry.keycode.Whole := by
  rw [text_file keymap_json keymap before after hjson hwell hplace hbefore hafter] at hlex
  have hkeycodes : ∀ layer ∈ Entry.keycodes keymap, ∀ keycode ∈ layer, keycode.WellFormed := by
    intro layer hlayer keycode hkeycode
    obtain ⟨entries, hentries, rfl⟩ := List.mem_map.mp hlayer
    obtain ⟨entry, hentry, rfl⟩ := List.mem_map.mp hkeycode
    exact (hwell entries hentries entry hentry).1
  rw [get_layers_eq hlayout.1 hwell hother hfree hlex, Option.some_inj,
    found_iff keymap_json.layout hkeycodes]
  simp [Entry.keycodes]

def commentText : str :=
  "/* THIS FILE WAS GENERATED!\n *\n".toList ++ " * This file was generated by".toList ++
    " qmk json2c. You may or may".toList ++ " not want to\n".toList ++
    " * edit it directly.\n */".toList

/-- The tokens of the file in front of a keymap without a host language. -/
def plainHeader : List Token :=
  ["#".toList, "include QMK_KEYBOARD_H".toList, "\n".toList, "#".toList,
    "if __has_include(\"keymap.h\")".toList, "\n".toList, "#".toList, "    ".toList,
    "include".toList, " ".toList, "\"keymap.h\"".toList, "\n".toList, "#".toList, "endif".toList,
    "\n".toList, "\n".toList, "\n".toList, commentText, "\n".toList, "\n".toList].map
    (⟨.other, ·⟩)

/-- The tokens of the file after a keymap without encoders and macros. -/
def plainFooter : List Token :=
  ["\n".toList, "\n".toList, "\n".toList, "\n".toList, "#".toList, "ifdef OTHER_KEYMAP_C".toList,
    "\n".toList, "#".toList, "    include OTHER_KEYMAP_C".toList, "\n".toList, "#".toList,
    "endif ".toList, "// OTHER_KEYMAP_C\n".toList].map (⟨.other, ·⟩)

/-- A keymap with nothing but layers. -/
def plainJson (keymap : List (List Entry)) : KeymapJson :=
  ⟨"LAYOUT".toList, Entry.jsons keymap, [], [], []⟩

def plainTokens (keymap : List (List Entry)) : List Token :=
  fileTokens "LAYOUT".toList keymap plainHeader plainFooter

def lexerOf (tokens : List Token) (text : str) : List Token :=
  if text = textOf tokens then tokens else []

theorem lexerOf_text (tokens : List Token) : lexerOf tokens (textOf tokens) = tokens := if_pos rfl

theorem text_plainHeader : textOf plainHeader = file_header [] ++ "\n".toList := by
  decide +kernel

theorem text_plainFooter (keymap : List (List Entry)) :
    textOf plainFooter = "\n".toList ++ file_footer (plainJson keymap) := by
  change _ = "\n".toList ++ replace INCLUDES [] (replace MACRO_OUTPUT_GOES_HERE []
    (replace ENCODER_MAP_GOES_HERE [] footer))
  decide +kernel

def twoLayers : List (List Entry) :=
  [[⟨.ident "KC_A".toList, true⟩, ⟨.ident "_______".toList, false⟩],
    [⟨.call "LT".toList [⟨.Literal_Number_Integer, "0".toList⟩, punctuation ",", space,
      ⟨.Name, "KC_B".toList⟩], false⟩]]

theorem two_layers_come_back :
    get_layers (lexerOf (plainTokens twoLayers)) (generate_c (plainJson twoLayers)) =
      some (expected "LAYOUT".toList (Entry.keycodes twoLayers)) :=
  (layers_come_back_exactly_when_whole (plainJson twoLayers) twoLayers plainHeader plainFooter
    (lexerOf (plainTokens twoLayers)) rfl (by decide) (by decide +kernel) (by decide +kernel)
    text_plainHeader (text_plainFooter twoLayers) (by decide) (by decide)
    (lexerOf_text (plainTokens twoLayers))).mpr (by decide)

def integerLayer : List (List Entry) :=
  [[⟨.ident "KC_A".toList, false⟩, ⟨.int "5".toList false, false⟩]]

/-- The integer keycode of a layer is lost. -/
theorem an_integer_keycode_is_lost :
    ¬ ∀ (keymap_json : KeymapJson) (keymap : List (List Entry)) (before after : List Token)
      (lex : str → List Token), keymap_json.layers = Entry.jsons keymap →
      IsIdentifier keymap_json.layout → (∀ layer ∈ keymap, ∀ entry ∈ layer, entry.WellFormed) →
      NoPlaceholder (keymap_text keymap_json.layout keymap_json.layers) →
      textOf before = file_header keymap_json.hostlang ++ "\n".toList →
      textOf after = "\n".toList ++ file_footer keymap_json →
      (∀ t ∈ before, t.type = .other) → ¬ List.Sublist signature after →
      lex (textOf (fileTokens keymap_json.layout keymap before after)) =
        fileTokens keymap_json.layout keymap before after →
      get_layers lex (generate_c keymap_json) =
        some (expected keymap_json.layout (Entry.keycodes keymap)) := by
  intro h
  have hwell : ∀ layer ∈ integerLayer, ∀ entry ∈ layer, entry.WellFormed := by decide +kernel
  have hplace : NoPlaceholder (keymap_text "LAYOUT".toList (Entry.jsons integerLayer)) := by
    decide +kernel
  have hread := h (plainJson integerLayer) integerLayer plainHeader plainFooter
    (lexerOf (plainTokens integerLayer)) rfl (by decide) hwell hplace text_plainHeader
    (text_plainFooter integerLayer) (by decide) (by decide)
    (lexerOf_text (plainTokens integerLayer))
  have htext : textOf (plainTokens integerLayer) = generate_c (plainJson integerLayer) :=
    text_file (plainJson integerLayer) integerLayer plainHeader plainFooter rfl hwell hplace
      text_plainHeader (text_plainFooter integerLayer)
  have hlex : lexerOf (plainTokens integerLayer) (generate_c (plainJson integerLayer)) =
      fileTokens (plainJson integerLayer).layout integerLayer plainHeader plainFooter := by
    rw [← htext]
    exact lexerOf_text (plainTokens integerLayer)
  rw [get_layers_eq (by decide) hwell (by decide) (by decide) hlex, Option.some_inj] at hread
  have hkeycodes := congrArg (fun layers => layers.map (·.keycodes.length)) hread
  revert hkeycodes
  decide +kernel

end keychron_qmk.keymap_c
