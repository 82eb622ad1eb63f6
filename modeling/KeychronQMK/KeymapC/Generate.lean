-- The `keymap.c` that `generate_c` of `lib/python/qmk/keymap.py` writes for a
-- keymap of the JSON format. A Python string is the list of its characters.
import KeychronQMK.Lib.Replace
import Mathlib.Data.List.Basic
import Mathlib.Data.List.ModifyLast

namespace keychron_qmk.keymap_c

open replacement

abbrev str := List Char

/-! ## generate_c -/

/-- `keymap_json`, with the texts that stand for its encoders, its macros and
its host language, which are empty when it has none. -/
structure KeymapJson where
  layout : str
  layers : List (List str)
  encodermap : str
  macros : str
  hostlang : str

def INCLUDES : str := "__INCLUDES__".toList
def KEYMAP_GOES_HERE : str := "__KEYMAP_GOES_HERE__".toList
def ENCODER_MAP_GOES_HERE : str := "__ENCODER_MAP_GOES_HERE__".toList
def MACRO_OUTPUT_GOES_HERE : str := "__MACRO_OUTPUT_GOES_HERE__".toList

/-- `DEFAULT_KEYMAP_C` before the line of the keymap. -/
def header : str :=
  "#include QMK_KEYBOARD_H\n".toList ++ "#if __has_include(".toList ++
    "\"keymap.h\")\n".toList ++ "#    include \"keymap.h\"\n".toList ++ "#endif\n".toList ++
    "__INCLUDES__\n\n".toList ++ "/* THIS FILE WAS GENERATED!\n *\n".toList ++
    " * This file was generated by".toList ++ " qmk json2c. You may or may".toList ++
    " not want to\n".toList ++ " * edit it directly.\n */\n".toList

/-- `DEFAULT_KEYMAP_C` after the line of the keymap. -/
def footer : str :=
  ENCODER_MAP_GOES_HERE ++ "\n".toList ++ MACRO_OUTPUT_GOES_HERE ++ "\n\n".toList ++
    "#ifdef OTHER_KEYMAP_C\n".toList ++ "#    include OTHER_KEYMAP_C\n".toList ++
    "#endif // OTHER_KEYMAP_C\n".toList

def DEFAULT_KEYMAP_C : str := header ++ '\n' :: (KEYMAP_GOES_HERE ++ '\n' :: footer)

/-- Remove ANY() from a keycode. -/
def strip_any (keycode : str) : str :=
  if "ANY(".toList <+: keycode ∧ ")".toList <:+ keycode then (keycode.drop 4).dropLast
  else keycode

def digits (layer_num : Nat) : str := Nat.toDigits 10 layer_num

def layer_line (layout : str) (layer_num : Nat) (layer : List str) : str :=
  "    [".toList ++ digits layer_num ++ "] = ".toList ++ layout ++ "(".toList ++
    List.intercalate ", ".toList (layer.map strip_any) ++ ")".toList

def KEYMAPS_LINE : str :=
  "const uint16_t PROGMEM ".toList ++ "keymaps[][MATRIX_ROWS]".toList ++
    "[MATRIX_COLS] = \x7b".toList

def END_LINE : str := "\x7d;".toList

def add_layer (layout : str) (lines : List str) (layer_num : List str × Nat) : List str :=
  let lines := if layer_num.2 ≠ 0 then lines.modifyLast (· ++ ",".toList) else lines
  lines ++ [layer_line layout layer_num.2 layer_num.1]

def generate_keymap_table (layout : str) (layers : List (List str)) : List str :=
  layers.zipIdx.foldl (add_layer layout) [KEYMAPS_LINE] ++ [END_LINE]

def keymap_text (layout : str) (layers : List (List str)) : str :=
  List.intercalate "\n".toList (generate_keymap_table layout layers)

def generate_c (keymap_json : KeymapJson) : str :=
  let new_keymap := DEFAULT_KEYMAP_C
  let keymap := keymap_text keymap_json.layout keymap_json.layers
  let new_keymap := replace KEYMAP_GOES_HERE keymap new_keymap
  let new_keymap := replace ENCODER_MAP_GOES_HERE keymap_json.encodermap new_keymap
  let new_keymap := replace MACRO_OUTPUT_GOES_HERE keymap_json.macros new_keymap
  replace INCLUDES keymap_json.hostlang new_keymap

/-! ## The parts of the file -/

/-- The text of a part has none of the words that `generate_c` replaces after
it has put the keymap in. -/
def NoPlaceholder (s : str) : Prop :=
  ¬ ENCODER_MAP_GOES_HERE <:+: s ∧ ¬ MACRO_OUTPUT_GOES_HERE <:+: s ∧ ¬ INCLUDES <:+: s

instance (s : str) : Decidable (NoPlaceholder s) := inferInstanceAs (Decidable (¬ _ ∧ ¬ _ ∧ ¬ _))

def file_header (hostlang : str) : str := replace INCLUDES hostlang header

def file_footer (keymap_json : KeymapJson) : str :=
  replace INCLUDES keymap_json.hostlang (replace MACRO_OUTPUT_GOES_HERE keymap_json.macros
    (replace ENCODER_MAP_GOES_HERE keymap_json.encodermap footer))

theorem replace_parts {old : str} (new a b c : str) (hend : '\n' ∉ old) (hne : old ≠ []) :
    replace old new (a ++ '\n' :: (b ++ '\n' :: c)) =
      replace old new a ++ '\n' :: (replace old new b ++ '\n' :: replace old new c) := by
  rw [replace_append_cons new hend hne, replace_append_cons new hend hne]

/-- A keymap without placeholders stands in the file as it is. -/
theorem generate_c_eq (keymap_json : KeymapJson)
    (h : NoPlaceholder (keymap_text keymap_json.layout keymap_json.layers)) :
    generate_c keymap_json = file_header keymap_json.hostlang ++ '\n' ::
      (keymap_text keymap_json.layout keymap_json.layers ++ '\n' :: file_footer keymap_json) := by
  obtain ⟨hencoder, hmacro, hincludes⟩ := h
  have hkeymap_header : ∀ new, replace KEYMAP_GOES_HERE new header = header :=
    fun new => replace_of_not_infix new (by decide +kernel)
  have hkeymap_footer : ∀ new, replace KEYMAP_GOES_HERE new footer = footer :=
    fun new => replace_of_not_infix new (by decide +kernel)
  have hencoder_header : ∀ new, replace ENCODER_MAP_GOES_HERE new header = header :=
    fun new => replace_of_not_infix new (by decide +kernel)
  have hmacro_header : ∀ new, replace MACRO_OUTPUT_GOES_HERE new header = header :=
    fun new => replace_of_not_infix new (by decide +kernel)
  unfold generate_c DEFAULT_KEYMAP_C
  dsimp only
  rw [replace_parts _ _ _ _ (by decide) (by decide), replace_self _ (by decide), hkeymap_header,
    hkeymap_footer, replace_parts _ _ _ _ (by decide) (by decide), hencoder_header,
    replace_of_not_infix _ hencoder, replace_parts _ _ _ _ (by decide) (by decide),
    hmacro_header, replace_of_not_infix _ hmacro,
    replace_parts _ _ _ _ (by decide) (by decide), replace_of_not_infix _ hincludes]
  rfl

end keychron_qmk.keymap_c
