-- What the dynamic macros play: the records that were accepted, without the
-- leading key-ups and the trailing key-downs, and as many as there is room for.
-- `process_record` is given the records themselves and may change them, so a macro
-- plays as recorded as long as it leaves them as they are.
import KeychronQMK.Process.DynamicMacro
import Mathlib.Data.List.DropRight

namespace keychron_qmk.dynamic_macro

open action_tapping (keyrecord_t)
open runs

/-! ## The purpose -/

/-- Two macros, the records accepted for the one that is recorded, the records
that each playback has before it, and those that were played. -/
structure Macros where
  recorded : Macro → List keyrecord_t
  recording : Option (Macro × List keyrecord_t)
  playing : List (List keyrecord_t)
  processed : List keyrecord_t

def Macros.empty : Macros := ⟨fun _ => [], none, [], []⟩

section

variable (cfg : Config) (a : Macros)

/-- The accepted records without the leading key-ups, as far as there is room
beside the other macro. -/
def Macros.stored (m : Macro) (accepted : List keyrecord_t) : List keyrecord_t :=
  (accepted.dropWhile (!·.event.pressed)).take
    (cfg.DYNAMIC_MACRO_SIZE - (a.recorded m.other).length)

/-- The trailing key-downs are trimmed. -/
def Macros.stop : Macros :=
  match a.recording with
  | none => a
  | some (m, accepted) =>
    { a with
      recorded := Function.update a.recorded m
        ((a.stored cfg m accepted).rdropWhile (·.event.pressed))
      recording := none }

def Macros.next : List keyrecord_t → Macros
  | [] => a
  | record :: records =>
    { a with playing := records :: a.playing, processed := a.processed ++ [record] }

def Macros.serve (record : keyrecord_t) : Request → Macros
  | .nothing => a
  | .start m => { a with recording := some (m, []) }
  | .play m => a.next (a.recorded m)
  | .stop => a.stop cfg
  | .record _ => { a with recording := a.recording.map fun (m, accepted) => (m, accepted ++ [record]) }

def Macros.step (e : Event) : Macros :=
  match e with
  | .record_event keycode record valid_key =>
    a.serve cfg record (request cfg (a.recording.map (·.1)) keycode record valid_key)
  | .dynamic_macro_stop_recording => a.stop cfg
  | .process_record_returns _ =>
    match a.playing with
    | [] => a
    | records :: playing => { a with playing }.next records

end

/-! ## Conditions -/

section

variable (cfg : Config) (s : State)

/-- While a macro is played, no other recording or playback starts. -/
def NotNested (e : Event) : Prop :=
  match e with
  | .record_event keycode record _ => s.playing ≠ [] → record.event.pressed = true ∨
    keycode ∉ [QK_DYNAMIC_MACRO_RECORD_START_1, QK_DYNAMIC_MACRO_RECORD_START_2,
      QK_DYNAMIC_MACRO_PLAY_1, QK_DYNAMIC_MACRO_PLAY_2]
  | _ => True

def LeavesRecord (e : Event) : Prop :=
  match e with
  | .process_record_returns left => ∀ p ∈ s.playing.head?, left = s.macro_buffer p.macro_buffer
  | _ => True

def Untouched (e : Event) : Prop :=
  ∀ m, s.recording = some m → (step cfg s e).endOf m.other = s.endOf m.other ∧
    ∀ p, s.Belongs cfg m.other p → (step cfg s e).macro_buffer p = s.macro_buffer p

/-- The code beside its purpose. -/
def both_step (p : State × Macros) (e : Event) : State × Macros := (step cfg p.1 e, p.2.step cfg e)

/-- Every access is inside the buffer, the other macro is kept, and the records
that are played are the ones that should be. -/
def Plays (p : State × Macros) (e : Event) : Prop :=
  (∀ q ∈ (both_step cfg p e).1.accesses, Inside cfg q) ∧ Untouched cfg p.1 e ∧
    (both_step cfg p e).1.processed = (both_step cfg p e).2.processed ∧
    (both_step cfg p e).1.playing.length = (both_step cfg p e).2.playing.length

def Spells (m : Macro) (records : List keyrecord_t) : Prop :=
  ∀ k x, records[k]? = some x → s.macro_buffer (m.at cfg k) = x

/-- The buffer has the two macros, or the part of the one that is recorded. -/
structure Intact (a : Macros) : Prop where
  apart : Apart cfg s
  recording : s.recording = a.recording.map (·.1)
  ends : ∀ m, s.endOf m = m.at cfg (a.recorded m).length
  elements : ∀ m, s.recording ≠ some m → Spells cfg s m (a.recorded m)
  stored : ∀ m accepted, a.recording = some (m, accepted) →
    s.macro_pointer = m.at cfg (a.stored cfg m accepted).length ∧
      Spells cfg s m (a.stored cfg m accepted)
  playing : (s.playing = [] ∧ a.playing = []) ∨ (s.recording = none ∧
    ∃ m k, k < (a.recorded m).length ∧ s.playing = [⟨m.at cfg k, s.endOf m, m.direction⟩] ∧
      a.playing = [(a.recorded m).drop (k + 1)])
  processed : s.processed = a.processed

end

/-! ## Lists of records -/

theorem rdropWhile_eq_take {p : keyrecord_t → Bool} {records : List keyrecord_t} {j : Nat}
    (hj : j ≤ records.length) (hbefore : ∀ i x, j = i + 1 → records[i]? = some x → p x = false)
    (hafter : ∀ i x, j ≤ i → records[i]? = some x → p x = true) :
    records.rdropWhile p = records.take j := by
  have htail : ∀ x ∈ (records.drop j).reverse, p x = true := by
    intro x hx
    obtain ⟨i, hi⟩ := List.mem_iff_getElem?.mp (List.mem_reverse.mp hx)
    rw [List.getElem?_drop] at hi
    exact hafter (j + i) x (Nat.le_add_right j i) hi
  have hcut : records.rdropWhile p = (records.take j).rdropWhile p := by
    conv_lhs => rw [← List.take_append_drop j records]
    unfold List.rdropWhile
    rw [List.reverse_append, List.dropWhile_append_of_pos htail]
  rw [hcut, List.rdropWhile_eq_self_iff]
  intro hne
  obtain ⟨i, rfl⟩ : ∃ i, j = i + 1 := ⟨j - 1, by
    cases j with
    | zero => exact absurd rfl hne
    | succ i => rfl⟩
  have hlast : (records.take (i + 1)).length - 1 = i := by
    rw [List.length_take]
    omega
  rw [Bool.not_eq_true]
  refine hbefore i _ rfl ?_
  rw [List.getLast_eq_getElem, List.getElem_take, ← List.getElem?_eq_getElem, hlast]

section

variable {cfg : Config} {s : State} {a : Macros}

/-- A key is kept while there is room, unless it is a leading key-up. -/
theorem stored_append (m : Macro) (accepted : List keyrecord_t) (record : keyrecord_t)
    (hroom : (a.recorded m.other).length ≤ cfg.DYNAMIC_MACRO_SIZE) :
    a.stored cfg m (accepted ++ [record]) =
      if (record.event.pressed = false ∧ (a.stored cfg m accepted).length = 0) ∨
          (a.stored cfg m accepted).length + (a.recorded m.other).length = cfg.DYNAMIC_MACRO_SIZE then
        a.stored cfg m accepted
      else a.stored cfg m accepted ++ [record] := by
  unfold Macros.stored
  rw [List.dropWhile_append]
  generalize accepted.dropWhile (!·.event.pressed) = kept
  obtain ⟨room, hsize⟩ := Nat.exists_eq_add_of_le' hroom
  rw [hsize, Nat.add_sub_cancel, List.length_take]
  cases kept with
  | nil =>
    rw [if_pos List.isEmpty_nil, List.take_nil, List.length_nil, Nat.min_zero, Nat.zero_add]
    cases hpressed : record.event.pressed with
    | false =>
      rw [if_pos (.inl ⟨rfl, rfl⟩), List.dropWhile_cons_of_pos (by rw [hpressed]; rfl),
        List.dropWhile_nil, List.take_nil]
    | true =>
      rw [List.dropWhile_cons_of_neg (by rw [hpressed]; decide)]
      cases room with
      | zero => rw [if_pos (.inr (Nat.zero_add _).symm), List.take_zero]
      | succ room =>
        rw [if_neg (not_or.mpr ⟨fun h => absurd h.1 (by decide), by omega⟩), List.take_succ_cons,
          List.take_nil, List.nil_append]
  | cons x kept =>
    rw [if_neg (List.isEmpty_cons ▸ Bool.false_ne_true)]
    by_cases hfull : room ≤ (x :: kept).length
    · rw [min_eq_left hfull, if_pos (.inr rfl), List.take_append_of_le_length hfull]
    · have hlt : (x :: kept).length < room := Nat.lt_of_not_le hfull
      rw [min_eq_right hlt.le, if_neg (by rw [List.length_cons] at hlt ⊢; omega),
        List.take_of_length_le hlt.le, List.take_of_length_le]
      rw [List.length_append]
      exact hlt

/-! ## Steps -/

variable {m : Macro}

theorem Spells.take {records : List keyrecord_t} (h : Spells cfg s m records) (j : Nat) :
    Spells cfg s m (records.take j) := by
  intro k x hx
  rw [List.getElem?_take] at hx
  split at hx
  · exact h k x hx
  · cases hx

theorem Intact.fits (h : Intact cfg s a) (m : Macro) :
    (a.recorded m).length + (a.recorded m.other).length ≤ cfg.DYNAMIC_MACRO_SIZE := by
  have hbetween := h.apart.between
  have hone := h.ends .one
  have htwo := h.ends .two
  simp only [State.endOf, Macro.at, Macro.buffer, Macro.direction, r_macro_buffer] at hone htwo
  cases m <;> simp only [Macro.other] <;> omega

theorem Intact.belongs (h : Intact cfg s a) {p : Int} (hp : s.Belongs cfg m p) :
    ∃ k < (a.recorded m).length, p = m.at cfg k := by
  have hend := h.ends m
  cases m with
  | one =>
    simp only [State.endOf, Macro.at, Macro.buffer, Macro.direction] at hend ⊢
    simp only [State.Belongs] at hp
    exact ⟨p.toNat, by omega, by omega⟩
  | two =>
    simp only [State.endOf, Macro.at, Macro.buffer, Macro.direction] at hend ⊢
    simp only [State.Belongs] at hp
    exact ⟨(r_macro_buffer cfg - p).toNat, by omega, by omega⟩

theorem Intact.idle (h : Intact cfg s a) (hr : s.recording = none) : a.recording = none := by
  rw [h.recording, Option.map_eq_none_iff] at hr
  exact hr

theorem Intact.busy (h : Intact cfg s a) (hr : s.recording = some m) :
    ∃ accepted, a.recording = some (m, accepted) := by
  rw [h.recording, Option.map_eq_some_iff] at hr
  obtain ⟨⟨m', accepted⟩, heq, hm⟩ := hr
  exact ⟨accepted, by rw [heq, ← hm]⟩

theorem Intact.not_playing (h : Intact cfg s a) (hr : s.recording = some m) :
    s.playing = [] ∧ a.playing = [] := by
  rcases h.playing with hnone | ⟨hidle, -⟩
  · exact hnone
  · rw [hr] at hidle
    cases hidle

theorem Intact.inside_playback (h : Intact cfg s a) (m : Macro) {k : Nat}
    (hk : k < (a.recorded m).length) :
    Playback.Inside cfg ⟨m.at cfg k, s.endOf m, m.direction⟩ := by
  have hfits := h.fits m
  rw [h.ends]
  unfold Macro.at
  cases m with
  | one =>
    simp only [Macro.other, Macro.buffer, Macro.direction] at hfits ⊢
    exact .inl ⟨rfl, by dsimp only; omega⟩
  | two =>
    simp only [Macro.other, Macro.buffer, Macro.direction, r_macro_buffer] at hfits ⊢
    exact .inr ⟨rfl, by dsimp only; omega⟩

theorem Intact.both_idle (h : Intact cfg s a) (hs : s.playing = []) : a.playing = [] := by
  rcases h.playing with ⟨-, ha⟩ | ⟨-, m, k, -, hs', -⟩
  · exact ha
  · rw [hs] at hs'
    cases hs'

theorem Intact.of_play_record (h : Intact cfg s a) (hr : s.recording = none) (hs : s.playing = [])
    (ha : a.playing = []) (m : Macro) {k : Nat} (hk : k ≤ (a.recorded m).length) :
    Intact cfg (play_record s ⟨m.at cfg k, s.endOf m, m.direction⟩)
      (a.next ((a.recorded m).drop k)) := by
  have hapart : Apart cfg (play_record s ⟨m.at cfg k, s.endOf m, m.direction⟩) :=
    h.apart.of_play_record fun hne => h.inside_playback m (lt_of_le_of_ne hk fun heq => hne (by
      rw [heq, h.ends]))
  unfold play_record at hapart ⊢
  have hend : m.at cfg k ≠ s.endOf m ↔ k < (a.recorded m).length := by
    rw [h.ends, ne_eq, at_inj]
    omega
  by_cases hlt : k < (a.recorded m).length
  · have hx : s.macro_buffer (m.at cfg k) = (a.recorded m)[k] :=
      h.elements m (hr ▸ (Option.some_ne_none m).symm) k _ (List.getElem?_eq_getElem hlt)
    rw [if_pos (hend.mpr hlt)] at hapart ⊢
    rw [List.drop_eq_getElem_cons hlt]
    refine ⟨hapart, h.recording, h.ends, h.elements, h.stored, .inr ⟨hr, m, k, hlt, ?_, ?_⟩, ?_⟩
    · exact congrArg _ hs
    · exact congrArg _ ha
    · rw [hx, h.processed]
      rfl
  · rw [if_neg fun hne => hlt (hend.mp hne), List.drop_of_length_le (Nat.le_of_not_lt hlt)]
    exact h

theorem Intact.of_returns (h : Intact cfg s a) (left : keyrecord_t)
    (hleft : LeavesRecord s (.process_record_returns left)) :
    Intact cfg (process_record_returns s left) (a.step cfg (.process_record_returns left)) := by
  unfold process_record_returns Macros.step
  rcases h.playing with ⟨hs, ha⟩ | ⟨hr, m, k, hk, hs, ha⟩
  · rw [hs, ha]
    exact h
  · unfold LeavesRecord at hleft
    rw [hs] at hleft
    have hsame := hleft _ rfl
    rw [hs, ha, hsame]
    dsimp only
    rw [← at_succ]
    have hin : Inside cfg (m.at cfg k) := by
      have hfits := h.fits m
      exact inside_at m (by omega)
    have hstopped : Intact cfg { s.write (m.at cfg k) (s.macro_buffer (m.at cfg k)) with playing := [] }
        { a with playing := [] } := by
      have hbuffer : (s.write (m.at cfg k) (s.macro_buffer (m.at cfg k))).macro_buffer =
          s.macro_buffer := Function.update_eq_self _ _
      refine ⟨⟨h.apart.one, h.apart.between, h.apart.two, h.apart.id, h.apart.pointer_one,
        h.apart.pointer_two, List.forall_mem_nil _, ?_⟩, h.recording, h.ends, ?_, ?_,
        .inl ⟨rfl, rfl⟩, h.processed⟩
      · exact List.forall_mem_append.mpr ⟨h.apart.accesses, List.forall_mem_singleton.mpr hin⟩
      · intro m' hm' j x hx
        rw [hbuffer]
        exact h.elements m' hm' j x hx
      · intro m' accepted haccepted
        rw [h.idle hr] at haccepted
        cases haccepted
    exact hstopped.of_play_record hr rfl rfl m hk

theorem setEnd_frame (s : State) (p : Int) (m : Macro) :
    (s.setEnd p m).macro_buffer = s.macro_buffer ∧ (s.setEnd p m).playing = s.playing ∧
      (s.setEnd p m).processed = s.processed := by
  cases m <;> exact ⟨rfl, rfl, rfl⟩

theorem endOf_setEnd (s : State) (p : Int) (m m' : Macro) :
    (s.setEnd p m).endOf m' = if m' = m then p else s.endOf m' := by
  cases m <;> cases m' <;> rfl

theorem Intact.of_stop (h : Intact cfg s a) :
    Intact cfg (dynamic_macro_stop_recording cfg s) (a.stop cfg) := by
  have hapart := h.apart.of_stop
  cases hr : s.recording with
  | none =>
    unfold Macros.stop
    rw [stop_recording_of_idle (id_of_idle h.apart.id hr), h.idle hr]
    exact h
  | some m =>
    obtain ⟨accepted, haccepted⟩ := h.busy hr
    obtain ⟨hpointer, hspells⟩ := h.stored m accepted haccepted
    have hfits := h.fits m
    have hlength : (a.stored cfg m accepted).length + (a.recorded m.other).length ≤
        cfg.DYNAMIC_MACRO_SIZE := by
      unfold Macros.stored
      rw [List.length_take]
      omega
    obtain ⟨j, hj, as, heq, -, hlast, hafter⟩ := @trim_spec cfg m _ _
      (by omega : (a.stored cfg m accepted).length ≤ cfg.DYNAMIC_MACRO_SIZE) le_rfl s
    have htrim : (a.stored cfg m accepted).rdropWhile (·.event.pressed) =
        (a.stored cfg m accepted).take j := by
      refine rdropWhile_eq_take hj (fun i x hi hx => ?_) fun i x hi hx => ?_
      · rw [← hspells i x hx]
        exact hlast i hi
      · rw [← hspells i x hx]
        exact hafter i hi (List.getElem?_eq_some_iff.mp hx).1
    obtain ⟨hs, ha⟩ := h.not_playing hr
    unfold Macros.stop
    rw [haccepted]
    dsimp only
    rw [stop_recording_of_id (id_of_recording hr)] at hapart ⊢
    unfold dynamic_macro_record_end at hapart ⊢
    rw [hpointer, natAbs_at, heq] at hapart ⊢
    rw [htrim]
    obtain ⟨hbuffer, hplaying, hprocessed⟩ :=
      setEnd_frame { s with accesses := s.accesses ++ as } (m.at cfg j) m
    refine ⟨hapart, rfl, fun m' => ?_, fun m' _ => ?_, ?_, .inl ⟨hplaying.trans hs, ha⟩,
      hprocessed.trans h.processed⟩
    · refine (endOf_setEnd _ _ m m').trans ?_
      dsimp only
      rw [Function.update_apply]
      split
      · rename_i hm
        rw [List.length_take_of_le hj, hm]
      · exact h.ends m'
    · intro k x hx
      dsimp only at hx ⊢
      rw [hbuffer]
      rw [Function.update_apply] at hx
      split at hx
      · rename_i hm
        rw [hm]
        exact hspells.take j k x hx
      · rename_i hm
        refine h.elements m' ?_ k x hx
        rw [hr]
        exact fun heq => hm (Option.some.inj heq).symm
    · intro m' accepted' hnone
      cases hnone

theorem Intact.of_record (h : Intact cfg s a) (hr : s.recording = some m) (record : keyrecord_t) :
    Intact cfg (s.serve cfg record (.record m)) (a.serve cfg record (.record m)) := by
  obtain ⟨accepted, haccepted⟩ := h.busy hr
  obtain ⟨hpointer, hspells⟩ := h.stored m accepted haccepted
  have hapart := h.apart.of_record hr record
  have hfits := h.fits m
  have happend := @stored_append cfg a m accepted record (by omega)
  unfold State.serve Macros.serve at *
  dsimp only at hapart ⊢
  rw [haccepted]
  rw [record_key_eq hpointer (h.ends m.other)] at hapart ⊢
  split at hapart
  · rename_i hkept
    rw [if_pos hkept] at happend ⊢
    refine ⟨hapart, by rw [hr]; rfl, h.ends, h.elements, fun m' accepted' heq => ?_,
      .inl (h.not_playing hr), h.processed⟩
    obtain ⟨rfl, rfl⟩ := Prod.mk.inj (Option.some.inj heq)
    unfold Macros.stored at happend hpointer hspells ⊢
    rw [happend]
    exact ⟨hpointer, hspells⟩
  · rename_i hwritten
    rw [if_neg hwritten] at happend ⊢
    have hlength : (a.stored cfg m accepted).length + (a.recorded m.other).length ≤
        cfg.DYNAMIC_MACRO_SIZE := by
      unfold Macros.stored
      rw [List.length_take]
      omega
    refine ⟨hapart, hr, h.ends, fun m' hm' k x hx => ?_,
      fun m' accepted' heq => ?_, .inl (h.not_playing hr), h.processed⟩
    · -- the other macro is out of reach
      have hother : m' = m.other := by
        cases m <;> cases m' <;> first | rfl | exact absurd hr hm'
      refine (Function.update_of_ne ?_ _ _).trans (h.elements m' hm' k x hx)
      rw [hother] at hx ⊢
      dsimp only at hx
      have hk := (List.getElem?_eq_some_iff.mp hx).1
      exact (at_ne_at m (by omega)).symm
    · obtain ⟨rfl, rfl⟩ := Prod.mk.inj (Option.some.inj heq)
      have hsame : ({ a with recording := some (m, accepted ++ [record]) } : Macros).stored cfg m
          (accepted ++ [record]) = a.stored cfg m accepted ++ [record] := happend
      refine ⟨?_, fun k x hx => ?_⟩
      · refine Eq.trans ?_ (congrArg (fun l => m.at cfg (List.length l)) hsame).symm
        rw [List.length_append]
        rfl
      · replace hx : (a.stored cfg m accepted ++ [record])[k]? = some x := hsame ▸ hx
        rcases Nat.lt_trichotomy k (a.stored cfg m accepted).length with hlt | heq | hgt
        · rw [List.getElem?_append_left hlt] at hx
          refine (Function.update_of_ne ?_ _ _).trans (hspells k x hx)
          rw [ne_eq, at_inj]
          exact hlt.ne
        · rw [heq, List.getElem?_concat_length] at hx
          rw [heq]
          exact (Function.update_self _ _ _).trans (Option.some.inj hx)
        · rw [List.getElem?_eq_none (by rw [List.length_append, List.length_singleton]; omega)] at hx
          cases hx

theorem not_playing_of_start {keycode : UInt16} {record : keyrecord_t} {valid_key : Bool}
    (hnested : NotNested s (.record_event keycode record valid_key))
    (hreq : request cfg s.recording keycode record valid_key = .start m ∨
      request cfg s.recording keycode record valid_key = .play m) :
    s.recording = none ∧ s.playing = [] := by
  unfold request at hreq
  cases hr : s.recording with
  | some m' =>
    rw [hr] at hreq
    split_ifs at hreq <;> simp at hreq
  | none =>
    refine ⟨rfl, ?_⟩
    by_contra hplaying
    rw [hr] at hreq
    rcases hnested hplaying with hpressed | hkey
    · rw [if_pos hpressed] at hreq
      simp at hreq
    · simp only [List.mem_cons, List.not_mem_nil, or_false, not_or] at hkey
      obtain ⟨h1, h2, h3, h4⟩ := hkey
      rw [if_neg h1, if_neg h2, if_neg h3, if_neg h4] at hreq
      simp at hreq

theorem Intact.of_serve (h : Intact cfg s a) (keycode : UInt16) (record : keyrecord_t)
    (valid_key : Bool) (hnested : NotNested s (.record_event keycode record valid_key)) :
    Intact cfg (s.serve cfg record (request cfg s.recording keycode record valid_key))
      (a.serve cfg record (request cfg s.recording keycode record valid_key)) := by
  have hapart := h.apart.of_serve keycode record valid_key
  cases hreq : request cfg s.recording keycode record valid_key with
  | nothing => exact h
  | start m =>
    obtain ⟨hr, hs⟩ := not_playing_of_start hnested (.inl hreq)
    have ha := h.both_idle hs
    rw [hreq] at hapart
    refine ⟨hapart, recording_of_id rfl, h.ends, fun m' _ => ?_, fun m' accepted heq => ?_,
      .inl ⟨hs, ha⟩, h.processed⟩
    · exact h.elements m' (hr ▸ (Option.some_ne_none m').symm)
    · obtain ⟨rfl, rfl⟩ := Prod.mk.inj (Option.some.inj heq)
      unfold Macros.stored
      rw [List.dropWhile_nil, List.take_nil]
      refine ⟨(at_zero m).symm, fun k x hx => ?_⟩
      cases hx
  | play m =>
    obtain ⟨hr, hs⟩ := not_playing_of_start hnested (.inr hreq)
    have ha := h.both_idle hs
    have hplay := h.of_play_record hr hs ha m (Nat.zero_le _)
    rw [at_zero, List.drop_zero] at hplay
    exact hplay
  | stop => exact h.of_stop
  | record m => exact h.of_record (recording_of_request hreq) record

theorem Intact.step (h : Intact cfg s a) {e : Event} (hnested : NotNested s e)
    (hleft : LeavesRecord s e) : Intact cfg (step cfg s e) (a.step cfg e) := by
  cases e with
  | record_event keycode record valid_key =>
    unfold dynamic_macro.step Macros.step
    dsimp only
    rw [process_eq h.apart.id, ← h.recording]
    exact h.of_serve keycode record valid_key hnested
  | dynamic_macro_stop_recording => exact h.of_stop
  | process_record_returns left => exact h.of_returns left hleft

theorem play_record_frame (s : State) (p : Playback) :
    (∀ m, (play_record s p).endOf m = s.endOf m) ∧
      (play_record s p).macro_buffer = s.macro_buffer := by
  unfold play_record
  split
  · exact ⟨fun m => by cases m <;> rfl, rfl⟩
  · exact ⟨fun _ => rfl, rfl⟩

theorem Intact.untouched (h : Intact cfg s a) (e : Event) : Untouched cfg s e := by
  intro m hr
  have hstop : (dynamic_macro_stop_recording cfg s).endOf m.other = s.endOf m.other ∧
      (dynamic_macro_stop_recording cfg s).macro_buffer = s.macro_buffer := by
    obtain ⟨j, k, hj, hk, hjk⟩ := h.apart.pointer hr
    obtain ⟨i, -, as, heq, -⟩ :=
      @trim_spec cfg m _ _ (by omega : j ≤ cfg.DYNAMIC_MACRO_SIZE) le_rfl s
    rw [stop_recording_of_id (id_of_recording hr)]
    unfold dynamic_macro_record_end
    rw [hj, natAbs_at, heq]
    refine ⟨(endOf_setEnd _ _ m m.other).trans (if_neg ?_), (setEnd_frame _ _ m).1⟩
    cases m <;> exact fun hm => by cases hm
  cases e with
  | record_event keycode record valid_key =>
    unfold dynamic_macro.step
    dsimp only
    rw [process_eq h.apart.id]
    cases hreq : request cfg s.recording keycode record valid_key with
    | nothing => exact ⟨rfl, fun _ _ => rfl⟩
    | start m' => exact ⟨by cases m <;> rfl, fun _ _ => rfl⟩
    | play m' =>
      obtain ⟨hends, hbuffer⟩ := play_record_frame s ⟨m'.buffer cfg, s.endOf m', m'.direction⟩
      exact ⟨hends m.other, fun p _ => congrFun hbuffer p⟩
    | stop => exact ⟨hstop.1, fun p _ => congrFun hstop.2 p⟩
    | record m' =>
      have hm := (recording_of_request hreq).symm.trans hr
      rw [Option.some.inj hm]
      obtain ⟨j, k, hj, hk, hjk⟩ := h.apart.pointer hr
      unfold State.serve
      dsimp only
      rw [record_key_eq hj hk]
      split
      · exact ⟨rfl, fun _ _ => rfl⟩
      · rename_i hwritten
        refine ⟨by cases m <;> rfl, fun p hp => Function.update_of_ne ?_ _ _⟩
        obtain ⟨i, hi, rfl⟩ := h.belongs hp
        have hlen := (@at_inj cfg m.other _ _).mp (hk.symm.trans (h.ends m.other))
        exact (at_ne_at m (by omega)).symm
  | dynamic_macro_stop_recording => exact ⟨hstop.1, fun p _ => congrFun hstop.2 p⟩
  | process_record_returns left =>
    unfold dynamic_macro.step process_record_returns
    rw [(h.not_playing hr).1]
    exact ⟨rfl, fun _ _ => rfl⟩

theorem Intact.plays (h : Intact cfg s a) {e : Event} (hnested : NotNested s e)
    (hleft : LeavesRecord s e) : Plays cfg (s, a) e := by
  have hnext := h.step hnested hleft
  refine ⟨hnext.apart.accesses, h.untouched e, hnext.processed, ?_⟩
  unfold both_step
  rcases hnext.playing with ⟨hs, ha⟩ | ⟨-, m, k, -, hs, ha⟩ <;>
  · rw [hs, ha]
    rfl

theorem Intact.boot : Intact cfg (State.boot cfg) Macros.empty := by
  refine ⟨.boot, rfl, fun m => ?_, fun m _ k x hx => ?_, fun m accepted hnone => ?_,
    .inl ⟨rfl, rfl⟩, rfl⟩
  · refine Eq.trans ?_ (at_zero m).symm
    cases m <;> rfl
  · cases hx
  · cases hnone

end

/-- In every run in which no recording or playback starts within a playback, and in
which the records that are played are left as they are, the macros share the buffer
safely and play what was recorded. -/
theorem macros_play_as_recorded (cfg : Config) (events : List Event)
    (hnested : Along (both_step cfg) (fun p e => NotNested p.1 e) (.boot cfg, .empty) events)
    (hleft : Along (both_step cfg) (fun p e => LeavesRecord p.1 e) (.boot cfg, .empty) events) :
    Along (both_step cfg) (Plays cfg) (.boot cfg, .empty) events :=
  Along.imp (I := fun p : State × Macros => Intact cfg p.1 p.2)
    (C := fun (p : State × Macros) e => NotNested p.1 e ∧ LeavesRecord p.1 e)
    (fun _ _ h hc => ⟨h.plays hc.1 hc.2, h.step hc.1 hc.2⟩) .boot (Along.and.mpr ⟨hnested, hleft⟩)

/-! ## Two runs -/

instance (s : State) : ∀ e, Decidable (NotNested s e)
  | .record_event _ _ _ => inferInstanceAs (Decidable (_ ≠ _ → _ ∨ _))
  | .dynamic_macro_stop_recording => .isTrue trivial
  | .process_record_returns _ => .isTrue trivial

instance (s : State) : ∀ e, Decidable (LeavesRecord s e)
  | .process_record_returns left =>
    inferInstanceAs (Decidable (∀ p ∈ s.playing.head?, left = s.macro_buffer p.macro_buffer))
  | .record_event _ _ _ => .isTrue trivial
  | .dynamic_macro_stop_recording => .isTrue trivial

/-- A press or release of the key in a column of the first row. -/
def keyAt (col : UInt8) (pressed : Bool) : keyrecord_t :=
  ⟨⟨⟨0, col⟩, 0, .KEY_EVENT, pressed, 0⟩, ⟨false, 0⟩⟩

def tapPlayed : List Event :=
  [.record_event QK_DYNAMIC_MACRO_RECORD_START_1 (keyAt 9 false) true,
    .record_event 4 (keyAt 0 true) true,
    .record_event 4 (keyAt 0 false) true,
    .record_event QK_DYNAMIC_MACRO_RECORD_STOP (keyAt 8 true) true,
    .record_event QK_DYNAMIC_MACRO_PLAY_1 (keyAt 7 false) true,
    .process_record_returns (keyAt 0 true),
    .process_record_returns (keyAt 0 false)]

theorem a_tap_is_played_as_recorded :
    Along (both_step ⟨128, false⟩) (Plays ⟨128, false⟩) (.boot ⟨128, false⟩, .empty) tapPlayed :=
  macros_play_as_recorded ⟨128, false⟩ tapPlayed (by decide +kernel) (by decide +kernel)

/-- `OSL(1)` and `KC_A` are tapped. The press of `KC_A` ends the one-shot layer, so
`process_action` clears `pressed` in its record and processes the release. -/
def oneShotPlayed : List Event :=
  [.record_event QK_DYNAMIC_MACRO_RECORD_START_1 (keyAt 9 false) true,
    .record_event 0x5281 (keyAt 1 true) true,
    .record_event 0x5281 (keyAt 1 false) true,
    .record_event 4 (keyAt 0 true) true,
    .record_event 4 (keyAt 0 false) true,
    .record_event 4 (keyAt 0 false) true,
    .record_event QK_DYNAMIC_MACRO_RECORD_STOP (keyAt 8 true) true,
    .record_event QK_DYNAMIC_MACRO_PLAY_1 (keyAt 7 false) true,
    .process_record_returns (keyAt 1 true),
    .process_record_returns (keyAt 1 false),
    .record_event 4 (keyAt 0 false) true,
    .process_record_returns (keyAt 0 false),
    .process_record_returns (keyAt 0 false),
    .process_record_returns (keyAt 0 false),
    .record_event QK_DYNAMIC_MACRO_PLAY_1 (keyAt 7 false) true,
    .process_record_returns (keyAt 1 true)]

/-- The second time, the key is not pressed. -/
theorem a_one_shot_macro_plays_once : ¬ ∀ events,
    Along (both_step ⟨128, false⟩) (fun p e => NotNested p.1 e) (.boot ⟨128, false⟩, .empty) events →
      Along (both_step ⟨128, false⟩) (Plays ⟨128, false⟩) (.boot ⟨128, false⟩, .empty) events := by
  intro h
  have hrun := h (oneShotPlayed ++ [.process_record_returns (keyAt 1 false)]) (by decide +kernel)
  obtain ⟨-, ⟨-, -, hprocessed, -⟩, -⟩ := Along.append.mp hrun
  revert hprocessed
  decide +kernel

end keychron_qmk.dynamic_macro
