-- The notes of the sequencer end: when each note that a step starts is followed by its
-- note-off before the notes of the next step and before the switch-off.
import KeychronQMK.Sequencer.Funs
import KeychronQMK.Lib.Runs

namespace keychron_qmk.sequencer

open runs

/-! ## Notes of a log -/

/-- The events by which a note of this turn has to be over. -/
def Breaks (turn : Nat) : event → Prop
  | .noteon turn' _ => turn' ≠ turn
  | .noteoff _ => False
  | .stopped => True

/-- Each note-on is followed by a note-off for the same note, before a note-on of
another step and before a switch-off. -/
def Ended (log : List event) : Prop :=
  ∀ before turn note between e after,
    log = before ++ .noteon turn note :: (between ++ e :: after) → Breaks turn e →
      .noteoff note ∈ between

def Open (log : List event) (turn : Nat) (note : UInt8) : Prop :=
  ∃ before after, log = before ++ .noteon turn note :: after ∧ .noteoff note ∉ after

section

variable {log : List event} {e : event} {turn : Nat} {note : UInt8}

theorem ended_nil : Ended [] := by
  intro before turn note between e after h
  simp at h

theorem not_open_nil : ¬ Open [] turn note := by
  rintro ⟨before, after, h, -⟩
  simp at h

theorem Ended.snoc (h : Ended log) (hopen : ∀ turn note, Open log turn note → ¬ Breaks turn e) :
    Ended (log ++ [e]) := by
  intro before turn note between e' after hlog hbreaks
  rcases List.eq_nil_or_concat after with rfl | ⟨after', x, hafter⟩
  · rw [← List.cons_append, ← List.append_assoc] at hlog
    obtain ⟨hfront, he⟩ := List.append_inj' hlog rfl
    by_contra hno
    refine hopen turn note ⟨before, between, hfront, hno⟩ ?_
    rw [List.singleton_inj.mp he]
    exact hbreaks
  · rw [hafter, List.concat_eq_append] at hlog
    have hfront : log ++ [e] =
        (before ++ .noteon turn note :: (between ++ e' :: after')) ++ [x] := by
      rw [hlog]
      simp
    exact h before turn note between e' after' (List.append_inj' hfront rfl).1 hbreaks

theorem open_snoc : Open (log ++ [e]) turn note ↔
    Open log turn note ∧ e ≠ .noteoff note ∨ e = .noteon turn note := by
  constructor
  · rintro ⟨before, after, hlog, hno⟩
    rcases List.eq_nil_or_concat after with rfl | ⟨after', x, hafter⟩
    · exact .inr (List.singleton_inj.mp (List.append_inj' hlog rfl).2)
    · rw [hafter, List.concat_eq_append] at hlog hno
      have hfront : log ++ [e] = (before ++ .noteon turn note :: after') ++ [x] := by
        rw [hlog]
        simp
      obtain ⟨hfront, he⟩ := List.append_inj' hfront rfl
      have hx : e = x := List.singleton_inj.mp he
      refine .inl ⟨⟨before, after', hfront, fun hmem => hno (List.mem_append_left _ hmem)⟩, ?_⟩
      rintro rfl
      exact hno (by simp [← hx])
  · rintro (⟨⟨before, after, rfl, hno⟩, he⟩ | rfl)
    · refine ⟨before, after ++ [e], by simp, fun hmem => ?_⟩
      rcases List.mem_append.mp hmem with hmem | hmem
      · exact hno hmem
      · exact he (List.mem_singleton.mp hmem).symm
    · exact ⟨log, [], rfl, by simp⟩

end

/-! ## The condition -/

/-- The note that is due to be released is still the one that was started, and the
sequencer is not started or switched while a note is. -/
def Matched (b : build) (s : sequencer_t) : input → Prop
  | .on _ | .off | .toggle _ => ∀ track, s.started track = none
  | .task now =>
    s.config.enabled → s.state.phase = .RELEASE →
      b.SEQUENCER_PHASE_RELEASE_TIMEOUT + s.state.current_track * b.SEQUENCER_TRACK_THROTTLE ≤
        timer_elapsed now s.state.timer →
      ∀ note, s.started s.state.current_track = some note →
        note_of b s s.state.current_track = some note
  | _ => True

/-! ## What holds between the steps -/

/-- Where the tracks are whose notes have been started. -/
def InFlight (s : sequencer_t) (track : Nat) : Prop :=
  match s.state.phase with
  | .ATTACK => track < s.state.current_track
  | .RELEASE => track ≤ s.state.current_track
  | .PAUSE => False

structure Sound (s : sequencer_t) : Prop where
  ended : Ended s.log
  held : ∀ turn note, Open s.log turn note → turn = s.turn ∧ ∃ track, s.started track = some note
  flight : ∀ track note, s.started track = some note → InFlight s track

theorem init_sound : Sound init where
  ended := ended_nil
  held := fun _ _ hopen => absurd hopen not_open_nil
  flight := by simp [init]

section

variable {b : build} {s : sequencer_t} {now : UInt16}

theorem Sound.of_same {s' : sequencer_t} (h : Sound s) (hlog : s'.log = s.log)
    (hturn : s'.turn = s.turn) (hstarted : s'.started = s.started)
    (hphase : s'.state.phase = s.state.phase)
    (htrack : s'.state.current_track = s.state.current_track) : Sound s' where
  ended := hlog ▸ h.ended
  held := by
    rw [hlog, hturn, hstarted]
    exact h.held
  flight := by
    unfold InFlight
    rw [hstarted, hphase, htrack]
    exact h.flight

theorem Sound.none_open (h : Sound s) (hnone : ∀ track, s.started track = none) {turn : Nat}
    {note : UInt8} : ¬ Open s.log turn note := by
  intro hopen
  obtain ⟨-, track, htrack⟩ := h.held turn note hopen
  rw [hnone track] at htrack
  cases htrack

theorem on_sound (h : Sound s) (hnone : ∀ track, s.started track = none) :
    Sound (sequencer_on s now) where
  ended := h.ended
  held := fun _ _ hopen => absurd hopen (h.none_open hnone)
  flight := by
    intro track note htrack
    rw [show (sequencer_on s now).started = s.started from rfl, hnone track] at htrack
    cases htrack

theorem off_sound (h : Sound s) (hnone : ∀ track, s.started track = none) :
    Sound (sequencer_off s) where
  ended := h.ended.snoc fun _ _ hopen => absurd hopen (h.none_open hnone)
  held := by
    intro turn note hopen
    rcases open_snoc.mp hopen with ⟨hopen, -⟩ | he
    · exact absurd hopen (h.none_open hnone)
    · cases he
  flight := h.flight

theorem pause_sound (h : Sound s) (hphase : s.state.phase = .PAUSE) :
    Sound (sequencer_phase_pause b now s) := by
  have hnone : ∀ track, s.started track = none := by
    intro track
    cases hstarted : s.started track with
    | none => rfl
    | some note =>
      have hflight := h.flight track note hstarted
      unfold InFlight at hflight
      rw [hphase] at hflight
      exact hflight.elim
  unfold sequencer_phase_pause
  split
  · exact h
  · exact {
      ended := h.ended
      held := fun _ _ hopen => absurd hopen (h.none_open hnone)
      flight := fun track note htrack => by
        rw [hnone track] at htrack
        cases htrack }

/-- The release of a track ends the note that it has started. -/
theorem release_sound (h : Sound s) (hphase : s.state.phase = .RELEASE)
    (hmatch : b.SEQUENCER_PHASE_RELEASE_TIMEOUT +
        s.state.current_track * b.SEQUENCER_TRACK_THROTTLE ≤ timer_elapsed now s.state.timer →
      ∀ note, s.started s.state.current_track = some note →
        note_of b s s.state.current_track = some note) :
    Sound (sequencer_phase_release b now s) := by
  unfold sequencer_phase_release
  split
  · exact h
  rename_i hdue
  have hmatch := hmatch (Nat.le_of_not_lt hdue)
  dsimp only
  generalize hsent : s.log ++ ((note_of b s s.state.current_track).map event.noteoff).toList = log
  have hended : Ended log := by
    rw [← hsent]
    cases note_of b s s.state.current_track with
    | none => simpa using h.ended
    | some note => exact h.ended.snoc fun _ _ _ => id
  have hheld : ∀ turn note, Open log turn note → turn = s.turn ∧
      ∃ track, set_started s s.state.current_track none track = some note := by
    intro turn note hopen
    have hbefore : Open s.log turn note ∧
        note_of b s s.state.current_track ≠ some note := by
      rw [← hsent] at hopen
      cases hnote : note_of b s s.state.current_track with
      | none => exact ⟨by simpa [hnote] using hopen, by simp⟩
      | some other =>
        rw [hnote] at hopen
        rcases open_snoc.mp hopen with ⟨hopen, hne⟩ | he
        · exact ⟨hopen, fun hsame => hne (by rw [Option.some.inj hsame])⟩
        · cases he
    obtain ⟨hturn, track, htrack⟩ := h.held turn note hbefore.1
    have hother : track ≠ s.state.current_track := by
      rintro rfl
      exact hbefore.2 (hmatch note htrack)
    exact ⟨hturn, track, by rw [set_started, if_neg hother, htrack]⟩
  have hflight : ∀ track note, set_started s s.state.current_track none track = some note →
      track < s.state.current_track := by
    intro track note htrack
    unfold set_started at htrack
    split at htrack
    · cases htrack
    · rename_i hother
      have hbefore := h.flight track note htrack
      unfold InFlight at hbefore
      rw [hphase] at hbefore
      exact lt_of_le_of_ne hbefore hother
  split
  · rename_i hmore
    refine ⟨hended, hheld, fun track note htrack => ?_⟩
    have hlt := hflight track note htrack
    rw [hphase]
    exact Nat.le_sub_one_of_lt hlt
  · rename_i hlast
    exact ⟨hended, hheld, fun track note htrack => absurd (hflight track note htrack) (by omega)⟩

/-- The attack of a track starts its note in this turn. -/
theorem attack_sound (h : Sound s) (hphase : s.state.phase = .ATTACK) :
    Sound (sequencer_phase_attack b now s) := by
  have hbefore : ∀ track note, s.started track = some note → track < s.state.current_track := by
    intro track note htrack
    have hflight := h.flight track note htrack
    unfold InFlight at hflight
    rw [hphase] at hflight
    exact hflight
  unfold sequencer_phase_attack
  dsimp only
  generalize (if s.state.current_track = 0 then now else s.state.timer) = timer
  split
  · exact h.of_same rfl rfl rfl rfl rfl
  have hnote : note_of b { s with state := { s.state with timer } } s.state.current_track =
      note_of b s s.state.current_track := rfl
  rw [hnote]
  generalize note_of b s s.state.current_track = note
  have hended : Ended (s.log ++ (note.map (event.noteon s.turn)).toList) := by
    cases note with
    | none => simpa using h.ended
    | some note =>
      refine h.ended.snoc fun turn note' hopen hbreaks => hbreaks ?_
      exact (h.held turn note' hopen).1.symm
  have hheld : ∀ turn note', Open (s.log ++ (note.map (event.noteon s.turn)).toList) turn note' →
      turn = s.turn ∧ ∃ track, set_started s s.state.current_track note track = some note' := by
    intro turn note' hopen
    have hold : Open s.log turn note' → turn = s.turn ∧
        ∃ track, set_started s s.state.current_track note track = some note' := by
      intro hopen
      obtain ⟨hturn, track, htrack⟩ := h.held turn note' hopen
      have hlt := hbefore track note' htrack
      exact ⟨hturn, track, by rw [set_started, if_neg (by omega), htrack]⟩
    cases note with
    | none => exact hold (by simpa using hopen)
    | some note =>
      rcases open_snoc.mp hopen with ⟨hopen, -⟩ | he
      · exact hold hopen
      · cases he
        exact ⟨rfl, s.state.current_track, by rw [set_started, if_pos rfl]⟩
  have hflight : ∀ track note', set_started s s.state.current_track note track = some note' →
      track ≤ s.state.current_track := by
    intro track note' htrack
    unfold set_started at htrack
    split at htrack
    · omega
    · exact (hbefore track note' htrack).le
  split
  · refine ⟨hended, hheld, fun track note' htrack => ?_⟩
    have hle := hflight track note' htrack
    rw [hphase]
    exact Nat.lt_succ_of_le hle
  · exact ⟨hended, hheld, hflight⟩

theorem pause_phase (hphase : s.state.phase = .PAUSE) :
    (sequencer_phase_pause b now s).state.phase ≠ .RELEASE := by
  unfold sequencer_phase_pause
  split
  · simp [hphase]
  · simp

theorem release_phase (hphase : s.state.phase = .RELEASE) :
    (sequencer_phase_release b now s).state.phase ≠ .ATTACK := by
  unfold sequencer_phase_release
  dsimp only
  split
  · simp [hphase]
  · split
    · simp [hphase]
    · simp

theorem task_sound (h : Sound s) (hmatch : Matched b s (.task now)) :
    Sound (sequencer_task b now s) := by
  unfold sequencer_task
  cases henabled : s.config.enabled with
  | false => exact h
  | true =>
    rw [if_neg (by simp)]
    dsimp only
    obtain hphase | hphase | hphase : s.state.phase = .ATTACK ∨ s.state.phase = .RELEASE ∨
        s.state.phase = .PAUSE := by
      cases s.state.phase <;> simp
    · have hpause : ¬ s.state.phase = .PAUSE := by simp [hphase]
      have hrelease : ¬ s.state.phase = .RELEASE := by simp [hphase]
      rw [if_neg hpause, if_neg hrelease, if_pos hphase]
      exact attack_sound h hphase
    · have hpause : ¬ s.state.phase = .PAUSE := by simp [hphase]
      rw [if_neg hpause, if_pos hphase, if_neg (release_phase hphase)]
      exact release_sound h hphase (hmatch henabled hphase)
    · rw [if_pos hphase, if_neg (pause_phase hphase)]
      have hpause : Sound (sequencer_phase_pause b now s) := pause_sound h hphase
      split
      · rename_i hattack
        exact attack_sound hpause hattack
      · exact hpause

theorem step_sound (h : Sound s) {x : input} (hmatch : Matched b s x) : Sound (step b s x) := by
  cases x with
  | on now => exact on_sound h hmatch
  | off => exact off_sound h hmatch
  | toggle now =>
    change Sound (if s.config.enabled then sequencer_off s else sequencer_on s now)
    split
    · exact off_sound h hmatch
    · exact on_sound h hmatch
  | task now => exact task_sound h hmatch
  | set_track_notes | set_track_activation | toggle_track_activation |
    toggle_single_active_track | set_all_steps => exact h.of_same rfl rfl rfl rfl rfl
  | set_step step value | toggle_step step =>
    simp only [sequencer.step, sequencer_toggle_step, sequencer_set_step]
    split
    · exact h.of_same rfl rfl rfl rfl rfl
    · exact h
  | set_tempo | increase_tempo | decrease_tempo | set_resolution | increase_resolution |
    decrease_resolution =>
    simp only [sequencer.step, sequencer_increase_tempo, sequencer_decrease_tempo,
      sequencer_set_tempo, sequencer_increase_resolution, sequencer_decrease_resolution,
      sequencer_set_resolution]
    split_ifs
    all_goals first
      | exact h
      | exact h.of_same rfl rfl rfl rfl rfl

end

/-! ## Every run -/

/-- In every run in which each due release finds the note that its track has started, and
in which the sequencer is not started or switched under a note, all notes end. -/
theorem notes_end_when_releases_match (b : build) {xs : List input}
    (h : Along (step b) (Matched b) init xs) : Ended (xs.foldl (step b) init).log :=
  (Along.invariant (I := Sound) (C := Matched b) (fun _ _ hs hx => step_sound hs hx) init_sound
    h).ended

theorem eight_tracks : 0 < 8 := by decide

def default_build : build where
  SEQUENCER_STEPS := 16
  SEQUENCER_TRACKS := 8
  SEQUENCER_TRACK_THROTTLE := 3
  SEQUENCER_PHASE_RELEASE_TIMEOUT := 30
  midi_compute_note := UInt16.toUInt8
  tracks_pos := eight_tracks

def one_track : build := { default_build with SEQUENCER_TRACKS := 1, tracks_pos := Nat.one_pos }

/-- The first step is set, and played up to a time. -/
def play : List input :=
  [.set_track_notes fun _ => 60, .set_track_activation 0 true, .set_step 0 true, .on 0, .task 0]

theorem a_released_note_ends :
    Ended (List.foldl (step one_track) init (play ++ [input.task 30, input.off])).log := by
  refine notes_end_when_releases_match one_track
    (⟨trivial, trivial, trivial, fun _ => rfl, ?_, ?_, ?_, trivial⟩ :
      Along (step one_track) (Matched one_track) init (play ++ [input.task 30, input.off]))
  · intro henabled hphase
    cases hphase
  · intro _ _ _ note hnote
    exact hnote
  · intro track
    by_cases htrack : track = 0
    · rw [htrack]
      rfl
    · change set_started _ 0 none track = none
      rw [set_started, if_neg htrack]
      change set_started _ 0 (some 60) track = none
      rw [set_started, if_neg htrack]
      rfl

/-- The note of the first track goes on when the sequencer is switched off. -/
theorem a_note_outlives_the_switch_off :
    ¬ Ended (List.foldl (step default_build) init (play ++ [input.off])).log := by
  intro hended
  have hlog : (List.foldl (step default_build) init (play ++ [input.off])).log =
      [] ++ .noteon 1 60 :: ([] ++ .stopped :: []) := by decide
  have hmem := hended [] 1 60 [] .stopped [] hlog trivial
  cases hmem

/-- In every run of commands and of the task, the tempo is not zero, the resolution is one of the
table, and the track and the step are within theirs. -/
theorem the_sequencer_stays_in_range (b : build) (hsteps : 0 < b.SEQUENCER_STEPS)
    (xs : List input) : InRange b (xs.foldl (step b) init) := by
  have hinit : InRange b init := ⟨by decide, by decide, b.tracks_pos, hsteps⟩
  exact List.foldlRecOn xs (step b) hinit fun _ hs x _ => hs.step x

theorem a_played_step_stays_in_range :
    0 < 16 ∧ InRange default_build (List.foldl (step default_build) init play) :=
  ⟨by decide, the_sequencer_stays_in_range default_build (by decide) play⟩

end keychron_qmk.sequencer
