import Mastiff.Lib.Lookup
import Mastiff.Lib.Machine

/-!
# Playing sounds

`AudioAlsa` (`chassis/drivers/soc/audio/audio_alsa.cc`) plays each sound on a thread of its
own. Two flags are shared by all of them : `continue_running_`, which a new request clears
and a playback sets before its loop, and `thread_exist_`, which is clear while a playback
runs. A playback clears it some time after the request that created it has gone on. The
volume and the package of a request are left out.

`exclusive_iff` : one sound plays at a time and no stop is undone, however the playbacks go
on, exactly when no playback is created while another has not finished, and no request
clears `continue_running_` while a playback is still to set it.
-/

set_option linter.unusedSectionVars false

namespace Mastiff.Soc

open Lookup Machine

/-! ## Sounds -/

structure Voice where
  name : String
  idx : ℤ

structure AudioMap where
  subDir : String
  voice : List Voice

structure AudioConfig where
  audioPath : String := ""
  voicePack : String := ""
  aMaps : List AudioMap := []

/-- The files that `ParsePlay` hands to `PlayFromFile` for a sound, in order. -/
def AudioConfig.parsePlay (c : AudioConfig) (id : ℤ) : List String :=
  c.aMaps.flatMap fun map =>
    if map.subDir = "" then []
    else if map.subDir ≠ c.voicePack then []
    else
      (map.voice.filter fun v => v.idx = id).map fun v =>
        c.audioPath ++ "/" ++ map.subDir ++ "/" ++ v.name

/-- Whether a playback runs `PlayMp3File` or `PlayWavFile`. -/
inductive SoundKind
  | mp3
  | wav
  deriving DecidableEq

/-- The test of the name in `PlayFromFile`. -/
def soundKind (name : String) : Option SoundKind :=
  if finds name ".mp3" then some .mp3 else if finds name ".wav" then some .wav else none

/-! ## States -/

/-- The next step of a playback. -/
inductive Phase
  | start
  | openFile
  | openPcm
  | notReady
  | setRunning
  | write
  | closePcm
  | finish
  | done
  deriving DecidableEq

/-- A playback thread. Whether a request has cleared `continue_running_` since it was created
is kept for the statements alone. -/
structure Playback where
  kind : SoundKind
  phase : Phase := .start
  stopped : Bool := false
  deriving DecidableEq

/-- The next step of the call of `AudioOperate`, if there is one : the wait, or the test or the
creation of a thread in `PlayFromFile`, with the files that are left. -/
inductive OperateStep
  | idle
  | wait (files : List String)
  | test (files : List String)
  | create (kind : SoundKind) (files : List String)
  deriving DecidableEq

/-- The file-scope variables of `audio_alsa.cc`, with the playback whose device `pcm_` is, and
the threads, which are numbered as they are created. -/
structure AudioAlsa where
  continueRunning : Bool := false
  threadExist : Bool := true
  pcm : Option ℕ := none
  operating : OperateStep := .idle
  playbacks : List Playback := []
  deriving DecidableEq

/-- An atomic step : `AudioOperate` is called to play a sound and clears `continue_running_`,
or it goes on, or a playback does. `ok` tells whether what the step reads, opens or writes
turns out well. -/
inductive AudioTurn
  | call (id : ℤ)
  | operate
  | play (i : ℕ) (ok : Bool)
  deriving DecidableEq

/-- What a playback does after its next step. -/
def Playback.next (p : Playback) (ok running : Bool) : Phase :=
  match p.phase with
  | .start => match p.kind with
    | .wav => .openFile
    | .mp3 => .openPcm
  | .openFile => if ok then .openPcm else .finish
  | .openPcm => if ok then .setRunning else .notReady
  | .notReady => .finish
  | .setRunning =>
    -- `ConvertMp3ToWav` can return before its loop
    if p.kind = .wav ∨ ok then .write else .closePcm
  | .write => if running ∧ ok then .write else .closePcm
  | .closePcm => .finish
  | .finish => .done
  | .done => .done

namespace AudioAlsa

variable (c : AudioConfig)

/-- The first step of `AudioOperate`. A call waits for the one before it. -/
def call (s : AudioAlsa) (id : ℤ) : AudioAlsa :=
  if s.operating = .idle then
    { s with
      continueRunning := false
      operating := .wait (c.parsePlay id)
      playbacks := s.playbacks.map fun p => { p with stopped := true } }
  else s

/-- The further steps of `AudioOperate`. -/
def audioOperate (s : AudioAlsa) : AudioAlsa :=
  match s.operating with
  | .idle => s
  | .wait files => if s.threadExist then { s with operating := .test files } else s
  | .test [] => { s with operating := .idle }
  | .test (name :: files) =>
    if s.threadExist then
      match soundKind name with
      | some kind => { s with operating := .create kind files }
      | none => { s with operating := .test files }
    else { s with operating := .test files }
  | .create kind files =>
    { s with operating := .test files, playbacks := s.playbacks ++ [{ kind := kind }] }

def setPhase (s : AudioAlsa) (i : ℕ) (phase : Phase) : AudioAlsa :=
  { s with playbacks := s.playbacks.modify i fun p => { p with phase := phase } }

/-- A step of a playback, and its number if the step sets `continue_running_`. -/
def play (s : AudioAlsa) (i : ℕ) (ok : Bool) : AudioAlsa × Option ℕ :=
  match s.playbacks[i]? with
  | none => (s, none)
  | some p =>
    let s' := s.setPhase i (p.next ok s.continueRunning)
    match p.phase with
    | .start => ({ s' with threadExist := false }, none)
    | .openPcm => ({ s' with pcm := if ok then some i else none }, none)
    | .setRunning =>
      if p.kind = .wav ∨ ok then ({ s' with continueRunning := true }, some i) else (s', none)
    | .closePcm => ({ s' with pcm := none }, none)
    -- a device that is not ready makes `SetPcmConfig` and its caller set the flag
    | .notReady | .finish => ({ s' with threadExist := true }, none)
    | .openFile | .write | .done => (s', none)

/-- One step. -/
def step (s : AudioAlsa) : AudioTurn → AudioAlsa × Option ℕ
  | .call id => (s.call c id, none)
  | .operate => (s.audioOperate, none)
  | .play i ok => s.play i ok

end AudioAlsa

/-! ## One sound at a time -/

/-- A playback is between its first and its last step. -/
def Playback.Active (p : Playback) : Prop :=
  p.phase ≠ .start ∧ p.phase ≠ .done

/-- A playback uses the device that it has opened. -/
def Playback.UsesPcm (p : Playback) : Prop :=
  p.phase = .setRunning ∨ p.phase = .write ∨ p.phase = .closePcm

/-- A playback has not come to the assignment of `continue_running_` yet. -/
def Playback.IsToRun (p : Playback) : Prop :=
  p.phase = .start ∨ p.phase = .openFile ∨ p.phase = .openPcm ∨ p.phase = .setRunning

theorem Playback.UsesPcm.phase_ne_done {p : Playback} (h : p.UsesPcm) : p.phase ≠ .done := by
  rcases h with h | h | h <;> simp [h]

namespace AudioAlsa

/-- What a step has to satisfy : after it at most one playback is between its first and its
last step, and `pcm_` is the device of the one that uses it ; and a playback that sets
`continue_running_` has not been stopped. -/
structure Exclusive (t : Step AudioAlsa AudioTurn (Option ℕ)) : Prop where
  single : ∀ (i j : ℕ) (p q : Playback), t.after.playbacks[i]? = some p →
    t.after.playbacks[j]? = some q →
    p.Active → q.Active → i = j
  pcm : ∀ (i : ℕ) (p : Playback), t.after.playbacks[i]? = some p → p.UsesPcm → t.after.pcm = some i
  stop : ∀ (i : ℕ) (p : Playback), t.output = some i → t.before.playbacks[i]? = some p →
    p.stopped = false

/-- A playback is created when the others have finished, and `continue_running_` is cleared
when no playback is still to set it. -/
structure InTime (s : AudioAlsa) (t : AudioTurn) : Prop where
  create : t = .operate → ∀ kind files, s.operating = .create kind files →
    ∀ p ∈ s.playbacks, p.phase = .done
  call : ∀ id, t = .call id → s.operating = .idle → ∀ p ∈ s.playbacks, ¬p.IsToRun

/-- All playbacks but one have finished, which has its own device, and no playback that has
been stopped is still to set `continue_running_`. -/
structure Orderly (s : AudioAlsa) : Prop where
  single : ∀ (i j : ℕ) (p q : Playback), s.playbacks[i]? = some p → s.playbacks[j]? = some q →
    p.phase ≠ .done → q.phase ≠ .done → i = j
  pcm : ∀ (i : ℕ) (p : Playback), s.playbacks[i]? = some p → p.UsesPcm → s.pcm = some i
  stopped : ∀ (i : ℕ) (p : Playback), s.playbacks[i]? = some p → p.stopped = true → ¬p.IsToRun

variable {s : AudioAlsa} (c : AudioConfig)

/-! ## Steps -/

/-- A step of a playback moves that playback on. -/
theorem play_playbacks {i : ℕ} {p : Playback} (hp : s.playbacks[i]? = some p) (ok : Bool) :
    (s.play i ok).1.playbacks =
      s.playbacks.modify i fun q => { q with phase := p.next ok s.continueRunning } := by
  simp only [play, hp]
  split
  all_goals try split_ifs
  all_goals rfl

/-- A playback after a step of a playback is another one, or the one that has moved on. -/
theorem getElem?_play {i j : ℕ} {ok : Bool} {q : Playback}
    (hq : (s.play i ok).1.playbacks[j]? = some q) :
    j ≠ i ∧ s.playbacks[j]? = some q ∨
      j = i ∧ ∃ p, s.playbacks[i]? = some p ∧
        q = { p with phase := p.next ok s.continueRunning } := by
  cases hp : s.playbacks[i]? with
  | none =>
    have hsame : (s.play i ok).1 = s := by rw [play, hp]
    rw [hsame] at hq
    refine .inl ⟨?_, hq⟩
    rintro rfl
    rw [hp] at hq
    cases hq
  | some p =>
    rw [play_playbacks hp, List.getElem?_modify] at hq
    by_cases hij : i = j
    · subst hij
      rw [hp] at hq
      exact .inr ⟨rfl, p, rfl, by simpa [eq_comm] using hq⟩
    · exact .inl ⟨Ne.symm hij, by simpa [hij] using hq⟩

/-- A playback that goes on to use `pcm_` has it. -/
theorem pcm_play {i : ℕ} {p : Playback} (hp : s.playbacks[i]? = some p) {ok : Bool}
    (hpcm : p.UsesPcm → s.pcm = some i)
    (huse : ({ p with phase := p.next ok s.continueRunning } : Playback).UsesPcm) :
    (s.play i ok).1.pcm = some i := by
  obtain ⟨kind, phase, stopped⟩ := p
  cases phase
  case openPcm =>
    cases ok
    · simp [Playback.next, Playback.UsesPcm] at huse
    · simp [play, hp]
  case setRunning =>
    have hown := hpcm (.inl rfl)
    simp only [play, hp]
    split_ifs <;> exact hown
  case write =>
    have hown := hpcm (.inr (.inl rfl))
    simp only [play, hp]
    exact hown
  case start => cases kind <;> simp [Playback.next, Playback.UsesPcm] at huse
  case openFile => cases ok <;> simp [Playback.next, Playback.UsesPcm] at huse
  all_goals simp [Playback.next, Playback.UsesPcm] at huse

/-- A playback that has finished leaves `pcm_` alone. -/
theorem pcm_play_of_done {i : ℕ} (h : ∀ p, s.playbacks[i]? = some p → p.phase = .done)
    {ok : Bool} : (s.play i ok).1.pcm = s.pcm := by
  rw [play]
  cases hp : s.playbacks[i]? with
  | none => rfl
  | some p => simp only [h p hp, setPhase]

/-- Only a playback that is to set `continue_running_` does. -/
theorem play_output {i j : ℕ} {ok : Bool} (hout : (s.play i ok).2 = some j) :
    j = i ∧ ∃ p, s.playbacks[i]? = some p ∧ p.IsToRun := by
  rw [play] at hout
  cases hp : s.playbacks[i]? with
  | none => rw [hp] at hout; cases hout
  | some p =>
    simp only [hp] at hout
    split at hout
    case h_3 hphase =>
      split_ifs at hout
      exact ⟨(Option.some.inj hout).symm, p, rfl, .inr (.inr (.inr hphase))⟩
    all_goals cases hout

/-- A playback that has come past the assignment does not come back to it. -/
theorem isToRun_of_next {p : Playback} {ok running : Bool}
    (h : ({ p with phase := p.next ok running } : Playback).IsToRun) : p.IsToRun := by
  obtain ⟨kind, phase, stopped⟩ := p
  cases phase
  case setRunning =>
    cases kind <;> cases ok <;> simp [Playback.next, Playback.IsToRun] at h
  case write => cases ok <;> cases running <;> simp [Playback.next, Playback.IsToRun] at h
  all_goals simp_all [Playback.next, Playback.IsToRun]

/-- A playback that has finished does nothing more. -/
theorem done_of_next {p : Playback} {ok running : Bool} (h : p.next ok running ≠ .done) :
    p.phase ≠ .done := by
  intro hdone
  exact h (by rw [Playback.next, hdone])

/-! ## Orderly runs -/

theorem Orderly.play (h : Orderly s) (i : ℕ) (ok : Bool) : Orderly (s.play i ok).1 := by
  -- where a playback of the state after the step comes from
  have hold : ∀ (j : ℕ) (q : Playback), (s.play i ok).1.playbacks[j]? = some q →
      ∃ p, s.playbacks[j]? = some p ∧ (q.phase ≠ .done → p.phase ≠ .done) ∧
        p.stopped = q.stopped ∧ (q.IsToRun → p.IsToRun) := by
    intro j q hq
    rcases getElem?_play hq with ⟨-, hq⟩ | ⟨rfl, p, hp, rfl⟩
    · exact ⟨q, hq, id, rfl, id⟩
    · exact ⟨p, hp, done_of_next, rfl, isToRun_of_next⟩
  refine ⟨?_, ?_, ?_⟩
  · intro j k p q hp hq hpd hqd
    obtain ⟨p', hp', hpd', -⟩ := hold j p hp
    obtain ⟨q', hq', hqd', -⟩ := hold k q hq
    exact h.single j k p' q' hp' hq' (hpd' hpd) (hqd' hqd)
  · intro j q hq huse
    rcases getElem?_play hq with ⟨hji, hq⟩ | ⟨rfl, p, hp, rfl⟩
    · have hdone : ∀ p, s.playbacks[i]? = some p → p.phase = .done := by
        intro p hp
        by_contra hpd
        exact hji (h.single j i q p hq hp huse.phase_ne_done hpd)
      rw [pcm_play_of_done hdone]
      exact h.pcm j q hq huse
    · exact pcm_play hp (h.pcm j p hp) huse
  · intro j q hq hstop
    obtain ⟨p, hp, -, hstop', hrun⟩ := hold j q hq
    exact fun hq => h.stopped j p hp (hstop'.trans hstop) (hrun hq)

theorem Orderly.call (h : Orderly s) {id : ℤ} (htime : s.InTime (.call id)) :
    Orderly (s.call c id) := by
  rw [AudioAlsa.call]
  split_ifs with hidle
  · -- what a playback was before the flag was cleared
    have hold : ∀ (i : ℕ) (q : Playback),
        (s.playbacks.map fun p => { p with stopped := true })[i]? = some q →
          ∃ p, s.playbacks[i]? = some p ∧ q = { p with stopped := true } := by
      intro i q hq
      rw [List.getElem?_map, Option.map_eq_some_iff] at hq
      obtain ⟨p, hp, rfl⟩ := hq
      exact ⟨p, hp, rfl⟩
    refine ⟨?_, ?_, ?_⟩
    · intro i j p' q' hp' hq' hpd hqd
      obtain ⟨p, hp, rfl⟩ := hold i p' hp'
      obtain ⟨q, hq, rfl⟩ := hold j q' hq'
      exact h.single i j p q hp hq hpd hqd
    · intro i q hq huse
      obtain ⟨p, hp, rfl⟩ := hold i q hq
      exact h.pcm i p hp huse
    · intro i q hq _
      obtain ⟨p, hp, rfl⟩ := hold i q hq
      exact htime.call id rfl hidle p (List.mem_of_getElem? hp)
  · exact h

theorem Orderly.audioOperate (h : Orderly s) (htime : s.InTime .operate) :
    Orderly s.audioOperate := by
  rw [AudioAlsa.audioOperate]
  split
  · exact h
  · split_ifs <;> exact ⟨h.single, h.pcm, h.stopped⟩
  · exact ⟨h.single, h.pcm, h.stopped⟩
  · split_ifs
    · split <;> exact ⟨h.single, h.pcm, h.stopped⟩
    · exact ⟨h.single, h.pcm, h.stopped⟩
  · next kind files hcreate =>
    have hdone := htime.create rfl kind files hcreate
    -- a playback that has not finished is the new one
    have hnew : ∀ (i : ℕ) (p : Playback), (s.playbacks ++ [{ kind := kind }])[i]? = some p →
        p.phase ≠ .done → i = s.playbacks.length ∧ p = { kind := kind } := by
      intro i p hp hpd
      rw [List.getElem?_append] at hp
      split_ifs at hp with hlt
      · exact absurd (hdone p (List.mem_of_getElem? hp)) hpd
      · rw [List.getElem?_singleton] at hp
        split_ifs at hp
        exact ⟨by omega, (Option.some.inj hp).symm⟩
    refine ⟨?_, ?_, ?_⟩
    · intro i j p q hp hq hpd hqd
      rw [(hnew i p hp hpd).1, (hnew j q hq hqd).1]
    · intro i p hp huse
      obtain ⟨-, rfl⟩ := hnew i p hp huse.phase_ne_done
      simp [Playback.UsesPcm] at huse
    · intro i p hp hstop hrun
      have hpd : p.phase ≠ .done := by
        rcases hrun with hrun | hrun | hrun | hrun <;> simp [hrun]
      obtain ⟨-, rfl⟩ := hnew i p hp hpd
      cases hstop

/-- A step in time from an orderly state satisfies what it has to, and keeps the order. -/
theorem Orderly.step (h : Orderly s) {t : AudioTurn} (htime : s.InTime t) :
    Exclusive ⟨s, t, (s.step c t).1, (s.step c t).2⟩ ∧ Orderly (s.step c t).1 := by
  have hafter : Orderly (s.step c t).1 := by
    cases t with
    | call id => exact h.call c htime
    | operate => exact h.audioOperate htime
    | play i ok => exact h.play i ok
  refine ⟨⟨?_, hafter.pcm, ?_⟩, hafter⟩
  · intro i j p q hp hq hpa hqa
    exact hafter.single i j p q hp hq hpa.2 hqa.2
  · intro i p hout hp
    cases t with
    | call id => cases hout
    | operate => cases hout
    | play k ok =>
      obtain ⟨rfl, q, hq, hrun⟩ := play_output hout
      obtain rfl : p = q := Option.some.inj (hp.symm.trans hq)
      exact Bool.not_eq_true _ ▸ fun hstop => h.stopped i p hp hstop hrun

/-! ## Requests in the wrong moment -/

/-- A step of a playback. -/
def IsPlay (t : AudioTurn) : Prop :=
  ∃ i ok, t = .play i ok

theorem inTime_of_isPlay (s : AudioAlsa) {t : AudioTurn} (h : IsPlay t) : s.InTime t := by
  obtain ⟨i, ok, rfl⟩ := h
  exact ⟨fun hop => (by cases hop), fun id hcall => (by cases hcall)⟩

/-- The playbacks can go on so that some step does not satisfy what it has to. -/
def CanFail (s : AudioAlsa) : Prop :=
  ∃ js, (∀ j ∈ js, IsPlay j) ∧ ∃ t ∈ trace (step c) s js, ¬Exclusive t

variable {c}

theorem canFail_of_play (i : ℕ) (ok : Bool) (h : CanFail c (s.play i ok).1) : CanFail c s := by
  obtain ⟨js, hjs, t, ht, hno⟩ := h
  exact ⟨.play i ok :: js, List.forall_mem_cons.2 ⟨⟨i, ok, rfl⟩, hjs⟩, t,
    List.mem_cons_of_mem _ ht, hno⟩

theorem getElem?_play_self {i : ℕ} {p : Playback} (hp : s.playbacks[i]? = some p) (ok : Bool) :
    (s.play i ok).1.playbacks[i]? = some { p with phase := p.next ok s.continueRunning } := by
  rw [play_playbacks hp, List.getElem?_modify_eq, hp]
  rfl

theorem getElem?_play_ne {i j : ℕ} (hij : i ≠ j) (ok : Bool) :
    (s.play i ok).1.playbacks[j]? = s.playbacks[j]? := by
  cases hp : s.playbacks[i]? with
  | none => rw [play, hp]
  | some p => rw [play_playbacks hp, List.getElem?_modify_ne _ _ hij]

/-- A playback that starts next to another one. -/
theorem canFail_of_active {i j : ℕ} {p q : Playback} (hij : i ≠ j) (hp : s.playbacks[i]? = some p)
    (hpa : p.Active) (hq : s.playbacks[j]? = some q) (hqs : q.phase = .start) : CanFail c s := by
  refine ⟨[.play j true], by simp [IsPlay], _, List.mem_singleton.2 rfl, fun hex => ?_⟩
  have hpi : (s.play j true).1.playbacks[i]? = some p := by rw [getElem?_play_ne hij.symm, hp]
  refine hij (hex.single i j p _ hpi (getElem?_play_self hq true) hpa ?_)
  rw [Playback.Active, Playback.next, hqs]
  cases q.kind <;> simp

/-- A playback created while another one has not finished. -/
theorem canFail_of_create {kind : SoundKind} {files : List String}
    (hcreate : s.operating = .create kind files) {p : Playback} (hp : p ∈ s.playbacks)
    (hpd : p.phase ≠ .done) : CanFail c s.audioOperate := by
  obtain ⟨i, hi⟩ := List.getElem?_of_mem hp
  have hlt := (List.getElem?_eq_some_iff.1 hi).1
  have hij : i ≠ s.playbacks.length := Nat.ne_of_lt hlt
  have hplaybacks : s.audioOperate.playbacks = s.playbacks ++ [{ kind := kind }] := by
    rw [AudioAlsa.audioOperate, hcreate]
  have hold : s.audioOperate.playbacks[i]? = some p := by
    rw [hplaybacks, List.getElem?_append_left hlt, hi]
  have hnew : s.audioOperate.playbacks[s.playbacks.length]? = some { kind := kind } := by
    rw [hplaybacks, List.getElem?_concat_length]
  by_cases hps : p.phase = .start
  · refine canFail_of_play i true ?_
    refine canFail_of_active hij (getElem?_play_self hold true) ?_
      ((getElem?_play_ne hij true).trans hnew) rfl
    rw [Playback.Active, Playback.next, hps]
    cases p.kind <;> simp
  · exact canFail_of_active hij hold ⟨hps, hpd⟩ hnew rfl

/-- A playback that has been stopped before its loop. -/
theorem canFail_of_stopped {i : ℕ} {p : Playback} (hp : s.playbacks[i]? = some p)
    (hstop : p.stopped = true) (hrun : p.IsToRun) : CanFail c s := by
  have hset : ∀ (s : AudioAlsa) (p : Playback), s.playbacks[i]? = some p → p.stopped = true →
      p.phase = .setRunning → CanFail c s := by
    intro s p hp hstop hphase
    refine ⟨[.play i true], by simp [IsPlay], _, List.mem_singleton.2 rfl, fun hex => ?_⟩
    have hout : (s.play i true).2 = some i := by simp [play, hp, hphase]
    exact absurd (hex.stop i p hout hp) (by simp [hstop])
  have hopenPcm : ∀ (s : AudioAlsa) (p : Playback), s.playbacks[i]? = some p → p.stopped = true →
      p.phase = .openPcm → CanFail c s := by
    intro s p hp hstop hphase
    exact canFail_of_play i true
      (hset _ _ (getElem?_play_self hp true) hstop (by simp [Playback.next, hphase]))
  have hopenFile : ∀ (s : AudioAlsa) (p : Playback), s.playbacks[i]? = some p → p.stopped = true →
      p.phase = .openFile → CanFail c s := by
    intro s p hp hstop hphase
    exact canFail_of_play i true
      (hopenPcm _ _ (getElem?_play_self hp true) hstop (by simp [Playback.next, hphase]))
  rcases hrun with hphase | hphase | hphase | hphase
  · refine canFail_of_play i true ?_
    cases hkind : p.kind with
    | wav => exact hopenFile _ _ (getElem?_play_self hp true) hstop (by simp [Playback.next, *])
    | mp3 => exact hopenPcm _ _ (getElem?_play_self hp true) hstop (by simp [Playback.next, *])
  · exact hopenFile s p hp hstop hphase
  · exact hopenPcm s p hp hstop hphase
  · exact hset s p hp hstop hphase

/-- After a step that is not in time some playbacks can go on wrongly. -/
theorem canFail_of_not_inTime {t : AudioTurn} (h : ¬s.InTime t) : CanFail c (s.step c t).1 := by
  by_contra hno
  refine h ⟨?_, ?_⟩
  · rintro rfl kind files hcreate p hp
    by_contra hpd
    exact hno (canFail_of_create hcreate hp hpd)
  · rintro id rfl hidle p hp hrun
    obtain ⟨i, hi⟩ := List.getElem?_of_mem hp
    refine hno (canFail_of_stopped (i := i) (p := { p with stopped := true }) ?_ rfl hrun)
    change (s.call c id).playbacks[i]? = _
    rw [AudioAlsa.call, if_pos hidle, List.getElem?_map, hi]
    rfl

/-! ## Runs -/

/-- For every sequence of requests and every interleaving with the playbacks, every step
satisfies what it has to, however the playbacks go on after any part of the run, exactly
when every step of the run is in time. -/
theorem exclusive_iff (c : AudioConfig) (ts : List AudioTurn) :
    (∀ us, us <+: ts → ∀ js, (∀ j ∈ js, IsPlay j) →
        ∀ t ∈ trace (step c) {} (us ++ js), Exclusive t) ↔
      ∀ t ∈ trace (step c) {} ts, InTime t.before t.input :=
  forall_prefix_iff Orderly (fun _ _ h htime => h.step c htime) (fun s _ => inTime_of_isPlay s)
    (fun _ _ hno => canFail_of_not_inTime hno) ts ⟨by simp, by simp, by simp⟩

/-- The chassis has a sound. -/
def exampleConfig : AudioConfig :=
  { voicePack := "beep", aMaps := [⟨"beep", [⟨"1.wav", 1⟩]⟩] }

/-- A second request creates its playback before the first one has cleared
`thread_exist_`. -/
theorem not_exclusive :
    ¬∀ (c : AudioConfig) (ts : List AudioTurn), ∀ t ∈ trace (step c) {} ts, Exclusive t := by
  intro h
  have hex := h exampleConfig
    [.call 1, .operate, .operate, .operate, .operate, .call 1, .operate, .operate, .operate,
      .play 0 true, .play 1 true] ⟨_, .play 1 true, _, _⟩ (List.mem_of_getLast? rfl)
  have heq := hex.single 0 1 ⟨.wav, .openFile, true⟩ ⟨.wav, .openFile, false⟩ (by decide)
    (by decide)
    (by simp [Playback.Active]) (by simp [Playback.Active])
  exact absurd heq (by decide)

end AudioAlsa

end Mastiff.Soc
