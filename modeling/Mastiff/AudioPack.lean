import Mastiff.AudioAlsa
import Mastiff.AudioCtrl

/-!
# Voice packs

`ParsePackage` and `ParsePlay` (`chassis/drivers/soc/audio/audio_alsa.cc`) keep the pack that
a message selects in `package_`. The loop of `ParsePlay` then looks for the pack of the
configuration instead, whatever `package_` is. The messages are those of `AudioCtrl`, and what
`PlayFromFile` makes of a file is in `AudioAlsa`. The volume of a message is left out.

`packs_iff` : the files played are those of the pack selected last exactly when neither that
pack nor the one of the configuration has the sound, if they are different, and a pack
without a name has no sound.
-/

set_option linter.unusedSectionVars false

namespace Mastiff.Soc

open Machine

/-- A file handed to `PlayFromFile`. -/
structure VoiceFile where
  audioPath : String
  subDir : String
  name : String

def VoiceFile.path (f : VoiceFile) : String :=
  f.audioPath ++ "/" ++ f.subDir ++ "/" ++ f.name

namespace AudioPack

variable (c : AudioConfig)

/-- The inner loop of `ParsePlay`. -/
def voiceFiles (map : AudioMap) (id : ℤ) : List VoiceFile :=
  (map.voice.filter fun v => v.idx = id).map fun v => ⟨c.audioPath, map.subDir, v.name⟩

/-- The loop of `ParsePlay` that looks for `pack`. -/
def searchPack (pack : String) (id : ℤ) : List VoiceFile :=
  c.aMaps.flatMap fun map =>
    if map.subDir = "" then []
    else if map.subDir ≠ pack then []
    else voiceFiles c map id

/-- `ParsePlay` : the new `package_`, and the files handed to `PlayFromFile`. -/
def parsePlay (package : String) (p : AudioPlay) : String × List VoiceFile :=
  let pack := p.pack.getD ""
  let package := if pack ≠ "" then pack else package
  -- the local `pack` is the one of the configuration from here on
  let pack := c.voicePack
  (package, searchPack c pack p.soundId)

/-- `ParsePackage` -/
def parsePackage (_package : String) (p : SetAudioPack) : String :=
  p.dftPack

/-- `AudioOperate` on `package_`. -/
def audioOperate (package : String) (msg : AudioSetting) : String × List VoiceFile :=
  let package := match msg.pack with
    | some p => parsePackage package p
    | none => package
  match msg.play with
  | some p => parsePlay c package p
  | none => (package, [])

/-! ## The pack selected last -/

/-- The pack that a message selects, if it does. -/
def selects (msg : AudioSetting) : Option String :=
  match msg.play.bind AudioPlay.pack with
  | some pack => if pack ≠ "" then some pack else msg.pack.map SetAudioPack.dftPack
  | none => msg.pack.map SetAudioPack.dftPack

/-- The pack selected last by the messages. -/
def selected (msgs : List AudioSetting) : Option String :=
  (msgs.filterMap selects).getLast?

/-- The files with the index of the sound in the sub-directory of the pack. -/
def filesOf (pack : String) (id : ℤ) : List VoiceFile :=
  (c.aMaps.filter fun map => map.subDir = pack).flatMap fun map => voiceFiles c map id

/-- The last of the messages plays the files of the pack selected last. -/
def PlaysSelected (past : List AudioSetting) (msg : AudioSetting) : Prop :=
  (audioOperate c (run (audioOperate c) "" past).1 msg).2 =
    match msg.play with
    | some p => filesOf c ((selected (past ++ [msg])).getD c.voicePack) p.soundId
    | none => []

/-- The pack has the sound. -/
def HasSound (pack : String) (id : ℤ) : Prop :=
  ∃ map ∈ c.aMaps, map.subDir = pack ∧ ∃ v ∈ map.voice, v.idx = id

/-- Of the pack selected last and the one of the configuration, neither has the sound, unless
they are one and the same. A pack without a name has no sound. -/
structure SameSounds (pack : String) (id : ℤ) : Prop where
  other : pack ≠ c.voicePack → ¬HasSound c pack id ∧ (c.voicePack ≠ "" → ¬HasSound c c.voicePack id)
  unnamed : pack = c.voicePack → pack = "" → ¬HasSound c pack id

variable {c}

/-! ## The search -/

theorem map_path_searchPack (id : ℤ) :
    (searchPack c c.voicePack id).map VoiceFile.path = c.parsePlay id := by
  unfold searchPack AudioConfig.parsePlay
  rw [List.map_flatMap]
  congr 1
  ext1 map
  split_ifs
  · rfl
  · rfl
  · rw [voiceFiles, List.map_map]
    rfl

theorem searchPack_eq (pack : String) (id : ℤ) :
    searchPack c pack id = if pack = "" then [] else filesOf c pack id := by
  unfold searchPack filesOf
  induction c.aMaps with
  | nil => simp
  | cons map maps ih =>
    rw [List.flatMap_cons, ih, List.filter_cons]
    by_cases hdir : map.subDir = pack
    · by_cases hpack : pack = "" <;> simp [hdir, hpack]
    · simp [hdir]

theorem mem_filesOf {pack : String} {id : ℤ} {f : VoiceFile} :
    f ∈ filesOf c pack id ↔ ∃ map ∈ c.aMaps, map.subDir = pack ∧ ∃ v ∈ map.voice, v.idx = id ∧
      f = ⟨c.audioPath, pack, v.name⟩ := by
  simp only [filesOf, voiceFiles, List.mem_flatMap, List.mem_filter, List.mem_map,
    decide_eq_true_eq]
  constructor
  · rintro ⟨map, ⟨hmap, rfl⟩, v, ⟨hv, hidx⟩, rfl⟩
    exact ⟨map, hmap, rfl, v, hv, hidx, rfl⟩
  · rintro ⟨map, hmap, rfl, v, hv, hidx, rfl⟩
    exact ⟨map, ⟨hmap, rfl⟩, v, ⟨hv, hidx⟩, rfl⟩

theorem filesOf_eq_nil {pack : String} {id : ℤ} : filesOf c pack id = [] ↔ ¬HasSound c pack id := by
  rw [List.eq_nil_iff_forall_not_mem]
  constructor
  · rintro hnone ⟨map, hmap, hdir, v, hv, hidx⟩
    exact hnone _ (mem_filesOf.2 ⟨map, hmap, hdir, v, hv, hidx, rfl⟩)
  · intro hno f hf
    obtain ⟨map, hmap, hdir, v, hv, hidx, -⟩ := mem_filesOf.1 hf
    exact hno ⟨map, hmap, hdir, v, hv, hidx⟩

/-- Two packs have the same files only if they have none. -/
theorem filesOf_eq_filesOf {pack pack' : String} (hne : pack ≠ pack') {id : ℤ} :
    filesOf c pack id = filesOf c pack' id ↔ ¬HasSound c pack' id ∧ ¬HasSound c pack id := by
  rw [← filesOf_eq_nil, ← filesOf_eq_nil]
  constructor
  · intro heq
    have hnone : filesOf c pack id = [] := by
      rw [List.eq_nil_iff_forall_not_mem]
      intro f hf
      obtain ⟨-, -, -, v, -, -, hv⟩ := mem_filesOf.1 hf
      obtain ⟨-, -, -, w, -, -, hw⟩ := mem_filesOf.1 (heq ▸ hf)
      exact hne (congrArg VoiceFile.subDir (hv.symm.trans hw))
    exact ⟨heq ▸ hnone, hnone⟩
  · rintro ⟨hpack', hpack⟩
    rw [hpack, hpack']

theorem searchPack_eq_filesOf_iff {pack : String} {id : ℤ} :
    searchPack c c.voicePack id = filesOf c pack id ↔ SameSounds c pack id := by
  rw [searchPack_eq]
  by_cases hsame : pack = c.voicePack
  · subst hsame
    by_cases hempty : c.voicePack = ""
    · rw [if_pos hempty, eq_comm, filesOf_eq_nil]
      exact ⟨fun hno => ⟨fun h => absurd rfl h, fun _ _ => hno⟩, fun h => h.unnamed rfl hempty⟩
    · rw [if_neg hempty]
      exact iff_of_true rfl ⟨fun h => absurd rfl h, fun _ h => absurd h hempty⟩
  · have hother : SameSounds c pack id ↔
        ¬HasSound c pack id ∧ (c.voicePack ≠ "" → ¬HasSound c c.voicePack id) :=
      ⟨fun h => h.other hsame, fun h => ⟨fun _ => h, fun heq => absurd heq hsame⟩⟩
    rw [hother]
    split_ifs with hempty
    · rw [eq_comm, filesOf_eq_nil]
      simp [hempty]
    · rw [filesOf_eq_filesOf (Ne.symm hsame)]
      simp [hempty]

/-! ## Runs -/

/-- For every configuration and every sequence of messages, every message plays the files of
the pack selected last exactly when the condition on the packs is met at every message that
plays a sound. -/
theorem packs_iff (c : AudioConfig) (msgs : List AudioSetting) :
    (∀ past msg rest, msgs = past ++ msg :: rest → PlaysSelected c past msg) ↔
      ∀ past msg rest p, msgs = past ++ msg :: rest → msg.play = some p →
        SameSounds c ((selected (past ++ [msg])).getD c.voicePack) p.soundId := by
  refine forall_congr' fun past => forall_congr' fun msg => forall_congr' fun rest => ?_
  rw [forall_comm]
  refine forall_congr' fun _ => ?_
  obtain ⟨play, vol, pack⟩ := msg
  cases play with
  | none => simp [PlaysSelected, audioOperate]
  | some p =>
    simp only [PlaysSelected, audioOperate, parsePlay, searchPack_eq_filesOf_iff, Option.some.injEq,
      forall_eq']

/-- The packs "beep" and "en", each with one sound. -/
def twoPacks : AudioConfig :=
  { voicePack := "beep", aMaps := [⟨"beep", [⟨"1.wav", 1⟩]⟩, ⟨"en", [⟨"2.wav", 1⟩]⟩] }

/-- "en" is selected, and "beep" is played. -/
theorem not_packs :
    ¬∀ (c : AudioConfig) (past : List AudioSetting) (msg : AudioSetting),
      PlaysSelected c past msg := by
  intro h
  have hplays := h twoPacks [{ pack := some { dftPack := "en" } }] { play := some { soundId := 1 } }
  have hname := congrArg (List.map VoiceFile.subDir) hplays
  revert hname
  decide

end AudioPack

end Mastiff.Soc
