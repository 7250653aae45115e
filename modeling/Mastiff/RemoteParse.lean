import Mathlib.Algebra.Group.Int.Defs
import Mathlib.Algebra.Group.Nat.Defs

/-!
# Requests from the web page

`DeformatNgxMsg` (`cambrian/visualize/remote_parse.cc`) parses what the websocket has received
into a `FringeTransferMsg`, and hands the variant that it holds to a function that makes the
request of it. Serialization and parsing are a parameter. An enumeration of proto3 is a number,
and a float its bits ; the contents of the variants that are not requests are a parameter, too.

`keeps_iff` : a request keeps its type and content exactly when it is no query of locations,
and sets no field that its copier leaves out : the map of a grid map query, all of a motion
control but type and direction, and all of a slam control.
-/

set_option linter.unusedSectionVars false

namespace Mastiff.Web

/-! ## Messages -/

structure QueryChassisRaw where
  chsRaw : ℤ := 0
  deriving DecidableEq

structure QueryCoverTrack where
  pId : ℤ := 0
  head : ℤ := 0
  tail : ℤ := 0
  deriving DecidableEq

structure QueryGridMap where
  mapId : ℤ := 0
  deriving DecidableEq

/-- `mzp` is none if the message has none. -/
structure MissionCommand (ζ : Type) where
  cmd : ℤ := 0
  key : ℤ := 0
  user : ℤ := 0
  mode : ℤ := 0
  mzp : Option (List ζ) := none
  deriving DecidableEq

structure MotionCtrl where
  type : ℤ := 0
  direction : ℤ := 0
  speedLeft : BitVec 32 := 0
  speedRight : BitVec 32 := 0
  distanceM : BitVec 32 := 0
  deltaTheta : BitVec 32 := 0
  targetTheta : BitVec 32 := 0
  isNeedAck : Bool := false
  deriving DecidableEq

structure DriveSlam where
  slamBs : ℤ := 0
  ctrl : ℤ := 0
  mapId : ℕ := 0
  isFromDock : Bool := false
  deriving DecidableEq

variable {ω π ζ : Type}

/-- The oneof of a `FringeTransferMsg`. -/
inductive FringeMsg (π ζ : Type)
  | qSys
  | aSys (content : π)
  | qPpi (content : π)
  | qVli
  | aVli (content : π)
  | qChsr (content : QueryChassisRaw)
  | aChsr (content : π)
  | qMs
  | aMs (content : π)
  | qCt (content : QueryCoverTrack)
  | aCt (content : π)
  | qGm (content : QueryGridMap)
  | aGm (content : π)
  | qMaps
  | aMaps (content : π)
  | qMid
  | aMid (content : π)
  | qAm
  | aAm (content : π)
  | qZ
  | aMzp (content : π)
  | qLoc
  | aLoc (content : π)
  | command (content : MissionCommand ζ)
  | missionStat (content : π)
  | finishInfo (content : π)
  | mc (content : MotionCtrl)
  | mcResult (content : π)
  | ds (content : DriveSlam)
  | aDs (content : π)
  | notSet
  deriving DecidableEq

structure FringeTransferMsg (π ζ : Type) where
  msgCnt : ℤ := 0
  fringeMsg : FringeMsg π ζ := .notSet
  deriving DecidableEq

/-- The types of the messages that `DeformatNgxMsg` can return. -/
inductive Request (ζ : Type)
  | querySystemInfo
  | queryVolatileInfo
  | queryChassisRaw (msg : QueryChassisRaw)
  | queryModeStatus
  | queryCoverTrack (msg : QueryCoverTrack)
  | queryLocArray
  | queryGridMap (msg : QueryGridMap)
  | queryMapStorage
  | queryMapID
  | queryAppointment
  | queryZones
  | missionCommand (msg : MissionCommand ζ)
  | motionCtrl (msg : MotionCtrl)
  | driveSlam (msg : DriveSlam)
  deriving DecidableEq

/-- Serialization and parsing of a `FringeTransferMsg`, with the number of bytes. -/
structure FringeCodec (ω π ζ : Type) where
  serialize : FringeTransferMsg π ζ → ω
  parse : ω → FringeTransferMsg π ζ
  size : ω → ℕ
  parse_serialize : ∀ msg, parse (serialize msg) = msg

/-! ## Accessors -/

/-- `FringeMsgCase` -/
inductive FringeMsgCase
  | kQSys
  | kASys
  | kQPpi
  | kQVli
  | kAVli
  | kQChsr
  | kAChsr
  | kQMs
  | kAMs
  | kQCt
  | kACt
  | kQGm
  | kAGm
  | kQMaps
  | kAMaps
  | kQMid
  | kAMid
  | kQAm
  | kAAm
  | kQZ
  | kAMzp
  | kQLoc
  | kALoc
  | kCommand
  | kMissionStat
  | kFinishInfo
  | kMc
  | kMcResult
  | kDs
  | kADs
  | notSet
  deriving DecidableEq

namespace FringeMsg

/-- `FringeMsg_case`. `has_q_sys` tests it for `kQSys`, and so on. -/
def case : FringeMsg π ζ → FringeMsgCase
  | .qSys => .kQSys
  | .aSys _ => .kASys
  | .qPpi _ => .kQPpi
  | .qVli => .kQVli
  | .aVli _ => .kAVli
  | .qChsr _ => .kQChsr
  | .aChsr _ => .kAChsr
  | .qMs => .kQMs
  | .aMs _ => .kAMs
  | .qCt _ => .kQCt
  | .aCt _ => .kACt
  | .qGm _ => .kQGm
  | .aGm _ => .kAGm
  | .qMaps => .kQMaps
  | .aMaps _ => .kAMaps
  | .qMid => .kQMid
  | .aMid _ => .kAMid
  | .qAm => .kQAm
  | .aAm _ => .kAAm
  | .qZ => .kQZ
  | .aMzp _ => .kAMzp
  | .qLoc => .kQLoc
  | .aLoc _ => .kALoc
  | .command _ => .kCommand
  | .missionStat _ => .kMissionStat
  | .finishInfo _ => .kFinishInfo
  | .mc _ => .kMc
  | .mcResult _ => .kMcResult
  | .ds _ => .kDs
  | .aDs _ => .kADs
  | .notSet => .notSet

/-- `mutable_q_chsr`. Like the others it gives a new message if the oneof holds another one. -/
def mutableQChsr : FringeMsg π ζ → QueryChassisRaw
  | .qChsr content => content
  | _ => {}

/-- `mutable_q_ct` -/
def mutableQCt : FringeMsg π ζ → QueryCoverTrack
  | .qCt content => content
  | _ => {}

/-- `mutable_command` -/
def mutableCommand : FringeMsg π ζ → MissionCommand ζ
  | .command content => content
  | _ => {}

/-- `mutable_mc` -/
def mutableMc : FringeMsg π ζ → MotionCtrl
  | .mc content => content
  | _ => {}

/-- `mutable_ds` -/
def mutableDs : FringeMsg π ζ → DriveSlam
  | .ds content => content
  | _ => {}

end FringeMsg

/-! ## Requests -/

namespace RemoteParser

/-- `DoMissionCommand` -/
def doMissionCommand (msg : MissionCommand ζ) : Option (Request ζ) :=
  some (.missionCommand msg)

/-- `DoMotionCtrl`. Here and below a message of another type is cast to a null pointer. -/
def doMotionCtrl : Request ζ → Option (Request ζ)
  | .motionCtrl msg => some (.motionCtrl { type := msg.type, direction := msg.direction })
  | _ => some (.motionCtrl {})

/-- `DoDriveSlam`, which copies nothing. -/
def doDriveSlam (_msg : Request ζ) : Option (Request ζ) :=
  some (.driveSlam {})

/-- `DoQueryChassisRaw` -/
def doQueryChassisRaw : Request ζ → Option (Request ζ)
  | .queryChassisRaw msg => some (.queryChassisRaw { chsRaw := msg.chsRaw })
  | _ => some (.queryChassisRaw {})

/-- `DoQueryCoverTrack` -/
def doQueryCoverTrack : Request ζ → Option (Request ζ)
  | .queryCoverTrack msg =>
    some (.queryCoverTrack { pId := msg.pId, head := msg.head, tail := msg.tail })
  | _ => none

/-- `DoQueryLocArray`, which makes a query of a track. -/
def doQueryLocArray : Request ζ → Option (Request ζ)
  | .queryLocArray => some (.queryCoverTrack {})
  | _ => none

/-- `DoQueryGridMap` -/
def doQueryGridMap : Request ζ → Option (Request ζ)
  | .queryGridMap msg => some (.queryGridMap { mapId := msg.mapId })
  | _ => some (.queryGridMap {})

/-- The chain of tests of `DeformatNgxMsg`. The tests that are left out choose what is logged. -/
def request (msg : FringeMsg π ζ) : Option (Request ζ) :=
  if msg.case = .kQSys then some .querySystemInfo
  else if msg.case = .kQVli then some .queryVolatileInfo
  else if msg.case = .kQChsr then doQueryChassisRaw (.queryChassisRaw msg.mutableQChsr)
  else if msg.case = .kQMs then some .queryModeStatus
  else if msg.case = .kQCt then doQueryCoverTrack (.queryCoverTrack msg.mutableQCt)
  -- the test for a query of locations is that for a query of a track
  else if msg.case = .kQCt then doQueryLocArray .queryLocArray
  -- `mutable_q_mid` makes a query of a map id of the query of a grid map
  else if msg.case = .kQGm then doQueryGridMap .queryMapID
  else if msg.case = .kQMaps then some .queryMapStorage
  else if msg.case = .kQMid then some .queryMapID
  else if msg.case = .kQAm then some .queryAppointment
  else if msg.case = .kQZ then some .queryZones
  else if msg.case = .kCommand then doMissionCommand msg.mutableCommand
  -- `DoAppointmentTask` is called, and its result not returned
  else if msg.case = .kAAm then none
  else if msg.case = .kMc then doMotionCtrl (.motionCtrl msg.mutableMc)
  else if msg.case = .kDs then doDriveSlam (.driveSlam msg.mutableDs)
  else none

end RemoteParser

/-- The members of `RemoteParser` that `DeformatNgxMsg` counts in, of 32 and 64 bits. -/
structure RemoteParser where
  dsMsgCnt : ℕ := 0
  dsMsgBytes : ℕ := 0
  deriving DecidableEq

namespace RemoteParser

/-- `DeformatNgxMsg` -/
def deformatNgxMsg (codec : FringeCodec ω π ζ) (s : RemoteParser) (str : ω) :
    RemoteParser × Option (Request ζ) :=
  let msg := codec.parse str
  let dsMsgCnt :=
    if msg.msgCnt ≤ 1 then (s.dsMsgCnt + 1) % 2 ^ 32 else msg.msgCnt.toNat % 2 ^ 32
  let dsMsgBytes := (s.dsMsgBytes + codec.size str) % 2 ^ 64
  (⟨dsMsgCnt, dsMsgBytes⟩, request msg.fringeMsg)

/-! ## Type and content -/

/-- The content of a variant that is a request. -/
def content : FringeMsg π ζ → Option (Request ζ)
  | .qSys => some .querySystemInfo
  | .qVli => some .queryVolatileInfo
  | .qChsr msg => some (.queryChassisRaw msg)
  | .qMs => some .queryModeStatus
  | .qCt msg => some (.queryCoverTrack msg)
  | .qLoc => some .queryLocArray
  | .qGm msg => some (.queryGridMap msg)
  | .qMaps => some .queryMapStorage
  | .qMid => some .queryMapID
  | .qAm => some .queryAppointment
  | .qZ => some .queryZones
  | .command msg => some (.missionCommand msg)
  | .mc msg => some (.motionCtrl msg)
  | .ds msg => some (.driveSlam msg)
  | _ => none

/-- `DeformatNgxMsg` returns the request that was serialized, and a null pointer for what is
no request. -/
def Keeps (codec : FringeCodec ω π ζ) (s : RemoteParser) (msg : FringeTransferMsg π ζ) : Prop :=
  (deformatNgxMsg codec s (codec.serialize msg)).2 = content msg.fringeMsg

/-- The message is no query of locations, and only the fields that are copied are set. -/
def OnlyCopied : FringeMsg π ζ → Prop
  | .qLoc => False
  | .qGm msg => msg.mapId = 0
  | .mc msg => msg = { type := msg.type, direction := msg.direction }
  | .ds msg => msg = {}
  | _ => True

theorem request_eq_content_iff (msg : FringeMsg π ζ) :
    request msg = content msg ↔ OnlyCopied msg := by
  cases msg with
  | qGm msg =>
    obtain ⟨mapId⟩ := msg
    simp [request, FringeMsg.case, content, OnlyCopied, doQueryGridMap, eq_comm]
  | mc msg =>
    simp [request, FringeMsg.case, content, OnlyCopied, doMotionCtrl, FringeMsg.mutableMc, eq_comm]
  | ds msg => simp [request, FringeMsg.case, content, OnlyCopied, doDriveSlam, eq_comm]
  | qLoc => simp [request, FringeMsg.case, content, OnlyCopied]
  | _ => exact iff_of_true rfl trivial

/-- For every message, and whatever was received before, a remote request keeps its type and
content exactly when only the fields that are copied are set. -/
theorem keeps_iff (codec : FringeCodec ω π ζ) (s : RemoteParser) (msg : FringeTransferMsg π ζ) :
    Keeps codec s msg ↔ OnlyCopied msg.fringeMsg := by
  unfold Keeps deformatNgxMsg
  rw [codec.parse_serialize]
  exact request_eq_content_iff msg.fringeMsg

/-- A message that is sent as it is. -/
def plainCodec : FringeCodec (FringeTransferMsg Unit Unit) Unit Unit :=
  ⟨id, id, fun _ => 0, fun _ => rfl⟩

/-- A query of locations gives a null pointer. -/
theorem not_keeps :
    ¬∀ (codec : FringeCodec (FringeTransferMsg Unit Unit) Unit Unit) (s : RemoteParser)
      (msg : FringeTransferMsg Unit Unit), Keeps codec s msg := by
  intro h
  have hkeeps := h plainCodec {} { fringeMsg := .qLoc }
  cases hkeeps

end RemoteParser

end Mastiff.Web
