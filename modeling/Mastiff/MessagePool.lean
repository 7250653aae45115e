import Mastiff.Lib.Lookup
import Mastiff.Lib.Machine

/-!
# The message pool

`MessagePool` (`cambrian/brain/message_pool.{h,cc}`, over `data_feedback.cc`) stores the
latest messages of eight types. `EnqueueMessage` looks for words in the type's name, casts
the message to the type of the word and stores it ; `DequeueMessage` and
`FeedbkChassisMisc` hand out the slots.

`delivered_iff` : over every sequence of messages to a new pool, each is delivered to the
slot of its type, and to no other, exactly when each is one of the few the pool `Serves`.
-/

set_option linter.unusedSectionVars false

namespace Mastiff.Brain

open Lookup Memory Machine

/-- The types that are enqueued. -/
inductive MessageType
  | occupancyGrid
  | poseStamped
  | odometry
  | pointCloud
  | pointCloud2
  | imu
  | image
  | chassisMiscInfo
  deriving DecidableEq

/-- `GetMessageName`. -/
def MessageType.name : MessageType → String
  | .occupancyGrid => "ventura.common_msgs.nav_msgs.OccupancyGrid"
  | .poseStamped => "ventura.common_msgs.geometry_msgs.PoseStamped"
  | .odometry => "ventura.common_msgs.nav_msgs.Odometry"
  | .pointCloud => "ventura.common_msgs.sensor_msgs.PointCloud"
  | .pointCloud2 => "ventura.common_msgs.sensor_msgs.PointCloud2"
  | .imu => "ventura.common_msgs.sensor_msgs.Imu"
  | .image => "ventura.common_msgs.sensor_msgs.Image"
  | .chassisMiscInfo => "mstf.chss.proto.ChassisMiscInfo"

/-- How a call ends if it does not return : a null pointer is used, or an empty function is
called, which throws. -/
inductive PoolFault
  | nullPointer
  | badFunctionCall
  deriving DecidableEq

/-- The contents of the messages of each type, the default one of each being that of a new
message. -/
class Payload (P : MessageType → Type) where
  default : ∀ t, P t

variable {P : MessageType → Type} [Payload P]

/-- `ChassisRawData`. -/
structure ChassisRawData (P : MessageType → Type) where
  dOdom : P .odometry
  dPcl : P .pointCloud
  dImu : P .imu
  dImg : P .image
  dLlsr : P .pointCloud2

/-- The pool, with `none` for a null pointer. The constructor creates `grid_map_`,
`rt_pose_`, `robot_path_` and `chss_misc_`, and others that no member uses ; `hooked` says
whether an implementor hook is registered. -/
structure MessagePool (P : MessageType → Type) where
  gridMap : Option (P .occupancyGrid)
  rtPose : Option (P .poseStamped)
  robotPath : Option (List (P .poseStamped))
  chsRaw : Option (ChassisRawData P) := none
  chssMisc : Option (P .chassisMiscInfo)
  hooked : Bool

namespace MessagePool

/-- The constructor. -/
def new (P : MessageType → Type) [Payload P] (hooked : Bool) : MessagePool P where
  gridMap := some (Payload.default _)
  rtPose := some (Payload.default _)
  robotPath := some []
  chssMisc := some (Payload.default _)
  hooked := hooked

/-- The pointee. -/
def deref {α : Type} : Option α → Except PoolFault α
  | none => .error .nullPointer
  | some a => .ok a

/-- `KickImplementorHook`. -/
def kickImplementorHook (pool : MessagePool P) : Except PoolFault (MessagePool P × ℤ) :=
  if pool.hooked then .ok (pool, 0) else .error .badFunctionCall

/-- The overloads of `_EnqueueMessage` that store a field of the raw data. -/
def enqueueRaw {α : Type} (pool : MessagePool P) (msg : Option α)
    (store : ChassisRawData P → α → ChassisRawData P) : Except PoolFault (MessagePool P × ℤ) := do
  let m ← deref msg
  let raw ← deref pool.chsRaw
  return ({ pool with chsRaw := some (store raw m) }, 0)

/-- `_EnqueueMessage`, one overload for each type. -/
def enqueue (pool : MessagePool P) :
    (t : MessageType) → Option (P t) → Except PoolFault (MessagePool P × ℤ)
  | .occupancyGrid, msg => do
    let m ← deref msg
    let _ ← deref pool.gridMap
    return ({ pool with gridMap := some m }, 0)
  | .poseStamped, msg => do
    let m ← deref msg
    let path ← deref pool.robotPath
    return ({ pool with robotPath := some (path ++ [m]) }, 0)
  | .odometry, msg => pool.enqueueRaw msg fun raw m => { raw with dOdom := m }
  | .pointCloud, msg => pool.enqueueRaw msg fun raw m => { raw with dPcl := m }
  | .imu, msg => pool.enqueueRaw msg fun raw m => { raw with dImu := m }
  | .image, msg => pool.enqueueRaw msg fun raw m => { raw with dImg := m }
  | .pointCloud2, msg => pool.enqueueRaw msg fun raw m => { raw with dLlsr := m }
  | .chassisMiscInfo, msg => do
    let m ← deref msg
    let _ ← deref pool.chssMisc
    kickImplementorHook { pool with chssMisc := some m }

/-- The words `EnqueueMessage` looks for, in its order, with the type each stands for. -/
def words : List (String × MessageType) :=
  [("OccupancyGrid", .occupancyGrid), ("PoseStamped", .poseStamped), ("Odometry", .odometry),
    ("PointCloud", .pointCloud), ("Imu", .imu), ("Image", .image), ("PointCloud2", .pointCloud2),
    ("ChassisMiscInfo", .chassisMiscInfo)]

/-- `std::dynamic_pointer_cast`, null for another type. -/
def cast {t : MessageType} (t' : MessageType) (msg : P t) : Option (P t') :=
  if h : t = t' then some (h ▸ msg) else none

/-- A message that is not null, of its type. -/
abbrev Message (P : MessageType → Type) :=
  (t : MessageType) × P t

/-- `EnqueueMessage`. -/
def enqueueMessage (pool : MessagePool P) (msg : Message P) :
    Except PoolFault (MessagePool P × ℤ) :=
  match words.find? fun w => finds msg.1.name w.1 with
  | some w => pool.enqueue w.2 (cast w.2 msg.2)
  | none => .ok (pool, -1)

/-- What `DequeueMessage` returns. -/
inductive Exposed (P : MessageType → Type)
  | gridMap (g : Option (P .occupancyGrid))
  | rtPose (p : Option (P .poseStamped))
  | chsRaw (r : Option (ChassisRawData P))
  | unsupported

/-- `DequeueMessage`, of a type with the name `name`. -/
def dequeueMessage (pool : MessagePool P) (name : String) : Exposed P :=
  if finds name "OccupancyGrid" then .gridMap pool.gridMap
  else if finds name "PoseStamped" then .rtPose pool.rtPose
  else if finds name "ChassisRawData" then .chsRaw pool.chsRaw
  else .unsupported

/-- The field of the raw data that `DequeueMessage<ChassisRawData>` exposes. -/
def rawField {α : Type} (pool : MessagePool P) (field : ChassisRawData P → α) : Option α :=
  match pool.dequeueMessage "mstf.camb.proto.ChassisRawData" with
  | .chsRaw r => r.map field
  | _ => none

/-- The slot of a type, as it is exposed. -/
def slot (pool : MessagePool P) : (t : MessageType) → Option (P t)
  | .occupancyGrid =>
    match pool.dequeueMessage MessageType.occupancyGrid.name with
    | .gridMap g => g
    | _ => none
  | .poseStamped =>
    match pool.dequeueMessage MessageType.poseStamped.name with
    | .rtPose p => p
    | _ => none
  | .odometry => pool.rawField ChassisRawData.dOdom
  | .pointCloud => pool.rawField ChassisRawData.dPcl
  | .pointCloud2 => pool.rawField ChassisRawData.dLlsr
  | .imu => pool.rawField ChassisRawData.dImu
  | .image => pool.rawField ChassisRawData.dImg
  | .chassisMiscInfo => pool.chssMisc

/-- The message is stored in the slot of its type, and the other slots are unchanged. -/
def Delivered (pool : MessagePool P) (msg : Message P) : Prop :=
  ∃ pool', pool.enqueueMessage msg = .ok (pool', 0) ∧ pool'.slot msg.1 = some msg.2 ∧
    ∀ t, t ≠ msg.1 → pool'.slot t = pool.slot t

/-- The messages that a pool delivers : grid maps, the chassis' own if there is a hook, and
poses that are still the default one. -/
def Serves (hooked : Bool) : Message P → Prop
  | ⟨.occupancyGrid, _⟩ => True
  | ⟨.poseStamped, p⟩ => p = Payload.default _
  | ⟨.chassisMiscInfo, _⟩ => hooked = true
  | _ => False

/-! ## The slots -/

variable (pool : MessagePool P)

theorem slot_occupancyGrid : pool.slot .occupancyGrid = pool.gridMap := by
  have hname : finds MessageType.occupancyGrid.name "OccupancyGrid" = true := by decide +kernel
  rw [slot, dequeueMessage, if_pos hname]

theorem slot_poseStamped : pool.slot .poseStamped = pool.rtPose := by
  have hgrid : finds MessageType.poseStamped.name "OccupancyGrid" = false := by decide +kernel
  have hname : finds MessageType.poseStamped.name "PoseStamped" = true := by decide +kernel
  rw [slot, dequeueMessage, hgrid, hname]
  rfl

theorem rawField_eq {α : Type} (field : ChassisRawData P → α) :
    pool.rawField field = pool.chsRaw.map field := by
  have hgrid : finds "mstf.camb.proto.ChassisRawData" "OccupancyGrid" = false := by decide +kernel
  have hpose : finds "mstf.camb.proto.ChassisRawData" "PoseStamped" = false := by decide +kernel
  have hname : finds "mstf.camb.proto.ChassisRawData" "ChassisRawData" = true := by decide +kernel
  rw [rawField, dequeueMessage, hgrid, hpose, hname]
  rfl

/-- A slot is unchanged if the member behind it is. -/
theorem slot_congr {pool pool' : MessagePool P} (t : MessageType)
    (hgrid : t = .occupancyGrid → pool'.gridMap = pool.gridMap)
    (hpose : pool'.rtPose = pool.rtPose) (hraw : pool'.chsRaw = pool.chsRaw)
    (hmisc : t = .chassisMiscInfo → pool'.chssMisc = pool.chssMisc) :
    pool'.slot t = pool.slot t := by
  cases t with
  | occupancyGrid => rw [slot_occupancyGrid, slot_occupancyGrid, hgrid rfl]
  | poseStamped => rw [slot_poseStamped, slot_poseStamped, hpose]
  | odometry | pointCloud | pointCloud2 | imu | image =>
    simp only [slot, rawField_eq, hraw]
  | chassisMiscInfo => exact hmisc rfl

/-! ## One message -/

theorem cast_self {t : MessageType} (p : P t) : cast t p = some p :=
  dif_pos rfl

/-- Every type but one goes to its own overload. -/
theorem enqueueMessage_of_ne {t : MessageType} (ht : t ≠ .pointCloud2) (p : P t) :
    pool.enqueueMessage ⟨t, p⟩ = pool.enqueue t (some p) := by
  have hword : ∃ w, (words.find? fun x => finds t.name x.1) = some (w, t) := by
    cases t with
    | pointCloud2 => exact absurd rfl ht
    | occupancyGrid => exact ⟨"OccupancyGrid", by decide +kernel⟩
    | poseStamped => exact ⟨"PoseStamped", by decide +kernel⟩
    | odometry => exact ⟨"Odometry", by decide +kernel⟩
    | pointCloud => exact ⟨"PointCloud", by decide +kernel⟩
    | imu => exact ⟨"Imu", by decide +kernel⟩
    | image => exact ⟨"Image", by decide +kernel⟩
    | chassisMiscInfo => exact ⟨"ChassisMiscInfo", by decide +kernel⟩
  obtain ⟨w, hw⟩ := hword
  rw [enqueueMessage, hw]
  dsimp only
  rw [cast_self]

/-- A point cloud of the second kind is taken for one of the first, which it is not. -/
theorem enqueueMessage_pointCloud2 (p : P .pointCloud2) :
    pool.enqueueMessage ⟨.pointCloud2, p⟩ = pool.enqueue .pointCloud none := by
  have hw : (words.find? fun x => finds MessageType.pointCloud2.name x.1) =
      some ("PointCloud", .pointCloud) := by decide +kernel
  rw [enqueueMessage, hw]
  dsimp only
  rw [cast, dif_neg (by decide +kernel)]

/-- A pool whose slots are there, but for the raw data, and that has delivered no pose. -/
structure Fresh (hooked : Bool) (pool : MessagePool P) : Prop where
  gridMap : pool.gridMap.isSome = true
  rtPose : pool.rtPose = some (Payload.default _)
  robotPath : pool.robotPath.isSome = true
  chsRaw : pool.chsRaw = none
  chssMisc : pool.chssMisc.isSome = true
  hooked : pool.hooked = hooked

theorem fresh_new (hooked : Bool) : Fresh hooked (new P hooked) :=
  ⟨rfl, rfl, rfl, rfl, rfl, rfl⟩

variable {pool} {hooked : Bool}

/-- Without the raw data, storing a field of it uses a null pointer. -/
theorem enqueueRaw_of_none {α : Type} (hraw : pool.chsRaw = none) (msg : Option α)
    (store : ChassisRawData P → α → ChassisRawData P) :
    pool.enqueueRaw msg store = .error .nullPointer := by
  rw [enqueueRaw, hraw]
  cases msg <;> rfl

/-- A message that uses a null pointer is not delivered. -/
theorem not_delivered_of_error {msg : Message P} {e : PoolFault}
    (he : pool.enqueueMessage msg = .error e) : ¬pool.Delivered msg := by
  rintro ⟨pool', hok, -⟩
  rw [he] at hok
  cases hok

/-- What a message leaves of a fresh pool. -/
theorem Fresh.enqueueMessage_cases (h : Fresh hooked pool) (msg : Message P) :
    (∃ pool', pool.enqueueMessage msg = .ok (pool', 0) ∧ Fresh hooked pool' ∧
      (∀ t, t ≠ msg.1 → pool'.slot t = pool.slot t) ∧
      (pool'.slot msg.1 = some msg.2 ↔ Serves hooked msg)) ∨
    (∃ e, pool.enqueueMessage msg = .error e) ∧ ¬Serves hooked msg := by
  obtain ⟨t, p⟩ := msg
  cases t with
  | occupancyGrid =>
    obtain ⟨g, hg⟩ := Option.isSome_iff_exists.1 h.gridMap
    refine .inl ⟨{ pool with gridMap := some p }, ?_, ?_, fun t ht => ?_, ?_⟩
    · rw [enqueueMessage_of_ne _ (by simp), enqueue, hg]
      rfl
    · exact ⟨rfl, h.rtPose, h.robotPath, h.chsRaw, h.chssMisc, h.hooked⟩
    · exact slot_congr t (fun heq => absurd heq ht) rfl rfl fun _ => rfl
    · rw [slot_occupancyGrid]
      exact iff_of_true rfl trivial
  | poseStamped =>
    obtain ⟨path, hpath⟩ := Option.isSome_iff_exists.1 h.robotPath
    refine .inl ⟨{ pool with robotPath := some (path ++ [p]) }, ?_, ?_, fun t ht => ?_, ?_⟩
    · rw [enqueueMessage_of_ne _ (by simp), enqueue, hpath]
      rfl
    · exact ⟨h.gridMap, h.rtPose, rfl, h.chsRaw, h.chssMisc, h.hooked⟩
    · exact slot_congr t (fun _ => rfl) rfl rfl fun _ => rfl
    · rw [slot_poseStamped]
      change pool.rtPose = some p ↔ p = Payload.default _
      rw [h.rtPose, Option.some.injEq, eq_comm]
  | odometry | pointCloud | imu | image =>
    refine .inr ⟨⟨.nullPointer, ?_⟩, id⟩
    rw [enqueueMessage_of_ne _ (by simp)]
    exact enqueueRaw_of_none h.chsRaw _ _
  | pointCloud2 =>
    refine .inr ⟨⟨.nullPointer, ?_⟩, id⟩
    rw [enqueueMessage_pointCloud2]
    exact enqueueRaw_of_none h.chsRaw _ _
  | chassisMiscInfo =>
    obtain ⟨m, hm⟩ := Option.isSome_iff_exists.1 h.chssMisc
    have hen : pool.enqueueMessage ⟨.chassisMiscInfo, p⟩ =
        kickImplementorHook { pool with chssMisc := some p } := by
      rw [enqueueMessage_of_ne _ (by simp), enqueue, hm]
      rfl
    have hhook := h.hooked
    cases hooked with
    | true =>
      refine .inl ⟨{ pool with chssMisc := some p }, hen.trans (if_pos hhook), ?_,
        fun t ht => ?_, ?_⟩
      · exact ⟨h.gridMap, h.rtPose, h.robotPath, h.chsRaw, rfl, h.hooked⟩
      · exact slot_congr t (fun _ => rfl) rfl rfl fun heq => absurd heq ht
      · exact iff_of_true rfl rfl
    | false =>
      refine .inr ⟨⟨.badFunctionCall, hen.trans (if_neg ?_)⟩, by simp [Serves]⟩
      rw [Bool.not_eq_true]
      exact hhook

/-- A fresh pool delivers the messages it serves. -/
theorem Fresh.delivered_iff_serves (h : Fresh hooked pool) (msg : Message P) :
    pool.Delivered msg ↔ Serves hooked msg := by
  rcases h.enqueueMessage_cases msg with ⟨pool', hok, -, hother, hslot⟩ | ⟨⟨e, he⟩, hno⟩
  · rw [← hslot]
    constructor
    · rintro ⟨pool'', hok', hslot', -⟩
      rw [hok] at hok'
      cases hok'
      exact hslot'
    · intro hslot'
      exact ⟨pool', hok, hslot', hother⟩
  · exact iff_of_false (not_delivered_of_error he) hno

theorem Fresh.of_ok (h : Fresh hooked pool) {msg : Message P} {pool' : MessagePool P} {r : ℤ}
    (hok : pool.enqueueMessage msg = .ok (pool', r)) : Fresh hooked pool' := by
  rcases h.enqueueMessage_cases msg with ⟨pool'', hok', hfresh, -⟩ | ⟨⟨e, he⟩, -⟩
  · rw [hok'] at hok
    cases hok
    exact hfresh
  · rw [he] at hok
    cases hok

/-! ## Runs -/

/-- Over every sequence of messages to a new pool, with or without a hook, each is
delivered exactly when each is one that the pool serves. -/
theorem delivered_iff (hooked : Bool) (msgs : List (Message P)) :
    Along enqueueMessage Delivered (new P hooked) msgs ↔ ∀ msg ∈ msgs, Serves hooked msg := by
  have hfresh := fresh_new (P := P) hooked
  generalize new P hooked = pool at hfresh
  induction msgs generalizing pool with
  | nil => simp [Along]
  | cons msg msgs ih =>
    rw [Along, List.forall_mem_cons, hfresh.delivered_iff_serves]
    refine and_congr_right fun hserves => ?_
    obtain ⟨pool', hok, -⟩ := (hfresh.delivered_iff_serves msg).2 hserves
    refine Iff.trans ?_ (ih pool' (hfresh.of_ok hok))
    constructor
    · intro h
      exact h pool' 0 hok
    · intro h pool'' r hok'
      rw [hok] at hok'
      cases hok'
      exact h

/-- Messages of any type that have no contents but a number. -/
instance : Payload fun _ => ℕ :=
  ⟨fun _ => 0⟩

/-- A lidar's point cloud goes to raw data that is not there. -/
theorem not_delivered :
    ¬∀ (hooked : Bool) (msgs : List (Message fun _ => ℕ)),
      Along enqueueMessage Delivered (new (fun _ => ℕ) hooked) msgs := by
  intro h
  obtain ⟨pool', hok, -⟩ := (h true [⟨.pointCloud, 1⟩]).1
  rw [enqueueMessage_of_ne _ (by simp)] at hok
  cases hok

end MessagePool

end Mastiff.Brain
