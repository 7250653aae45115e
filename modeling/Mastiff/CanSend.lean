import Mastiff.ServoPacker

/-!
# Sending CAN frames

`WriteServoMessage` (`chassis/parser/parse_libs/servo_parser.cc`) writes a list of frames, each
through `WriteCan`, `WritePort` and `can_send_raw`. An empty frame is refused by `WriteCan`,
with the 0 that would be its size, and whatever goes wrong, 0 is returned in the end.

`allSentOrReported_iff` : all frames are handed to `can_send_raw` in order and sent, or another
value than 0 is returned, exactly when there is a device that is open, every frame has 1 to 64
bytes of data, and every write succeeds, unless there are no frames.
-/

open Memory Bytes

namespace Mastiff

/-- A call of `can_send_raw`, and whether its write succeeds. -/
structure CanSend where
  id : ℤ
  data : List Byte
  ok : Bool
  deriving DecidableEq

/-- The frame that is handed to a call. -/
def CanSend.frame (s : CanSend) : ServoFrame :=
  (s.id, s.data)

/-- The `dev_fd_` of `CanData`. -/
structure CanData where
  devFd : ℤ
  deriving DecidableEq

namespace CanData

/-! ## Writing -/

/-- `can_send_raw(id, buf, size)`, `buf` the `size` bytes, after the calls `sends`. `write` tells
whether the write of each call succeeds. -/
def canSendRaw (write : ℕ → Bool) (sends : List CanSend) (id : ℤ) (buf : List Byte) :
    Except Fault (List CanSend × ℤ) := do
  let _ ← copyLoop buf buf.length 0 0 (List.replicate 64 0)
  let ok := write sends.length
  return (sends ++ [⟨id, buf, ok⟩], if ok then 0 else -1)

/-- `WritePort(id, data, size)`. -/
def writePort (c : CanData) (write : ℕ → Bool) (sends : List CanSend) (id : ℤ)
    (data : List Byte) : Except Fault (List CanSend × ℤ) :=
  if c.devFd ≤ 0 then .ok (sends, -1)
  else do
    let r ← canSendRaw write sends id data
    if r.2 ≠ 0 then return (r.1, -1) else return (r.1, data.length)

/-- `WriteCan(si, id, info, len)` : a `size_t` is returned. `can` is the `CanData` that is found
for the indicator. -/
def writeCan (can : Option CanData) (write : ℕ → Bool) (sends : List CanSend) (id : ℤ)
    (info : List Byte) : Except Fault (List CanSend × BitVec 64) :=
  if info.length = 0 then .ok (sends, 0)
  else
    match can with
    | none => .ok (sends, -1)
    | some c => do
      let r ← c.writePort write sends id info
      return (r.1, BitVec.ofInt 64 r.2)

/-- The loop of `WriteServoMessage`, with the calls made and whether an error is logged for each
frame. -/
def writeLoop (can : Option CanData) (write : ℕ → Bool) :
    List ServoFrame → List CanSend → Except Fault (List CanSend × List Bool)
  | [], sends => .ok (sends, [])
  | (id, data) :: rest, sends => do
    let r ← writeCan can write sends id data
    let error := decide (r.2 ≠ BitVec.ofNat 64 data.length)
    let rs ← writeLoop can write rest r.1
    return (rs.1, error :: rs.2)

/-- `WriteServoMessage(data)`, with the calls made, the errors logged and what is returned. -/
def writeServoMessage (can : Option CanData) (write : ℕ → Bool) (data : List ServoFrame) :
    Except Fault (List CanSend × List Bool × ℤ) := do
  let r ← writeLoop can write data []
  return (r.1, r.2, 0)

/-- All frames are handed over in order and sent, and 0 is returned, or another value is. -/
def AllSentOrReported (can : Option CanData) (write : ℕ → Bool) (data : List ServoFrame) : Prop :=
  ∃ sends errors ret, writeServoMessage can write data = .ok (sends, errors, ret) ∧
    (sends.map CanSend.frame = data ∧ (∀ s ∈ sends, s.ok = true) ∧ ret = 0 ∨ ret ≠ 0)

/-- A frame is handed on to `can_send_raw` : it is not empty, and there is a device that is
open. -/
def HandsOn (can : Option CanData) (frame : ServoFrame) : Prop :=
  frame.2 ≠ [] ∧ ∃ c, can = some c ∧ 0 < c.devFd

/-- Every frame is handed on and fits a `canfd_frame`, and every write succeeds. -/
structure Sends (can : Option CanData) (write : ℕ → Bool) (data : List ServoFrame) : Prop where
  handsOn : ∀ frame ∈ data, HandsOn can frame
  fits : ∀ frame ∈ data, frame.2.length ≤ 64
  write : ∀ i < data.length, write i = true

variable {can : Option CanData} {write : ℕ → Bool} {sends sends' : List CanSend} {id : ℤ}
  {data : List Byte}

/-! ## One frame -/

/-- A frame that is handed on is written if it fits. -/
theorem writeCan_of_handsOn (h : HandsOn can (id, data)) (hfits : data.length ≤ 64) :
    ∃ ret, writeCan can write sends id data =
      .ok (sends ++ [⟨id, data, write sends.length⟩], ret) := by
  obtain ⟨hne, c, rfl, hopen⟩ := h
  have hcopy : ∃ r, copyLoop data data.length 0 0 (List.replicate 64 0) = .ok r :=
    ⟨_, copyLoop_eq data _ _ _ _ (by omega) (by rw [List.length_replicate]; omega)⟩
  obtain ⟨r, hr⟩ := hcopy
  rw [writeCan, if_neg (by simpa using hne)]
  simp only [writePort, if_neg (Int.not_le.2 hopen), canSendRaw, hr, ok_bind, pure_eq_ok]
  split_ifs
  all_goals exact ⟨_, rfl⟩

/-- A call that goes through hands on the frame, which fits, or makes no call. -/
theorem writeCan_cases {ret : BitVec 64}
    (h : writeCan can write sends id data = .ok (sends', ret)) :
    (HandsOn can (id, data) ∧ data.length ≤ 64 ∧
      sends' = sends ++ [⟨id, data, write sends.length⟩]) ∨
    (¬HandsOn can (id, data) ∧ sends' = sends) := by
  unfold writeCan at h
  split_ifs at h with hempty
  · refine .inr ⟨fun hands => hands.1 (List.length_eq_zero_iff.1 hempty), ?_⟩
    exact (Prod.mk.inj (Except.ok.inj h)).1.symm
  have hne : data ≠ [] := fun hnil => hempty (List.length_eq_zero_iff.2 hnil)
  cases can with
  | none =>
    refine .inr ⟨?_, (Prod.mk.inj (Except.ok.inj h)).1.symm⟩
    rintro ⟨-, c, hc, -⟩
    cases hc
  | some c =>
    obtain ⟨r, hr, h⟩ := bind_eq_ok.1 h
    obtain ⟨rfl, -⟩ := Prod.mk.inj (Except.ok.inj h)
    rw [writePort] at hr
    split_ifs at hr with hclosed
    · obtain rfl := Except.ok.inj hr
      refine .inr ⟨?_, rfl⟩
      rintro ⟨-, d, hd, hopen⟩
      cases hd
      omega
    · obtain ⟨q, hq, hr⟩ := bind_eq_ok.1 hr
      obtain ⟨m, hcopy, hq⟩ := bind_eq_ok.1 hq
      have hpos := List.length_pos_iff.2 hne
      have hle := le_length_of_copyLoop_eq_ok hcopy hpos
      rw [List.length_replicate, Nat.zero_add] at hle
      obtain rfl := Except.ok.inj hq
      refine .inl ⟨⟨hne, c, rfl, Int.not_le.1 hclosed⟩, hle, ?_⟩
      split_ifs at hr
      all_goals
        obtain rfl := Except.ok.inj hr
        rfl

/-! ## All frames -/

/-- The calls made are added to those before, at most one for each frame. -/
theorem writeLoop_length : ∀ {frames : List ServoFrame} {sends sends' : List CanSend}
    {errors : List Bool}, writeLoop can write frames sends = .ok (sends', errors) →
    ∃ new, sends' = sends ++ new ∧ new.length ≤ frames.length
  | [], sends, sends', errors, h => by
    obtain ⟨rfl, -⟩ := Prod.mk.inj (Except.ok.inj h)
    exact ⟨[], by simp, Nat.le_refl 0⟩
  | (id, data) :: rest, sends, sends', errors, h => by
    obtain ⟨⟨sends₁, ret⟩, hcan, h⟩ := bind_eq_ok.1 h
    obtain ⟨⟨sends₂, errors'⟩, hrest, h⟩ := bind_eq_ok.1 h
    obtain ⟨rfl, -⟩ := Prod.mk.inj (Except.ok.inj h)
    obtain ⟨new, rfl, hlength⟩ := writeLoop_length hrest
    rcases writeCan_cases hcan with ⟨-, -, rfl⟩ | ⟨-, rfl⟩
    · refine ⟨⟨id, data, write sends.length⟩ :: new, by simp, ?_⟩
      simpa using hlength
    · exact ⟨new, rfl, Nat.le_succ_of_le hlength⟩

theorem forall_write_succ {m n : ℕ} : (∀ i < n + 1, write (m + i) = true) ↔
    write m = true ∧ ∀ i < n, write (m + 1 + i) = true := by
  constructor
  · intro h
    refine ⟨h 0 (Nat.succ_pos n), fun i hi => ?_⟩
    rw [Nat.add_assoc, Nat.add_comm 1 i]
    exact h (i + 1) (Nat.succ_lt_succ hi)
  · rintro ⟨hzero, h⟩ i hi
    cases i with
    | zero => exact hzero
    | succ i =>
      rw [Nat.add_comm i 1, ← Nat.add_assoc]
      exact h i (Nat.lt_of_succ_lt_succ hi)

/-- Every frame is handed over and sent exactly if each is handed on and fits, and the writes of
the calls that are made for them succeed. -/
theorem writeLoop_all_iff : ∀ {frames : List ServoFrame} {sends : List CanSend},
    (∃ new errors, writeLoop can write frames sends = .ok (sends ++ new, errors) ∧
      new.map CanSend.frame = frames ∧ ∀ s ∈ new, s.ok = true) ↔
    (∀ frame ∈ frames, HandsOn can frame) ∧ (∀ frame ∈ frames, frame.2.length ≤ 64) ∧
      ∀ i < frames.length, write (sends.length + i) = true
  | [], sends => by
    refine iff_of_true ⟨[], [], ?_, rfl, by simp⟩ ⟨by simp, by simp, by simp⟩
    rw [List.append_nil]
    rfl
  | (id, data) :: rest, sends => by
    obtain ⟨call, hcall⟩ : ∃ call : CanSend, call = ⟨id, data, write sends.length⟩ := ⟨_, rfl⟩
    have ih : _ ↔ _ := @writeLoop_all_iff rest (sends ++ [call])
    rw [List.length_append, List.length_singleton] at ih
    rw [List.forall_mem_cons, List.forall_mem_cons, List.length_cons, forall_write_succ]
    constructor
    · rintro ⟨new, errors, h, hmap, hok⟩
      obtain ⟨⟨sends₁, ret⟩, hcan, h⟩ := bind_eq_ok.1 h
      obtain ⟨⟨sends₂, errors'⟩, hrest, h⟩ := bind_eq_ok.1 h
      obtain ⟨hsends, -⟩ := Prod.mk.inj (Except.ok.inj h)
      simp only at hrest hsends
      subst hsends
      rcases writeCan_cases hcan with ⟨hhands, hfits, hone⟩ | ⟨-, rfl⟩
      · rw [← hcall] at hone
        subst hone
        obtain ⟨new', hnew, -⟩ := writeLoop_length hrest
        rw [List.append_assoc] at hnew
        obtain rfl := List.append_cancel_left hnew
        rw [List.singleton_append, List.map_cons] at hmap
        rw [List.singleton_append, List.forall_mem_cons] at hok
        rw [← List.append_assoc] at hrest
        obtain ⟨hhands', hfits', hwrite⟩ :=
          ih.1 ⟨new', errors', hrest, (List.cons.inj hmap).2, hok.2⟩
        refine ⟨⟨hhands, hhands'⟩, ⟨hfits, hfits'⟩, ?_, hwrite⟩
        rw [← hok.1, hcall]
      · -- a frame that is not handed on is missing in the end
        obtain ⟨new', hnew, hlength⟩ := writeLoop_length hrest
        obtain rfl := List.append_cancel_left hnew
        have hsame := congrArg List.length hmap
        rw [List.length_map, List.length_cons] at hsame
        omega
    · rintro ⟨⟨hhands, hhands'⟩, ⟨hfits, hfits'⟩, hone, hwrite⟩
      obtain ⟨ret, hcan⟩ := @writeCan_of_handsOn can write sends id data hhands hfits
      obtain ⟨new, errors, hrest, hmap, hok⟩ := ih.2 ⟨hhands', hfits', hwrite⟩
      rw [← hcall] at hcan
      refine ⟨call :: new, decide (ret ≠ BitVec.ofNat 64 data.length) :: errors, ?_, ?_, ?_⟩
      · rw [writeLoop, hcan, ok_bind, hrest, List.append_assoc]
        rfl
      · rw [List.map_cons, hmap, hcall]
        rfl
      · rw [List.forall_mem_cons, hcall]
        exact ⟨hone, hok⟩

/-- For every list of frames, every device and all results of the writes, all frames are sent or
a value other than 0 is returned exactly when they are all handed on, fit and are written. -/
theorem allSentOrReported_iff (can : Option CanData) (write : ℕ → Bool) (data : List ServoFrame) :
    AllSentOrReported can write data ↔ Sends can write data := by
  have hall := @writeLoop_all_iff can write data []
  simp only [List.nil_append, List.length_nil, Nat.zero_add] at hall
  constructor
  · rintro ⟨sends, errors, ret, h, hret⟩
    obtain ⟨⟨sends', errors'⟩, hloop, h⟩ := bind_eq_ok.1 h
    obtain ⟨rfl, hrest⟩ := Prod.mk.inj (Except.ok.inj h)
    obtain ⟨rfl, rfl⟩ := Prod.mk.inj hrest
    rcases hret with ⟨hmap, hok, -⟩ | hne
    · obtain ⟨hhands, hfits, hwrite⟩ := hall.1 ⟨_, _, hloop, hmap, hok⟩
      exact ⟨hhands, hfits, hwrite⟩
    · exact absurd rfl hne
  · rintro ⟨hhands, hfits, hwrite⟩
    obtain ⟨sends, errors, hloop, hmap, hok⟩ := hall.2 ⟨hhands, hfits, hwrite⟩
    refine ⟨sends, errors, 0, ?_, .inl ⟨hmap, hok, rfl⟩⟩
    rw [writeServoMessage, hloop]
    rfl

/-- The SYNC frame of CANopen is not sent, and no error logged. -/
theorem not_allSentOrReported :
    ¬∀ (can : Option CanData) (write : ℕ → Bool) (data : List ServoFrame),
      AllSentOrReported can write data := by
  intro h
  obtain ⟨sends, errors, ret, hok, hret⟩ :=
    h (some ⟨3⟩) (fun _ => true) (ServoPacker.fillDataContainerCanOpenSync [])
  have hnone : writeServoMessage (some ⟨3⟩) (fun _ => true)
      (ServoPacker.fillDataContainerCanOpenSync []) = .ok ([], [false], 0) := rfl
  rw [hnone] at hok
  obtain ⟨rfl, hrest⟩ := Prod.mk.inj (Except.ok.inj hok)
  obtain ⟨rfl, rfl⟩ := Prod.mk.inj hrest
  rcases hret with ⟨hmap, -, -⟩ | hne
  · cases hmap
  · exact hne rfl

end CanData

end Mastiff
