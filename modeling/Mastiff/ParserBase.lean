import Mastiff.CircularBuffer
import Mastiff.Lib.Bytes
import Mastiff.Lib.Framing

/-!
# Receiving serial data

`ParserBaseItf::OnOriginalDataUart` (`parser/parser_base_itf.h`) pushes a chunk into the
circular buffer and lets the device's parser work on the buffer. `Frames` says that a
parser call is one scan of a `Scanner`, and `received` what such a parser makes of a
stream, however it is cut into chunks : the receiver's run, as long as the chunks fit.
-/

set_option linter.unusedSectionVars false

open Memory Machine Bytes Framing

namespace Mastiff

/-- What a call of `ParseUartBuffer` returns and leaves : the buffer, the place its local
head came to, and what it passed on. -/
structure ParseResult (ο : Type) where
  ret : ℤ
  cbufRaw : CircularBuffer Byte
  head : ℕ
  frames : List ο

/-- The members of `ParserBaseItf` that receiving changes. -/
structure ParserBase where
  cbufRaw : CircularBuffer Byte
  parsingRawBusy : Bool

namespace ParserBase

variable {ο : Type}

/-- A parser with an opened circular buffer of `cap` bytes. -/
def opened (cap : ℕ) : ParserBase where
  cbufRaw := (CircularBuffer.new cap).opened
  parsingRawBusy := false

/-- `OnOriginalDataUart(si, buf, size)`, `buf` the `size` bytes. -/
def onOriginalDataUart (parse : CircularBuffer Byte → Except Fault (ParseResult ο))
    (p : ParserBase) (buf : List Byte) : Except Fault (ParserBase × List ο) := do
  let r ← p.cbufRaw.push buf
  if p.parsingRawBusy then
    return ({ p with cbufRaw := r.2 }, [])
  else
    let res ← parse r.2
    return ({ cbufRaw := res.cbufRaw, parsingRawBusy := false }, res.frames)

/-- The chunk fits the buffer. -/
def HasRoom (p : ParserBase) (buf : List Byte) : Prop :=
  p.cbufRaw.cbufSize + buf.length ≤ p.cbufRaw.capacityCbuf

/-- A call that goes through is one scan of the content, and releases what the local head
has passed. Up to `2 ^ 30` bytes every call goes through. -/
structure Frames (S : Scanner Byte ο) (threshold : ℕ)
    (parse : CircularBuffer Byte → Except Fault (ParseResult ο)) : Prop where
  scans : ∀ {c q res}, c.Holds q → parse c = .ok res →
    res.frames = (S.gated threshold q).1 ∧ q.drop res.head = (S.gated threshold q).2
  releases : ∀ {c q res}, c.Holds q → parse c = .ok res → res.cbufRaw.Holds (q.drop res.head)
  capacity : ∀ {c q res}, c.Holds q → parse c = .ok res →
    res.cbufRaw.capacityCbuf = c.capacityCbuf
  total : ∀ {c q}, c.Holds q → c.capacityCbuf ≤ 2 ^ 30 → ∃ res, parse c = .ok res

variable {S : Scanner Byte ο} {threshold : ℕ}
  {parse : CircularBuffer Byte → Except Fault (ParseResult ο)}

/-- An idle parser whose buffer of `cap` bytes holds the unread ones. -/
structure Unread (cap : ℕ) (p : ParserBase) (unread : List Byte) : Prop where
  holds : p.cbufRaw.Holds unread
  idle : p.parsingRawBusy = false
  capacity : p.cbufRaw.capacityCbuf = cap

theorem unread_opened {cap : ℕ} (hpos : 0 < cap) : Unread cap (opened cap) [] :=
  ⟨CircularBuffer.holds_new hpos, rfl, rfl⟩

theorem Unread.length_add_le {cap : ℕ} {p : ParserBase} {unread buf : List Byte}
    (h : Unread cap p unread) (hroom : HasRoom p buf) : unread.length + buf.length ≤ cap := by
  rw [HasRoom, h.holds.cbufSize_eq, h.capacity] at hroom
  omega

/-- A chunk that goes through is received. -/
theorem onOriginalDataUart_eq_ok (hF : Frames S threshold parse) {cap : ℕ} {p p' : ParserBase}
    {unread buf : List Byte} {frames : List ο} (h : Unread cap p unread) (hroom : HasRoom p buf)
    (hr : onOriginalDataUart parse p buf = .ok (p', frames)) :
    frames = (S.receive threshold unread buf).2 ∧
      Unread cap p' (S.receive threshold unread buf).1 := by
  have hle := h.length_add_le hroom
  rw [← h.capacity] at hle
  obtain ⟨r, hpush, hr⟩ := bind_eq_ok.1 hr
  obtain ⟨hq, hcap⟩ := CircularBuffer.push_eq_ok h.holds hle hpush
  rw [h.idle, if_neg (by simp)] at hr
  obtain ⟨res, hparse, hr⟩ := bind_eq_ok.1 hr
  obtain ⟨rfl, rfl⟩ := Prod.mk.inj (Except.ok.inj hr)
  obtain ⟨hframes, hrest⟩ := hF.scans hq hparse
  refine ⟨hframes, ?_, rfl, (hF.capacity hq hparse).trans (hcap.trans h.capacity)⟩
  have hholds := hF.releases hq hparse
  rwa [hrest] at hholds

/-- Up to `2 ^ 30` bytes every chunk that fits goes through. -/
theorem exists_onOriginalDataUart (hF : Frames S threshold parse) {cap : ℕ} (hcap : cap ≤ 2 ^ 30)
    {p : ParserBase} {unread buf : List Byte} (h : Unread cap p unread) (hroom : HasRoom p buf)
    (hbuf : buf ≠ []) : ∃ p' frames, onOriginalDataUart parse p buf = .ok (p', frames) := by
  have hle := h.length_add_le hroom
  rw [← h.capacity] at hle hcap
  obtain ⟨c, hpush, hq, -, hcap'⟩ :=
    CircularBuffer.push_of_room h.holds (List.length_pos_iff.2 hbuf) hle
  obtain ⟨res, hparse⟩ := hF.total hq (hcap' ▸ hcap)
  refine ⟨⟨res.cbufRaw, false⟩, res.frames, ?_⟩
  rw [onOriginalDataUart, hpush, ok_bind, h.idle, if_neg (by simp), hparse]
  rfl

/-- Chunks of no more than `cap` bytes altogether fit. -/
theorem Unread.along_hasRoom (hF : Frames S threshold parse) {cap : ℕ} :
    ∀ (chunks : List (List Byte)) {p : ParserBase} {unread : List Byte}, Unread cap p unread →
      unread.length + chunks.flatten.length ≤ cap →
        Along (onOriginalDataUart parse) HasRoom p chunks
  | [], _, _, _, _ => trivial
  | chunk :: chunks, p, unread, h, hle => by
    rw [List.flatten_cons, List.length_append] at hle
    have hroom : HasRoom p chunk := by
      rw [HasRoom, h.holds.cbufSize_eq, h.capacity]
      omega
    refine ⟨hroom, fun p' frames hr => ?_⟩
    refine Unread.along_hasRoom hF chunks (onOriginalDataUart_eq_ok hF h hroom hr).2 ?_
    have hsuffix := (Scanner.walk_gated S threshold (unread ++ chunk)).suffix.length_le
    rw [List.length_append] at hsuffix
    exact (Nat.add_le_add_right hsuffix _).trans (by omega)

/-- Chunks that go through are received, one after the other. -/
theorem received (hF : Frames S threshold parse) {cap : ℕ} (hpos : 0 < cap)
    {chunks : List (List Byte)} {p : ParserBase} {log : List (List ο)}
    (hroom : Along (onOriginalDataUart parse) HasRoom (opened cap) chunks)
    (hr : tryRun (onOriginalDataUart parse) (opened cap) chunks = .ok (p, log)) :
    log = (run (S.receive threshold) [] chunks).2 ∧
      p.cbufRaw.Holds (run (S.receive threshold) [] chunks).1 := by
  have hsim : ∀ p unread buf p' frames, Unread cap p unread → HasRoom p buf →
      onOriginalDataUart parse p buf = .ok (p', frames) →
        frames = (S.receive threshold unread buf).2 ∧
          Unread cap p' (S.receive threshold unread buf).1 :=
    fun p unread buf p' frames h hroom hr => onOriginalDataUart_eq_ok hF h hroom hr
  obtain ⟨hlog, hunread⟩ :=
    tryRun_ok_refines (Unread cap) hsim chunks hroom (unread_opened hpos) hr
  exact ⟨hlog, hunread.holds⟩

/-- The scan of chunks that go through has come to what the buffer holds. -/
theorem walked (hF : Frames S threshold parse) {cap : ℕ} (hpos : 0 < cap)
    {chunks : List (List Byte)} {p : ParserBase} {log : List (List ο)}
    (hroom : Along (onOriginalDataUart parse) HasRoom (opened cap) chunks)
    (hr : tryRun (onOriginalDataUart parse) (opened cap) chunks = .ok (p, log)) :
    S.Walk chunks.flatten log.flatten (run (S.receive threshold) [] chunks).1 := by
  obtain ⟨rfl, -⟩ := received hF hpos hroom hr
  have hwalk := Scanner.walk_receive S threshold chunks (.here ([] : List Byte))
  rwa [List.nil_append, List.nil_append] at hwalk

/-- Up to `2 ^ 30` bytes chunks that fit go through. -/
theorem exists_received (hF : Frames S threshold parse) {cap : ℕ} (hpos : 0 < cap)
    (hcap : cap ≤ 2 ^ 30) {chunks : List (List Byte)} (hne : ∀ chunk ∈ chunks, chunk ≠ [])
    (hroom : Along (onOriginalDataUart parse) HasRoom (opened cap) chunks) :
    ∃ p log, tryRun (onOriginalDataUart parse) (opened cap) chunks = .ok (p, log) := by
  have hstep : ∀ p buf, (∃ unread, Unread cap p unread) → HasRoom p buf ∧ buf ≠ [] →
      ∃ p' frames, onOriginalDataUart parse p buf = .ok (p', frames) ∧
        ∃ unread, Unread cap p' unread := by
    rintro p buf ⟨unread, h⟩ ⟨hroom, hbuf⟩
    obtain ⟨p', frames, hr⟩ := exists_onOriginalDataUart hF hcap h hroom hbuf
    exact ⟨p', frames, hr, _, (onOriginalDataUart_eq_ok hF h hroom hr).2⟩
  obtain ⟨p, log, hr, -⟩ := exists_tryRun (fun p => ∃ unread, Unread cap p unread) hstep chunks
    (along_and chunks hroom hne) ⟨[], unread_opened hpos⟩
  exact ⟨p, log, hr⟩

end ParserBase

end Mastiff
