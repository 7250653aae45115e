import Mastiff.WbsktServer
import Mathlib.Data.Finset.Sort

/-!
# Broadcasts of the websocket server

`SendWebMsg` (`cambrian/visualize/websocket/wbskt_server.cc`) sends a message to the
connections in `conns_`, in the order of their owners, and returns at the first send that
fails. The order is that of addresses, so it can be any linear order.

`broadcast_iff` : a message, text or binary, is sent to every connection, and 0 returned for a
success of all, exactly when there is a connection and none but the last one fails.
-/

namespace Mastiff.Web

variable {κ π : Type}

/-! ## Sending in turn -/

/-- The loop over the connections : the ones that the message is sent to, and what is
returned. -/
def sendLoop (ok : κ → Bool) : List κ → List κ × ℤ
  | [] => ([], 0)
  | hdl :: hdls =>
    if ok hdl then
      let rest := sendLoop ok hdls
      (hdl :: rest.1, rest.2)
    else ([hdl], -1)

variable {ok : κ → Bool}

/-- All connections are sent to exactly if none but the last one fails. -/
theorem sendLoop_length_iff : ∀ {l : List κ},
    (sendLoop ok l).1.length = l.length ↔ ∀ hdl ∈ l.dropLast, ok hdl = true
  | [] => by simp [sendLoop]
  | [hdl] => by
    rw [sendLoop]
    split_ifs <;> simp [sendLoop]
  | hdl :: next :: rest => by
    have ih := sendLoop_length_iff (l := next :: rest)
    rw [sendLoop, List.dropLast_cons_cons, List.forall_mem_cons]
    split_ifs with hok
    · simp only [List.length_cons, Nat.add_right_cancel_iff] at ih ⊢
      exact ih.trans (and_iff_right hok).symm
    · exact iff_of_false (by simp) fun h => hok h.1

theorem prefix_sendLoop : ∀ l : List κ, (sendLoop ok l).1 <+: l
  | [] => List.prefix_refl []
  | hdl :: hdls => by
    rw [sendLoop]
    split_ifs
    · exact List.cons_prefix_cons.2 ⟨rfl, prefix_sendLoop hdls⟩
    · exact List.prefix_append [hdl] hdls

theorem sendLoop_ret_iff : ∀ {l : List κ}, (sendLoop ok l).2 = 0 ↔ ∀ hdl ∈ l, ok hdl = true
  | [] => by simp [sendLoop]
  | hdl :: hdls => by
    rw [sendLoop, List.forall_mem_cons]
    split_ifs with hok
    · exact sendLoop_ret_iff.trans (and_iff_right hok).symm
    · exact iff_of_false (by simp) fun h => hok h.1

/-- What comes before the last one of a rising list is what is below another one. -/
theorem forall_dropLast_iff [LinearOrder κ] {P : κ → Prop} {l : List κ} (hl : l.Pairwise (· < ·)) :
    (∀ a ∈ l.dropLast, P a) ↔ ∀ a ∈ l, ∀ b ∈ l, a < b → P a := by
  rcases List.eq_nil_or_concat l with rfl | ⟨init, last, rfl⟩
  · simp
  rw [List.concat_eq_append] at hl ⊢
  obtain ⟨-, -, hlt⟩ := List.pairwise_append.1 hl
  rw [List.dropLast_concat]
  constructor
  · intro h a ha b hb hab
    rcases List.mem_append.1 ha with ha | ha
    · exact h a ha
    · obtain rfl := List.mem_singleton.1 ha
      rcases List.mem_append.1 hb with hb | hb
      · exact absurd (hlt b hb a ha) hab.not_gt
      · exact absurd (List.mem_singleton.1 hb) hab.ne'
  · intro h a ha
    exact h a (List.mem_append_left _ ha) last (List.mem_append_right _ (List.mem_singleton_self _))
      (hlt a ha last (List.mem_singleton_self _))

namespace WbsktServer

/-! ## `SendWebMsg` -/

/-- `Writable`. -/
def writable (s : WbsktServer κ π) : Bool :=
  decide (0 < s.conns.card)

variable [LinearOrder κ]

/-- The messages that are sent, with their connections, and what is returned. -/
def sendWebMsg (s : WbsktServer κ π) (ok : κ → Bool) (msg : Message π) :
    List (κ × Message π) × ℤ :=
  if s.writable = false then ([], -1)
  else if s.running = false then ([], -1)
  else
    let r := sendLoop ok s.conns.sort
    (r.1.map fun hdl => (hdl, msg), r.2)

/-- `SendWebMsg` of a string. -/
def sendWebMsgText (s : WbsktServer κ π) (ok : κ → Bool) (payload : π) :
    List (κ × Message π) × ℤ :=
  s.sendWebMsg ok { opcode := .text, payload := payload }

/-- `SendWebMsg` of a block of bytes. -/
def sendWebMsgBinary (s : WbsktServer κ π) (ok : κ → Bool) (payload : π) :
    List (κ × Message π) × ℤ :=
  s.sendWebMsg ok { opcode := .binary, payload := payload }

/-- The message is sent once to every connection, and 0 is returned for a success of all. -/
structure Broadcast (s : WbsktServer κ π) (ok : κ → Bool) (msg : Message π)
    (r : List (κ × Message π) × ℤ) : Prop where
  once : r.1.Perm (s.conns.toList.map fun hdl => (hdl, msg))
  ret : r.2 = 0 ↔ ∀ hdl ∈ s.conns, ok hdl = true

/-- There is a connection, and all but the last one succeed. -/
structure LastFails (s : WbsktServer κ π) (ok : κ → Bool) : Prop where
  nonempty : s.conns.Nonempty
  lt : ∀ a ∈ s.conns, ∀ b ∈ s.conns, a < b → ok a = true

variable {s : WbsktServer κ π}

theorem sendWebMsg_of_nonempty (hrun : s.running = true) (hne : s.conns.Nonempty) (ok : κ → Bool)
    (msg : Message π) : s.sendWebMsg ok msg =
      ((sendLoop ok s.conns.sort).1.map fun hdl => (hdl, msg), (sendLoop ok s.conns.sort).2) := by
  have hcard := Finset.card_pos.2 hne
  simp [sendWebMsg, writable, hcard, hrun]

/-- The message is sent to every connection exactly if that many sends are made. -/
theorem perm_iff_length (ok : κ → Bool) (msg : Message π) :
    ((sendLoop ok s.conns.sort).1.map fun hdl => (hdl, msg)).Perm
        (s.conns.toList.map fun hdl => (hdl, msg)) ↔
      (sendLoop ok s.conns.sort).1.length = s.conns.sort.length := by
  constructor
  · intro hperm
    have hlength := hperm.length_eq
    simpa using hlength
  · intro hlength
    have hall : (sendLoop ok s.conns.sort).1 = s.conns.sort :=
      (prefix_sendLoop s.conns.sort).eq_of_length hlength
    rw [hall]
    exact (Finset.sort_perm_toList s.conns _).map _

theorem broadcast_sendWebMsg_iff (hrun : s.running = true) (ok : κ → Bool) (msg : Message π) :
    s.Broadcast ok msg (s.sendWebMsg ok msg) ↔ s.LastFails ok := by
  rcases s.conns.eq_empty_or_nonempty with hempty | hne
  · refine iff_of_false (fun h => ?_) (fun h => h.nonempty.ne_empty hempty)
    have hret : (s.sendWebMsg ok msg).2 = -1 := by simp [sendWebMsg, writable, hempty]
    have hzero := h.ret.2 (by simp [hempty])
    rw [hret] at hzero
    cases hzero
  · have hsorted : s.conns.sort.Pairwise (· < ·) := (Finset.sortedLT_sort s.conns).pairwise
    have hall : (∀ hdl ∈ s.conns.sort.dropLast, ok hdl = true) ↔
        ∀ a ∈ s.conns, ∀ b ∈ s.conns, a < b → ok a = true := by
      simpa using forall_dropLast_iff (P := fun hdl => ok hdl = true) hsorted
    rw [sendWebMsg_of_nonempty hrun hne]
    constructor
    · intro h
      exact ⟨hne, hall.1 (sendLoop_length_iff.1 ((perm_iff_length ok msg).1 h.once))⟩
    · intro h
      refine ⟨(perm_iff_length ok msg).2 (sendLoop_length_iff.2 (hall.2 h.lt)), ?_⟩
      simp only [sendLoop_ret_iff, Finset.mem_sort]

/-- Of a server that runs, for every set of connections in every order and all results of the
sends, a message is broadcast, as text and as bytes, exactly when there is a connection and
none but the last one fails. -/
theorem broadcast_iff (s : WbsktServer κ π) (hrun : s.running = true) (ok : κ → Bool)
    (payload : π) :
    (s.Broadcast ok { opcode := .text, payload := payload } (s.sendWebMsgText ok payload) ↔
      s.LastFails ok) ∧
    (s.Broadcast ok { opcode := .binary, payload := payload } (s.sendWebMsgBinary ok payload) ↔
      s.LastFails ok) :=
  ⟨broadcast_sendWebMsg_iff hrun ok _, broadcast_sendWebMsg_iff hrun ok _⟩

/-- Two connections, of which the second one fails. -/
theorem broadcast_iff_pair :
    ({ conns := {0, 1} } : WbsktServer ℕ String).Broadcast (fun hdl => hdl == 0)
      { opcode := .text, payload := "map" }
      (sendWebMsgText ({ conns := {0, 1} } : WbsktServer ℕ String) (fun hdl => hdl == 0)
        "map") := by
  refine ((broadcast_iff { conns := {0, 1} } rfl (fun hdl => hdl == 0) "map").1).2 ⟨by simp, ?_⟩
  decide

/-- Two connections, of which the first one fails. -/
theorem not_broadcast :
    ¬∀ (s : WbsktServer ℕ String) (ok : ℕ → Bool) (payload : String), s.running = true →
      s.Broadcast ok { opcode := .text, payload := payload } (s.sendWebMsgText ok payload) ∧
        s.Broadcast ok { opcode := .binary, payload := payload }
          (s.sendWebMsgBinary ok payload) := by
  intro h
  have hfails := (broadcast_sendWebMsg_iff rfl _ _).1
    (h { conns := {0, 1} } (fun hdl => hdl == 1) "map" rfl).1
  exact absurd (hfails.lt 0 (by simp) 1 (by simp) Nat.zero_lt_one) (by decide)

end WbsktServer

end Mastiff.Web
