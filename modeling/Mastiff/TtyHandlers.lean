import Mastiff.Lib.Links
import Mastiff.Lib.Memory

/-!
# Handlers of the terminal

`tty_register_handle` (`chassis/devices/dev_libs/dev_tty.cc`) keeps the handlers in a circular list.
The loop that looks for the end of the list steps from its head every time, and so never beyond
the second node.

A pointer is a place in the heap, which `calloc` makes longer. What is printed is left out, and so
is what the setup of the terminal does.

`registered_iff` : after any number of registrations the list leads through all handlers in their
order exactly when there are at most three of them. The fourth call does not return.
-/

set_option linter.unusedSectionVars false

namespace Mastiff.Device

open Memory Links

/-! ## The list -/

/-- `tty_hand`. Without `next` it is null. -/
structure TtyHand (τ : Type) where
  next : Option ℕ
  handKey : List Char
  tty : τ

/-- How a call does not come back : a pointer that leads nowhere, a name that is written beyond
`hand_key`, or a loop that still runs after the passes it is given. -/
inductive TtyFault
  | nullPointer
  | outOfArray
  | stillRunning
  deriving DecidableEq

/-- A call of `tty_register_handle`, with what `pthread_create` returns. A handler can be null. -/
structure TtyRegistration (τ : Type) where
  handleName : List Char
  h : Option τ
  scanMs : ℤ
  created : ℤ

/-- The variables of the list, and the heap. -/
structure TtyList (τ : Type) where
  heap : List (TtyHand τ) := []
  head : Option ℕ := none
  cursor : Option ℕ := none
  running : Bool := false
  scanUs : ℤ := 20 * 1000
  threadRet : ℤ := -1

variable {τ : Type}

/-- `p->next`. -/
def nextOf (heap : List (TtyHand τ)) (p : ℕ) : Except TtyFault (Option ℕ) :=
  match heap[p]? with
  | some node => .ok node.next
  | none => .error .nullPointer

/-- `p->next = v`. -/
def setNext (heap : List (TtyHand τ)) (p : ℕ) (v : Option ℕ) : List (TtyHand τ) :=
  heap.modify p fun node => { node with next := v }

/-- `hand_key`, of 128 characters, after the name has been copied to it. -/
def handKeyOf (name : List Char) : Except TtyFault (List Char) :=
  if name.length ≤ 128 then .ok (name ++ List.replicate (128 - name.length) '\x00')
  else .error .outOfArray

/-- The loop for the end of the list, from `iter` on. It steps from the head. -/
def findEnd (heap : List (TtyHand τ)) (head : ℕ) : (fuel : ℕ) → (iter : ℕ) → Except TtyFault ℕ
  | 0, _ => .error .stillRunning
  | fuel + 1, iter => do
    if (← nextOf heap iter) = some head then return iter
    else
      match ← nextOf heap head with
      | some iter => findEnd heap head fuel iter
      | none => .error .nullPointer

/-- `tty_register_handle`, whose loop makes at most `fuel` passes. -/
def ttyRegisterHandle (fuel : ℕ) (s : TtyList τ) (c : TtyRegistration τ) :
    Except TtyFault (TtyList τ) := do
  let s := { s with scanUs := c.scanMs * 1000 }
  match c.h, s.head with
  | none, _ => return s
  | some h, none =>
    let head := s.heap.length
    let key ← handKeyOf c.handleName
    return { s with
      heap := s.heap ++ [⟨some head, key, h⟩]
      head := some head
      cursor := some head
      running := true
      threadRet := c.created }
  | some h, some head =>
    let tmp := s.heap.length
    let key ← handKeyOf c.handleName
    let heap := s.heap ++ [⟨none, key, h⟩]
    let iter ← findEnd heap head fuel head
    let heap := setNext heap iter (some tmp)
    return { s with heap := setNext heap tmp (some head) }

/-! ## The ring of the handlers -/

/-- What `next` points to. -/
def link (heap : List (TtyHand τ)) (p : ℕ) : Option ℕ :=
  heap[p]?.bind TtyHand.next

/-- A node holds what has been registered. -/
def HoldsHandler (heap : List (TtyHand τ)) (p : ℕ) (c : TtyRegistration τ) : Prop :=
  ∃ node, heap[p]? = some node ∧ c.h = some node.tty ∧ handKeyOf c.handleName = .ok node.handKey

/-- From the head on, `next` leads through a node for each registration, in their order, and then
back to the head. -/
structure Keeps (s : TtyList τ) (cs : List (TtyRegistration τ)) (ps : List ℕ) : Prop where
  head : s.head = ps.head?
  circle : Circle (link s.heap) ps
  handlers : List.Forall₂ (HoldsHandler s.heap) ps cs

/-- A handler that is not null, with a name that fits `hand_key`. -/
structure TtyRegistration.Proper (c : TtyRegistration τ) : Prop where
  handler : c.h.isSome
  fits : c.handleName.length ≤ 128

/-- All calls return, and the list keeps every handler. -/
def AllRegistered (cs : List (TtyRegistration τ)) : Prop :=
  ∃ fuel s ps, cs.foldlM (ttyRegisterHandle fuel) {} = .ok s ∧ Keeps s cs ps

variable {heap : List (TtyHand τ)} {s s' : TtyList τ} {c : TtyRegistration τ}
  {cs : List (TtyRegistration τ)} {ps : List ℕ} {p q r l : ℕ}

/-! ## The heap -/

theorem link_append_of_lt (hp : p < heap.length) (node : TtyHand τ) :
    link (heap ++ [node]) p = link heap p := by
  rw [link, List.getElem?_append_left hp, link]

theorem link_setNext_self (hp : p < heap.length) (v : Option ℕ) :
    link (setNext heap p v) p = v := by
  rw [link, setNext, List.getElem?_modify_eq, List.getElem?_eq_getElem hp]
  rfl

theorem link_setNext_ne (hpq : q ≠ p) (v : Option ℕ) :
    link (setNext heap p v) q = link heap q := by
  rw [link, setNext, List.getElem?_modify_ne _ _ hpq.symm, link]

theorem HoldsHandler.lt (h : HoldsHandler heap p c) : p < heap.length := by
  obtain ⟨node, hnode, -⟩ := h
  exact (List.getElem?_eq_some_iff.1 hnode).1

theorem HoldsHandler.append (h : HoldsHandler heap p c) (node : TtyHand τ) :
    HoldsHandler (heap ++ [node]) p c := by
  obtain ⟨node, hnode, hc⟩ := h
  exact ⟨node, by rw [List.getElem?_append_left (HoldsHandler.lt ⟨node, hnode, hc⟩), hnode], hc⟩

/-- A change of a pointer leaves the handlers. -/
theorem HoldsHandler.setNext (h : HoldsHandler heap p c) (q : ℕ) (v : Option ℕ) :
    HoldsHandler (setNext heap q v) p c := by
  obtain ⟨node, hnode, htty, hkey⟩ := h
  unfold Device.setNext
  by_cases hpq : q = p
  · rw [hpq]
    exact ⟨{ node with next := v }, by rw [List.getElem?_modify_eq, hnode]; rfl, htty, hkey⟩
  · exact ⟨node, by rw [List.getElem?_modify_ne _ _ hpq, hnode], htty, hkey⟩

/-! ## The loop -/

theorem nextOf_of_link (h : link heap p = some q) : nextOf heap p = .ok (some q) := by
  obtain ⟨node, hnode, hnext⟩ := Option.bind_eq_some_iff.1 h
  rw [nextOf, hnode]
  exact congrArg Except.ok hnext

/-- The node that leads to the head is the end. -/
theorem findEnd_of_last (hp : link heap l = some p) (fuel : ℕ) :
    findEnd heap p (fuel + 1) l = .ok l := by
  rw [findEnd, nextOf_of_link hp]
  exact if_pos rfl

theorem findEnd_step (hp : link heap p = some q) (hr : link heap l = some r) (hrp : r ≠ p)
    (fuel : ℕ) : findEnd heap p (fuel + 1) l = findEnd heap p fuel q := by
  rw [findEnd, nextOf_of_link hr, nextOf_of_link hp, ok_bind]
  exact if_neg fun h => hrp (Option.some.inj h)

/-- From the second node, unless it leads to the head, the loop only comes to the second node. -/
theorem findEnd_of_second (hp : link heap p = some q) (hq : link heap q = some r) (hrp : r ≠ p)
    (fuel : ℕ) : findEnd heap p fuel q = .error .stillRunning := by
  induction fuel with
  | zero => rfl
  | succ fuel ih => rw [findEnd_step hp hq hrp, ih]

/-- In a circle of one or two nodes the loop ends. -/
theorem findEnd_of_length_le (h : Circle (link heap) ps) (hp : ps.head? = some p)
    (hlen : ps.length ≤ 2) : ∃ l, findEnd heap p 2 p = .ok l := by
  match ps, hp, hlen with
  | [_], rfl, _ => exact ⟨p, findEnd_of_last (h.next_eq [] [] rfl) 1⟩
  | [_, q], rfl, _ =>
    have hpq : link heap p = some q := h.next_eq [] [p] rfl
    have hqp : link heap q = some p := h.next_eq [p] [] rfl
    rw [findEnd_step hpq hpq (h.ne_head (List.mem_singleton_self q))]
    exact ⟨q, findEnd_of_last hqp 0⟩

/-- If it ends, it is in one of these, at the last node. -/
theorem findEnd_eq_ok (h : Circle (link heap) ps) (hp : ps.head? = some p) {fuel : ℕ}
    (hl : findEnd heap p fuel p = .ok l) : ps.getLast? = some l ∧ ps.length ≤ 2 := by
  cases fuel with
  | zero => cases hl
  | succ fuel =>
    match ps, hp with
    | [_], rfl =>
      rw [findEnd_of_last (h.next_eq [] [] rfl)] at hl
      cases hl
      exact ⟨rfl, by simp⟩
    | [_, q], rfl =>
      have hpq : link heap p = some q := h.next_eq [] [p] rfl
      have hqp : link heap q = some p := h.next_eq [p] [] rfl
      rw [findEnd_step hpq hpq (h.ne_head (List.mem_singleton_self q))] at hl
      cases fuel with
      | zero => cases hl
      | succ fuel =>
        rw [findEnd_of_last hqp] at hl
        cases hl
        exact ⟨rfl, by simp⟩
    | _ :: q :: r :: ps, rfl =>
      have hpq : link heap p = some q := h.next_eq [] (r :: ps ++ [p]) rfl
      have hqr : link heap q = some r := h.next_eq [p] (ps ++ [p]) rfl
      rw [findEnd_step hpq hpq (h.ne_head (by simp)),
        findEnd_of_second hpq hqr (h.ne_head (by simp))] at hl
      cases hl

/-! ## A registration -/

theorem handKeyOf_of_le {name : List Char} (h : name.length ≤ 128) :
    ∃ key, handKeyOf name = .ok key :=
  ⟨_, if_pos h⟩

/-- The first handler makes a list of its own. -/
theorem Keeps.register_first (h : Keeps s [] ps) (fuel : ℕ) (hc : c.Proper) :
    ∃ s' ps', ttyRegisterHandle fuel s c = .ok s' ∧ Keeps s' [c] ps' := by
  obtain ⟨tty, htty⟩ := Option.isSome_iff_exists.1 hc.handler
  obtain ⟨key, hkey⟩ := handKeyOf_of_le hc.fits
  obtain rfl := List.forall₂_nil_right_iff.1 h.handlers
  have hhead : s.head = none := h.head
  rw [ttyRegisterHandle, htty]
  dsimp only
  rw [hhead]
  dsimp only
  rw [hkey]
  refine ⟨_, [s.heap.length], rfl, rfl, circle_singleton ?_, .cons ?_ .nil⟩
  · simp [link]
  · exact ⟨⟨some s.heap.length, key, tty⟩, by simp, htty, hkey⟩

/-- The nodes of the list are in the heap. -/
theorem Keeps.lt_length (h : Keeps s cs ps) : ∀ q ∈ ps, q < s.heap.length := by
  have hboth : List.Forall₂ (fun q c => q < s.heap.length ∧ HoldsHandler s.heap q c) ps cs :=
    h.handlers.imp fun q c hqc => ⟨hqc.lt, hqc⟩
  exact ((List.forall₂_and_left ps cs).1 hboth).1

/-- A new node leaves the circle. -/
theorem Keeps.circle_append (h : Keeps s cs ps) (node : TtyHand τ) :
    Circle (link (s.heap ++ [node])) ps :=
  h.circle.congr fun q hq => link_append_of_lt (h.lt_length q hq) node

/-- The new node is inserted between the last node and the head. -/
theorem Keeps.insert (h : Keeps s cs ps) (hp : s.head = some p) (hl : ps.getLast? = some l)
    {tty : τ} {key : List Char} (htty : c.h = some tty) (hkey : handKeyOf c.handleName = .ok key)
    (scanUs : ℤ) :
    Keeps { s with
      scanUs := scanUs
      heap := setNext (setNext (s.heap ++ [⟨none, key, tty⟩]) l (some s.heap.length))
        s.heap.length (some p) } (cs ++ [c]) (ps ++ [s.heap.length]) := by
  have hlt := h.lt_length
  have hhead : ps.head? = some p := h.head.symm.trans hp
  have hlmem := hlt l (List.mem_of_getLast? hl)
  have hcircle := h.circle_append ⟨none, key, tty⟩
  refine ⟨?_, hcircle.insert hhead hl ?_ ?_ ?_ ?_, List.rel_append ?_ (.cons ?_ .nil)⟩
  · rw [List.head?_append, hhead]
    exact hp
  · exact fun hmem => (hlt _ hmem).ne rfl
  · intro q hql hq
    rw [link_setNext_ne hq, link_setNext_ne hql]
  · rw [link_setNext_ne hlmem.ne, link_setNext_self (by simp; omega)]
  · exact link_setNext_self (by simp [setNext]) _
  · exact h.handlers.imp fun q c hqc => ((hqc.append _).setNext _ _).setNext _ _
  · have hnew : HoldsHandler (s.heap ++ [⟨none, key, tty⟩]) s.heap.length c :=
      ⟨⟨none, key, tty⟩, by simp, htty, hkey⟩
    exact (hnew.setNext _ _).setNext _ _

/-- A call goes on from the end that the loop has found. -/
theorem ttyRegisterHandle_eq (fuel : ℕ) (hp : s.head = some p) {tty : τ} {key : List Char}
    (htty : c.h = some tty) (hkey : handKeyOf c.handleName = .ok key) :
    ttyRegisterHandle fuel s c = (do
      let l ← findEnd (s.heap ++ [⟨none, key, tty⟩]) p fuel p
      return { s with
        scanUs := c.scanMs * 1000
        heap := setNext (setNext (s.heap ++ [⟨none, key, tty⟩]) l (some s.heap.length))
          s.heap.length (some p) }) := by
  rw [ttyRegisterHandle, htty]
  dsimp only
  rw [hp]
  dsimp only
  rw [hkey]
  rfl

/-- A call that returns keeps the handlers, of which there were at most two. -/
theorem Keeps.register {fuel : ℕ} (h : Keeps s cs ps) (hc : c.Proper)
    (hs' : ttyRegisterHandle fuel s c = .ok s') :
    cs.length ≤ 2 ∧ ∃ ps', Keeps s' (cs ++ [c]) ps' := by
  obtain ⟨tty, htty⟩ := Option.isSome_iff_exists.1 hc.handler
  obtain ⟨key, hkey⟩ := handKeyOf_of_le hc.fits
  cases hp : s.head with
  | none =>
    obtain rfl := List.head?_eq_none_iff.1 (h.head.symm.trans hp)
    obtain rfl := List.forall₂_nil_left_iff.1 h.handlers
    obtain ⟨s₁, ps', hs₁, hkeeps⟩ := h.register_first fuel hc
    obtain rfl := Except.ok.inj (hs₁.symm.trans hs')
    exact ⟨by simp, ps', hkeeps⟩
  | some p =>
    have hhead : ps.head? = some p := h.head.symm.trans hp
    rw [ttyRegisterHandle_eq fuel hp htty hkey] at hs'
    obtain ⟨l, hl, hs'⟩ := bind_eq_ok.1 hs'
    cases hs'
    obtain ⟨hlast, hlen⟩ := findEnd_eq_ok (h.circle_append _) hhead hl
    rw [h.handlers.length_eq] at hlen
    exact ⟨hlen, _, h.insert hp hlast htty hkey _⟩

/-- With at most two handlers a call returns. -/
theorem Keeps.exists_register (h : Keeps s cs ps) (hc : c.Proper) (hlen : cs.length ≤ 2) :
    ∃ s', ttyRegisterHandle 2 s c = .ok s' := by
  obtain ⟨tty, htty⟩ := Option.isSome_iff_exists.1 hc.handler
  obtain ⟨key, hkey⟩ := handKeyOf_of_le hc.fits
  cases hp : s.head with
  | none =>
    obtain rfl := List.head?_eq_none_iff.1 (h.head.symm.trans hp)
    obtain rfl := List.forall₂_nil_left_iff.1 h.handlers
    obtain ⟨s', -, hs', -⟩ := h.register_first 2 hc
    exact ⟨s', hs'⟩
  | some p =>
    rw [← h.handlers.length_eq] at hlen
    obtain ⟨l, hl⟩ := findEnd_of_length_le (h.circle_append ⟨none, key, tty⟩)
      (h.head.symm.trans hp) hlen
    rw [ttyRegisterHandle_eq 2 hp htty hkey, hl]
    exact ⟨_, rfl⟩

/-! ## A sequence of registrations -/

theorem keeps_nil : Keeps ({} : TtyList τ) [] [] :=
  ⟨rfl, circle_nil _, .nil⟩

/-- Calls that return keep all handlers, of which there are at most three. -/
theorem keeps_of_foldlM {fuel : ℕ} (hcs : ∀ c ∈ cs, c.Proper)
    (hs : cs.foldlM (ttyRegisterHandle fuel) {} = .ok s) :
    cs.length ≤ 3 ∧ ∃ ps, Keeps s cs ps := by
  induction cs using List.reverseRecOn generalizing s with
  | nil =>
    cases hs
    exact ⟨by simp, [], keeps_nil⟩
  | append_singleton cs c ih =>
    rw [List.forall_mem_append] at hcs
    rw [List.foldlM_append] at hs
    obtain ⟨s₁, hs₁, hs⟩ := bind_eq_ok.1 hs
    obtain ⟨s₂, hs₂, hs⟩ := bind_eq_ok.1 hs
    cases hs
    obtain ⟨-, ps, hkeeps⟩ := ih hcs.1 hs₁
    obtain ⟨hlen, hkeeps'⟩ := hkeeps.register (hcs.2 c (by simp)) hs₂
    rw [List.length_append]
    exact ⟨Nat.add_le_add_right hlen 1, hkeeps'⟩

/-- Up to three calls return. -/
theorem exists_foldlM (hcs : ∀ c ∈ cs, c.Proper) (hlen : cs.length ≤ 3) :
    ∃ s, cs.foldlM (ttyRegisterHandle 2) {} = .ok s := by
  induction cs using List.reverseRecOn with
  | nil => exact ⟨{}, rfl⟩
  | append_singleton cs c ih =>
    rw [List.forall_mem_append] at hcs
    rw [List.length_append, List.length_singleton] at hlen
    obtain ⟨s₁, hs₁⟩ := ih hcs.1 (by omega)
    obtain ⟨-, ps, hkeeps⟩ := keeps_of_foldlM hcs.1 hs₁
    obtain ⟨s', hs'⟩ := hkeeps.exists_register (hcs.2 c (by simp)) (by omega)
    exact ⟨s', by rw [List.foldlM_append, hs₁, ok_bind, List.foldlM_cons, hs', ok_bind]; rfl⟩

/-- For any number of handlers that are not null, with names that fit `hand_key`, every call
returns and the list keeps them all in their order exactly when there are at most three. -/
theorem registered_iff (hcs : ∀ c ∈ cs, c.Proper) : AllRegistered cs ↔ cs.length ≤ 3 := by
  constructor
  · rintro ⟨fuel, s, -, hs, -⟩
    exact (keeps_of_foldlM hcs hs).1
  · intro hlen
    obtain ⟨s, hs⟩ := exists_foldlM hcs hlen
    obtain ⟨-, ps, hkeeps⟩ := keeps_of_foldlM hcs hs
    exact ⟨2, s, ps, hs, hkeeps⟩

/-- A registration of a handler. -/
def sampleRegistration : TtyRegistration Unit :=
  ⟨"Key Control".toList, some (), 50, 0⟩

theorem proper_sampleRegistration : sampleRegistration.Proper :=
  ⟨rfl, by decide⟩

theorem registered_iff_three : AllRegistered (List.replicate 3 sampleRegistration) :=
  (registered_iff fun c hc => List.eq_of_mem_replicate hc ▸ proper_sampleRegistration).2 (by decide)

/-- The fourth call does not return. -/
theorem not_registered :
    ¬∀ cs : List (TtyRegistration Unit), (∀ c ∈ cs, c.Proper) → AllRegistered cs := by
  intro h
  have hproper : ∀ c ∈ List.replicate 4 sampleRegistration, c.Proper :=
    fun c hc => List.eq_of_mem_replicate hc ▸ proper_sampleRegistration
  obtain ⟨fuel, s, -, hs, -⟩ := h _ hproper
  exact absurd (keeps_of_foldlM hproper hs).1 (by decide)

end Mastiff.Device
