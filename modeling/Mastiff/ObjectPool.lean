import Mathlib.Data.List.Range
import Mastiff.Lib.Links
import Mastiff.Lib.Threads

/-!
# The object pool

`CCObjectPool` (`cyber/base/concurrent_object_pool.h`) hands out the objects of an arena, the
contexts of routines among them, and takes them back. The free ones are a linked list whose head
is exchanged together with a count. Any number of threads call `GetObject` and `ReleaseObject`,
without a lock : each load, each weak compare-exchange of the head and each read or write of a
`next` is a step. A run is any interleaving of these.

`stack` : in every run the pool is a stack. `GetObject` gives the object that was freed last, or
nothing where none is free, and no object is free, in use or on its way back twice. None gets
lost.

`alone` : a thread that runs alone comes to the end of its call, with the first free object.

The count is taken not to reach 2^64, so a head that comes back has another one.
-/

set_option linter.unusedSectionVars false

namespace Mastiff.Cyber

open Machine Threads Links

variable {τ : Type}

/-! ## The pool -/

/-- The members of `CCObjectPool`. Nodes are numbered as they are in the arena. `out` says that the
users have an object. -/
structure CCObjectPool where
  next : ℕ → Option ℕ
  count : ℕ := 0
  node : Option ℕ
  out : ℕ → Bool := fun _ => false

/-- Where a thread is : outside, about to make a step of `FindFreeHead`, or of `ReleaseObject`.
`count` and `node` are its `old_head`. -/
inductive PoolPlace
  | outside
  | load
  | readNext (count node : ℕ)
  | exchange (count node : ℕ) (next : Option ℕ)
  | loadRelease (object : ℕ)
  | storeNext (object count : ℕ) (node : Option ℕ)
  | exchangeRelease (object count : ℕ) (node : Option ℕ)

/-- The object that a thread at the place is bringing back. -/
def PoolPlace.object : PoolPlace → Option ℕ
  | .loadRelease object | .storeNext object _ _ | .exchangeRelease object _ _ => some object
  | _ => none

/-- A thread that is outside calls `GetObject`, or `ReleaseObject` with an object it has, or a
thread makes its next step. A compare-exchange can fail without a cause. -/
inductive PoolTurn
  | get
  | release (object : ℕ)
  | go (spurious : Bool)

/-- What a step tells : `GetObject` returns, or an object is back. -/
inductive PoolEvent
  | quiet
  | got (object : ℕ)
  | null
  | released (object : ℕ)

namespace CCObjectPool

/-- What `FindFreeHead` does with a head it has read. -/
def find (c : CCObjectPool) : (CCObjectPool × PoolPlace) × PoolEvent :=
  match c.node with
  | none => ((c, .outside), .null)
  | some node => ((c, .readNext c.count node), .quiet)

/-- The next step of a thread. -/
def goOn (c : CCObjectPool) (spurious : Bool) :
    PoolPlace → (CCObjectPool × PoolPlace) × PoolEvent
  | .outside => ((c, .outside), .quiet)
  | .load => c.find
  | .readNext count node => ((c, .exchange count node (c.next node)), .quiet)
  | .exchange count node next =>
    if spurious = false ∧ c.count = count ∧ c.node = some node then
      (({ c with node := next, count := count + 1, out := Function.update c.out node true },
        .outside), .got node)
    else c.find
  | .loadRelease object => ((c, .storeNext object c.count c.node), .quiet)
  | .storeNext object count node =>
    (({ c with next := Function.update c.next object node }, .exchangeRelease object count node),
      .quiet)
  | .exchangeRelease object count node =>
    if spurious = false ∧ c.count = count ∧ c.node = node then
      (({ c with node := some object, count := count + 1 }, .outside), .released object)
    else ((c, .storeNext object c.count c.node), .quiet)

/-- A turn of a thread. -/
def act (_ : τ) (i : PoolTurn) (c : CCObjectPool) (p : PoolPlace) :
    (CCObjectPool × PoolPlace) × PoolEvent :=
  match i, p with
  | .get, .outside => ((c, .load), .quiet)
  | .release object, .outside =>
    if c.out object then
      (({ c with out := Function.update c.out object false }, .loadRelease object), .quiet)
    else ((c, .outside), .quiet)
  | .go spurious, p => c.goOn spurious p
  | _, p => ((c, p), .quiet)

/-- The constructor, with all threads outside. -/
def start (capacity : ℕ) : State τ CCObjectPool PoolPlace :=
  ⟨{ next := fun i => if i + 1 < capacity then some (i + 1) else none, node := some 0 },
    fun _ => .outside⟩

end CCObjectPool

/-! ## A stack -/

/-- What an event does to a stack of the free objects, if it can happen. -/
def PoolEvent.after : PoolEvent → List ℕ → Option (List ℕ)
  | .quiet, free => some free
  | .got object, free => if free.head? = some object then some free.tail else none
  | .null, free => if free = [] then some [] else none
  | .released object, free => if object ∈ free then none else some (object :: free)

/-- The stack after some events. -/
def freeList (capacity : ℕ) (es : List PoolEvent) : Option (List ℕ) :=
  es.foldl (fun free e => free.bind e.after) (some (List.range capacity))

theorem freeList_snoc (capacity : ℕ) (es : List PoolEvent) (e : PoolEvent) :
    freeList capacity (es ++ [e]) = (freeList capacity es).bind e.after := by
  rw [freeList, List.foldl_concat]
  rfl

namespace CCObjectPool

/-! ## What a step changes -/

variable {capacity : ℕ} {c c' : CCObjectPool} {p q : PoolPlace} {es : List PoolEvent}
  {e : PoolEvent} {i : PoolTurn} {t : τ} {o : ℕ}

/-- What a step of a thread does. -/
inductive Stepped (c : CCObjectPool) :
    PoolPlace → (CCObjectPool × PoolPlace) × PoolEvent → Prop
  | stay (p : PoolPlace) : Stepped c p ((c, p), .quiet)
  | get : Stepped c .outside ((c, .load), .quiet)
  | null {p : PoolPlace} (hp : p.object = none) (hnode : c.node = none) :
      Stepped c p ((c, .outside), .null)
  | found {p : PoolPlace} {node : ℕ} (hp : p.object = none) (hnode : c.node = some node) :
      Stepped c p ((c, .readNext c.count node), .quiet)
  | readNext (count node : ℕ) :
      Stepped c (.readNext count node) ((c, .exchange count node (c.next node)), .quiet)
  | pop {node : ℕ} {next : Option ℕ} (hnode : c.node = some node) :
      Stepped c (.exchange c.count node next)
        (({ c with node := next, count := c.count + 1, out := Function.update c.out node true },
          .outside), .got node)
  | bring {o : ℕ} (hout : c.out o = true) :
      Stepped c .outside
        (({ c with out := Function.update c.out o false }, .loadRelease o), .quiet)
  | reload {p : PoolPlace} {o : ℕ} (hp : p.object = some o) :
      Stepped c p ((c, .storeNext o c.count c.node), .quiet)
  | store (o count : ℕ) (node : Option ℕ) :
      Stepped c (.storeNext o count node)
        (({ c with next := Function.update c.next o node }, .exchangeRelease o count node), .quiet)
  | push (o : ℕ) :
      Stepped c (.exchangeRelease o c.count c.node)
        (({ c with node := some o, count := c.count + 1 }, .outside), .released o)

theorem stepped_find (hp : p.object = none) : Stepped c p c.find := by
  rw [find]
  split
  case h_1 hnode => exact .null hp hnode
  case h_2 node hnode => exact .found hp hnode

theorem stepped (t : τ) (i : PoolTurn) (c : CCObjectPool) (p : PoolPlace) :
    Stepped c p (act t i c p) := by
  cases i with
  | get =>
    cases p
    case outside => exact .get
    all_goals exact .stay _
  | release o =>
    cases p
    case outside =>
      rw [act]
      split
      case isTrue hout => exact .bring hout
      case isFalse => exact .stay _
    all_goals exact .stay _
  | go spurious =>
    rw [act]
    cases p with
    | outside => exact .stay _
    | load => exact stepped_find rfl
    | readNext count node => exact .readNext count node
    | exchange count node next =>
      rw [goOn]
      split
      case isTrue hsame =>
        obtain ⟨-, rfl, hnode⟩ := hsame
        exact .pop hnode
      case isFalse => exact stepped_find rfl
    | loadRelease o => exact .reload rfl
    | storeNext o count node => exact .store o count node
    | exchangeRelease o count node =>
      rw [goOn]
      split
      case isTrue hsame =>
        obtain ⟨-, rfl, rfl⟩ := hsame
        exact .push o
      case isFalse => exact .reload rfl

/-! ## The invariant -/

/-- The free objects are linked in the order of the stack, and the users have none of them. -/
structure Linked (capacity : ℕ) (es : List PoolEvent) (c : CCObjectPool) (free : List ℕ) :
    Prop where
  stack : freeList capacity es = some free
  leads : Leads c.next c.node free
  nodup : free.Nodup
  free : ∀ o ∈ free, o < capacity ∧ c.out o = false
  out : ∀ o, c.out o = true → o < capacity

/-- An object is free. -/
def Free (c : CCObjectPool) (o : ℕ) : Prop :=
  ∃ free, Leads c.next c.node free ∧ o ∈ free

/-- An object is on its way back, and nobody else's. -/
structure Back (capacity : ℕ) (c : CCObjectPool) (o : ℕ) : Prop where
  lt : o < capacity
  out : c.out o = false
  free : ¬c.Free o

/-- What a thread at a place knows of the pool. As long as the count is the one it read, so is the
head, and the pointer behind it. -/
def Knows (capacity : ℕ) (c : CCObjectPool) : PoolPlace → Prop
  | .outside | .load => True
  | .readNext count node => count ≤ c.count ∧ (c.count = count → c.node = some node)
  | .exchange count node next =>
    count ≤ c.count ∧ (c.count = count → c.node = some node ∧ c.next node = next)
  | .loadRelease o | .storeNext o _ _ => Back capacity c o
  | .exchangeRelease o _ node => Back capacity c o ∧ c.next o = node

/-- Two threads do not bring back one object. -/
def Apart (p q : PoolPlace) : Prop :=
  ∀ o, p.object = some o → q.object ≠ some o

theorem Knows.back (h : c.Knows capacity p) (ho : p.object = some o) : Back capacity c o := by
  cases p with
  | outside | load | readNext count node | exchange count node next => exact absurd ho nofun
  | loadRelease o' | storeNext o' count node =>
    rw [← Option.some.inj ho]
    exact h
  | exchangeRelease o' count node =>
    rw [← Option.some.inj ho]
    exact h.1

variable {free : List ℕ}

theorem Linked.free_iff (h : c.Linked capacity es free) : c.Free o ↔ o ∈ free := by
  constructor
  · rintro ⟨free', hleads, ho⟩
    rw [h.leads.unique hleads]
    exact ho
  · exact fun ho => ⟨free, h.leads, ho⟩

theorem Linked.head_mem (h : c.Linked capacity es free) (ho : c.node = some o) : o ∈ free := by
  have hleads := h.leads
  rw [ho] at hleads
  obtain ⟨rest, rfl, -⟩ := hleads.exists_cons
  exact List.mem_cons_self

variable {r : (CCObjectPool × PoolPlace) × PoolEvent}

/-- A step keeps the links, and does to the stack what it tells. -/
theorem Linked.stepped (h : c.Linked capacity es free) (hp : c.Knows capacity p)
    (hr : Stepped c p r) : ∃ free', r.1.1.Linked capacity (es ++ [r.2]) free' := by
  have hstack : freeList capacity (es ++ [r.2]) = r.2.after free := by
    rw [freeList_snoc, h.stack]
    rfl
  have hmem := fun {o : ℕ} => h.free_iff (o := o)
  obtain ⟨-, hleads, hnodup, hfree, hout⟩ := h
  cases hr with
  | stay | get | found | readNext | reload => exact ⟨free, hstack, hleads, hnodup, hfree, hout⟩
  | null hp hnode =>
    rw [hnode] at hleads
    obtain rfl := hleads.eq_nil
    refine ⟨[], hstack, ?_, hnodup, hfree, hout⟩
    rw [hnode]
    rfl
  | @bring o' hout' =>
    refine ⟨free, hstack, hleads, hnodup, fun o ho => ⟨(hfree o ho).1, ?_⟩, fun o ho => ?_⟩
    · simp [Function.update_apply, (hfree o ho).2]
    · simp only [Function.update_apply] at ho
      split at ho
      · exact absurd ho nofun
      · exact hout o ho
  | @pop node next hnode =>
    rw [hnode] at hleads
    obtain ⟨rest, rfl, htail⟩ := hleads.exists_cons
    rw [(hp.2 rfl).2] at htail
    obtain ⟨hnode', hnodup⟩ := List.nodup_cons.mp hnodup
    refine ⟨rest, hstack.trans (if_pos rfl), htail, hnodup, fun o ho => ?_, fun o ho => ?_⟩
    · have hne : o ≠ node := fun h => hnode' (h ▸ ho)
      obtain ⟨hlt, hout⟩ := hfree o (List.mem_cons_of_mem node ho)
      exact ⟨hlt, (Function.update_of_ne hne ..).trans hout⟩
    · by_cases hne : o = node
      · rw [hne]
        exact (hfree node List.mem_cons_self).1
      · exact hout o ((Function.update_of_ne hne ..).symm.trans ho)
  | store o count node =>
    have ho : o ∉ free := fun ho => hp.free (hmem.mpr ho)
    refine ⟨free, hstack, hleads.congr fun a ha => ?_, hnodup, hfree, hout⟩
    exact Function.update_of_ne (fun (hao : a = o) => ho (hao ▸ ha)) ..
  | push o =>
    obtain ⟨hback, hnext⟩ := hp
    have ho : o ∉ free := fun ho => hback.free (hmem.mpr ho)
    refine ⟨o :: free, hstack.trans (if_neg ho), ⟨rfl, ?_⟩, List.nodup_cons.mpr ⟨ho, hnodup⟩,
      fun a ha => ?_, hout⟩
    · show Leads c.next (c.next o) free
      rw [hnext]
      exact hleads
    · rcases List.mem_cons.mp ha with rfl | ha
      · exact ⟨hback.lt, hback.out⟩
      · exact hfree a ha

/-- Writing the pointer of an object that is not free. -/
theorem Back.store (h : c.Linked capacity es free) (ho : Back capacity c o) {o' : ℕ}
    (ho' : ¬c.Free o') (node : Option ℕ) :
    Back capacity { c with next := Function.update c.next o' node } o := by
  refine ⟨ho.lt, ho.out, fun ⟨free', hleads, hmem⟩ => ho.free ⟨free, h.leads, ?_⟩⟩
  have hout : o' ∉ free := fun hmem => ho' (h.free_iff.mpr hmem)
  have hsame : Leads (Function.update c.next o' node) c.node free :=
    h.leads.congr fun a ha => Function.update_of_ne (fun (hao : a = o') => hout (hao ▸ ha)) ..
  rw [hsame.unique hleads]
  exact hmem

/-- An object that another thread brings back stays its own. -/
theorem Back.stepped (h : c.Linked capacity es free) (ho : Back capacity c o)
    (hp : c.Knows capacity p) (hpo : p.object ≠ some o) (hr : Stepped c p r) :
    Back capacity r.1.1 o := by
  cases hr with
  | stay | get | null | found | readNext | reload => exact ho
  | @bring o' hout =>
    refine ⟨ho.lt, ?_, ho.free⟩
    simp [Function.update_apply, ho.out]
  | @pop node next hnode =>
    have hne : o ≠ node := fun hon => ho.free (h.free_iff.mpr (hon ▸ h.head_mem hnode))
    refine ⟨ho.lt, (Function.update_of_ne hne ..).trans ho.out, fun ⟨free', hleads, hmem⟩ => ?_⟩
    refine ho.free ⟨node :: free', ⟨hnode, ?_⟩, List.mem_cons_of_mem _ hmem⟩
    rw [(hp.2 rfl).2]
    exact hleads
  | store o' count node => exact ho.store h hp.free node
  | push o' =>
    have hne : o ≠ o' := fun hoo => hpo (congrArg some hoo.symm)
    refine ⟨ho.lt, ho.out, fun ⟨free', hleads, hmem⟩ => ?_⟩
    obtain ⟨rest, rfl, htail⟩ := Leads.exists_cons hleads
    refine ho.free ⟨rest, ?_, (List.mem_cons.mp hmem).resolve_left hne⟩
    rw [← hp.2]
    exact htail

/-- The count rises whenever the head is exchanged. -/
theorem Stepped.count (hr : Stepped c p r) :
    c.count < r.1.1.count ∨ r.1.1.count = c.count ∧ r.1.1.node = c.node := by
  cases hr with
  | pop | push => exact .inl (Nat.lt_succ_self _)
  | stay | get | null | found | readNext | bring | reload | store => exact .inr ⟨rfl, rfl⟩

/-- The pointers of the nodes that are free, or that another thread brings back, stay. -/
theorem Stepped.next (hp : c.Knows capacity p) (ho : c.Free o ∨ p.object ≠ some o)
    (hr : Stepped c p r) : r.1.1.next o = c.next o := by
  cases hr with
  | store o' count node =>
    refine Function.update_of_ne (fun hoo => ?_) ..
    rcases ho with ho | ho
    · exact hp.free (hoo ▸ ho)
    · exact ho (congrArg some hoo.symm)
  | stay | get | null | found | readNext | bring | reload | pop | push => rfl

/-- What a thread knows stays true while others make their steps. -/
theorem Knows.stepped (h : c.Linked capacity es free) (hq : c.Knows capacity q)
    (hp : c.Knows capacity p) (hpq : Apart p q) (hr : Stepped c p r) :
    r.1.1.Knows capacity q := by
  have hpo : ∀ o, q.object = some o → p.object ≠ some o := fun o ho hpo => hpq o hpo ho
  cases q with
  | outside | load => trivial
  | readNext count node =>
    obtain ⟨hle, hnode⟩ := hq
    rcases hr.count with hlt | ⟨hcount, hsame⟩
    · exact ⟨by omega, fun heq => by omega⟩
    · rw [Knows, hcount, hsame]
      exact ⟨hle, hnode⟩
  | exchange count node next =>
    obtain ⟨hle, hnode⟩ := hq
    rcases hr.count with hlt | ⟨hcount, hsame⟩
    · exact ⟨by omega, fun heq => by omega⟩
    · refine ⟨hcount ▸ hle, fun heq => ?_⟩
      obtain ⟨hhead, hnext⟩ := hnode (hcount ▸ heq)
      have hfree : c.Free node := h.free_iff.mpr (h.head_mem hhead)
      exact ⟨hsame.trans hhead, (hr.next hp (.inl hfree)).trans hnext⟩
  | loadRelease o | storeNext o count node => exact hq.stepped h hp (hpo o rfl) hr
  | exchangeRelease o count node =>
    exact ⟨hq.1.stepped h hp (hpo o rfl) hr, (hr.next hp (.inr (hpo o rfl))).trans hq.2⟩

/-- What a thread knows where its step leads. -/
theorem Stepped.knows (h : c.Linked capacity es free) (hp : c.Knows capacity p)
    (hr : Stepped c p r) : r.1.1.Knows capacity r.1.2 := by
  cases hr with
  | stay => exact hp
  | get | null | pop | push => trivial
  | found hp hnode => exact ⟨Nat.le_refl _, fun _ => hnode⟩
  | readNext count node => exact ⟨hp.1, fun heq => ⟨hp.2 heq, rfl⟩⟩
  | @bring o hout =>
    refine ⟨h.out o hout, Function.update_self .., fun hfree => ?_⟩
    exact absurd ((h.free o (h.free_iff.mp hfree)).2.symm.trans hout) nofun
  | reload hpo => exact hp.back hpo
  | store o count node => exact ⟨Back.store h hp hp.free node, Function.update_self ..⟩

/-- Threads stay apart. -/
theorem Stepped.apart (hq : c.Knows capacity q) (hpq : Apart p q) (hr : Stepped c p r) :
    Apart r.1.2 q := by
  cases hr with
  | stay => exact hpq
  | get | null | found | readNext | pop | push => exact fun o ho => absurd ho nofun
  | @bring o hout =>
    intro o' ho' hqo
    obtain rfl := Option.some.inj ho'
    exact absurd ((hq.back hqo).out.symm.trans hout) nofun
  | reload hpo => exact fun o ho => hpq o (hpo.trans ho)
  | store o count node => exact hpq

/-- An object that is neither free nor in use is on its way back. -/
theorem Stepped.missing (h : c.Linked capacity es free) (hp : c.Knows capacity p)
    (hr : Stepped c p r) {W : Prop} (hc : c.out o = false ∧ ¬c.Free o → p.object = some o ∨ W)
    (hc' : r.1.1.out o = false ∧ ¬r.1.1.Free o) : r.1.2.object = some o ∨ W := by
  obtain ⟨free', h'⟩ := h.stepped hp hr
  have hafter : r.2.after free = some free' := by
    rw [← h'.stack, freeList_snoc, h.stack]
    rfl
  obtain ⟨hout, hfree⟩ := hc'
  rw [h.free_iff] at hc
  rw [h'.free_iff] at hfree
  cases hr with
  | stay | store o' count node =>
    obtain rfl := Option.some.inj hafter
    exact hc ⟨hout, hfree⟩
  | reload hpo =>
    obtain rfl := Option.some.inj hafter
    exact (hc ⟨hout, hfree⟩).imp_left fun ho => hpo.symm.trans ho
  | get | readNext count node =>
    obtain rfl := Option.some.inj hafter
    exact .inr ((hc ⟨hout, hfree⟩).resolve_left nofun)
  | found hpo hnode =>
    obtain rfl := Option.some.inj hafter
    exact .inr ((hc ⟨hout, hfree⟩).resolve_left fun ho => absurd (hpo.symm.trans ho) nofun)
  | null hpo hnode =>
    have hempty : free = [] := (hnode ▸ h.leads).eq_nil
    refine .inr ((hc ⟨hout, ?_⟩).resolve_left fun ho => absurd (hpo.symm.trans ho) nofun)
    rw [hempty]
    exact List.not_mem_nil
  | @pop node next hnode =>
    obtain ⟨rest, rfl, -⟩ := (hnode ▸ h.leads).exists_cons
    obtain rfl : rest = free' := Option.some.inj ((if_pos rfl).symm.trans hafter)
    have hne : o ≠ node := by
      rintro rfl
      exact absurd ((Function.update_self ..).symm.trans hout) nofun
    have hout' : c.out o = false := (Function.update_of_ne hne ..).symm.trans hout
    refine .inr ((hc ⟨hout', fun hmem => ?_⟩).resolve_left nofun)
    exact hfree ((List.mem_cons.mp hmem).resolve_left hne)
  | @bring o' hout' =>
    obtain rfl := Option.some.inj hafter
    by_cases hne : o = o'
    · exact .inl (congrArg some hne.symm)
    · have houtside : c.out o = false := (Function.update_of_ne hne ..).symm.trans hout
      exact .inr ((hc ⟨houtside, hfree⟩).resolve_left nofun)
  | push o' =>
    have hmem : o' ∉ free := fun hmem => hp.1.free (h.free_iff.mpr hmem)
    obtain rfl : o' :: free = free' := Option.some.inj ((if_neg hmem).symm.trans hafter)
    rw [List.mem_cons, not_or] at hfree
    exact .inr ((hc ⟨hout, hfree.2⟩).resolve_left fun ho => hfree.1 (Option.some.inj ho).symm)

/-! ## Runs -/

theorem stable (capacity : ℕ) : Stable (τ := τ) act
    (fun es c => ∃ free, c.Linked capacity es free) (fun _ _ c p => c.Knows capacity p)
    Apart := by
  refine ⟨fun p q h o hq hp => h o hp hq, fun t i es c p ⟨free, h⟩ hp => ?_,
    fun t i u es c p q _ ⟨free, h⟩ hp hq hpq => ?_⟩
  · exact ⟨h.stepped hp (stepped t i c p), (stepped t i c p).knows h hp⟩
  · exact ⟨hq.stepped h hp hpq (stepped t i c p), (stepped t i c p).apart hq hpq⟩

/-- The nodes of the arena are linked in their order. -/
theorem leads_arena : ∀ (k n : ℕ), n + k + 1 = capacity →
    Leads (fun i => if i + 1 < capacity then some (i + 1) else none) (some n)
      (List.range' n (k + 1))
  | 0, n, h => ⟨rfl, if_neg (by omega)⟩
  | k + 1, n, h => by
    have hnext : (if n + 1 < capacity then some (n + 1) else none) = some (n + 1) :=
      if_pos (by omega)
    have htail := leads_arena k (n + 1) (by omega : n + 1 + k + 1 = capacity)
    rw [← hnext] at htail
    exact ⟨rfl, htail⟩

theorem linked_start (hpos : 0 < capacity) :
    Linked capacity [] (start (τ := τ) capacity).shared (List.range capacity) := by
  refine ⟨rfl, ?_, List.nodup_range, fun o ho => ⟨List.mem_range.mp ho, rfl⟩, nofun⟩
  obtain ⟨k, rfl⟩ : ∃ k, capacity = k + 1 := ⟨capacity - 1, by omega⟩
  rw [List.range_eq_range']
  exact leads_arena k 0 (by omega)

variable [DecidableEq τ]

theorem outline_run (hpos : 0 < capacity) (past : List (τ × PoolTurn)) :
    Outline (fun es c => ∃ free, c.Linked capacity es free) (fun _ _ c p => c.Knows capacity p)
      Apart (run (Threads.step act) (start capacity) past).2
      (run (Threads.step act) (start capacity) past).1 :=
  Threads.outline_run (stable capacity) past
    ⟨⟨_, linked_start hpos⟩, fun _ => trivial, fun _ _ _ => nofun⟩

/-- Every object that is neither free nor in use is some thread's. -/
def Found (capacity : ℕ) (s : State τ CCObjectPool PoolPlace) : Prop :=
  ∀ o < capacity, s.shared.out o = false ∧ ¬s.shared.Free o → ∃ u, (s.place u).object = some o

theorem Found.step {s : State τ CCObjectPool PoolPlace} (hs : Found capacity s)
    (hlinked : ∃ free, s.shared.Linked capacity es free) (t : τ × PoolTurn)
    (hp : s.shared.Knows capacity (s.place t.1)) : Found capacity (Threads.step act s t).1 := by
  obtain ⟨free, h⟩ := hlinked
  exact fun o ho => someone_step act (A := fun c : CCObjectPool => c.out o = false ∧ ¬c.Free o)
    (P := fun p : PoolPlace => p.object = some o) (hs o ho) t fun _ hW =>
      (stepped t.1 t.2 s.shared (s.place t.1)).missing h hp hW

theorem found_run (hpos : 0 < capacity) (past : List (τ × PoolTurn)) :
    Found capacity (run (Threads.step act) (start capacity) past).1 := by
  have h : Outline _ _ _ _ (run (Threads.step (τ := τ) act) (start capacity) past).1 ∧
      Found capacity (run (Threads.step act) (start capacity) past).1 :=
    run_history (fun es s => Outline (fun es c => ∃ free, c.Linked capacity es free)
        (fun _ _ c p => c.Knows capacity p) Apart es s ∧ Found capacity s)
      (fun _ _ t h => ⟨outline_step (stable capacity) h.1 t, h.2.step h.1.shared t (h.1.place t.1)⟩)
      past ⟨outline_run hpos [], fun o ho hmissing => ?_⟩
  · exact h.2
  · exact absurd ((linked_start hpos).free_iff.mpr (List.mem_range.mpr ho)) hmissing.2

/-- In every run the pool is a stack of the free objects : `GetObject` gives the one that was freed
last, and nothing only if there is none. No object is free and in use, or free or in use and on
its way back, or on its way back twice, and each is one of these. -/
theorem stack (capacity : ℕ) (hpos : 0 < capacity) (past : List (τ × PoolTurn)) :
    let r := run (Threads.step act) (start capacity) past
    ∃ free, freeList capacity r.2 = some free ∧ free.Nodup ∧
      (∀ o ∈ free, o < capacity ∧ r.1.shared.out o = false) ∧
      (∀ u o, (r.1.place u).object = some o → o ∉ free ∧ r.1.shared.out o = false) ∧
      (∀ u v o, (r.1.place u).object = some o → (r.1.place v).object = some o → u = v) ∧
      ∀ o < capacity, o ∈ free ∨ r.1.shared.out o = true ∨
        ∃ u, (r.1.place u).object = some o := by
  intro r
  have hout := outline_run hpos past
  obtain ⟨free, h⟩ := hout.shared
  refine ⟨free, h.stack, h.nodup, h.free, fun u o ho => ?_, fun u v o hu hv => ?_, fun o ho => ?_⟩
  · have hback := (hout.place u).back ho
    exact ⟨fun hmem => hback.free (h.free_iff.mpr hmem), hback.out⟩
  · by_contra huv
    exact hout.apart u v huv o hu hv
  · by_cases hmem : o ∈ free
    · exact .inl hmem
    · by_cases hused : r.1.shared.out o = true
      · exact .inr (.inl hused)
      · refine .inr (.inr (found_run hpos past o ho ⟨Bool.eq_false_iff.mpr hused, ?_⟩))
        exact fun hfree => hmem (h.free_iff.mp hfree)

/-- A thread has read the head and what comes after it, when another gets two objects and brings
the first of them back. -/
def overtaken : List (Bool × PoolTurn) :=
  [.get, .go false, .go false].map (Prod.mk false) ++
    [.get, .go false, .go false, .go false, .get, .go false, .go false, .go false,
      .release 0, .go false, .go false, .go false].map (Prod.mk true)

/-- The head is the one it has read, with another count : the thread reads anew what comes after
it, and gets it. Meanwhile the other object is on its way back. -/
theorem stack_overtaken :
    let past := overtaken ++ [(false, .go false), (false, .go false), (false, .go false),
      (true, .release 1), (true, .go false)]
    let r := run (Threads.step act) (start 3) past
    ∃ free, freeList 3 r.2 = some free ∧ free = [2] ∧ r.1.shared.out 0 = true ∧
      ∀ o < 3, o ∈ free ∨ r.1.shared.out o = true ∨ ∃ u, (r.1.place u).object = some o := by
  intro past r
  obtain ⟨free, hfree, -, -, -, -, hall⟩ := stack 3 (Nat.succ_pos 2) past
  exact ⟨free, hfree, (Option.some.inj hfree).symm, rfl, hall⟩

/-! ## A thread that runs alone -/

/-- The events of a thread that makes a call and goes on alone. -/
def eventsAlone (s : State τ CCObjectPool PoolPlace) (t : τ) (call : PoolTurn) (n : ℕ) :
    List PoolEvent :=
  (run (Threads.step act) s ((call :: List.replicate n (.go false)).map (Prod.mk t))).2

/-- After any run, a thread that is outside and runs alone gets the object that was freed last, or
learns that there is none, and brings back any object that is in use. -/
theorem alone (capacity : ℕ) (hpos : 0 < capacity) (past : List (τ × PoolTurn)) (t : τ)
    (hout : (run (Threads.step act) (start capacity) past).1.place t = .outside) :
    let r := run (Threads.step act) (start capacity) past
    ∃ free, freeList capacity r.2 = some free ∧
      (∀ o rest, free = o :: rest → eventsAlone r.1 t .get 3 = [.quiet, .quiet, .quiet, .got o]) ∧
      (free = [] → eventsAlone r.1 t .get 1 = [.quiet, .null]) ∧
      ∀ o, r.1.shared.out o = true →
        eventsAlone r.1 t (.release o) 3 = [.quiet, .quiet, .quiet, .released o] := by
  intro r
  obtain ⟨free, h⟩ := (outline_run hpos past).shared
  refine ⟨free, h.stack, fun o rest hfree => ?_, fun hfree => ?_, fun o ho => ?_⟩
  · have hnode : r.1.shared.node = some o := by
      have hleads := h.leads
      rw [hfree] at hleads
      exact hleads.1
    rw [eventsAlone, run_alone, hout]
    simp [List.replicate, act, goOn, find, hnode]
  · have hnode : r.1.shared.node = none := by
      have hleads := h.leads
      rw [hfree] at hleads
      exact hleads
    rw [eventsAlone, run_alone, hout]
    simp [List.replicate, act, goOn, find, hnode]
  · rw [eventsAlone, run_alone, hout]
    simp [List.replicate, act, goOn, ho]

/-- While a thread is in its call, another gets the object it brought back itself, and brings back
the other one. -/
theorem alone_overtaken :
    let r := run (Threads.step act) (start 3) overtaken
    eventsAlone r.1 true .get 3 = [.quiet, .quiet, .quiet, .got 0] ∧
      eventsAlone r.1 true (.release 1) 3 = [.quiet, .quiet, .quiet, .released 1] := by
  intro r
  obtain ⟨free, hfree, hget, -, hrelease⟩ := alone 3 (Nat.succ_pos 2) overtaken true rfl
  exact ⟨hget 0 [2] (Option.some.inj hfree).symm, hrelease 1 rfl⟩

end CCObjectPool

end Mastiff.Cyber
