import Mastiff.Lib.Lookup

/-!
# The transactor

`Transactor` (`chassis/devices/transactor.h`) keeps a handler for each pair of a topic and
a message type, in an unordered map whose key is the two names run together. A message that
goes out is given to the first entry, in the order of the map, whose key contains the topic,
or the message's type if no topic is given.

`sentRight_iff` : in every order of the map, a message goes to its own handler exactly when
every key in which the topic (or the type) occurs belongs to a handler of its own.
-/

set_option linter.unusedSectionVars false

namespace Mastiff.Device

open Lookup

/-! ## Registrations -/

variable {H : Type}

/-- A call of `RegisterPublishers<MessageT>(p, tpk)`, with the name of the message type. -/
structure Registration (H : Type) where
  topic : String
  typeName : String
  handler : H

namespace Transactor

/-- The key of `msg_publisher_pair_`. -/
def Key (topic typeName : String) : String :=
  topic ++ typeName

/-- `RegisterPublishers`, which assigns to the entry of the key. -/
def registerPublishers (pairs : List (String × H)) (r : Registration H) : List (String × H) :=
  pairs.filter (fun x => x.1 ≠ Key r.topic r.typeName) ++ [(Key r.topic r.typeName, r.handler)]

/-- `msg_publisher_pair_` after some registrations, in one of its orders. -/
def publisherPairs (rs : List (Registration H)) : List (String × H) :=
  rs.foldl registerPublishers []

/-- `OnTransferMessageOut` of a message of the type `typeName`, with the map in the order
`pairs` : the handler that is called, if any, and otherwise the return value is -1. -/
def onTransferMessageOut (pairs : List (String × H)) (typeName tpk : String) : Option H :=
  (pairs.find? fun x => if tpk ≠ "" then finds x.1 tpk else finds x.1 typeName).map Prod.snd

/-! ## Handlers of one's own -/

/-- The last handler registered for a pair of which `p` holds. -/
def lastHandler (p : Registration H → Bool) (rs : List (Registration H)) : Option H :=
  (rs.reverse.find? p).map Registration.handler

/-- The handler registered for the topic and the type. -/
def handlerFor (rs : List (Registration H)) (topic typeName : String) : Option H :=
  lastHandler (fun r => r.topic = topic ∧ r.typeName = typeName) rs

/-- The handler under a key. -/
def handlerAt (rs : List (Registration H)) (key : String) : Option H :=
  lastHandler (fun r => Key r.topic r.typeName = key) rs

/-- The handlers of a message : the one of its topic and type, or without a topic those of
its type. -/
def Own (rs : List (Registration H)) (typeName tpk : String) (h : H) : Prop :=
  if tpk ≠ "" then handlerFor rs tpk typeName = some h
  else ∃ topic, handlerFor rs topic typeName = some h

/-- A message is given to a handler of its own, and to none exactly if it has none. -/
def SentRight (rs : List (Registration H)) (typeName tpk : String) (sent : Option H) : Prop :=
  (∀ h, sent = some h → Own rs typeName tpk h) ∧ (sent = none → ∀ h, ¬Own rs typeName tpk h)

/-- Every key in which the topic occurs, or the type if there is no topic, has a handler of
the message's own. -/
def OwnKeys (rs : List (Registration H)) (typeName tpk : String) : Prop :=
  ∀ key h, handlerAt rs key = some h → finds key (if tpk ≠ "" then tpk else typeName) = true →
    Own rs typeName tpk h

/-! ## The map -/

theorem lastHandler_concat (p : Registration H → Bool) (rs : List (Registration H))
    (r : Registration H) :
    lastHandler p (rs ++ [r]) = if p r = true then some r.handler else lastHandler p rs := by
  rw [lastHandler, List.reverse_append, List.reverse_singleton, List.singleton_append,
    List.find?_cons]
  cases hp : p r <;> simp [lastHandler]

/-- A registration under a condition shows under every condition that it implies. -/
theorem lastHandler_isSome_of_imp {p q : Registration H → Bool} (hpq : ∀ r, p r = true → q r = true)
    {rs : List (Registration H)} (h : (lastHandler p rs).isSome = true) :
    (lastHandler q rs).isSome = true := by
  simp only [lastHandler, Option.isSome_map, List.find?_isSome] at h ⊢
  obtain ⟨r, hr, hp⟩ := h
  exact ⟨r, hr, hpq r hp⟩

/-- The map has each key once, with the handler last registered under it. -/
theorem mem_publisherPairs_iff (rs : List (Registration H)) (key : String) (h : H) :
    (key, h) ∈ publisherPairs rs ↔ handlerAt rs key = some h := by
  induction rs using List.reverseRecOn with
  | nil => simp [publisherPairs, handlerAt, lastHandler]
  | append_singleton rs r ih =>
    rw [publisherPairs, List.foldl_append, List.foldl_cons, List.foldl_nil, registerPublishers,
      List.mem_append, List.mem_filter, ← publisherPairs, ih, handlerAt, handlerAt,
      lastHandler_concat]
    by_cases hkey : Key r.topic r.typeName = key
    · subst hkey
      simp [eq_comm]
    · have hne : key ≠ Key r.topic r.typeName := fun h => hkey h.symm
      simp [hkey, hne]

/-- A handler of one's own has an entry under its key. -/
theorem exists_handlerAt {rs : List (Registration H)} {topic typeName : String} {h : H}
    (hf : handlerFor rs topic typeName = some h) :
    ∃ h', (Key topic typeName, h') ∈ publisherPairs rs := by
  have hsome : (handlerAt rs (Key topic typeName)).isSome = true := by
    refine lastHandler_isSome_of_imp (fun r hr => ?_) (Option.isSome_iff_exists.2 ⟨h, hf⟩)
    obtain ⟨rfl, rfl⟩ : r.topic = topic ∧ r.typeName = typeName := by simpa using hr
    simp
  obtain ⟨h', hh'⟩ := Option.isSome_iff_exists.1 hsome
  exact ⟨h', (mem_publisherPairs_iff rs _ h').2 hh'⟩

/-- A handler of the message's own has an entry that the message finds. -/
theorem exists_found {rs : List (Registration H)} {typeName tpk : String} {h : H}
    (hown : Own rs typeName tpk h) :
    ∃ x ∈ publisherPairs rs, finds x.1 (if tpk ≠ "" then tpk else typeName) = true := by
  by_cases htpk : tpk = ""
  · rw [Own, if_neg (not_not.2 htpk)] at hown
    obtain ⟨topic, hf⟩ := hown
    obtain ⟨h', hh'⟩ := exists_handlerAt hf
    rw [if_neg (not_not.2 htpk)]
    exact ⟨_, hh', finds_append_right topic typeName⟩
  · rw [Own, if_pos htpk] at hown
    obtain ⟨h', hh'⟩ := exists_handlerAt hown
    rw [if_pos htpk]
    exact ⟨_, hh', finds_append_left tpk typeName⟩

/-! ## Outgoing messages -/

theorem onTransferMessageOut_eq (pairs : List (String × H)) (typeName tpk : String) :
    onTransferMessageOut pairs typeName tpk =
      (pairs.find? fun x => finds x.1 (if tpk ≠ "" then tpk else typeName)).map Prod.snd := by
  rw [onTransferMessageOut]
  split_ifs <;> rfl

/-- In every order of the map a message is sent right exactly when every key that it could
be taken for has a handler of its own. -/
theorem sentRight_iff (rs : List (Registration H)) (typeName tpk : String) :
    (∀ pairs : List (String × H), pairs.Perm (publisherPairs rs) →
        SentRight rs typeName tpk (onTransferMessageOut pairs typeName tpk)) ↔
      OwnKeys rs typeName tpk := by
  simp only [onTransferMessageOut_eq]
  rw [forall_perm_find?_iff (publisherPairs rs)
    (fun x => finds x.1 (if tpk ≠ "" then tpk else typeName))
    (fun x => SentRight rs typeName tpk (x.map Prod.snd))]
  constructor
  · rintro ⟨hhit, -⟩ key h hat hfinds
    exact (hhit (key, h) ((mem_publisherPairs_iff rs key h).2 hat) hfinds).1 h rfl
  · intro hkeys
    refine ⟨fun x hx hfinds => ⟨?_, fun hnone => by cases hnone⟩, fun hmiss => ⟨?_, ?_⟩⟩
    · rintro h ⟨⟩
      exact hkeys x.1 x.2 ((mem_publisherPairs_iff rs x.1 x.2).1 hx) hfinds
    · intro h hsome
      cases hsome
    · intro _ h hown
      obtain ⟨x, hx, hfinds⟩ := exists_found hown
      rw [hmiss x hx] at hfinds
      cases hfinds

/-- The point clouds of one lidar are given to the publisher of another, whose topic
contains its own. -/
theorem not_sentRight :
    ¬∀ (rs : List (Registration ℕ)) (typeName tpk : String) (pairs : List (String × ℕ)),
      pairs.Perm (publisherPairs rs) →
        SentRight rs typeName tpk (onTransferMessageOut pairs typeName tpk) := by
  intro h
  have hown := (h [⟨"lidar_2", "PointCloud", 2⟩, ⟨"lidar", "PointCloud", 1⟩] "PointCloud" "lidar" _
    (List.Perm.refl _)).1 2 (by decide)
  rw [Own, if_pos (by decide)] at hown
  exact absurd hown (by decide)

end Transactor

end Mastiff.Device
