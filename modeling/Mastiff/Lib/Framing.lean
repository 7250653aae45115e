import Mastiff.Lib.Machine

/-!
# Framing a stream

A `Scanner` looks at what has come of a stream and takes a piece from the front, giving
out what it found in it, or waits for more. What it takes does not depend on what comes
after. `scan` goes on until the scanner waits, and `Walk` is any part of such a scan.

`scan_append` : scanning a stream in two pieces, the second put after what was left of the
first, is scanning it at once. A receiver may also leave short contents alone (`gated`);
whatever chunks it receives, it has come to a point of the scan of their concatenation
(`walk_receive`), so what it has given out is a prefix of what that scan gives out
(`Walk.scan_eq`).
-/

open Machine

namespace Framing

/-- A scanner of streams over `α` that gives out `ο`s. `look l = some (n, os)` takes `n`
elements and gives out `os`, and `look l = none` waits. -/
structure Scanner (α ο : Type) where
  look : List α → Option (ℕ × List ο)
  /-- It takes something. -/
  pos : ∀ {l n os}, look l = some (n, os) → 0 < n
  /-- It takes what is there. -/
  le : ∀ {l n os}, look l = some (n, os) → n ≤ l.length
  /-- It takes the same whatever follows. -/
  append : ∀ {l n os}, look l = some (n, os) → ∀ m, look (l ++ m) = some (n, os)

namespace Scanner

variable {α ο : Type}

/-- What a scan gives out, and what it leaves. -/
def scan (S : Scanner α ο) (l : List α) : List ο × List α :=
  match _h : S.look l with
  | none => ([], l)
  | some (n, os) => (os ++ (S.scan (l.drop n)).1, (S.scan (l.drop n)).2)
termination_by l.length
decreasing_by
  all_goals
    have hpos := S.pos _h
    have hle := S.le _h
    rw [List.length_drop]
    omega

variable {S : Scanner α ο} {l r : List α} {os os' : List ο} {n : ℕ}

theorem scan_of_none (h : S.look l = none) : S.scan l = ([], l) := by
  rw [scan]
  split
  · rfl
  · next heq =>
    rw [h] at heq
    cases heq

theorem scan_of_some (h : S.look l = some (n, os)) :
    S.scan l = (os ++ (S.scan (l.drop n)).1, (S.scan (l.drop n)).2) := by
  rw [scan]
  split
  · next heq =>
    rw [h] at heq
    cases heq
  · next n' os' heq =>
    rw [h] at heq
    obtain ⟨rfl, rfl⟩ := Prod.mk.inj (Option.some.inj heq)
    rfl

/-! ## Walks -/

/-- A scan of `l` comes to the point where it has given out `os` and `r` is left. -/
inductive Walk (S : Scanner α ο) : List α → List ο → List α → Prop
  | here (l : List α) : Walk S l [] l
  | look {l r : List α} {n : ℕ} {os os' : List ο} (h : S.look l = some (n, os))
      (hw : Walk S (l.drop n) os' r) : Walk S l (os ++ os') r

/-- A walk goes on when more comes. -/
theorem Walk.append (hw : Walk S l os r) (m : List α) : Walk S (l ++ m) os (r ++ m) := by
  induction hw with
  | here l => exact .here _
  | look h hw ih =>
    refine .look (S.append h m) ?_
    rwa [List.drop_append_of_le_length (S.le h)]

theorem Walk.trans {s : List α} (hw : Walk S l os r) (hw' : Walk S r os' s) :
    Walk S l (os ++ os') s := by
  induction hw with
  | here l => exact hw'
  | look h hw ih =>
    rw [List.append_assoc]
    exact .look h (ih hw')

/-- The walk of one look. -/
theorem Walk.single (h : S.look l = some (n, os)) : Walk S l os (l.drop n) := by
  have hw := Walk.look h (.here (l.drop n))
  rwa [List.append_nil] at hw

/-- A walk leaves an end of its stream. -/
theorem Walk.suffix (hw : Walk S l os r) : r <:+ l := by
  induction hw with
  | here l => exact List.suffix_refl l
  | look h hw ih => exact ih.trans (List.drop_suffix _ _)

/-- The scan goes on from wherever a walk has come. -/
theorem Walk.scan_eq (hw : Walk S l os r) : S.scan l = (os ++ (S.scan r).1, (S.scan r).2) := by
  induction hw with
  | here l => simp
  | look h hw ih => rw [scan_of_some h, ih, List.append_assoc]

variable (S) in
/-- A scan is a walk to where the scanner waits. -/
theorem walk_scan (l : List α) : Walk S l (S.scan l).1 (S.scan l).2 ∧
    S.look (S.scan l).2 = none := by
  induction l using scan.induct S with
  | case1 l h =>
    rw [scan_of_none h]
    exact ⟨.here l, h⟩
  | case2 l n os h ih =>
    rw [scan_of_some h]
    exact ⟨.look h ih.1, ih.2⟩

/-- Of two walks between the same places, both give out the same. -/
theorem Walk.unique (hw : Walk S l os r) (hw' : Walk S l os' r) : os = os' := by
  have h := hw.scan_eq.symm.trans hw'.scan_eq
  exact List.append_cancel_right (Prod.mk.inj h).1

/-- A walk has gone nowhere or begins with a look. -/
theorem Walk.cases_head (hw : Walk S l os r) :
    (os = [] ∧ r = l) ∨
      ∃ n o o', S.look l = some (n, o) ∧ Walk S (l.drop n) o' r ∧ os = o ++ o' := by
  cases hw with
  | here => exact .inl ⟨rfl, rfl⟩
  | look h hw => exact .inr ⟨_, _, _, h, hw, rfl⟩

/-- Of two walks from one place, one goes on from the other. -/
theorem Walk.comparable (hw : Walk S l os r) {r' : List α} (hw' : Walk S l os' r') :
    (∃ o, Walk S r o r') ∨ ∃ o, Walk S r' o r := by
  induction hw generalizing os' with
  | here l => exact .inl ⟨os', hw'⟩
  | look h hw ih =>
    rcases hw'.cases_head with ⟨rfl, rfl⟩ | ⟨n, o, o', h', hrest', rfl⟩
    · exact .inr ⟨_, .look h hw⟩
    · rw [h] at h'
      obtain ⟨rfl, rfl⟩ := Prod.mk.inj (Option.some.inj h')
      exact ih hrest'

/-- A walk that has left a place after which the scanner waits has given out what it found
there. -/
theorem Walk.eq_of_look (hw : Walk S l os r) (hlook : S.look l = some (n, os'))
    (hwait : S.look (l.drop n) = none) (hne : r ≠ l) : os = os' ∧ r = l.drop n := by
  rcases hw.cases_head with ⟨-, rfl⟩ | ⟨n', o, o', h, hrest, rfl⟩
  · exact absurd rfl hne
  · rw [hlook] at h
    obtain ⟨rfl, rfl⟩ := Prod.mk.inj (Option.some.inj h)
    rcases hrest.cases_head with ⟨rfl, rfl⟩ | ⟨k, p, p', hnext, -, -⟩
    · exact ⟨List.append_nil _, rfl⟩
    · rw [hwait] at hnext
      cases hnext

/-- A scan comes to the place `n` exactly when no look on its way there reaches past it or
waits. -/
theorem exists_walk_drop_iff {n : ℕ} (hn : n ≤ l.length) :
    (∃ os, Walk S l os (l.drop n)) ↔
      ∀ i < n, ∀ os, Walk S l os (l.drop i) →
        ∃ k os', S.look (l.drop i) = some (k, os') ∧ i + k ≤ n := by
  constructor
  · rintro ⟨os, hw⟩ i hi os' hw'
    rcases hw.comparable hw' with ⟨o, ho⟩ | ⟨o, ho⟩
    · have hle := ho.suffix.length_le
      simp only [List.length_drop] at hle
      omega
    · rcases ho.cases_head with ⟨-, heq⟩ | ⟨k, o, o', hlook, hrest, -⟩
      · have hlen := congrArg List.length heq
        simp only [List.length_drop] at hlen
        omega
      · refine ⟨k, o, hlook, ?_⟩
        have hle := hrest.suffix.length_le
        have hk := S.le hlook
        simp only [List.length_drop] at hle hk
        omega
  · intro h
    -- from a place the scan comes to, on to `n`
    have hgo : ∀ d i os, i + d = n → Walk S l os (l.drop i) → ∃ os', Walk S l os' (l.drop n) := by
      intro d
      induction d using Nat.strongRecOn with
      | ind d ih =>
        intro i os hd hw
        rcases Nat.eq_zero_or_pos d with rfl | hpos
        · exact ⟨os, by rwa [← hd]⟩
        · obtain ⟨k, os', hlook, hk⟩ := h i (by omega) os hw
          have hkpos := S.pos hlook
          have hnext := hw.trans (.single hlook)
          rw [List.drop_drop] at hnext
          exact ih (d - k) (by omega) (i + k) _ (by omega) hnext
    exact hgo n 0 [] (Nat.zero_add n) (.here l)

/-! ## Receivers -/

/-- Leave fewer than `threshold` elements alone, and scan more. -/
def gated (S : Scanner α ο) (threshold : ℕ) (l : List α) : List ο × List α :=
  if l.length < threshold then ([], l) else S.scan l

variable (S) in
theorem walk_gated (threshold : ℕ) (l : List α) :
    Walk S l (S.gated threshold l).1 (S.gated threshold l).2 := by
  rw [gated]
  split_ifs
  · exact .here l
  · exact (walk_scan S l).1

/-- A receiver is left with fewer elements than its threshold if the scanner waits on no
more. -/
theorem length_gated_lt {threshold : ℕ} (hwait : ∀ l, S.look l = none → l.length < threshold)
    (l : List α) : (S.gated threshold l).2.length < threshold := by
  rw [gated]
  split_ifs with h
  · exact h
  · exact hwait _ (walk_scan S l).2

/-- Receive a chunk after what is unread. -/
def receive (S : Scanner α ο) (threshold : ℕ) (unread chunk : List α) : List α × List ο :=
  ((S.gated threshold (unread ++ chunk)).2, (S.gated threshold (unread ++ chunk)).1)

variable (S) in
/-- The chunks of a receiver are walked through. -/
theorem walk_receive (threshold : ℕ) (chunks : List (List α)) {l unread : List α} {os : List ο}
    (hw : Walk S l os unread) :
    Walk S (l ++ chunks.flatten)
      (os ++ (run (S.receive threshold) unread chunks).2.flatten)
      (run (S.receive threshold) unread chunks).1 := by
  induction chunks generalizing l unread os with
  | nil => simpa using hw
  | cons chunk chunks ih =>
    have hwalk := (hw.append chunk).trans (walk_gated S threshold (unread ++ chunk))
    have hrest := ih hwalk
    rw [List.append_assoc, List.append_assoc] at hrest
    exact hrest

theorem length_receive_lt {threshold : ℕ} (hwait : ∀ l, S.look l = none → l.length < threshold)
    (chunks : List (List α)) {unread : List α} (h : unread.length < threshold) :
    (run (S.receive threshold) unread chunks).1.length < threshold := by
  induction chunks generalizing unread with
  | nil => exact h
  | cons chunk chunks ih => exact ih (length_gated_lt hwait _)

/-! ### Receivers that scan everything -/

theorem look_nil (S : Scanner α ο) : S.look [] = none := by
  cases h : S.look [] with
  | none => rfl
  | some r =>
    have hpos := S.pos h
    have hle := S.le h
    simp only [List.length_nil] at hle
    omega

/-- A walk to where the scanner waits is the scan. -/
theorem Walk.scan_eq_of_none (hw : Walk S l os r) (h : S.look r = none) : S.scan l = (os, r) := by
  rw [hw.scan_eq, scan_of_none h, List.append_nil]

/-- A receiver that leaves alone what its scanner waits on has scanned all it received. -/
theorem look_receive {threshold : ℕ} (hshort : ∀ l, l.length < threshold → S.look l = none)
    (chunks : List (List α)) {unread : List α} (h : S.look unread = none) :
    S.look (run (S.receive threshold) unread chunks).1 = none := by
  induction chunks generalizing unread with
  | nil => exact h
  | cons chunk chunks ih =>
    refine ih ?_
    change S.look (S.gated threshold (unread ++ chunk)).2 = none
    rw [gated]
    split_ifs with hlt
    · exact hshort _ hlt
    · exact (walk_scan S _).2

end Scanner

end Framing
