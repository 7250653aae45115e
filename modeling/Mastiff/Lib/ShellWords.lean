import Mathlib.Data.List.Basic

/-!
# The words of a shell command

`shellWords` splits a command line by the quoting rules of the POSIX shell. It gives the
words of a line that is a single simple command whose words are all literal, and nothing
for a line with an operator, an expansion, a pathname pattern or an open quotation.
Assignments and reserved words, which only the first words of a command can be, are not
told apart.

A plain text is a word of its own (`foldlM_plain`).
-/

namespace Shell

/-! ## The reader -/

/-- How the next character is read. -/
inductive Mode
  | plain
  | escaped
  | single
  | double
  | doubleEscaped
  | comment
  deriving DecidableEq

/-- The words so far, and the word that has been started. -/
structure Reader where
  mode : Mode := .plain
  word : Option (List Char) := none
  words : List (List Char) := []
  deriving DecidableEq

/-- Operators and the newline, and what starts an expansion or a pathname pattern. -/
def special : List Char :=
  "|&;<>()\n$`*?[".toList

/-- What a backslash quotes between quotation marks. -/
def doubleSpecial : List Char :=
  "$`\"\\".toList

namespace Reader

def add (r : Reader) (c : Char) : Reader :=
  { r with word := some (r.word.getD [] ++ [c]) }

/-- Start a word, if none has been started. -/
def openWord (r : Reader) : Reader :=
  { r with word := some (r.word.getD []) }

def endWord (r : Reader) : Reader :=
  { r with word := none, words := r.words ++ r.word.toList }

/-- Read a character outside of quotations. -/
def readPlain (r : Reader) (c : Char) : Option Reader :=
  if c = ' ' ∨ c = '\t' then some r.endWord
  else if c = '\x5c' then some { r with mode := .escaped }
  else if c = '\x27' then some { r.openWord with mode := .single }
  else if c = '\x22' then some { r.openWord with mode := .double }
  else if r.word = none ∧ c = '#' then some { r with mode := .comment }
  else if c ∈ special ∨ (r.word = none ∧ c = '~') then none
  else some (r.add c)

/-- Read a character between quotation marks. -/
def readDouble (r : Reader) (c : Char) : Option Reader :=
  if c = '\x22' then some { r with mode := .plain }
  else if c = '\x5c' then some { r with mode := .doubleEscaped }
  else if c = '$' ∨ c = '\x60' then none
  else some (r.add c)

/-- Read a character. -/
def read (r : Reader) (c : Char) : Option Reader :=
  match r.mode with
  | .plain => r.readPlain c
  | .escaped =>
    -- an escaped newline continues the line
    if c = '\n' then some { r with mode := .plain } else some { r.add c with mode := .plain }
  | .single => if c = '\x27' then some { r with mode := .plain } else some (r.add c)
  | .double => r.readDouble c
  | .doubleEscaped =>
    if c = '\n' then some { r with mode := .double }
    else if c ∈ doubleSpecial then some { r.add c with mode := .double }
    else some { (r.add '\x5c').add c with mode := .double }
  | .comment => if c = '\n' then none else some r

/-- The words at the end of the line. -/
def finish (r : Reader) : Option (List (List Char)) :=
  match r.mode with
  | .plain | .comment => some r.endWord.words
  | _ => none

end Reader

/-- The words of a command line that is a single simple command of literal words. -/
def shellWords (line : String) : Option (List String) :=
  ((line.toList.foldlM Reader.read {}).bind Reader.finish).map fun ws => ws.map String.ofList

/-! ## Literal text -/

/-- A character that stands for itself wherever it stands. -/
def IsPlain (c : Char) : Prop :=
  c ∉ [' ', '\t', '\x5c', '\x27', '\x22', '#', '~'] ∧ c ∉ special

instance (c : Char) : Decidable (IsPlain c) :=
  inferInstanceAs (Decidable (_ ∧ _))

theorem readPlain_of_isPlain {c : Char} (hc : IsPlain c) (r : Reader) :
    r.readPlain c = some (r.add c) := by
  obtain ⟨hquote, hspecial⟩ := hc
  simp only [List.mem_cons, List.not_mem_nil, or_false, not_or] at hquote
  obtain ⟨hblank, htab, hback, hsingle, hdouble, hcomment, htilde⟩ := hquote
  simp [Reader.readPlain, *]

/-- Plain text goes on with the word, or is one of its own. -/
theorem foldlM_plain {cs : List Char} (hcs : ∀ c ∈ cs, IsPlain c) (hne : cs ≠ [])
    (word : Option (List Char)) (words : List (List Char)) :
    cs.foldlM Reader.read ⟨.plain, word, words⟩ =
      some ⟨.plain, some (word.getD [] ++ cs), words⟩ := by
  induction cs generalizing word with
  | nil => exact absurd rfl hne
  | cons c cs ih =>
    obtain ⟨hc, hcs⟩ := List.forall_mem_cons.1 hcs
    have hread : Reader.read ⟨.plain, word, words⟩ c =
        some ⟨.plain, some (word.getD [] ++ [c]), words⟩ :=
      readPlain_of_isPlain hc _
    rw [List.foldlM_cons, hread, Option.bind_eq_bind, Option.bind_some]
    by_cases hnil : cs = []
    · subst hnil
      rfl
    · rw [ih hcs hnil, Option.getD_some, List.append_assoc, List.singleton_append]

/-- A line is split by splitting what stands after a part of it that has been read. -/
theorem shellWords_append {u v : String} {r : Reader}
    (hu : u.toList.foldlM Reader.read {} = some r) :
    shellWords (u ++ v) =
      ((v.toList.foldlM Reader.read r).bind Reader.finish).map fun ws => ws.map String.ofList := by
  rw [shellWords, String.toList_append, List.foldlM_append, hu, Option.bind_eq_bind,
    Option.bind_some]

example : shellWords "run 'a b'\"c\\\"\" d\\;e # f" = some ["run", "a bc\"", "d;e"] := by decide

end Shell
