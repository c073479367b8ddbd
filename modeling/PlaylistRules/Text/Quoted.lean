/-!
# Quoted text

A text between two quotation marks, in which a mark that belongs to the text is written twice.
Names of tables and columns are quoted with `"` and text literals with `'`.

## Main definitions

* `Text.quoted` : the quoted form of a text.
* `Text.readQuoted?` : a quoted text from the front of a longer one, with what follows it.
* `Text.quoteName`, `Text.quoteLiteral` : quoted names and text literals.

## Main results

* `Text.readQuoted?_quoted` : the quoted form reads back to the text, unless the following text
  continues it with another mark.
-/

namespace PlaylistRules.Text

/-- A text with every quotation mark written twice. -/
def doubled (mark : Char) : List Char → List Char
  | [] => []
  | c :: cs => if c = mark then mark :: mark :: doubled mark cs else c :: doubled mark cs

/-- A text between quotation marks. -/
def quoted (mark : Char) (cs : List Char) : List Char :=
  mark :: (doubled mark cs ++ [mark])

/-- The text up to the closing mark, and what follows the mark. Two marks in a row stand for one
that belongs to the text. -/
def readDoubled? (mark : Char) : List Char → Option (List Char × List Char)
  | [] => none
  | [c] => if c = mark then some ([], []) else none
  | c :: d :: cs =>
    if c = mark then
      if d = mark then (readDoubled? mark cs).map fun (body, rest) => (mark :: body, rest)
      else some ([], d :: cs)
    else (readDoubled? mark (d :: cs)).map fun (body, rest) => (c :: body, rest)

/-- A quoted text from the front of a longer one, with what follows it. -/
def readQuoted? (mark : Char) : List Char → Option (List Char × List Char)
  | [] => none
  | c :: cs => if c = mark then readDoubled? mark cs else none

/-- The quoted form of a name. -/
def quoteName (name : String) : String :=
  String.ofList (quoted '"' name.toList)

/-- The quoted form of a text literal. -/
def quoteLiteral (text : String) : String :=
  String.ofList (quoted '\x27' text.toList)

private theorem readDoubled?_mark_of_head?_ne {mark : Char} {rest : List Char}
    (h : rest.head? ≠ some mark) : readDoubled? mark (mark :: rest) = some ([], rest) := by
  cases rest with
  | nil => simp [readDoubled?]
  | cons d ds =>
    have hd : d ≠ mark := fun e => h (by simp [e])
    simp [readDoubled?, hd]

private theorem readDoubled?_doubled {mark : Char} (cs : List Char) {rest : List Char}
    (h : rest.head? ≠ some mark) :
    readDoubled? mark (doubled mark cs ++ mark :: rest) = some (cs, rest) := by
  induction cs with
  | nil => simpa [doubled] using readDoubled?_mark_of_head?_ne h
  | cons c cs ih =>
    by_cases hc : c = mark
    · simp [doubled, hc, readDoubled?, ih]
    · obtain ⟨d, ds, hds⟩ : ∃ d ds, doubled mark cs ++ mark :: rest = d :: ds := by
        cases hcs : doubled mark cs with
        | nil => exact ⟨mark, rest, rfl⟩
        | cons d ds => exact ⟨d, ds ++ mark :: rest, rfl⟩
      rw [hds] at ih
      simp [doubled, hc, hds, readDoubled?, ih]

/-- **A quoted text reads back.** The text that follows must not continue it with a mark. -/
theorem readQuoted?_quoted {mark : Char} (cs : List Char) {rest : List Char}
    (h : rest.head? ≠ some mark) :
    readQuoted? mark (quoted mark cs ++ rest) = some (cs, rest) := by
  simpa [quoted, readQuoted?] using readDoubled?_doubled cs h

end PlaylistRules.Text
