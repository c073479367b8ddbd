import PlaylistRules.Json.Reader

/-!
# The grammar of JSON

How values are spelled in a text, apart from how a text is read. A spelling tells which texts stand
for which values; blank characters are allowed before every value and before every mark.

## Main definitions

* `Json.Spelling` : which texts stand for which values.
* `Json.SpellsString`, `Json.SkipsString` : strings, and strings whose characters are not needed.
* `Json.SpellsNumeral` : numerals.
* `Json.SpellsRest`, `Json.SpellsMember` : items up to a closing mark, and members with a key.
* `Json.SpellsValue`, `Json.SkipsValue` : values, and values that only have to be grammatical.
* `Json.SpellsOnce` : values where no object repeats a key.
-/

namespace PlaylistRules.Json

variable {α β κ : Type}

/-- Which texts stand for which values. -/
abbrev Spelling (α : Type) := List Char → α → Prop

/-- A text of blank characters. -/
def IsBlank (text : List Char) : Prop :=
  ∀ c ∈ text, isSpace c = true

/-- A value with blank characters before it. -/
def Spaced (spelling : Spelling α) : Spelling α := fun text a =>
  ∃ blanks body, IsBlank blanks ∧ spelling body a ∧ text = blanks ++ body

/-- What a function makes of a value. -/
def Mapped (f : α → β) (spelling : Spelling α) : Spelling β := fun text b =>
  ∃ a, spelling text a ∧ f a = b

/-- No text stands for a value. -/
def Nothing : Spelling α := fun _ _ => False

/-- Values one after the other, with nothing between them. -/
inductive SpellsEach (spelling : Spelling α) : Spelling (List α)
  | nil : SpellsEach spelling [] []
  | cons {text texts : List Char} {a : α} {as : List α} :
    spelling text a → SpellsEach spelling texts as → SpellsEach spelling (text ++ texts) (a :: as)

/-! ### Strings -/

/-- A character of a string: itself, a letter after a backslash, four hexadecimal digits, or a pair
of surrogates. -/
inductive SpellsChar : Spelling Char
  | plain {c : Char} : c ≠ '"' → c ≠ '\\' → 32 ≤ c.toNat → SpellsChar [c] c
  | letter {d c : Char} : letterEscape? d = some c → SpellsChar ['\\', d] c
  | unit {h₁ h₂ h₃ h₄ : Char} {n : Nat} : hexQuad? h₁ h₂ h₃ h₄ = some n →
    isLeadSurrogate n = false → isTrailSurrogate n = false →
      SpellsChar ['\\', 'u', h₁, h₂, h₃, h₄] (Char.ofNat n)
  | pair {h₁ h₂ h₃ h₄ l₁ l₂ l₃ l₄ : Char} {n m : Nat} : hexQuad? h₁ h₂ h₃ h₄ = some n →
    isLeadSurrogate n = true → hexQuad? l₁ l₂ l₃ l₄ = some m → isTrailSurrogate m = true →
      SpellsChar ['\\', 'u', h₁, h₂, h₃, h₄, '\\', 'u', l₁, l₂, l₃, l₄] (ofSurrogates n m)

/-- A character of a string that is not needed. Any four hexadecimal digits are accepted. -/
inductive SkipsChar : Spelling Unit
  | plain {c : Char} : c ≠ '"' → c ≠ '\\' → 32 ≤ c.toNat → SkipsChar [c] ()
  | letter {d c : Char} : letterEscape? d = some c → SkipsChar ['\\', d] ()
  | unit {h₁ h₂ h₃ h₄ : Char} {n : Nat} : hexQuad? h₁ h₂ h₃ h₄ = some n →
      SkipsChar ['\\', 'u', h₁, h₂, h₃, h₄] ()

/-- Characters between quotation marks. -/
def SpellsQuoted (spelling : Spelling α) : Spelling (List α) := fun text as =>
  ∃ body, SpellsEach spelling body as ∧ text = '"' :: body ++ ['"']

/-- A string. -/
def SpellsString : Spelling String := fun text string =>
  SpellsQuoted SpellsChar text string.toList

/-- A string whose characters are not needed. -/
def SkipsString : Spelling Unit := fun text _ =>
  ∃ units, SpellsQuoted SkipsChar text units

/-! ### Numerals -/

/-- One or more digits. -/
def IsDigits (digits : List Char) : Prop :=
  digits ≠ [] ∧ ∀ d ∈ digits, d.isDigit = true

/-- A fraction: nothing, or a point and digits. -/
inductive SpellsFraction : Spelling (List Char)
  | none : SpellsFraction [] []
  | some {digits : List Char} : IsDigits digits → SpellsFraction ('.' :: digits) digits

/-- The digits of an exponent, with or without a sign. -/
inductive SpellsPower : Spelling (Bool × List Char)
  | plain {digits : List Char} : IsDigits digits → SpellsPower digits (false, digits)
  | plus {digits : List Char} : IsDigits digits → SpellsPower ('+' :: digits) (false, digits)
  | minus {digits : List Char} : IsDigits digits → SpellsPower ('-' :: digits) (true, digits)

/-- An exponent: nothing, or its letter and digits. -/
inductive SpellsExponent : Spelling (Option (Bool × List Char))
  | none : SpellsExponent [] none
  | some {c : Char} {text : List Char} {power : Bool × List Char} :
    c = 'e' ∨ c = 'E' → SpellsPower text power → SpellsExponent (c :: text) (some power)

/-- A numeral: a sign, digits without a leading zero, a fraction and an exponent. -/
def SpellsNumeral : Spelling Numeral := fun text numeral =>
  ∃ fraction exponent, IsDigits numeral.whole ∧
    (numeral.whole.head? = some '0' → numeral.whole = ['0']) ∧
    SpellsFraction fraction numeral.fraction ∧ SpellsExponent exponent numeral.exponent ∧
    text = (if numeral.negative then ['-'] else []) ++ numeral.whole ++ fraction ++ exponent

/-! ### Items and members -/

/-- One or more items with commas between them, up to a closing mark. -/
inductive SpellsItems (closing : Char) (item : Spelling α) : Spelling (List α)
  | last {text blanks : List Char} {a : α} : Spaced item text a → IsBlank blanks →
    SpellsItems closing item (text ++ blanks ++ [closing]) [a]
  | cons {text blanks texts : List Char} {a : α} {as : List α} : Spaced item text a →
    IsBlank blanks → SpellsItems closing item texts as →
      SpellsItems closing item (text ++ blanks ++ ',' :: texts) (a :: as)

/-- Any number of items up to a closing mark. -/
inductive SpellsRest (closing : Char) (item : Spelling α) : Spelling (List α)
  | empty {blanks : List Char} : IsBlank blanks →
    SpellsRest closing item (blanks ++ [closing]) []
  | items {text : List Char} {as : List α} : SpellsItems closing item text as →
    SpellsRest closing item text as

/-- A value after a colon. -/
def AfterColon (value : Spelling α) : Spelling α := fun text a =>
  ∃ blanks body, IsBlank blanks ∧ Spaced value body a ∧ text = blanks ++ ':' :: body

/-- A member: a key, and a value whose spelling the key decides. -/
def SpellsMember (key : Spelling κ) (value : κ → Spelling α) : Spelling (κ × α) := fun text m =>
  ∃ name after, key name m.1 ∧ AfterColon (value m.1) after m.2 ∧ text = name ++ after

/-! ### Values -/

/-- A value by its kind: a word, a string, a number, or an array or object after its opening
bracket. -/
inductive SpellsKind (null true false : α) (string number array object : Spelling α) : Spelling α
  | null : SpellsKind null true false string number array object ['n', 'u', 'l', 'l'] null
  | true : SpellsKind null true false string number array object ['t', 'r', 'u', 'e'] true
  | false : SpellsKind null true false string number array object ['f', 'a', 'l', 's', 'e'] false
  | string {text : List Char} {a : α} : string text a →
    SpellsKind null true false string number array object text a
  | number {text : List Char} {a : α} : number text a →
    SpellsKind null true false string number array object text a
  | array {text : List Char} {a : α} : array text a →
    SpellsKind null true false string number array object ('[' :: text) a
  | object {text : List Char} {a : α} : object text a →
    SpellsKind null true false string number array object ('\x7b' :: text) a

/-- A number. It is what the numeral rule makes of a numeral. -/
def SpellsNumber : Spelling Number := fun text value =>
  ∃ numeral, SpellsNumeral text numeral ∧ numeral.value? = some value

/-- A number of any size. -/
def SkipsNumber : Spelling Unit := fun text _ =>
  ∃ numeral, SpellsNumeral text numeral

/-- A value whose arrays and objects nest to a depth. The last member of each key counts. -/
def SpellsValue : Nat → Spelling Json
  | 0 => SpellsKind null (bool true) (bool false) (Mapped string SpellsString)
      (Mapped number SpellsNumber) Nothing Nothing
  | depth + 1 => SpellsKind null (bool true) (bool false) (Mapped string SpellsString)
      (Mapped number SpellsNumber) (Mapped array (SpellsRest ']' (SpellsValue depth)))
      (Mapped (fun members => object (ofMembers members))
        (SpellsRest '\x7d' (SpellsMember SpellsString fun _ => SpellsValue depth)))

/-- A value whose arrays and objects nest to a depth, and where no object repeats a key. -/
def SpellsOnce : Nat → Spelling Json
  | 0 => SpellsValue 0
  | depth + 1 => SpellsKind null (bool true) (bool false) (Mapped string SpellsString)
      (Mapped number SpellsNumber) (Mapped array (SpellsRest ']' (SpellsOnce depth)))
      fun text value => ∃ members : List (String × Json),
        SpellsRest '\x7d' (SpellsMember SpellsString fun _ => SpellsOnce depth) text members ∧
          (members.map Prod.fst).Nodup ∧ object (ofMembers members) = value

/-- A value that only has to be grammatical, whose arrays and objects nest to a depth. -/
def SkipsNested : Nat → Spelling Unit
  | 0 => SpellsKind () () () SkipsString SkipsNumber Nothing Nothing
  | depth + 1 => SpellsKind () () () SkipsString SkipsNumber
      (Mapped (fun _ => ()) (SpellsRest ']' (SkipsNested depth)))
      (Mapped (fun _ => ()) (SpellsRest '\x7d' (SpellsMember SkipsString fun _ =>
        SkipsNested depth)))

/-- A value that only has to be grammatical, at any depth. -/
def SkipsValue : Spelling Unit := fun text value =>
  ∃ depth, SkipsNested depth text value

end PlaylistRules.Json
