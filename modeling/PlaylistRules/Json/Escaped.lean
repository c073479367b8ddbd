/-!
# Strings of a JSON text

The strings of a JSON text with their escapes. Characters above the basic plane may be escaped as
a pair of surrogates; a surrogate that stands alone is no character.

## Main definitions

* `Json.readBody?` : the characters up to the closing quotation mark.
* `Json.skipBody?` : the text after the closing mark, with any four hexadecimal digits accepted in
  an escape.
-/

namespace PlaylistRules.Json

/-- The value of a hexadecimal digit in either case. -/
def hexValue? (c : Char) : Option Nat :=
  let n := c.toNat
  if 48 ≤ n ∧ n ≤ 57 then some (n - 48)
  else if 97 ≤ n ∧ n ≤ 102 then some (n - 87)
  else if 65 ≤ n ∧ n ≤ 70 then some (n - 55)
  else none

/-- The value of four hexadecimal digits. -/
def hexQuad? (a b c d : Char) : Option Nat :=
  match hexValue? a, hexValue? b, hexValue? c, hexValue? d with
  | some a, some b, some c, some d => some (4096 * a + 256 * b + 16 * c + d)
  | _, _, _, _ => none

/-- The character of an escape with one letter. -/
def letterEscape? (c : Char) : Option Char :=
  if c = '"' ∨ c = '\\' ∨ c = '/' then some c
  else if c = 'b' then some '\x08'
  else if c = 'f' then some '\x0c'
  else if c = 'n' then some '\n'
  else if c = 'r' then some '\r'
  else if c = 't' then some '\t'
  else none

/-- The first half of a surrogate pair. -/
def isLeadSurrogate (n : Nat) : Bool :=
  0xD800 ≤ n && n ≤ 0xDBFF

/-- The second half of a surrogate pair. -/
def isTrailSurrogate (n : Nat) : Bool :=
  0xDC00 ≤ n && n ≤ 0xDFFF

/-- The character of a surrogate pair. -/
def ofSurrogates (lead trail : Nat) : Char :=
  Char.ofNat (0x10000 + 1024 * (lead - 0xD800) + (trail - 0xDC00))

/-- The result of reading the remaining characters, with one more in front. -/
def prepend (c : Char) (result : Option (List Char × List Char)) :
    Option (List Char × List Char) :=
  result.map fun (body, rest) => (c :: body, rest)

/-- The characters of a string up to the closing quotation mark, and the text after the mark. -/
def readBody? : List Char → Option (List Char × List Char)
  | [] => none
  | [c] => if c = '"' then some ([], []) else none
  | c :: d :: cs =>
    if c = '"' then some ([], d :: cs)
    else if c = '\\' then
      if d = 'u' then
        match cs with
        | h₁ :: h₂ :: h₃ :: h₄ :: rest =>
          match hexQuad? h₁ h₂ h₃ h₄ with
          | none => none
          | some n =>
            if isLeadSurrogate n then
              match rest with
              | b :: u :: l₁ :: l₂ :: l₃ :: l₄ :: rest =>
                if b = '\\' ∧ u = 'u' then
                  match hexQuad? l₁ l₂ l₃ l₄ with
                  | none => none
                  | some m =>
                    if isTrailSurrogate m then prepend (ofSurrogates n m) (readBody? rest)
                    else none
                else none
              | _ => none
            else if isTrailSurrogate n then none
            else prepend (Char.ofNat n) (readBody? rest)
        | _ => none
      else
        match letterEscape? d with
        | none => none
        | some e => prepend e (readBody? cs)
    else if c.toNat < 32 then none
    else prepend c (readBody? (d :: cs))

/-- The text after the closing quotation mark of a string whose characters are not needed. -/
def skipBody? : List Char → Option (List Char)
  | [] => none
  | [c] => if c = '"' then some [] else none
  | c :: d :: cs =>
    if c = '"' then some (d :: cs)
    else if c = '\\' then
      if d = 'u' then
        match cs with
        | h₁ :: h₂ :: h₃ :: h₄ :: rest =>
          match hexQuad? h₁ h₂ h₃ h₄ with
          | none => none
          | some _ => skipBody? rest
        | _ => none
      else
        match letterEscape? d with
        | none => none
        | some _ => skipBody? cs
    else if c.toNat < 32 then none
    else skipBody? (d :: cs)

end PlaylistRules.Json
