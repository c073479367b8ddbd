import PlaylistRules.Text.Hidden

/-!
# Texts in messages

A text is shown in a message between quotation marks, with escapes for the mark, the backslash
and the characters that would not be visible by themselves.

## Main definitions

* `Text.shownChar` : the form of a character, by its code point when it is hidden.
* `Text.shown` : the form of a text in a message.
-/

namespace PlaylistRules.Text

/-- The digits of a code point to base sixteen, in lower case. -/
def hexDigits (n : Nat) : List Char :=
  Nat.toDigits 16 n

/-- A character of a text in a message. -/
def shownChar (c : Char) : List Char :=
  if c = '"' then ['\\', '"']
  else if c = '\\' then ['\\', '\\']
  else if c = '\x00' then ['\\', '0']
  else if c = '\t' then ['\\', 't']
  else if c = '\n' then ['\\', 'n']
  else if c = '\r' then ['\\', 'r']
  else if isHidden c then
    '\\' :: 'u' :: '\x7b' :: (hexDigits c.toNat ++ ['\x7d'])
  else [c]

/-- A text between quotation marks, with escapes. -/
def shown (text : String) : String :=
  String.ofList ('"' :: (text.toList.flatMap shownChar ++ ['"']))

end PlaylistRules.Text
