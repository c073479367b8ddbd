import PlaylistRules.Text.Mark

/-!
# Display width

The number of columns that a text takes on a terminal with a fixed pitch. East Asian wide and
fullwidth characters take two columns, marks none, and other characters one. In some scripts
characters that stand next to each other are written as one sign, which takes the columns of its
last character.

## Main definitions

* `Text.wideRanges`, `Text.overlaidRanges` : characters of two columns and of none.
* `Text.charColumns` : the columns of a character alone.
* `Text.Start`, `Text.extend` : signs of several characters.
* `Text.columns` : the columns of a text on one line.
-/

namespace PlaylistRules.Text

/-! ### Characters -/

/-- The code points of the East Asian wide and fullwidth characters of version 17 of the Unicode
standard, as closed ranges in increasing order. -/
def wideRanges : List (Nat × Nat) :=
  [(0x1100, 0x115F), (0x231A, 0x231B), (0x2329, 0x232A), (0x23E9, 0x23EC), (0x23F0, 0x23F0),
    (0x23F3, 0x23F3), (0x25FD, 0x25FE), (0x2614, 0x2615), (0x2630, 0x2637), (0x2648, 0x2653),
    (0x267F, 0x267F), (0x268A, 0x268F), (0x2693, 0x2693), (0x26A1, 0x26A1), (0x26AA, 0x26AB),
    (0x26BD, 0x26BE), (0x26C4, 0x26C5), (0x26CE, 0x26CE), (0x26D4, 0x26D4), (0x26EA, 0x26EA),
    (0x26F2, 0x26F3), (0x26F5, 0x26F5), (0x26FA, 0x26FA), (0x26FD, 0x26FD), (0x2705, 0x2705),
    (0x270A, 0x270B), (0x2728, 0x2728), (0x274C, 0x274C), (0x274E, 0x274E), (0x2753, 0x2755),
    (0x2757, 0x2757), (0x2795, 0x2797), (0x27B0, 0x27B0), (0x27BF, 0x27BF), (0x2B1B, 0x2B1C),
    (0x2B50, 0x2B50), (0x2B55, 0x2B55), (0x2E80, 0x2E99), (0x2E9B, 0x2EF3), (0x2F00, 0x2FD5),
    (0x2FF0, 0x303E), (0x3041, 0x3096), (0x3099, 0x30FF), (0x3105, 0x312F), (0x3131, 0x318E),
    (0x3190, 0x31E5), (0x31EF, 0x321E), (0x3220, 0x3247), (0x3250, 0xA48C), (0xA490, 0xA4C6),
    (0xA960, 0xA97C), (0xAC00, 0xD7A3), (0xF900, 0xFAFF), (0xFE10, 0xFE19), (0xFE30, 0xFE52),
    (0xFE54, 0xFE66), (0xFE68, 0xFE6B), (0xFF01, 0xFF60), (0xFFE0, 0xFFE6), (0x16FE0, 0x16FE4),
    (0x16FF0, 0x16FF6), (0x17000, 0x18CD5), (0x18CFF, 0x18D1E), (0x18D80, 0x18DF2),
    (0x1AFF0, 0x1AFF3), (0x1AFF5, 0x1AFFB), (0x1AFFD, 0x1AFFE), (0x1B000, 0x1B122),
    (0x1B132, 0x1B132), (0x1B150, 0x1B152), (0x1B155, 0x1B155), (0x1B164, 0x1B167),
    (0x1B170, 0x1B2FB), (0x1D300, 0x1D356), (0x1D360, 0x1D376), (0x1F004, 0x1F004),
    (0x1F0CF, 0x1F0CF), (0x1F18E, 0x1F18E), (0x1F191, 0x1F19A), (0x1F200, 0x1F202),
    (0x1F210, 0x1F23B), (0x1F240, 0x1F248), (0x1F250, 0x1F251), (0x1F260, 0x1F265),
    (0x1F300, 0x1F320), (0x1F32D, 0x1F335), (0x1F337, 0x1F37C), (0x1F37E, 0x1F393),
    (0x1F3A0, 0x1F3CA), (0x1F3CF, 0x1F3D3), (0x1F3E0, 0x1F3F0), (0x1F3F4, 0x1F3F4),
    (0x1F3F8, 0x1F43E), (0x1F440, 0x1F440), (0x1F442, 0x1F4FC), (0x1F4FF, 0x1F53D),
    (0x1F54B, 0x1F54E), (0x1F550, 0x1F567), (0x1F57A, 0x1F57A), (0x1F595, 0x1F596),
    (0x1F5A4, 0x1F5A4), (0x1F5FB, 0x1F64F), (0x1F680, 0x1F6C5), (0x1F6CC, 0x1F6CC),
    (0x1F6D0, 0x1F6D2), (0x1F6D5, 0x1F6D8), (0x1F6DC, 0x1F6DF), (0x1F6EB, 0x1F6EC),
    (0x1F6F4, 0x1F6FC), (0x1F7E0, 0x1F7EB), (0x1F7F0, 0x1F7F0), (0x1F90C, 0x1F93A),
    (0x1F93C, 0x1F945), (0x1F947, 0x1F9FF), (0x1FA70, 0x1FA7C), (0x1FA80, 0x1FA8A),
    (0x1FA8E, 0x1FAC6), (0x1FAC8, 0x1FAC8), (0x1FACD, 0x1FADC), (0x1FADF, 0x1FAEA),
    (0x1FAEF, 0x1FAF8), (0x20000, 0x2FFFD), (0x30000, 0x3FFFD)]

/-- The code points of further characters without a column of their own: vowels and final
consonants of Hangul syllables, signs written over the following digits, consonants written over
the following letter, and the caret of Devanagari. -/
def overlaidRanges : List (Nat × Nat) :=
  [(0x605, 0x605), (0x70F, 0x70F), (0x890, 0x891), (0x8E2, 0x8E2), (0xD4E, 0xD4E),
    (0x1160, 0x11FF), (0xA8FA, 0xA8FA), (0xD7B0, 0xD7C6), (0xD7CB, 0xD7FB), (0x111C2, 0x111C3),
    (0x113D1, 0x113D1), (0x1193F, 0x1193F), (0x11941, 0x11941), (0x11A3A, 0x11A3A),
    (0x11A84, 0x11A89), (0x11D46, 0x11D46), (0x11F02, 0x11F02)]

/-- The columns of a character alone. Two letters of Khmer and the Hangul filler for a leading
consonant have a width against their class. -/
def charColumns (c : Char) : Nat :=
  if c.toNat ≤ 0xA0 then 1
  else if c = '\u115f' ∨ c = '\u17a4' then 2
  else if c = '\u17d8' then 3
  else if c = '\u2d7f' then 1
  else if isMark c || inRanges overlaidRanges c then 0
  else if inRanges wideRanges c then 2
  else 1

/-! ### Signs of several characters -/

/-- The beginning of a text, as far as a character before it can be joined with it. Some signs
need a joiner between their characters. -/
inductive Start where
  | other
  | alef
  | lamed (joined : Bool)
  | ya (joined : Bool)
  | vowelYa
  | orkhonI (joined : Bool)
  | tifinagh (joined : Bool)
  | tifinaghPair
  | khmer
  | tone
  | vowelE
  | vowelAi
deriving DecidableEq, Repr

/-- The character that joins its neighbours. -/
def joiner : Char := '\u200d'

/-- The Arabic letters of the group of Lam. -/
def isLam (c : Char) : Bool :=
  inRanges [(0x644, 0x644), (0x6B5, 0x6B8), (0x76A, 0x76A), (0x8A6, 0x8A6), (0x8C7, 0x8C7)] c

/-- The Arabic letters of the group of Alef. -/
def isAlef (c : Char) : Bool :=
  inRanges [(0x622, 0x623), (0x625, 0x625), (0x627, 0x627), (0x671, 0x673), (0x675, 0x675),
    (0x773, 0x774), (0x870, 0x882)] c

/-- The Khmer letters that are written below the letter before them. -/
def isSubscript (c : Char) : Bool :=
  inRanges [(0x1780, 0x1782), (0x1784, 0x1787), (0x1789, 0x178C), (0x178E, 0x1793),
    (0x1795, 0x1798), (0x179B, 0x179D), (0x17A0, 0x17A0), (0x17A2, 0x17A2), (0x17A7, 0x17A7),
    (0x17AB, 0x17AC), (0x17AF, 0x17AF)] c

/-- The consonants of Tifinagh. -/
def isTifinagh (c : Char) : Bool :=
  inRanges [(0x2D31, 0x2D65), (0x2D6F, 0x2D6F)] c

/-- The beginning of a text with a character that is not joined with what follows. -/
def Start.of (c : Char) : Start :=
  if isAlef c then .alef
  else if c = '\u05dc' then .lamed false
  else if c = '\u1a10' then .ya false
  else if c.toNat = 0x10C03 then .orkhonI false
  else if isTifinagh c then .tifinagh false
  else if isSubscript c then .khmer
  else if c = '\ua4fc' ∨ c = '\ua4fd' then .tone
  else if c.toNat = 0x16D67 then .vowelE
  else if c.toNat = 0x16D68 then .vowelAi
  else .other

/-- The beginning of a text after a joiner, if a joiner can stand before it in a sign. -/
def Start.join? : Start → Option Start
  | lamed _ => some (lamed true)
  | ya _ => some (ya true)
  | orkhonI _ => some (orkhonI true)
  | tifinagh _ => some (tifinagh true)
  | other | alef => none
  | start => some start

/-- The columns and the beginning of a text with one more character in front, if the character is
joined with what follows. -/
def join? (c : Char) (columns : Nat) : Start → Option (Nat × Start)
  | .alef =>
    if isLam c then some (columns, .other)
    else if isMark c && c != joiner && c != '\u200c' then some (columns, .alef)
    else none
  | .lamed true => if c = '\u05d0' then some (columns, .other) else none
  | .ya true => if c = '\u1a17' then some (columns, .vowelYa) else none
  | .vowelYa => if c = '\u1a15' then some (columns, .other) else none
  | .orkhonI true => if c.toNat = 0x10C32 then some (columns, .other) else none
  | .tifinagh joined =>
    if c = '\u2d7f' then some (columns + 1, .tifinaghPair)
    else if joined && isTifinagh c then some (columns, .other)
    else none
  | .tifinaghPair => if isTifinagh c then some (columns - 1, .other) else none
  | .khmer => if c = '\u17d2' then some (columns - 1, .other) else none
  | .tone => if '\ua4f8' ≤ c ∧ c ≤ '\ua4fb' then some (columns, .other) else none
  | .vowelE =>
    if c.toNat = 0x16D63 ∨ c.toNat = 0x16D69 then some (columns, .other)
    else if c.toNat = 0x16D67 then some (columns, .vowelAi)
    else if c.toNat = 0x16D68 then some (columns + 1, .vowelE)
    else none
  | .vowelAi => if c.toNat = 0x16D63 then some (columns, .other) else none
  | _ => none

/-- The columns and the beginning of a text with one more character in front. -/
def extend (c : Char) (columns : Nat) (start : Start) : Nat × Start :=
  match if c = joiner then start.join? else none with
  | some joined => (columns, joined)
  | none => (join? c columns start).getD (columns + charColumns c, .of c)

/-- The columns of a text and its beginning. -/
def measure : List Char → Nat × Start
  | [] => (0, .other)
  | c :: cs => extend c (measure cs).1 (measure cs).2

/-- The columns of a text on one line. -/
def columns (cs : List Char) : Nat :=
  (measure cs).1

end PlaylistRules.Text
