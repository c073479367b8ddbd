import PlaylistRules.Proofs.Text.Separated

/-!
# Tokens of a statement

The lexical grammar of the statements that create tables: names between double quotation marks,
words in either case, parentheses and commas, with any blanks between them. A word ends where no
letter follows and a name where no mark follows, so a text consists of tokens in one way at most.

## Main definitions

* `Text.Token` : names, words and marks.
* `Text.SpellsTokens` : the tokens of a text.

## Main results

* `Text.SpellsToken.append_inj` : where a token ends.
* `Text.SpellsTokens.unique` : a text has one list of tokens at most.
-/

namespace PlaylistRules.Text

/-! ### Characters -/

/-- The classes of characters in a statement. -/
inductive CharClass where
  | blank
  | quotation
  | letter
  | mark
  | other
deriving DecidableEq

/-- The class of a character. Digits and underscores belong to words, as letters do. -/
def classOf (c : Char) : CharClass :=
  if c = ' ' ∨ c = '\t' ∨ c = '\n' ∨ c = '\x0c' ∨ c = '\r' then .blank
  else if c = '"' then .quotation
  else if c.isAlphanum = true ∨ c = '_' then .letter
  else if c = '(' ∨ c = ')' ∨ c = ',' then .mark
  else .other

/-- A text does not go on with a letter. -/
def EndsWord (rest : List Char) : Prop :=
  ∀ c, rest.head? = some c → classOf c ≠ .letter

theorem endsWord_cons {c : Char} (hc : classOf c ≠ .letter) (rest : List Char) :
    EndsWord (c :: rest) := by
  intro d hd
  exact Option.some.inj hd ▸ hc

theorem endsWord_blank (rest : List Char) : EndsWord (' ' :: rest) :=
  endsWord_cons (by decide) rest

/-! ### Tokens -/

/-- A name without its quotation marks, a word in upper case, or a mark. -/
inductive Token where
  | name (name : String)
  | word (letters : List Char)
  | mark (c : Char)
deriving DecidableEq

namespace Token

/-- The class of the character with which a token starts. -/
def startClass : Token → CharClass
  | name _ => .quotation
  | word _ => .letter
  | mark _ => .mark

/-- A token ends before a text. A name goes on with another quotation mark, and a word with another
letter. -/
def EndsBefore : Token → List Char → Prop
  | name _, rest => rest.head? ≠ some '"'
  | word _, rest => EndsWord rest
  | mark _, _ => True

end Token

/-- The text of a token. -/
inductive SpellsToken : List Char → Token → Prop
  | name {text cs : List Char} :
    SpellsQuoted '"' text cs → SpellsToken text (.name (String.ofList cs))
  | word {letters : List Char} : letters ≠ [] → (∀ c ∈ letters, classOf c = .letter) →
    SpellsToken letters (.word (letters.map Char.toUpper))
  | mark {c : Char} : classOf c = .mark → SpellsToken [c] (.mark c)

/-- The tokens of a text, with any blanks between them and at the ends. -/
inductive SpellsTokens : List Char → List Token → Prop
  | nil {blanks : List Char} : (∀ c ∈ blanks, classOf c = .blank) → SpellsTokens blanks []
  | cons {blanks text rest : List Char} {token : Token} {tokens : List Token} :
    (∀ c ∈ blanks, classOf c = .blank) → SpellsToken text token → token.EndsBefore rest →
      SpellsTokens rest tokens → SpellsTokens (blanks ++ (text ++ rest)) (token :: tokens)

/-! ### One list of tokens -/

variable {text text' rest rest' : List Char} {token token' : Token} {tokens tokens' : List Token}

theorem SpellsToken.exists_start (h : SpellsToken text token) :
    ∃ c cs, text = c :: cs ∧ classOf c = token.startClass := by
  cases h with
  | name hquoted =>
    obtain ⟨body, -, rfl⟩ := hquoted
    exact ⟨_, _, rfl, rfl⟩
  | word hne hletters =>
    obtain ⟨c, cs, rfl⟩ := List.exists_cons_of_ne_nil hne
    exact ⟨c, cs, rfl, hletters c List.mem_cons_self⟩
  | mark hmark => exact ⟨_, [], rfl, hmark⟩

theorem Token.startClass_ne_blank (token : Token) : token.startClass ≠ .blank := by
  cases token <;> exact nofun

/-- **Where a token ends** is plain from what follows it. -/
theorem SpellsToken.append_inj (h : SpellsToken text token) (h' : SpellsToken text' token')
    (hrest : token.EndsBefore rest) (hrest' : token'.EndsBefore rest')
    (heq : text ++ rest = text' ++ rest') : token = token' ∧ rest = rest' := by
  have hstart : token.startClass = token'.startClass := by
    obtain ⟨c, cs, htext, hc⟩ := h.exists_start
    obtain ⟨c', cs', htext', hc'⟩ := h'.exists_start
    rw [htext, htext'] at heq
    rw [← hc, ← hc', (List.cons.inj heq).1]
  cases h with
  | name hquoted =>
    cases h' with
    | name hquoted' =>
      obtain ⟨rfl, htail⟩ := delimited_spellsQuoted '"' hquoted hquoted' hrest hrest' heq
      exact ⟨rfl, htail⟩
    | word => exact nomatch hstart
    | mark => exact nomatch hstart
  | word _ hletters =>
    cases h' with
    | name => exact nomatch hstart
    | word _ hletters' =>
      obtain ⟨rfl, htail⟩ := append_inj_of_span hletters hletters' hrest hrest' heq
      exact ⟨rfl, htail⟩
    | mark => exact nomatch hstart
  | mark =>
    cases h' with
    | name => exact nomatch hstart
    | word => exact nomatch hstart
    | mark =>
      obtain ⟨rfl, htail⟩ := List.cons.inj heq
      exact ⟨rfl, htail⟩

/-- A token does not start with a blank. -/
theorem SpellsToken.head_ne_blank (h : SpellsToken text token) :
    ∀ c, (text ++ rest).head? = some c → classOf c ≠ .blank := by
  obtain ⟨c, cs, rfl, hc⟩ := h.exists_start
  intro d hd hblank
  obtain rfl : c = d := Option.some.inj hd
  exact token.startClass_ne_blank (hc.symm.trans hblank)

/-- Blanks are no tokens. -/
theorem SpellsToken.not_blanks {blanks : List Char} (h : SpellsToken text token) :
    ¬∀ c ∈ blanks ++ (text ++ rest), classOf c = .blank := by
  obtain ⟨c, cs, rfl, hc⟩ := h.exists_start
  intro hblank
  exact token.startClass_ne_blank (hc.symm.trans (hblank c (by simp)))

/-- **A text has one list of tokens at most.** -/
theorem SpellsTokens.unique (h : SpellsTokens text tokens) (h' : SpellsTokens text tokens') :
    tokens = tokens' := by
  suffices htexts : ∀ text', text = text' → SpellsTokens text' tokens' → tokens = tokens' from
    htexts text rfl h'
  clear h'
  induction h generalizing tokens' with
  | nil hblank =>
    intro text' heq h'
    cases h' with
    | nil => rfl
    | cons _ htoken' => exact absurd (heq ▸ hblank) htoken'.not_blanks
  | cons hblanks htoken hends _ ih =>
    intro text' heq h'
    cases h' with
    | nil hblank => exact absurd (heq.symm ▸ hblank) htoken.not_blanks
    | cons hblanks' htoken' hends' hothers' =>
      obtain ⟨-, htexts⟩ := append_inj_of_span hblanks hblanks' htoken.head_ne_blank
        htoken'.head_ne_blank heq
      obtain ⟨rfl, hrest⟩ := htoken.append_inj htoken' hends hends' htexts
      exact congrArg _ (ih _ hrest hothers')

/-! ### Texts that are written -/

/-- A blank before tokens. -/
theorem SpellsTokens.blank (h : SpellsTokens text tokens) : SpellsTokens (' ' :: text) tokens := by
  have hblank : classOf ' ' = .blank := rfl
  cases h with
  | nil hblanks => exact .nil (List.forall_mem_cons.mpr ⟨hblank, hblanks⟩)
  | cons hblanks htoken hends hothers =>
    rw [← List.cons_append]
    exact .cons (List.forall_mem_cons.mpr ⟨hblank, hblanks⟩) htoken hends hothers

/-- A token before others, without blanks. -/
theorem SpellsTokens.tight (htoken : SpellsToken text token) (hends : token.EndsBefore rest)
    (h : SpellsTokens rest tokens) : SpellsTokens (text ++ rest) (token :: tokens) := by
  rw [← List.nil_append (text ++ rest)]
  exact .cons (fun _ hc => absurd hc List.not_mem_nil) htoken hends h

/-- A name before other tokens. -/
theorem SpellsTokens.quoteName (name : String) (hends : rest.head? ≠ some '"')
    (h : SpellsTokens rest tokens) :
    SpellsTokens ((quoteName name).toList ++ rest) (.name name :: tokens) := by
  have hquoted : SpellsQuoted '"' (Text.quoteName name).toList name.toList :=
    spellsQuoted_iff.mpr String.toList_ofList
  have hname := SpellsToken.name hquoted
  rw [String.ofList_toList] at hname
  exact .tight hname hends h

/-- A word of capital letters. -/
def IsKeyword (letters : List Char) : Prop :=
  letters ≠ [] ∧ letters.all (classOf · = .letter) = true ∧ letters.map Char.toUpper = letters

instance (letters : List Char) : Decidable (IsKeyword letters) :=
  inferInstanceAs (Decidable (_ ∧ _ ∧ _))

/-- A keyword before other tokens. -/
theorem SpellsTokens.keyword {letters : List Char} (hkeyword : IsKeyword letters)
    (hends : EndsWord rest) (h : SpellsTokens rest tokens) :
    SpellsTokens (letters ++ rest) (.word letters :: tokens) := by
  obtain ⟨hne, hletters, hupper⟩ := hkeyword
  have hword := SpellsToken.word hne fun c hc =>
    of_decide_eq_true (List.all_eq_true.mp hletters c hc)
  rw [hupper] at hword
  exact .tight hword hends h

/-- A mark before other tokens. -/
theorem SpellsTokens.mark {c : Char} (hmark : classOf c = .mark) (h : SpellsTokens rest tokens) :
    SpellsTokens (c :: rest) (.mark c :: tokens) :=
  .tight (.mark hmark) trivial h

end PlaylistRules.Text
