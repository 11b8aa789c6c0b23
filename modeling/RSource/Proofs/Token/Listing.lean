/-
**A listing tells the tokens and the text.**

The line of a token is its kind, its bytes in decimal digits and its text between quotes
(`Lexeme.entry`). `readListed?` reads such a line: the kind ends at the first blank, the numbers at
the first character that is no digit, and the text at its closing quote. Main statement:
`listing_reconstructs`, the tokens of a text have a listing with a line for each of them, from which
they are read back with their texts, and the texts put together are the whole text.
-/

import RSource.Proofs.Leaves
import RSource.Proofs.Text.EndedLines
import RSource.Proofs.Text.Quoting
import RSource.Proofs.Token.Coverage
import RSource.Decimal.Text
import RSource.Token.Listing
import Mathlib.Data.List.Basic

namespace RSource

/-! ### Numbers and names -/

namespace Decimal

theorem isDigit_of_mem_digitsOf {number : Nat} {c : Char} (member : c ∈ digitsOf number) :
    isDigit c = true := by
  have digit := Nat.isDigit_of_mem_toDigits (by decide) (by decide) member
  simpa [isDigit, Char.isDigit, Char.le_def] using digit

/-- **A number in decimal digits is read back.** -/
theorem readNat?_digitsOf (number : Nat) : readNat? (digitsOf number) = some number := by
  have filled : (digitsOf number).isEmpty = false :=
    List.isEmpty_eq_false_iff.mpr Nat.toDigits_ne_nil
  have digits : (digitsOf number).all isDigit = true :=
    List.all_eq_true.mpr fun _ => isDigit_of_mem_digitsOf
  rw [readNat?, filled, digits]
  exact congrArg some Nat.ofDigitChars_ten_toDigits

/-- The number at the front of a text, and what stands behind its digits. -/
def readFront? (text : Text) : Option (Nat × Text) :=
  (readNat? (text.takeWhile isDigit)).map fun number => (number, text.dropWhile isDigit)

theorem readFront?_digitsOf (number : Nat) (rest : Text)
    (ends : ∀ c ∈ rest.head?, isDigit c = false) :
    readFront? (digitsOf number ++ rest) = some (number, rest) := by
  have digits : ∀ digit ∈ digitsOf number, isDigit digit = true :=
    fun _ => isDigit_of_mem_digitsOf
  obtain ⟨front, behind⟩ := takeWhile_dropWhile_append digits ends
  rw [readFront?, front, behind, readNat?_digitsOf, Option.map_some]

end Decimal

theorem TokenKind.ofName?_name (kind : TokenKind) : ofName? kind.name = some kind := by
  cases kind <;> decide

/-- The characters that a name may have. -/
def isNamed (c : Char) : Bool := c != ' '

theorem TokenKind.isNamed_of_mem_name (kind : TokenKind) :
    ∀ c ∈ kind.name.toList, isNamed c = true := by
  have all : kind.name.toList.all isNamed = true := by cases kind <;> rfl
  exact List.all_eq_true.mp all

theorem TokenKind.lineFeed_not_mem_name (kind : TokenKind) : '\n' ∉ kind.name.toList := by
  cases kind <;> decide

/-! ### The line of a token -/

/-- What stands on the line of a token. -/
def Lexeme.entry (lexeme : Lexeme) : Text :=
  lexeme.kind.name.toList ++ ([' ', '['] ++ (Decimal.digitsOf lexeme.start
    ++ (['.', '.'] ++ (Decimal.digitsOf lexeme.stop ++ ([']', ' '] ++ Text.quote lexeme.text)))))

/-- The token that a line shows, and its text. -/
def readListed? (line : Text) : Option (Token × Text) := do
  let kind ← TokenKind.ofName? (.ofList (line.takeWhile isNamed))
  let (start, behindStart) ←
    ((line.dropWhile isNamed).dropPrefix? [' ', '[']).bind Decimal.readFront?
  let (stop, behindStop) ← (behindStart.dropPrefix? ['.', '.']).bind Decimal.readFront?
  let (covered, behind) ← (behindStop.dropPrefix? [']', ' ']).bind Text.unquote?
  if behind.isEmpty then some (⟨kind, start, stop - start⟩, covered) else none

theorem dropPrefix?_append (front rest : Text) : (front ++ rest).dropPrefix? front = some rest :=
  List.dropPrefix?_append_of_beq rest (beq_self_eq_true front)

/-- **The line of a token is read back.** -/
theorem readListed?_entry (lexeme : Lexeme) :
    readListed? lexeme.entry = some (lexeme.token, lexeme.text) := by
  have divided : lexeme.entry.takeWhile isNamed = lexeme.kind.name.toList
      ∧ lexeme.entry.dropWhile isNamed = [' ', '['] ++ (Decimal.digitsOf lexeme.start
        ++ (['.', '.'] ++ (Decimal.digitsOf lexeme.stop
          ++ ([']', ' '] ++ Text.quote lexeme.text)))) :=
    takeWhile_dropWhile_append lexeme.kind.isNamed_of_mem_name (by rintro c ⟨⟩; rfl)
  obtain ⟨kind, behindKind⟩ := divided
  have start := Decimal.readFront?_digitsOf lexeme.start (['.', '.']
    ++ (Decimal.digitsOf lexeme.stop ++ ([']', ' '] ++ Text.quote lexeme.text)))
    (by rintro c ⟨⟩; rfl)
  have stop := Decimal.readFront?_digitsOf lexeme.stop ([']', ' '] ++ Text.quote lexeme.text)
    (by rintro c ⟨⟩; rfl)
  have covered : Text.unquote? (Text.quote lexeme.text) = some (lexeme.text, []) := by
    have whole := Text.unquote?_quote lexeme.text []
    rwa [List.append_nil] at whole
  have length : lexeme.stop - lexeme.start = lexeme.text.bytes := Nat.add_sub_cancel_left _ _
  simp only [readListed?, kind, String.ofList_toList, TokenKind.ofName?_name, behindKind,
    dropPrefix?_append, Option.bind_eq_bind, Option.bind_some, start, stop, covered, length]
  rfl

example : readListed? "Number [3..4] \"1\"".toList = some (⟨.number, 3, 1⟩, ['1']) := by decide

theorem lineFeed_not_mem_entry (lexeme : Lexeme) : '\n' ∉ lexeme.entry := by
  have noDigit (number : Nat) : '\n' ∉ Decimal.digitsOf number := fun member =>
    absurd (Decimal.isDigit_of_mem_digitsOf member) (by decide)
  simp [Lexeme.entry, lexeme.kind.lineFeed_not_mem_name, noDigit, Text.lineFeed_not_mem_quote]

theorem Lexeme.says_entry (lexeme : Lexeme) :
    Text.Says readListed? lexeme.entry (lexeme.token, lexeme.text) :=
  ⟨lineFeed_not_mem_entry lexeme, readListed?_entry lexeme⟩

/-! ### Listings -/

/-- The line of a token of a text. -/
theorem listingLine?_of_mem_lexemes {text : Text} {lexeme : Lexeme}
    (member : lexeme ∈ lexemes text) :
    Token.listingLine? text lexeme.token = some (String.ofList (lexeme.entry ++ ['\n'])) := by
  have covered : lexeme.token.slice? text = some lexeme.text := slice?_of_mem_lexemes member
  rw [Token.listingLine?, covered, Option.map_some, Option.some.injEq, ← String.toList_inj]
  simp [toString, Lexeme.entry, Text.quoted, Lexeme.token, Token.stop, Lexeme.stop,
    Decimal.digitsOf, String.toList_append]

/-- **The tokens of a text have a listing.** -/
theorem listing?_tokensOf (text : Text) :
    Token.listing? text (tokensOf text)
      = some (String.ofList (Text.ended ((lexemes text).map Lexeme.entry))) := by
  -- by induction over any of the lexemes, as the text they are found in stays whole
  have lines (list : List Lexeme) (inside : ∀ lexeme ∈ list, lexeme ∈ lexemes text) :
      (list.map (·.token)).mapM (Token.listingLine? text)
        = some (list.map fun lexeme => String.ofList (lexeme.entry ++ ['\n'])) := by
    induction list with
    | nil => rfl
    | cons first rest previous =>
      rw [List.forall_mem_cons] at inside
      rw [List.map_cons, List.mapM_cons, listingLine?_of_mem_lexemes inside.1, previous inside.2]
      rfl
  rw [Token.listing?, tokensOf, lines _ fun _ => id, Option.map_some, Option.some.injEq,
    ← String.toList_inj, String.toList_join, String.toList_ofList, Text.ended]
  simp [List.flatMap_map]

/-- The texts of the tokens, put together, are the whole text. -/
theorem flatMap_text_lexemes (text : Text) : (lexemes text).flatMap (·.text) = text := by
  have pieces := congrArg Lexer.texts (Lexer.map_place 0 (Lexer.pieces text [] text))
  rw [Lexer.texts_pieces, Lexer.texts, List.flatMap_map] at pieces
  exact pieces

/-- Each line of a listing says a token and its text. -/
theorem says_entries (text : Text) :
    List.Forall₂ (Text.Says readListed?) ((lexemes text).map Lexeme.entry)
      ((lexemes text).map fun lexeme => (lexeme.token, lexeme.text)) := by
  rw [List.forall₂_map_left_iff, List.forall₂_map_right_iff, List.forall₂_same]
  exact fun lexeme _ => lexeme.says_entry

/-- Two texts with the same listing are the same. -/
theorem eq_of_listing {text other : Text} {listing : String}
    (own : Token.listing? text (tokensOf text) = some listing)
    (same : Token.listing? other (tokensOf other) = some listing) : other = text := by
  rw [listing?_tokensOf] at own same
  have lines : Text.ended ((lexemes other).map Lexeme.entry)
      = Text.ended ((lexemes text).map Lexeme.entry) :=
    String.ofList_injective (Option.some.inj (same.trans own.symm))
  have entries := Text.readLines?_ended (says_entries other)
  rw [lines, Text.readLines?_ended (says_entries text)] at entries
  have words := congrArg (List.flatMap (·.2)) (Option.some.inj entries)
  rw [List.flatMap_map, List.flatMap_map] at words
  exact (flatMap_text_lexemes other).symm.trans (words.symm.trans (flatMap_text_lexemes text))

/-- **The listing of a text tells its tokens and the text itself.** Each token has its line, each
line is read as its token with its text, and the texts put together are the whole text. So no other
text has this listing. -/
theorem listing_reconstructs (text : Text) :
    ∃ listing, Token.listing? text (tokensOf text) = some listing
      ∧ (∃ lines, Text.endedLines? listing.toList = some lines
        ∧ lines.length = (tokensOf text).length)
      ∧ (∃ entries, Text.readLines? readListed? listing.toList = some entries
        ∧ entries.map (·.1) = tokensOf text ∧ entries.flatMap (·.2) = text)
      ∧ ∀ other, Token.listing? other (tokensOf other) = some listing → other = text := by
  have own := listing?_tokensOf text
  refine ⟨_, own, ⟨(lexemes text).map Lexeme.entry, ?_, ?_⟩,
    ⟨(lexemes text).map fun lexeme => (lexeme.token, lexeme.text), ?_, ?_, ?_⟩,
    fun other same => eq_of_listing own same⟩
  · rw [String.toList_ofList]
    exact Text.endedLines?_of_says (says_entries text)
  · rw [tokensOf, List.length_map, List.length_map]
  · rw [String.toList_ofList]
    exact Text.readLines?_ended (says_entries text)
  · rw [List.map_map]
    rfl
  · rw [List.flatMap_map]
    exact flatMap_text_lexemes text

end RSource
