import SchemaValidation.Text.Columns
import SchemaValidation.Text.Emoji
import SchemaValidation.Text.Ligature

/-!
# Display width

How many columns of a fixed-width display a line takes.  It is mostly the sum of what its characters
take on their own, but some characters are drawn as one with those after them: an emoji with its
selector, its skin tone or the emoji joined to it, two letters that form a ligature, a letter with
one written below it.

So a line is read from its end.  What has been read is remembered by its `Opening`, which says how a
character before it can join with it, and each character adds some columns, or takes back one that
was counted too many.
-/

namespace SchemaValidation

namespace Text

def zeroWidthJoiner : Char := '\u200d'

/-- The last letter of a ligature, with what has been read before it. -/
inductive LigatureEnd
  | alef
  | lamed
  | joinedLamed
  | ya
  | joinedYa
  | joinedVowelYa
  | tifinagh
  | joinedTifinagh
  | stackedTifinagh
  | tone
  | orkhonI
  | joinedOrkhonI
  | khmer

/-- Tags that end a flag: letters alone, or digits before any letters. -/
inductive Tags
  | letters (count : Nat)
  | digits (count : Nat)

/-- What an emoji sequence begins with.  It is `joined` when a joiner stands before it. -/
inductive EmojiStart
  | whole
  | skinTone
  | flagLetter
  | flagLetters
  | joined
  | joinedKeycap
  | joinedFlagLetter
  | joinedEvenLetters
  | joinedOddLetters
  | joinedTags (tags : Tags)

/-- What a text begins with, as far as a character before it can join with it. -/
inductive Opening
  | plain
  | letter (l : LigatureEnd)
  | emoji (e : EmojiStart)
  | kiratRaiE
  | kiratRaiAi

/-- An opening and the selectors before it: for the style of an emoji, for that of a text, and for a
fullwidth form. -/
structure Following where
  opening : Opening
  emojiStyle : Bool := false
  textStyle : Bool := false
  fullwidth : Bool := false

namespace LigatureEnd

/-- What a joiner makes of the end of a ligature. -/
def afterJoiner : LigatureEnd → LigatureEnd
  | lamed => joinedLamed
  | ya => joinedYa
  | tifinagh => joinedTifinagh
  | orkhonI => joinedOrkhonI
  | other => other

/-- How a character joins with the letter that ends a ligature, marks between them set apart. -/
def joinLetter? (c : Char) : LigatureEnd → Option (Int × Opening)
  | joinedLamed => if c = '\u05d0' then some (0, .plain) else none
  | joinedYa => if c = '\u1a17' then some (0, .letter joinedVowelYa) else none
  | joinedVowelYa => if c = '\u1a15' then some (0, .plain) else none
  | tifinagh => if c = '\u2d7f' then some (1, .letter stackedTifinagh) else none
  | joinedTifinagh =>
    if c = '\u2d7f' then some (1, .letter stackedTifinagh)
    else if tifinaghConsonants.contains c then some (0, .plain)
    else none
  | stackedTifinagh => if tifinaghConsonants.contains c then some (-1, .plain) else none
  | tone => if '\ua4f8' ≤ c && c ≤ '\ua4fb' then some (0, .plain) else none
  | joinedOrkhonI => if c.toNat = 0x10C32 then some (0, .plain) else none
  | khmer => if c = '\u17d2' then some (-1, .plain) else none
  | alef | lamed | ya | orkhonI => none

/-- How a character joins with the end of a ligature.  Marks may stand within it: before an alef
those that do not part letters, elsewhere those that are not shown. -/
def join? (c : Char) : LigatureEnd → Option (Int × Opening)
  | alef =>
    if lams.contains c then some (0, .plain)
    else if zeroWidth.contains c && !partsLetters.contains c then some (0, .letter alef)
    else none
  | l =>
    if c = zeroWidthJoiner then some (0, .letter l.afterJoiner)
    else if hiddenMarks.contains c then some (0, .letter l)
    else l.joinLetter? c

end LigatureEnd

namespace Tags

/-- A tag before some tags.  A region is named by two letters and up to four more, or by three
digits and up to four letters. -/
def add? (c : Char) : Tags → Option Tags
  | letters n =>
    if isTagLetter c && n < 6 then some (letters (n + 1))
    else if isTagDigit c && n < 5 then some (digits 1)
    else none
  | digits n => if isTagDigit c && n < 3 then some (digits (n + 1)) else none

/-- The tags name a region. -/
def complete : Tags → Bool
  | letters n => 3 ≤ n
  | digits n => n = 3

end Tags

namespace EmojiStart

/-- A joiner before an emoji waits for another one. -/
def afterJoiner? (c : Char) : Option (Int × Opening) :=
  if c = zeroWidthJoiner then some (0, .emoji joined) else none

/-- How a character joins with an emoji.  Flag letters before a joined flag are counted in pairs:
the second of a pair gives back what the first took, and a third one stands alone before them. -/
def join? (c : Char) : EmojiStart → Option (Int × Opening)
  | whole => afterJoiner? c
  | skinTone => if takesSkinTone.contains c then some (0, .emoji whole) else afterJoiner? c
  | flagLetter => if isFlagLetter c then some (1, .emoji flagLetters) else none
  | flagLetters => if isFlagLetter c then some (1, .emoji flagLetters) else afterJoiner? c
  | joined =>
    if c = '\u20e3' then some (0, .emoji joinedKeycap)
    else if isFlagLetter c then some (1, .emoji joinedFlagLetter)
    else if isSkinTone c then some (0, .emoji skinTone)
    else if isTagEnd c then some (0, .emoji (joinedTags (.letters 0)))
    else if emojiByDefault.contains c then some (0, .emoji whole)
    else none
  | joinedKeycap => none
  | joinedFlagLetter => if isFlagLetter c then some (-1, .emoji joinedEvenLetters) else none
  | joinedEvenLetters =>
    if isFlagLetter c then some (3, .emoji joinedOddLetters) else afterJoiner? c
  | joinedOddLetters =>
    if isFlagLetter c then some (-1, .emoji joinedEvenLetters) else afterJoiner? c
  | joinedTags tags =>
    if tags.complete && isBlackFlag c then some (0, .emoji whole)
    else (tags.add? c).map fun more => (0, .emoji (joinedTags more))

end EmojiStart

namespace Opening

/-- What a text begins with when its first character does not join with those after it. -/
def ofChar (c : Char) : Opening :=
  if alefs.contains c then letter .alef
  else if c = '\u05dc' then letter .lamed
  else if khmerSubscripts.contains c then letter .khmer
  else if c = '\u1a10' then letter .ya
  else if tifinaghConsonants.contains c then letter .tifinagh
  else if c = '\ua4fc' || c = '\ua4fd' then letter .tone
  else if c.toNat = 0x10C03 then letter .orkhonI
  else if c.toNat = 0x16D67 then kiratRaiE
  else if c.toNat = 0x16D68 then kiratRaiAi
  else if isSkinTone c then emoji .skinTone
  else if isFlagLetter c then emoji .flagLetter
  else if emojiByDefault.contains c then emoji .whole
  else plain

/-- How a character joins with an opening.  The Kirat Rai vowels are spelt of two letters, of which
the longer spellings take no more columns than the shorter. -/
def join? (c : Char) : Opening → Option (Int × Opening)
  | plain => none
  | letter l => l.join? c
  | emoji e => e.join? c
  | kiratRaiE =>
    if c.toNat = 0x16D63 || c.toNat = 0x16D69 then some (0, plain)
    else if c.toNat = 0x16D67 then some (0, kiratRaiAi)
    else if c.toNat = 0x16D68 then some (1, kiratRaiE)
    else none
  | kiratRaiAi => if c.toNat = 0x16D63 then some (0, plain) else none

/-- The columns that a character adds before an opening, and what the text then begins with. -/
def prepend (c : Char) (next : Opening) : Int × Opening :=
  (next.join? c).getD (columns c, ofChar c)

end Opening

namespace Following

/-- A selector for the emoji style.  The end of a ligature is still to be seen behind it, and so is
an emoji that a joiner or a joined keycap stands before. -/
def selectEmoji (next : Following) : Following :=
  match next.opening with
  | .letter _ | .emoji .joined | .emoji .joinedKeycap => { next with emojiStyle := true }
  | _ => { opening := .plain, emojiStyle := true }

/-- A selector for the text style. -/
def selectText (next : Following) : Following :=
  match next.opening with
  | .letter _ => { next with textStyle := true }
  | _ => { opening := .plain, textStyle := true }

/-- A selector for the fullwidth form. -/
def selectFullwidth (next : Following) : Following :=
  match next.opening with
  | .letter _ => { next with fullwidth := true }
  | _ => { opening := .plain, fullwidth := true }

/-- The selector for the emoji style is gone, because the character before it has no such style. -/
def ignoreEmojiStyle (next : Following) : Following :=
  match next.emojiStyle, next.opening with
  | false, _ => next
  | true, .letter _ => { next with emojiStyle := false }
  | true, _ => { opening := .plain }

/-- The emoji that a selector makes is joined to another one. -/
def isJoined (next : Following) : Bool :=
  match next.opening with
  | .emoji .joined | .emoji .joinedKeycap => true
  | _ => false

/-- The quotation marks that have a fullwidth form. -/
def hasFullwidthForm (c : Char) : Bool :=
  c = '\u2018' || c = '\u2019' || c = '\u201c' || c = '\u201d'

/-- The columns that a character adds before what follows it, and what the text then begins with.
A selector counts only for the character right before it. -/
def prepend (c : Char) (next : Following) : Int × Following :=
  if next.emojiStyle && selectable.contains c then
    (if next.isJoined then 0 else 2, { opening := .emoji .whole })
  else
    let next := next.ignoreEmojiStyle
    if c = '\ufe0f' then (0, next.selectEmoji)
    else if c = '\ufe0e' then (0, next.selectText)
    else if c = '\ufe01' then (0, next.selectFullwidth)
    else if next.textStyle && narrowAsText c then (1, { opening := .plain })
    else if next.fullwidth && hasFullwidthForm c then (2, { opening := .plain })
    else
      let (added, opening) := next.opening.prepend c
      (added, { opening })

end Following

/-- The columns that a line takes. -/
def width (line : String) : Nat :=
  let columnsBefore (c : Char) (read : Int × Following) : Int × Following :=
    let (added, next) := read.2.prepend c
    (read.1 + added, next)
  (line.toList.foldr columnsBefore (0, { opening := .plain })).1.toNat

end Text

end SchemaValidation
