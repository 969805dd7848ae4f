import SchemaValidation.Proofs.Escaping

/-!
# Tokens of a JSON text

`Document.lex` cuts a JSON text into tokens, one character after the other.  Blanks may stand between
tokens.  In a string any character may be escaped, those beyond the first 65536 as a pair of code
units, and control characters have to be.  A number is a natural one, without zeros before it.

What is known of a token that is not complete yet is kept in `Document.Begun`.  Each lemma says what
becomes of it while some written form is read, and is about any text that comes after that form.
-/

namespace SchemaValidation

namespace Text

def isBlank (c : Char) : Bool := c = ' ' || c = '\n' || c = '\r' || c = '\t'

def digitValue (c : Char) : Nat := c.toNat - '0'.toNat

/-- The value of a digit to base sixteen. -/
def hexValue? (c : Char) : Option Nat :=
  if '0' ≤ c ∧ c ≤ '9' then some (digitValue c)
  else if 'a' ≤ c ∧ c ≤ 'f' then some (c.toNat - 'a'.toNat + 10)
  else if 'A' ≤ c ∧ c ≤ 'F' then some (c.toNat - 'A'.toNat + 10)
  else none

theorem hexValue?_hexDigit : ∀ n < 16, hexValue? (hexDigit n) = some n := by decide

end Text

namespace Document

open Text

inductive Token where
  | leftBrace | rightBrace | leftBracket | rightBracket | comma | colon
  | text (s : String)
  | count (n : Nat)
  | flag (b : Bool)
deriving DecidableEq, Repr

/-- What has been read of a token. -/
inductive Begun where
  | nothing
  /-- A string, without the quote at its end. -/
  | text (read : List Char)
  /-- A string, and a backslash. -/
  | escape (read : List Char)
  /-- A string, and a code unit of which digits are missing.  It may be the second of a pair. -/
  | unit (read : List Char) (first : Option Nat) (value missing : Nat)
  /-- A string, and the first code unit of a pair, perhaps with the backslash of the second. -/
  | pair (read : List Char) (first : Nat) (escaped : Bool)
  | numeral (n : Nat)
  /-- A word of which these letters are missing. -/
  | word (missing : List Char) (token : Token)
deriving DecidableEq, Repr

namespace Begun

/-- A code unit is complete. -/
def complete (read : List Char) (first : Option Nat) (value : Nat) : Option Begun :=
  let leads := 0xd800 ≤ value ∧ value < 0xdc00
  let trails := 0xdc00 ≤ value ∧ value < 0xe000
  match first with
  | none =>
    if leads then some (.pair read value false)
    else if trails then none
    else some (.text (read ++ [.ofNat value]))
  | some first =>
    if trails then
      some (.text (read ++ [.ofNat (0x10000 + (first - 0xd800) * 0x400 + (value - 0xdc00))]))
    else none

/-- The character is the first of a token, or a blank. -/
def start : Char → Option (List Token × Begun)
  | '\x7b' => some ([.leftBrace], .nothing)
  | '\x7d' => some ([.rightBrace], .nothing)
  | '[' => some ([.leftBracket], .nothing)
  | ']' => some ([.rightBracket], .nothing)
  | ',' => some ([.comma], .nothing)
  | ':' => some ([.colon], .nothing)
  | '"' => some ([], .text [])
  | 't' => some ([], .word ['r', 'u', 'e'] (.flag true))
  | 'f' => some ([], .word ['a', 'l', 's', 'e'] (.flag false))
  | c =>
    if isBlank c then some ([], .nothing)
    else if c.isDigit then some ([], .numeral (digitValue c))
    else none

/-- Take one more character.  It may complete a token or even two, for a number ends only where
something else begins. -/
def step : Begun → Char → Option (List Token × Begun)
  | .nothing, c => start c
  | .text read, c =>
    if c = '"' then some ([.text (.ofList read)], .nothing)
    else if c = '\\' then some ([], .escape read)
    else if isControl c then none
    else some ([], .text (read ++ [c]))
  | .escape read, c =>
    if c = 'u' then some ([], .unit read none 0 4)
    else (unescape? c).map fun c => ([], .text (read ++ [c]))
  | .unit read first value missing, c => do
    let value := value * 16 + (← hexValue? c)
    if missing = 1 then return ([], ← complete read first value)
    else return ([], .unit read first value (missing - 1))
  | .pair read first escaped, c =>
    if escaped then if c = 'u' then some ([], .unit read (some first) 0 4) else none
    else if c = '\\' then some ([], .pair read first true) else none
  | .numeral n, c =>
    if c.isDigit then
      -- a number has no zeros before it
      if n = 0 then none else some ([], .numeral (10 * n + digitValue c))
    else (start c).map fun (tokens, begun) => (.count n :: tokens, begun)
  | .word missing token, c =>
    if missing = [c] then some ([token], .nothing)
    else if missing.head? = some c then some ([], .word missing.tail token)
    else none

/-- The text ends here. -/
def finish : Begun → Option (List Token)
  | .nothing => some []
  | .numeral n => some [.count n]
  | _ => none

end Begun

/-- Cut the rest of a text into tokens. -/
def lex (begun : Begun) : List Char → Option (List Token)
  | [] => begun.finish
  | c :: rest => (begun.step c).bind fun (tokens, begun) => (lex begun rest).map (tokens ++ ·)

/-! ## What is read of a written form -/

variable {begun begun' : Begun} {c : Char} {emitted : List Token} {rest : List Char}

theorem lex_cons (h : begun.step c = some (emitted, begun')) :
    lex begun (c :: rest) = (lex begun' rest).map (emitted ++ ·) := by
  rw [lex, h]
  rfl

/-- A character that completes no token. -/
theorem lex_cons_silent (h : begun.step c = some ([], begun')) :
    lex begun (c :: rest) = lex begun' rest :=
  (lex_cons h).trans Option.map_id'

/-- One more digit of a code unit, but not the last. -/
theorem lex_unit_cons {read : List Char} {value missing d : Nat} (hd : d < 16) :
    lex (.unit read none value (missing + 2)) (hexDigit d :: rest) =
      lex (.unit read none (value * 16 + d) (missing + 1)) rest := by
  apply lex_cons_silent
  simp [Begun.step, hexValue?_hexDigit d hd]

/-- The last digit of a code unit that is a character. -/
theorem lex_unit_last {read : List Char} {value d : Nat} (hd : d < 16)
    (small : value * 16 + d < 0xd800) :
    lex (.unit read none value 1) (hexDigit d :: rest) =
      lex (.text (read ++ [.ofNat (value * 16 + d)])) rest := by
  have single : Begun.complete read none (value * 16 + d) =
      some (.text (read ++ [.ofNat (value * 16 + d)])) := by
    rw [Begun.complete]
    rw [if_neg (by omega), if_neg (by omega)]
  apply lex_cons_silent
  simp [Begun.step, hexValue?_hexDigit d hd, single]

/-- A control character is read from its code. -/
theorem lex_code (read : List Char) (h : c.toNat < 0x20) :
    lex (.text read) ('\\' :: 'u' :: '0' :: '0' :: hexDigit (c.toNat / 16) ::
      hexDigit (c.toNat % 16) :: rest) = lex (.text (read ++ [c])) rest := by
  have split : ((0 * 16 + 0) * 16 + 0) * 16 + c.toNat / 16 = c.toNat / 16 := by omega
  have whole : c.toNat / 16 * 16 + c.toNat % 16 = c.toNat := by omega
  calc lex (.text read) ('\\' :: 'u' :: '0' :: '0' :: hexDigit (c.toNat / 16) ::
        hexDigit (c.toNat % 16) :: rest)
      = lex (.escape read) ('u' :: '0' :: '0' :: hexDigit (c.toNat / 16) ::
          hexDigit (c.toNat % 16) :: rest) := lex_cons_silent rfl
    _ = lex (.unit read none 0 4) (hexDigit 0 :: hexDigit 0 :: hexDigit (c.toNat / 16) ::
          hexDigit (c.toNat % 16) :: rest) := lex_cons_silent rfl
    _ = lex (.unit read none (c.toNat / 16) 1) (hexDigit (c.toNat % 16) :: rest) := by
      rw [lex_unit_cons (by omega), lex_unit_cons (by omega), lex_unit_cons (by omega), split]
    _ = lex (.text (read ++ [c])) rest := by
      rw [lex_unit_last (by omega) (by omega), whole, Char.ofNat_toNat]

/-- A character of a string is read from what stands for it. -/
theorem lex_escape (read : List Char) (c : Char) (rest : List Char) :
    lex (.text read) (escape c ++ rest) = lex (.text (read ++ [c])) rest := by
  rcases escape_cases c with ⟨x, eq, unescaped, code⟩ | ⟨eq, control⟩ | ⟨eq, quote, backslash, plain⟩
  · rw [eq]
    refine (lex_cons_silent rfl).trans (lex_cons_silent ?_)
    rw [Begun.step, if_neg code, unescaped]
    rfl
  · rw [eq]
    exact lex_code read control
  · rw [eq]
    refine lex_cons_silent ?_
    rw [Begun.step, if_neg quote, if_neg backslash, plain]
    rfl

/-- A string is read up to the quote at its end. -/
theorem lex_text (read s : List Char) (rest : List Char) :
    lex (.text read) (s.flatMap escape ++ '"' :: rest) =
      (lex .nothing rest).map (.text (.ofList (read ++ s)) :: ·) := by
  induction s generalizing read with
  | nil =>
    have closed : Begun.step (.text read) '"' = some ([.text (.ofList read)], .nothing) := rfl
    rw [List.append_nil]
    exact lex_cons closed
  | cons c s ih =>
    rw [List.flatMap_cons, List.append_assoc, lex_escape, ih, List.append_assoc]
    rfl

theorem lex_quoted (s : String) (rest : List Char) :
    lex .nothing (quoted s ++ rest) = (lex .nothing rest).map (.text s :: ·) := by
  have opened : lex .nothing (quoted s ++ rest) =
      lex (.text []) (s.toList.flatMap escape ++ '"' :: rest) := by
    rw [quoted, List.append_assoc]
    exact lex_cons_silent rfl
  rw [opened, lex_text, List.nil_append, String.ofList_toList]

theorem start_digitChar : ∀ d < 10, Begun.start d.digitChar = some ([], .numeral d) := by decide

theorem digitValue_digitChar : ∀ d < 10, d.digitChar.isDigit = true ∧ digitValue d.digitChar = d := by
  decide

theorem lex_toDigits (n : Nat) (rest : List Char) :
    lex .nothing (Nat.toDigits 10 n ++ rest) = lex (.numeral n) rest := by
  induction n using Nat.strongRecOn generalizing rest with
  | ind n ih =>
    by_cases small : n < 10
    · rw [Nat.toDigits_of_lt_base small]
      exact lex_cons_silent (start_digitChar n small)
    · obtain ⟨digit, value⟩ := digitValue_digitChar (n % 10) (by omega)
      have step : Begun.step (.numeral (n / 10)) (n % 10).digitChar = some ([], .numeral n) := by
        rw [Begun.step, if_pos digit, if_neg (by omega), value, Nat.div_add_mod]
      rw [Nat.toDigits_of_base_le (by decide) (by omega), List.append_assoc, ih _ (by omega)]
      exact lex_cons_silent step

/-- The text does not go on with a digit. -/
def EndsNumeral (rest : List Char) : Prop := ∀ c ∈ rest.head?, c.isDigit = false

theorem lex_numeral (n : Nat) (h : EndsNumeral rest) :
    lex (.numeral n) rest = (lex .nothing rest).map (.count n :: ·) := by
  cases rest with
  | nil => rfl
  | cons c rest =>
    have step : Begun.step (.numeral n) c =
        (Begun.start c).map fun (tokens, begun) => (.count n :: tokens, begun) := by
      rw [Begun.step, h c rfl, if_neg Bool.false_ne_true]
    rw [lex, lex, step, Begun.step]
    cases Begun.start c with
    | none => rfl
    | some first => simp [Function.comp_def]

theorem lex_count (n : Nat) (h : EndsNumeral rest) :
    lex .nothing (Nat.toDigits 10 n ++ rest) = (lex .nothing rest).map (.count n :: ·) := by
  rw [lex_toDigits, lex_numeral n h]

theorem lex_word (token : Token) {missing : List Char} (h : missing ≠ []) (rest : List Char) :
    lex (.word missing token) (missing ++ rest) = (lex .nothing rest).map (token :: ·) := by
  induction missing with
  | nil => exact (h rfl).elim
  | cons c missing ih =>
    by_cases last : missing = []
    · have step : Begun.step (.word (c :: missing) token) c = some ([token], .nothing) := by
        rw [Begun.step, last, if_pos rfl]
      rw [last] at step ⊢
      exact lex_cons step
    · have step : Begun.step (.word (c :: missing) token) c = some ([], .word missing token) := by
        rw [Begun.step, if_neg (by simpa using last), List.head?_cons, if_pos rfl, List.tail_cons]
      exact (lex_cons_silent step).trans (ih last)

theorem lex_flag (b : Bool) (rest : List Char) :
    lex .nothing ((flag b).chars ++ rest) = (lex .nothing rest).map (.flag b :: ·) := by
  cases b with
  | true =>
    have first : Begun.step .nothing 't' = some ([], .word ['r', 'u', 'e'] (.flag true)) := rfl
    exact (lex_cons_silent first).trans (lex_word _ (List.cons_ne_nil _ _) rest)
  | false =>
    have first : Begun.step .nothing 'f' = some ([], .word ['a', 'l', 's', 'e'] (.flag false)) := rfl
    exact (lex_cons_silent first).trans (lex_word _ (List.cons_ne_nil _ _) rest)

/-- A character that is a token by itself. -/
theorem lex_single {token : Token} (h : Begun.step .nothing c = some ([token], .nothing))
    (rest : List Char) : lex .nothing (c :: rest) = (lex .nothing rest).map (token :: ·) :=
  lex_cons h

theorem endsNumeral_cons (h : c.isDigit = false) : EndsNumeral (c :: rest) := by
  rintro _ ⟨⟩
  exact h

end Document

end SchemaValidation
