import SchemaValidation.Proofs.Numerals
import SchemaValidation.Text.Document

/-!
# Escaped characters

In a JSON string a character stands for itself or is written as an escape, by a letter or by its code
(`Text.escape_cases`).  Control characters, the line breaks among them, are always escaped, and no
escape needs one.  So there are none in what is written out of a document
(`Document.isControl_of_mem_chars`), and it fits on one line (`Document.exists_line`).
-/

namespace SchemaValidation

namespace Text

/-- A character that may not stand for itself in a JSON string.  Line breaks are among them. -/
def isControl (c : Char) : Bool := c.toNat < 0x20

/-- What a character stands for after a backslash, codes apart. -/
def unescape? : Char → Option Char
  | '"' => some '"'
  | '\\' => some '\\'
  | '/' => some '/'
  | 'b' => some '\x08'
  | 'f' => some '\x0c'
  | 'n' => some '\n'
  | 'r' => some '\r'
  | 't' => some '\t'
  | _ => none

/-- A character is escaped by a letter or another character, or as a control character by its code,
or it stands for itself. -/
theorem escape_cases (c : Char) :
    (∃ x, escape c = ['\\', x] ∧ unescape? x = some c ∧ x ≠ 'u') ∨
    (escape c = ['\\', 'u', '0', '0', hexDigit (c.toNat / 16), hexDigit (c.toNat % 16)] ∧
      c.toNat < 0x20) ∨
    (escape c = [c] ∧ c ≠ '"' ∧ c ≠ '\\' ∧ isControl c = false) := by
  have letter {x : Char} (h : unescape? x = some c) (code : x ≠ 'u') :
      ∃ y, ['\\', x] = ['\\', y] ∧ unescape? y = some c ∧ y ≠ 'u' := ⟨x, rfl, h, code⟩
  rw [escape]
  iterate 7
    split
    next eq => exact .inl (letter (by rw [eq]; rfl) (by decide))
  split
  next control => exact .inr (.inl ⟨rfl, control⟩)
  next quote backslash _ _ _ _ _ control =>
    exact .inr (.inr ⟨rfl, quote, backslash, decide_eq_false control⟩)

variable {c x : Char}

theorem isControl_hexDigit : ∀ n < 16, isControl (hexDigit n) = false := by decide

theorem isControl_of_unescape? (h : unescape? x = some c) : isControl x = false := by
  unfold unescape? at h
  split at h
  all_goals first | rfl | cases h

/-- Control characters are escaped, and by other characters. -/
theorem isControl_of_mem_escape (h : x ∈ escape c) : isControl x = false := by
  rcases escape_cases c with ⟨letter, eq, unescaped, -⟩ | ⟨eq, control⟩ | ⟨eq, -, -, plain⟩
  · rw [eq] at h
    simp only [List.mem_cons, List.not_mem_nil, or_false] at h
    rcases h with rfl | rfl
    · rfl
    · exact isControl_of_unescape? unescaped
  · rw [eq] at h
    simp only [List.mem_cons, List.not_mem_nil, or_false] at h
    rcases h with rfl | rfl | rfl | rfl | rfl | rfl
    · rfl
    · rfl
    · rfl
    · rfl
    · exact isControl_hexDigit _ (by omega)
    · exact isControl_hexDigit _ (by omega)
  · rw [eq, List.mem_singleton] at h
    rwa [h]

theorem isControl_of_mem_quoted {s : String} (h : x ∈ quoted s) : isControl x = false := by
  rw [quoted, List.cons_append, List.mem_cons, List.mem_append, List.mem_singleton] at h
  rcases h with rfl | mem | rfl
  · rfl
  · obtain ⟨c, -, mem⟩ := List.mem_flatMap.mp mem
    exact isControl_of_mem_escape mem
  · rfl

theorem isControl_of_isDigit (h : c.isDigit = true) : isControl c = false := by
  cases control : isControl c with
  | false => rfl
  | true =>
    have first : '0'.toNat = 0x30 := rfl
    rw [Char.isDigit_iff_toNat] at h
    rw [isControl, decide_eq_true_iff] at control
    omega

end Text

namespace Document

open Text

/-- Every document is built from the documents in it. -/
theorem induction {P : Document → Prop} (text : ∀ s, P (.text s)) (count : ∀ n, P (.count n))
    (flag : ∀ b, P (.flag b)) (array : ∀ items, (∀ d ∈ items, P d) → P (.array items))
    (object : ∀ members, (∀ member ∈ members, P member.2) → P (.object members))
    (d : Document) : P d := by
  refine @Document.rec P (fun items => ∀ d ∈ items, P d)
    (fun members => ∀ member ∈ members, P member.2) (fun member => P member.2)
    text count flag array object ?_ ?_ ?_ ?_ ?_ d
  all_goals simp_all

section

variable (d next : Document) (items : List Document) (name : String) (other : String × Document)
  (members : List (String × Document))

theorem charsOfItems_cons_cons :
    charsOfItems (d :: next :: items) = d.chars ++ ',' :: charsOfItems (next :: items) := rfl

theorem charsOfMembers_singleton :
    charsOfMembers [(name, d)] = quoted name ++ ':' :: d.chars := rfl

theorem charsOfMembers_cons_cons : charsOfMembers ((name, d) :: other :: members) =
    quoted name ++ ':' :: d.chars ++ ',' :: charsOfMembers (other :: members) := rfl

end

theorem isControl_of_mem_charsOfItems {items : List Document} {x : Char}
    (h : ∀ d ∈ items, ∀ x ∈ d.chars, isControl x = false) (mem : x ∈ charsOfItems items) :
    isControl x = false := by
  induction items with
  | nil => cases mem
  | cons d items ih =>
    cases items with
    | nil => exact h d List.mem_cons_self x mem
    | cons next items =>
      rw [charsOfItems_cons_cons, List.mem_append, List.mem_cons] at mem
      rcases mem with mem | rfl | mem
      · exact h d List.mem_cons_self x mem
      · rfl
      · exact ih (fun d later => h d (List.mem_cons_of_mem _ later)) mem

theorem isControl_of_mem_charsOfMembers {members : List (String × Document)} {x : Char}
    (h : ∀ member ∈ members, ∀ x ∈ member.2.chars, isControl x = false)
    (mem : x ∈ charsOfMembers members) : isControl x = false := by
  have named {name : String} {d : Document} (h : ∀ x ∈ d.chars, isControl x = false)
      (mem : x ∈ quoted name ++ ':' :: d.chars) : isControl x = false := by
    rw [List.mem_append, List.mem_cons] at mem
    rcases mem with mem | rfl | mem
    · exact isControl_of_mem_quoted mem
    · rfl
    · exact h x mem
  induction members with
  | nil => cases mem
  | cons member members ih =>
    obtain ⟨name, d⟩ := member
    cases members with
    | nil => exact named (h _ List.mem_cons_self) mem
    | cons next members =>
      rw [charsOfMembers_cons_cons, List.mem_append, List.mem_cons] at mem
      rcases mem with mem | rfl | mem
      · exact named (h _ List.mem_cons_self) mem
      · rfl
      · exact ih (fun member later => h member (List.mem_cons_of_mem _ later)) mem

/-- No control character stands for itself in what is written out. -/
theorem isControl_of_mem_chars {d : Document} {x : Char} (h : x ∈ d.chars) : isControl x = false := by
  induction d using Document.induction generalizing x with
  | text s => exact isControl_of_mem_quoted h
  | count n => exact isControl_of_isDigit (isDigit_of_mem_toDigits h)
  | flag b =>
    have word : (flag b).chars.all (!isControl ·) = true := by cases b <;> rfl
    exact (Bool.not_eq_true' _).mp (List.all_eq_true.mp word x h)
  | array items ih =>
    rw [chars, List.cons_append, List.mem_cons, List.mem_append, List.mem_singleton] at h
    rcases h with rfl | mem | rfl
    · rfl
    · exact isControl_of_mem_charsOfItems (fun d hd x => ih d hd) mem
    · rfl
  | object members ih =>
    rw [chars, List.cons_append, List.mem_cons, List.mem_append, List.mem_singleton] at h
    rcases h with rfl | mem | rfl
    · rfl
    · exact isControl_of_mem_charsOfMembers (fun member hm x => ih member hm) mem
    · rfl

/-- A document is on one line. -/
theorem exists_line (d : Document) :
    ∃ line, d.line.toList = line ++ ['\n'] ∧ '\n' ∉ line ∧ '\r' ∉ line ∧
      ∀ c ∈ line, isControl c = false := by
  have plain : ∀ c ∈ d.chars, isControl c = false := fun c mem => isControl_of_mem_chars mem
  refine ⟨d.chars, String.toList_ofList, fun mem => ?_, fun mem => ?_, plain⟩
  · cases plain _ mem
  · cases plain _ mem

end Document

end SchemaValidation
