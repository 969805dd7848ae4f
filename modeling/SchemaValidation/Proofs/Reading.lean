import SchemaValidation.Proofs.Tokens

/-!
# Reading documents

The tokens of a JSON text are put together to a document.  What has been opened and not closed is
kept in a list, innermost first (`Document.Frame`).  Texts that are not JSON are refused, and so are
null, negative numbers and fractions, which documents do not have.

What is written out of a document can be read again (`Document.ofText?_line`).  The two passes are
inverted one at a time: a document is cut into its tokens whatever comes after it
(`Document.lexes`), and its tokens are put together whatever has been opened before
(`Document.parses`).
-/

namespace SchemaValidation

namespace Document

open Text

/-- Something that has been opened and not closed, with what has been read of it. -/
inductive Frame where
  | array (items : List Document)
  /-- The value of the last member is still to be read. -/
  | object (members : List (String × Document)) (name : String)

mutual

/-- A value comes next. -/
def value? (stack : List Frame) : List Token → Option Document
  | .text s :: rest => after? stack (.text s) rest
  | .count n :: rest => after? stack (.count n) rest
  | .flag b :: rest => after? stack (.flag b) rest
  | .leftBracket :: .rightBracket :: rest => after? stack (.array []) rest
  | .leftBracket :: rest => value? (.array [] :: stack) rest
  | .leftBrace :: .rightBrace :: rest => after? stack (.object []) rest
  | .leftBrace :: .text name :: .colon :: rest => value? (.object [] name :: stack) rest
  | _ => none
termination_by structural tokens => tokens

/-- A value has been read. -/
def after? : List Frame → Document → List Token → Option Document
  | [], d, [] => some d
  | .array items :: stack, d, .comma :: rest => value? (.array (items ++ [d]) :: stack) rest
  | .array items :: stack, d, .rightBracket :: rest => after? stack (.array (items ++ [d])) rest
  | .object members name :: stack, d, .comma :: .text next :: .colon :: rest =>
    value? (.object (members ++ [(name, d)]) next :: stack) rest
  | .object members name :: stack, d, .rightBrace :: rest =>
    after? stack (.object (members ++ [(name, d)])) rest
  | _, _, _ => none
termination_by structural _ _ tokens => tokens

end

/-- The document that a JSON text stands for. -/
def ofText? (text : String) : Option Document := (lex .nothing text.toList).bind (value? [])

-- blanks may stand between tokens, and characters may be escaped that need not be
example : ofText? " [ \"\\u0041\\/\", 10 ,\ttrue ] \n" =
    some (.array [.text "A/", .count 10, .flag true]) := rfl

/-! ## Tokens of documents -/

mutual

/-- The tokens of a document, as they are written out. -/
def tokens : Document → List Token
  | .text s => [.text s]
  | .count n => [.count n]
  | .flag b => [.flag b]
  | .array items => .leftBracket :: tokensOfItems items ++ [.rightBracket]
  | .object members => .leftBrace :: tokensOfMembers members ++ [.rightBrace]
termination_by structural d => d

def tokensOfItems : List Document → List Token
  | [] => []
  | [item] => item.tokens
  | item :: items => item.tokens ++ .comma :: tokensOfItems items
termination_by structural items => items

def tokensOfMembers : List (String × Document) → List Token
  | [] => []
  | [(name, d)] => .text name :: .colon :: d.tokens
  | (name, d) :: members => .text name :: .colon :: d.tokens ++ .comma :: tokensOfMembers members
termination_by structural members => members

end

section

variable (d next : Document) (items : List Document) (name : String) (other : String × Document)
  (members : List (String × Document))

theorem tokensOfItems_cons_cons :
    tokensOfItems (d :: next :: items) = d.tokens ++ .comma :: tokensOfItems (next :: items) := rfl

theorem tokensOfMembers_singleton :
    tokensOfMembers [(name, d)] = .text name :: .colon :: d.tokens := rfl

theorem tokensOfMembers_cons_cons : tokensOfMembers ((name, d) :: other :: members) =
    .text name :: .colon :: d.tokens ++ .comma :: tokensOfMembers (other :: members) := rfl

end

variable {rest : List Char}

/-- A document is cut into its tokens, whatever comes after it. -/
def Lexes (d : Document) : Prop :=
  ∀ rest, EndsNumeral rest → lex .nothing (d.chars ++ rest) = (lex .nothing rest).map (d.tokens ++ ·)

theorem lex_charsOfItems {items : List Document} (h : ∀ d ∈ items, Lexes d)
    (ends : EndsNumeral rest) : lex .nothing (charsOfItems items ++ rest) =
      (lex .nothing rest).map (tokensOfItems items ++ ·) := by
  induction items with
  | nil => exact Option.map_id'.symm
  | cons d items ih =>
    cases items with
    | nil => exact h d List.mem_cons_self rest ends
    | cons next items =>
      rw [charsOfItems_cons_cons, tokensOfItems_cons_cons, List.append_assoc, List.cons_append,
        h d List.mem_cons_self _ (endsNumeral_cons rfl), lex_single rfl,
        ih fun d mem => h d (List.mem_cons_of_mem _ mem)]
      simp [Function.comp_def]

theorem lex_charsOfMembers {members : List (String × Document)}
    (h : ∀ member ∈ members, Lexes member.2) (ends : EndsNumeral rest) :
    lex .nothing (charsOfMembers members ++ rest) =
      (lex .nothing rest).map (tokensOfMembers members ++ ·) := by
  have named {name : String} {d : Document} {rest : List Char} (hd : Lexes d)
      (ends : EndsNumeral rest) : lex .nothing (quoted name ++ ':' :: (d.chars ++ rest)) =
        (lex .nothing rest).map fun rest => .text name :: .colon :: (d.tokens ++ rest) := by
    rw [lex_quoted, lex_single rfl, hd rest ends]
    simp [Function.comp_def]
  induction members with
  | nil => exact Option.map_id'.symm
  | cons member members ih =>
    obtain ⟨name, d⟩ := member
    have hd := h _ List.mem_cons_self
    cases members with
    | nil =>
      rw [charsOfMembers_singleton, tokensOfMembers_singleton, List.append_assoc]
      exact named hd ends
    | cons next members =>
      rw [charsOfMembers_cons_cons, tokensOfMembers_cons_cons, List.append_assoc]
      simp only [List.append_assoc, List.cons_append]
      rw [named hd (endsNumeral_cons rfl), lex_single rfl,
        ih fun member mem => h member (List.mem_cons_of_mem _ mem)]
      simp [Function.comp_def]

theorem lexes (d : Document) : Lexes d := by
  induction d using Document.induction with
  | text s => exact fun rest _ => lex_quoted s rest
  | count n => exact fun rest ends => lex_count n ends
  | flag b => exact fun rest _ => lex_flag b rest
  | array items ih =>
    intro rest _
    rw [chars, tokens, List.cons_append, List.cons_append, List.append_assoc, List.singleton_append,
      lex_single rfl, lex_charsOfItems ih (endsNumeral_cons rfl), lex_single rfl]
    simp [Function.comp_def]
  | object members ih =>
    intro rest _
    rw [chars, tokens, List.cons_append, List.cons_append, List.append_assoc, List.singleton_append,
      lex_single rfl, lex_charsOfMembers ih (endsNumeral_cons rfl), lex_single rfl]
    simp [Function.comp_def]

/-! ## Documents of tokens -/

/-- The tokens of a document are put together, whatever has been opened before. -/
def Parses (d : Document) : Prop :=
  ∀ stack rest, value? stack (d.tokens ++ rest) = after? stack d rest

/-- No document begins like the end of an array. -/
theorem exists_tokensOfItems_eq (d : Document) (items : List Document) :
    ∃ token rest, tokensOfItems (d :: items) = token :: rest ∧ token ≠ .rightBracket := by
  have first : ∃ token rest, d.tokens = token :: rest ∧ token ≠ .rightBracket := by
    cases d with
    | text | count | flag | array | object =>
      rw [tokens]
      exact ⟨_, _, rfl, by simp⟩
  obtain ⟨token, rest, eq, other⟩ := first
  cases items with
  | nil => exact ⟨token, rest, eq, other⟩
  | cons next items =>
    refine ⟨token, rest ++ .comma :: tokensOfItems (next :: items), ?_, other⟩
    rw [tokensOfItems_cons_cons, eq, List.cons_append]

/-- What follows an opening bracket is a value unless it is the closing one. -/
theorem value?_leftBracket {token : Token} (h : token ≠ .rightBracket) (stack : List Frame)
    (rest : List Token) : value? stack (.leftBracket :: token :: rest) =
      value? (.array [] :: stack) (token :: rest) := by
  cases token with
  | rightBracket => exact (h rfl).elim
  | _ => rfl

theorem after?_array_comma (items : List Document) (stack : List Frame) (d : Document)
    (rest : List Token) : after? (.array items :: stack) d (.comma :: rest) =
      value? (.array (items ++ [d]) :: stack) rest := rfl

theorem after?_object_comma (members : List (String × Document)) (name next : String)
    (stack : List Frame) (d : Document) (rest : List Token) :
    after? (.object members name :: stack) d (.comma :: .text next :: .colon :: rest) =
      value? (.object (members ++ [(name, d)]) next :: stack) rest := rfl

theorem value?_tokensOfItems {items : List Document} (h : ∀ d ∈ items, Parses d)
    (some : items ≠ []) (before : List Document) (stack : List Frame) (rest : List Token) :
    value? (.array before :: stack) (tokensOfItems items ++ .rightBracket :: rest) =
      after? stack (.array (before ++ items)) rest := by
  induction items generalizing before with
  | nil => exact (some rfl).elim
  | cons d items ih =>
    cases items with
    | nil => exact h d List.mem_cons_self _ _
    | cons next items =>
      rw [tokensOfItems_cons_cons, List.append_assoc, h d List.mem_cons_self, List.cons_append,
        after?_array_comma, ih (fun d mem => h d (List.mem_cons_of_mem _ mem)) (List.cons_ne_nil _ _),
        List.append_assoc, List.singleton_append]

theorem value?_tokensOfMembers {members : List (String × Document)} (name : String) {d : Document}
    (hd : Parses d) (h : ∀ member ∈ members, Parses member.2) :
    ∃ tokens, tokensOfMembers ((name, d) :: members) = .text name :: .colon :: tokens ∧
      ∀ before stack rest, value? (.object before name :: stack) (tokens ++ .rightBrace :: rest) =
        after? stack (.object (before ++ (name, d) :: members)) rest := by
  induction members generalizing name d with
  | nil => exact ⟨d.tokens, rfl, fun before stack rest => hd _ _⟩
  | cons member members ih =>
    obtain ⟨next, d'⟩ := member
    obtain ⟨tokens, eq, reads⟩ := ih next (h _ List.mem_cons_self)
      fun member mem => h member (List.mem_cons_of_mem _ mem)
    refine ⟨d.tokens ++ .comma :: .text next :: .colon :: tokens, ?_, ?_⟩
    · rw [tokensOfMembers_cons_cons, eq]
      rfl
    · intro before stack rest
      rw [List.append_assoc, hd, List.cons_append, List.cons_append, List.cons_append,
        after?_object_comma, reads, List.append_assoc, List.singleton_append]

theorem parses (d : Document) : Parses d := by
  induction d using Document.induction with
  | text | count | flag => exact fun stack rest => rfl
  | array items ih =>
    intro stack rest
    cases items with
    | nil => rfl
    | cons d items =>
      have inside := value?_tokensOfItems ih (List.cons_ne_nil d items) [] stack rest
      obtain ⟨token, others, eq, other⟩ := exists_tokensOfItems_eq d items
      rw [eq, List.cons_append] at inside
      calc value? stack ((Document.array (d :: items)).tokens ++ rest)
          = value? stack (.leftBracket :: token :: (others ++ .rightBracket :: rest)) := by
            rw [tokens, eq]
            simp
        _ = value? (.array [] :: stack) (token :: (others ++ .rightBracket :: rest)) :=
            value?_leftBracket other ..
        _ = after? stack (.array (d :: items)) rest := inside
  | object members ih =>
    intro stack rest
    cases members with
    | nil => rfl
    | cons member members =>
      obtain ⟨name, d⟩ := member
      obtain ⟨others, eq, reads⟩ := value?_tokensOfMembers name
        (ih _ List.mem_cons_self) fun member mem => ih member (List.mem_cons_of_mem _ mem)
      rw [tokens, eq, List.append_assoc]
      exact reads [] stack rest

/-- What is written out of a document is read again. -/
theorem ofText?_line (d : Document) : ofText? d.line = some d := by
  have lexed : lex .nothing (d.chars ++ ['\n']) = some d.tokens := by
    have blank : lex .nothing ['\n'] = some [] := by decide
    rw [lexes d _ (endsNumeral_cons rfl), blank, Option.map_some, List.append_nil]
  have parsed : value? [] d.tokens = some d := by
    have := parses d [] []
    rwa [List.append_nil] at this
  rw [ofText?, line, String.toList_ofList, lexed]
  exact parsed

end Document

end SchemaValidation
