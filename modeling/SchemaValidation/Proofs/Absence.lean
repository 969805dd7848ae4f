import SchemaValidation.Proofs.Context
import Mathlib.Data.List.Chain

/-!
# Absence

Which schemas accept the absent value.  Most nodes go by their flag alone.  Arrays and unions put
absence to their refinements as well, and a union passes it on to its alternatives, which may be
unions again.  So a schema accepts absence by way of a chain of alternatives that ends in an
optional node (`Schema.AbsenceChain`), and nothing else of the schema has a say.
-/

namespace SchemaValidation

namespace Schema

/-- The next node is an alternative of this one. -/
def Offers (s next : Schema) : Prop :=
  ∃ alternatives, s.kind = .union alternatives ∧ next ∈ alternatives

/-- The refinements of an array or a union hold of the absent value.  Those of other nodes are not
asked. -/
def BearsAbsence (s : Schema) : Prop :=
  s.kind.name = .array ∨ s.kind.name = .union → ∀ p ∈ s.refinements, (p .absent).result = true

/-- Nodes from the schema down, each an alternative of the one before, to an optional one. -/
structure AbsenceChain (s : Schema) (chain : List Schema) : Prop where
  head : chain.head? = some s
  links : chain.IsChain Offers
  optional : ∃ last, chain.getLast? = some last ∧ last.required = false
  bears : ∀ t ∈ chain, t.BearsAbsence

variable {s : Schema}

/-- One link of a chain: absence is let pass by the flag or by an alternative. -/
theorem accepts_absent_iff : s.accepts .absent = true ↔
    (s.required = false ∨ ∃ next, s.Offers next ∧ next.accepts .absent = true) ∧
      s.BearsAbsence := by
  obtain ⟨kind, required, refinements⟩ := s
  cases kind with
  | unset | string | number | boolean | object =>
    rw [accepts_of_settles ⟨rfl, rfl⟩]
    simp [Offers, BearsAbsence, Kind.name]
  | array element =>
    rw [accepts_of_not_settles (not_settles_of_handles rfl)]
    simp [Offers, BearsAbsence, Kind.name, Kind.Admits]
  | union alternatives =>
    rw [accepts_union_iff]
    simp [Offers, BearsAbsence, Kind.name]

namespace AbsenceChain

theorem single (optional : s.required = false) (bears : s.BearsAbsence) :
    s.AbsenceChain [s] where
  head := rfl
  links := .singleton s
  optional := ⟨s, rfl, optional⟩
  bears := List.forall_mem_singleton.mpr bears

theorem cons {next : Schema} {chain : List Schema} (h : next.AbsenceChain chain)
    (offers : s.Offers next) (bears : s.BearsAbsence) : s.AbsenceChain (s :: chain) := by
  cases chain with
  | nil => cases h.head
  | cons first rest =>
    obtain rfl : first = next := Option.some.inj h.head
    refine ⟨rfl, .cons_cons offers h.links, ?_, List.forall_mem_cons.mpr ⟨bears, h.bears⟩⟩
    obtain ⟨last, isLast, optional⟩ := h.optional
    exact ⟨last, by rw [List.getLast?_cons_cons, isLast], optional⟩

/-- What is left of a chain is a chain of the next node. -/
theorem offers_tail {next : Schema} {rest : List Schema}
    (h : s.AbsenceChain (s :: next :: rest)) :
    s.Offers next ∧ next.AbsenceChain (next :: rest) := by
  obtain ⟨offers, links⟩ := List.isChain_cons_cons.mp h.links
  obtain ⟨last, isLast, optional⟩ := h.optional
  rw [List.getLast?_cons_cons] at isLast
  exact ⟨offers, rfl, links, ⟨last, isLast, optional⟩, (List.forall_mem_cons.mp h.bears).2⟩

/-- The head of a chain accepts absence, as every node below it does. -/
theorem accepts {chain : List Schema} (h : s.AbsenceChain chain) : s.accepts .absent = true := by
  induction chain generalizing s with
  | nil => cases h.head
  | cons first rest ih =>
    obtain rfl : first = s := Option.some.inj h.head
    refine accepts_absent_iff.mpr ⟨?_, h.bears first List.mem_cons_self⟩
    cases rest with
    | nil =>
      obtain ⟨last, isLast, optional⟩ := h.optional
      obtain rfl : first = last := Option.some.inj isLast
      exact .inl optional
    | cons next rest =>
      obtain ⟨offers, below⟩ := h.offers_tail
      exact .inr ⟨next, offers, ih below⟩

end AbsenceChain

theorem exists_absenceChain (h : s.accepts .absent = true) : ∃ chain, s.AbsenceChain chain := by
  induction s using Schema.induction with
  | node kind required refinements ih =>
    obtain ⟨optional | ⟨next, offers, accepted⟩, bears⟩ := accepts_absent_iff.mp h
    · exact ⟨_, .single optional bears⟩
    · obtain ⟨alternatives, rfl, mem⟩ := offers
      obtain ⟨chain, below⟩ := ih next mem accepted
      exact ⟨_, below.cons ⟨alternatives, rfl, mem⟩ bears⟩

/-- A node accepts absence if one of a kind below does, with the same flag and refinements. -/
theorem accepts_absent_of_below {k l : Kind Schema} {required : Bool}
    {refinements : List Predicate}
    (kind : k.Below (fun s t => s.accepts .absent = true → t.accepts .absent = true) l)
    (h : accepts ⟨k, required, refinements⟩ .absent = true) :
    accepts ⟨l, required, refinements⟩ .absent = true := by
  obtain ⟨passed, bears⟩ := accepts_absent_iff.mp h
  refine accepts_absent_iff.mpr ⟨passed.imp_right ?_, ?_⟩
  · rintro ⟨next, ⟨alternatives, rfl, mem⟩, accepted⟩
    cases kind with
    | union matched =>
      obtain ⟨other, mem', preserved⟩ := matched next mem
      exact ⟨other, ⟨_, rfl, mem'⟩, preserved accepted⟩
  · rwa [BearsAbsence, ← kind.name_eq]

/-- What a context does with absence depends on what the schema in its hole does with it. -/
theorem accepts_absent_fill (C : Context) {a b : Schema}
    (h : a.accepts .absent = b.accepts .absent) :
    (C.fill a).accepts .absent = (C.fill b).accepts .absent := by
  have mono {a b : Schema} (h : a.accepts .absent = true → b.accepts .absent = true) :
      (C.fill a).accepts .absent = true → (C.fill b).accepts .absent = true :=
    C.fill_rel (fun _ => id) (fun _ _ kind _ _ => accepts_absent_of_below kind) h
  exact Bool.eq_iff_iff.mpr ⟨mono (h ▸ id), mono (h ▸ id)⟩

/-- Absence is accepted by way of a chain of alternatives that leads from the schema to an optional
node, if the refinements of the arrays and unions on it hold of the absent value.  The refinements
of any other node, wherever it stands, may be replaced. -/
theorem accepts_absent_iff_exists_chain (s : Schema) :
    ((s.validate .absent).result = true ↔ ∃ chain, s.AbsenceChain chain) ∧
    ∀ (C : Context) (a : Schema) (refinements : List Predicate), C.fill a = s →
      a.kind.name ≠ .array → a.kind.name ≠ .union →
        ((C.fill { a with refinements }).validate .absent).result =
          (s.validate .absent).result := by
  constructor
  · constructor
    · exact exists_absenceChain
    · rintro ⟨chain, leads⟩
      exact leads.accepts
  · rintro C a refinements rfl array union
    refine accepts_absent_fill C ?_
    have settles : a.Settles .absent := ⟨rfl, by simp [Kind.handlesAbsence, array, union]⟩
    have settles' : Settles { a with refinements } .absent := settles
    rw [accepts, accepts, validate_of_settles settles, validate_of_settles settles']

/-- The way to an optional string leads through two unions, whatever is asked of the string. -/
theorem accepts_absent_iff_exists_chain_nested :
    (∃ chain, AbsenceChain (blank.oneOf [blank.number, blank.oneOf [blank.optional.string]])
      chain) ∧
    ((blank.oneOf [blank.number,
        blank.oneOf [blank.optional.string.which fun _ => return false]]).validate
          .absent).result =
      ((blank.oneOf [blank.number, blank.oneOf [blank.optional.string]]).validate
        .absent).result := by
  obtain ⟨iff, replaceable⟩ := accepts_absent_iff_exists_chain
    (blank.oneOf [blank.number, blank.oneOf [blank.optional.string]])
  have accepted : ((blank.oneOf [blank.number, blank.oneOf [blank.optional.string]]).validate
      .absent).result = true := by decide
  refine ⟨iff.mp accepted, ?_⟩
  exact replaceable (.alternative [blank.number] (.alternative [] .hole [] true []) [] true [])
    blank.optional.string [fun _ => return false] rfl (by decide) (by decide)

end Schema

end SchemaValidation
