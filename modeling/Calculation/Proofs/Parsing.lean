import Calculation.Proofs.Precedence

/-!
Sources are read exactly if the grammar derives them.

A parser reads what is derived (`Reads.sound`), and reads all that is derived as long as what comes
next cannot belong to it (`Reads.complete`).  After an expression that is anything but a binary
operator.  The parsers of relations, lists and rules follow from those of their parts.

* `Reads.parse_eq_ok_iff`: what a parser reads as a whole is what its part of the grammar derives.
* `parse_eq_ok_iff_derives`: expressions, relations and rules, with nothing derived in two ways.
-/

namespace Calculation.Source

variable {α : Type} {tokens rest read front back : List Token} {sourceEnd : Nat}

/-- The parser reads what is derived, and reads what is derived if what is next may follow it. -/
structure Reads (parser : (sourceEnd : Nat) → (tokens : List Token) → Reply tokens α)
    (derives : List Token → α → Prop) (follow : Option TokenKind → Prop) : Prop where
  sound : ∀ sourceEnd {tokens value rest}, (parser sourceEnd tokens).read? = some (value, rest) →
    ∃ read, derives read value ∧ Leads read tokens rest
  complete : ∀ sourceEnd {read tokens value rest}, derives read value → Leads read tokens rest →
    follow (peekKind? rest) → (parser sourceEnd tokens).read? = some (value, rest)

/-! ## Expressions -/

theorem reads_atom : Reads atom DerivesAtom fun _ => True where
  sound sourceEnd := (read?_atom_eq_some_iff sourceEnd).1
  complete sourceEnd _ _ _ _ derived leads _ :=
    (read?_atom_eq_some_iff sourceEnd).2 ⟨_, derived, leads⟩

theorem reads_expression : Reads expression Phrase.expression.Derives EndsExpression where
  sound sourceEnd tokens value rest done := by
    rcases exists_derives_of_expression (fun tokens _ => readsFactor _ tokens)
      (Nat.lt_succ_self _) done with ⟨read, derived, leads, -⟩
    exact ⟨read, derived, leads⟩
  complete sourceEnd _ _ _ _ derived leads ends := by
    refine read?_expression_iff.2 (derived.resumes leads (nextOperator?_of_ends ends _) _ ?_)
    exact operations_of_end (nextOperator?_of_ends ends _)

/-! ## Signs -/

theorem mem_relationSigns_iff {kind : TokenKind} {operator : RelationalOperator} :
    (kind, operator) ∈ relationSigns ↔ kind.relationalOperator? = some operator := by
  cases kind <;> cases operator <;> decide

theorem read?_relationalOperator_eq_some_iff (sourceEnd : Nat)
    {operator : Placed RelationalOperator} :
    (relationalOperator sourceEnd tokens).read? = some (operator, rest) ↔
      ∃ sign : Token, (sign.kind, operator.kind) ∈ relationSigns ∧ sign.span = operator.span ∧
        Leads [sign] tokens rest := by
  simp only [mem_relationSigns_iff, leads_singleton_iff]
  rw [relationalOperator, Source.operator, Reply.read?_withNext_eq_some_iff]
  constructor
  · rintro ⟨found, next, done⟩
    split at done
    · rename_i stands
      cases done
      exact ⟨found.token, stands, rfl, found, next, rfl, rfl⟩
    · cases done
  · rintro ⟨_, stands, span, found, next, rfl, rfl⟩
    refine ⟨found, next, ?_⟩
    rw [stands, span]
    rfl

/-- A token that is accepted by what it is. -/
theorem read?_withNext_check_eq_some_iff {check : Token → Prop} [DecidablePred check]
    {failure : Token → Diagnostic} {token : Token} :
    (withNext sourceEnd tokens fun token rest _ =>
        if check token then .pure token else .failed (failure token) rest).read? =
      some (token, rest) ↔ check token ∧ Leads [token] tokens rest := by
  rw [Reply.read?_withNext_eq_some_iff, leads_singleton_iff]
  constructor
  · rintro ⟨found, next, done⟩
    split at done
    · rename_i same
      cases done
      exact ⟨same, found, next, rfl, rfl⟩
    · cases done
  · rintro ⟨same, found, next, rfl, rfl⟩
    exact ⟨found, next, by rw [if_pos same]; rfl⟩

theorem read?_tokenOf_eq_some_iff (sourceEnd : Nat) {kind : TokenKind} {expected : List TokenKind}
    {token : Token} :
    (tokenOf kind expected sourceEnd tokens).read? = some (token, rest) ↔
      token.kind = kind ∧ Leads [token] tokens rest :=
  read?_withNext_check_eq_some_iff

theorem read?_ruleKeyword_eq_some_iff (sourceEnd : Nat) {token : Token} :
    (ruleKeyword sourceEnd tokens).read? = some (token, rest) ↔
      (token.kind = .name ∧ token.lexeme = "rule") ∧ Leads [token] tokens rest :=
  read?_withNext_check_eq_some_iff

/-- What is next after tokens that are read. -/
theorem peekKind?_of_leads {token : Token} (leads : Leads (token :: read) tokens rest) :
    peekKind? tokens = some token.kind := by
  rcases leads with ⟨found, next, rfl, -⟩
  exact peekKind?_eq_some_iff.2 ⟨found, next, rfl⟩

theorem nextOf?_of_peekKind? {kind : TokenKind} (other : peekKind? tokens ≠ some kind) :
    nextOf? kind tokens = none :=
  nextOf?_eq_none_iff.2 fun found next same => other (peekKind?_eq_some_iff.2 ⟨found, next, same⟩)

theorem nextOf?_of_leads {token : Token} {kind : TokenKind}
    (leads : Leads (token :: read) tokens rest) (same : token.kind = kind) :
    ∃ found, nextOf? kind tokens = some found ∧ found.token = token ∧
      Leads read found.rest rest := by
  rcases leads with ⟨found, next, rfl, later⟩
  exact ⟨found, nextOf?_eq_some_iff.2 ⟨next, same⟩, rfl, later⟩

theorem leads_of_nextOf? {kind : TokenKind} {found : Next tokens}
    (next : nextOf? kind tokens = some found) (leads : Leads read found.rest rest) :
    found.token.kind = kind ∧ Leads (found.token :: read) tokens rest := by
  rcases nextOf?_eq_some_iff.1 next with ⟨next, same⟩
  exact ⟨same, found, next, rfl, leads⟩

/-! ## Relations -/

theorem endsExpression_of_mem {kind : TokenKind} {operator : RelationalOperator}
    (stands : (kind, operator) ∈ relationSigns) : EndsExpression (some kind) := by
  rintro _ ⟨⟩
  rw [mem_relationSigns_iff] at stands
  cases kind <;> first | rfl | cases stands

theorem reads_comparison : Reads comparison DerivesComparison EndsExpression where
  sound sourceEnd tokens value rest done := by
    simp only [comparison, Reply.read?_andThen_eq_some_iff, Reply.read?_map_eq_some_iff] at done
    rcases done with ⟨lhs, middle, left, operator, behind, compares, rhs, right, rfl⟩
    rcases reads_expression.sound _ left with ⟨front, derived, leads⟩
    rcases (read?_relationalOperator_eq_some_iff _).1 compares with ⟨sign, stands, span, leads'⟩
    rcases reads_expression.sound _ right with ⟨back, derived', leads''⟩
    refine ⟨front ++ sign :: back, ?_, leads.append (leads'.cons leads'')⟩
    have placed : operator = ⟨operator.kind, sign.span⟩ := by rw [span]
    rw [placed]
    exact .intro derived stands derived'
  complete := by
    rintro sourceEnd _ tokens _ rest ⟨left, stands, right⟩ leads ends
    rename_i sign operator front back lhs rhs
    rcases leads_append_iff.1 leads with ⟨middle, first, second⟩
    rcases leads_cons_iff.1 second with ⟨behind, third, fourth⟩
    have follows : EndsExpression (peekKind? middle) := by
      rw [peekKind?_of_leads second]
      exact endsExpression_of_mem stands
    simp only [comparison, Reply.read?_andThen_eq_some_iff, Reply.read?_map_eq_some_iff]
    exact ⟨lhs, middle, reads_expression.complete sourceEnd left first follows,
      ⟨operator, sign.span⟩, behind,
      (read?_relationalOperator_eq_some_iff sourceEnd).2 ⟨sign, stands, rfl, third⟩, rhs,
      reads_expression.complete sourceEnd right fourth ends, rfl⟩

/-! ## Lists -/

section Lists

variable {item : (sourceEnd : Nat) → (tokens : List Token) → Reply tokens α}
  {derives : List Token → α → Prop} {follow : Option TokenKind → Prop} {delimiter : TokenKind}

/-- Further items make up a list after the next delimiter. -/
theorem read?_moreItems_eq_some_iff (item : (tokens : List Token) → Reply tokens α)
    {values : List α} :
    (moreItems item delimiter tokens).read? = some (values, rest) ↔
      nextOf? delimiter tokens = none ∧ values = [] ∧ tokens = rest ∨
        ∃ found, nextOf? delimiter tokens = some found ∧
          (delimited item delimiter found.rest).read? = some (values, rest) := by
  rw [moreItems]
  split
  · rename_i ends
    rw [ends, Reply.read?_pure, Option.some.injEq, Prod.mk.injEq]
    constructor
    · rintro ⟨rfl, rfl⟩
      exact .inl ⟨rfl, rfl, rfl⟩
    · rintro (⟨-, rfl, rfl⟩ | ⟨_, none, -⟩)
      · exact ⟨rfl, rfl⟩
      · cases none
  · rename_i sign after lt follows
    rw [follows, Reply.read?_within]
    constructor
    · intro done
      exact .inr ⟨_, rfl, done⟩
    · rintro (⟨none, -⟩ | ⟨_, same, done⟩)
      · cases none
      · cases same
        exact done

theorem read?_delimited_eq_some_iff {values : List α} :
    (delimited (item sourceEnd) delimiter tokens).read? = some (values, rest) ↔
      ∃ value values' middle, (item sourceEnd tokens).read? = some (value, middle) ∧
        (moreItems (item sourceEnd) delimiter middle).read? = some (values', rest) ∧
          value :: values' = values := by
  simp only [delimited, Reply.read?_andThen_eq_some_iff, Reply.read?_map_eq_some_iff]
  constructor
  · rintro ⟨value, middle, first, values', others, same⟩
    exact ⟨value, values', middle, first, others, same⟩
  · rintro ⟨value, values', middle, first, others, same⟩
    exact ⟨value, middle, first, values', others, same⟩

theorem Reads.exists_of_delimited (reads : Reads item derives follow) {values : List α}
    (done : (delimited (item sourceEnd) delimiter tokens).read? = some (values, rest)) :
    ∃ read, DerivesList derives delimiter read values ∧ Leads read tokens rest := by
  induction length : tokens.length using Nat.strongRecOn generalizing tokens values with
  | ind _ ih =>
  subst length
  rcases read?_delimited_eq_some_iff.1 done with ⟨value, values', middle, first, others, rfl⟩
  rcases reads.sound sourceEnd first with ⟨front, derived, leads⟩
  rcases (read?_moreItems_eq_some_iff _).1 others with ⟨-, rfl, rfl⟩ | ⟨found, follows, later⟩
  · exact ⟨front, .last derived, leads⟩
  · have shorter := Nat.lt_of_lt_of_le found.lt (Reply.length_le_of_read? first)
    rcases ih found.rest.length shorter later rfl with ⟨back, derived', leads'⟩
    rcases leads_of_nextOf? follows leads' with ⟨same, leads'⟩
    exact ⟨_, .more derived same derived', leads.append leads'⟩

/-- A list is read if its items are, and if a delimiter may follow an item. -/
theorem Reads.delimited (reads : Reads item derives follow) (follows : follow (some delimiter)) :
    Reads (fun sourceEnd => Source.delimited (item sourceEnd) delimiter)
      (DerivesList derives delimiter) fun next => follow next ∧ next ≠ some delimiter where
  sound _ _ _ _ done := reads.exists_of_delimited done
  complete := by
    intro sourceEnd read tokens values rest derived
    induction derived generalizing tokens with
    | last derived =>
        intro leads ends
        have first := reads.complete sourceEnd derived leads ends.1
        have none := (read?_moreItems_eq_some_iff (item sourceEnd)).2
          (.inl ⟨nextOf?_of_peekKind? ends.2, rfl, rfl⟩)
        exact read?_delimited_eq_some_iff.2 ⟨_, [], rest, first, none, rfl⟩
    | more derived same _ ih =>
        intro leads ends
        rcases leads_append_iff.1 leads with ⟨middle, leads, leads'⟩
        have between : follow (peekKind? middle) := by
          rw [peekKind?_of_leads leads', same]
          exact follows
        have first := reads.complete sourceEnd derived leads between
        rcases nextOf?_of_leads leads' same with ⟨found, next, -, leads'⟩
        have others := (read?_moreItems_eq_some_iff (item sourceEnd)).2
          (.inr ⟨found, next, ih leads' ends⟩)
        exact read?_delimited_eq_some_iff.2 ⟨_, _, middle, first, others, rfl⟩

end Lists

/-! ## Rules -/

theorem reads_quantifiedAtoms :
    Reads quantifiedAtoms DerivesAtoms fun next => next = some .closeBracket where
  sound sourceEnd tokens value rest done := by
    rw [quantifiedAtoms] at done
    split at done
    · cases done
      exact ⟨[], .none, rfl⟩
    · rcases reads_atom.exists_of_delimited done with ⟨read, derived, leads⟩
      exact ⟨read, .some derived, leads⟩
  complete := by
    rintro sourceEnd read tokens atoms rest derived leads ends
    rw [quantifiedAtoms]
    cases derived with
    | none =>
        cases leads
        rw [if_pos ends]
        rfl
    | some derived =>
        have first : peekKind? tokens ≠ some .closeBracket := by
          have word : ∃ token back, read = token :: back ∧
              (token.kind = .name ∨ token.kind = .numeral) := by
            cases derived with
            | last derived =>
                rcases derived with ⟨word⟩
                exact ⟨_, _, rfl, word⟩
            | more derived =>
                rcases derived with ⟨word⟩
                exact ⟨_, _, rfl, word⟩
          rcases word with ⟨token, back, rfl, word⟩
          rw [peekKind?_of_leads leads]
          rcases word with kind | kind <;> rw [kind] <;> decide
        rw [if_neg first]
        refine (reads_atom.delimited trivial).complete sourceEnd derived leads ⟨trivial, ?_⟩
        rw [ends]
        decide

theorem reads_quantifiers : Reads quantifiers DerivesQuantifiers fun _ => True where
  sound sourceEnd tokens value rest done := by
    simp only [quantifiers, Reply.read?_andThen_eq_some_iff] at done
    rcases done with ⟨opening, after, opens, atoms, behind, listed, last⟩
    rcases (read?_tokenOf_eq_some_iff _).1 opens with ⟨opens, leads⟩
    rcases reads_quantifiedAtoms.sound _ listed with ⟨read, derived, leads'⟩
    split at last
    · rename_i closing closes
      cases last
      have nothing : Leads [] closing.rest closing.rest := rfl
      rcases leads_of_nextOf? closes nothing with ⟨closes, leads''⟩
      exact ⟨_, .intro opens derived closes, leads.cons (leads'.append leads'')⟩
    · cases last
  complete := by
    rintro sourceEnd _ tokens atoms rest ⟨opens, derived, closes⟩ leads -
    rename_i opening closing inside
    rcases leads_cons_iff.1 leads with ⟨after, first, others⟩
    rcases leads_append_iff.1 others with ⟨behind, inner, last⟩
    have next : peekKind? behind = some .closeBracket := by rw [peekKind?_of_leads last, closes]
    rcases nextOf?_of_leads last closes with ⟨found, ended, -, rfl⟩
    simp only [quantifiers, Reply.read?_andThen_eq_some_iff]
    refine ⟨opening, after, (read?_tokenOf_eq_some_iff sourceEnd).2 ⟨opens, first⟩, atoms, behind,
      reads_quantifiedAtoms.complete sourceEnd derived inner next, ?_⟩
    rw [ended]
    rfl

theorem reads_conditions : Reads conditions DerivesConditions fun next => next = none where
  sound sourceEnd tokens value rest done := by
    rw [conditions] at done
    split at done
    · rename_i sign after lt implied
      rw [Reply.read?_within] at done
      rcases reads_comparison.exists_of_delimited done with ⟨read, derived, leads⟩
      rcases leads_of_nextOf? implied leads with ⟨implied, leads⟩
      exact ⟨_, .some implied derived, leads⟩
    · cases done
      exact ⟨[], .none, rfl⟩
  complete := by
    rintro sourceEnd read tokens values rest derived leads ends
    rw [conditions]
    cases derived with
    | none =>
        cases leads
        rw [nextOf?_of_peekKind? (by rw [ends]; exact nofun)]
        rfl
    | some implied derived =>
        rcases nextOf?_of_leads leads implied with ⟨found, next, -, leads⟩
        rw [next]
        rw [Reply.read?_within]
        have comma : EndsExpression (some .comma) := by
          rintro _ ⟨⟩
          rfl
        refine (reads_comparison.delimited comma).complete sourceEnd derived leads ?_
        rw [ends]
        exact ⟨nofun, nofun⟩

theorem reads_declaration : Reads declaration DerivesDeclaration fun next => next = none where
  sound sourceEnd tokens value rest done := by
    simp only [declaration, Reply.read?_andThen_eq_some_iff, Reply.read?_map_eq_some_iff] at done
    rcases done with ⟨keyword, rest₁, starts, name, rest₂, called, atoms, rest₃, listed, colon,
      rest₄, parts, corollary, rest₅, asserted, values, needed, rfl⟩
    rcases (read?_ruleKeyword_eq_some_iff _).1 starts with ⟨starts, leads₁⟩
    rcases reads_atom.sound _ called with ⟨_, called, leads₂⟩
    rcases reads_quantifiers.sound _ listed with ⟨_, listed, leads₃⟩
    rcases (read?_tokenOf_eq_some_iff _).1 parts with ⟨parts, leads₄⟩
    rcases reads_comparison.sound _ asserted with ⟨_, asserted, leads₅⟩
    rcases reads_conditions.sound _ needed with ⟨_, needed, leads₆⟩
    refine ⟨_, .intro starts called listed parts asserted needed, ?_⟩
    exact leads₁.cons (leads₂.append (leads₃.append (leads₄.cons (leads₅.append leads₆))))
  complete := by
    rintro sourceEnd _ tokens _ rest ⟨starts, called, listed, parts, asserted, needed⟩ leads ends
    rename_i keyword colon _ _ _ _ name atoms corollary values
    rcases leads_cons_iff.1 leads with ⟨rest₁, leads₁, leads⟩
    rcases leads_append_iff.1 leads with ⟨rest₂, leads₂, leads⟩
    rcases leads_append_iff.1 leads with ⟨rest₃, leads₃, leads⟩
    rcases leads_cons_iff.1 leads with ⟨rest₄, leads₄, leads⟩
    rcases leads_append_iff.1 leads with ⟨rest₅, leads₅, leads₆⟩
    have between : EndsExpression (peekKind? rest₅) := by
      cases needed with
      | none =>
          cases leads₆
          rw [ends]
          rintro _ ⟨⟩
      | some implied =>
          rw [peekKind?_of_leads leads₆, implied]
          rintro _ ⟨⟩
          rfl
    simp only [declaration, Reply.read?_andThen_eq_some_iff, Reply.read?_map_eq_some_iff]
    exact ⟨keyword, rest₁, (read?_ruleKeyword_eq_some_iff sourceEnd).2 ⟨starts, leads₁⟩,
      name, rest₂, reads_atom.complete sourceEnd called leads₂ trivial,
      atoms, rest₃, reads_quantifiers.complete sourceEnd listed leads₃ trivial,
      colon, rest₄, (read?_tokenOf_eq_some_iff sourceEnd).2 ⟨parts, leads₄⟩,
      corollary, rest₅, reads_comparison.complete sourceEnd asserted leads₅ between,
      values, reads_conditions.complete sourceEnd needed leads₆ ends, rfl⟩

/-! ## Tokens that mean something -/

/-- A token of the kind can be part of what is derived: it does more than keep others apart, and is
known. -/
def TokenKind.isMeant (kind : TokenKind) : Bool := !kind.isBlank && kind != .unknown

theorem isMeant_of_mem_signs :
    (∀ pair ∈ productSigns, pair.1.isMeant = true) ∧ (∀ pair ∈ sumSigns, pair.1.isMeant = true) ∧
      ∀ pair ∈ relationSigns, pair.1.isMeant = true := by
  decide

theorem DerivesAtom.isMeant {leaf : Atom} (derived : DerivesAtom tokens leaf) :
    ∀ token ∈ tokens, token.kind.isMeant = true := by
  obtain ⟨word⟩ := derived
  rw [List.forall_mem_singleton]
  rcases word with kind | kind <;> (rw [kind]; rfl)

theorem Phrase.Derives.isMeant {phrase : Phrase} {tree : Tree}
    (derived : phrase.Derives tokens tree) : ∀ token ∈ tokens, token.kind.isMeant = true := by
  induction derived with
  | atom derived => exact derived.isMeant
  | negation minus _ ih => exact List.forall_mem_cons.2 ⟨by rw [minus]; rfl, ih⟩
  | parenthesis opens _ closes ih =>
      rw [List.forall_mem_cons, List.forall_mem_append, List.forall_mem_singleton]
      exact ⟨by rw [opens]; rfl, ih, by rw [closes]; rfl⟩
  | factor _ ih => exact ih
  | term _ ih => exact ih
  | product _ stands _ ihl ihr =>
      rw [List.forall_mem_append, List.forall_mem_cons]
      exact ⟨ihl, isMeant_of_mem_signs.1 _ stands, ihr⟩
  | sum _ stands _ ihl ihr =>
      rw [List.forall_mem_append, List.forall_mem_cons]
      exact ⟨ihl, isMeant_of_mem_signs.2.1 _ stands, ihr⟩

theorem DerivesComparison.isMeant {relation : Comparison}
    (derived : DerivesComparison tokens relation) :
    ∀ token ∈ tokens, token.kind.isMeant = true := by
  obtain ⟨left, stands, right⟩ := derived
  rw [List.forall_mem_append, List.forall_mem_cons]
  exact ⟨left.isMeant, isMeant_of_mem_signs.2.2 _ stands, right.isMeant⟩

theorem DerivesList.isMeant {item : List Token → α → Prop} {delimiter : TokenKind}
    (meant : ∀ {tokens value}, item tokens value → ∀ token ∈ tokens, token.kind.isMeant = true)
    (apart : delimiter.isMeant = true) {values : List α}
    (derived : DerivesList item delimiter tokens values) :
    ∀ token ∈ tokens, token.kind.isMeant = true := by
  induction derived with
  | last derived => exact meant derived
  | more derived same _ ih =>
      rw [List.forall_mem_append, List.forall_mem_cons]
      exact ⟨meant derived, by rw [same]; exact apart, ih⟩

theorem DerivesQuantifiers.isMeant {atoms : List Atom}
    (derived : DerivesQuantifiers tokens atoms) : ∀ token ∈ tokens, token.kind.isMeant = true := by
  obtain ⟨opens, derived, closes⟩ := derived
  rename_i inside
  have within : ∀ token ∈ inside, token.kind.isMeant = true := by
    cases derived with
    | none => exact nofun
    | some derived => exact derived.isMeant DerivesAtom.isMeant rfl
  rw [List.forall_mem_cons, List.forall_mem_append, List.forall_mem_singleton]
  exact ⟨by rw [opens]; rfl, within, by rw [closes]; rfl⟩

theorem DerivesConditions.isMeant {values : List Comparison}
    (derived : DerivesConditions tokens values) :
    ∀ token ∈ tokens, token.kind.isMeant = true := by
  cases derived with
  | none => exact nofun
  | some implied derived =>
      rw [List.forall_mem_cons]
      exact ⟨by rw [implied]; rfl, derived.isMeant DerivesComparison.isMeant rfl⟩

theorem DerivesDeclaration.isMeant {rule : Declaration}
    (derived : DerivesDeclaration tokens rule) : ∀ token ∈ tokens, token.kind.isMeant = true := by
  obtain ⟨starts, called, listed, parts, asserted, needed⟩ := derived
  simp only [List.forall_mem_cons, List.forall_mem_append]
  exact ⟨by rw [starts.1]; rfl, called.isMeant, listed.isMeant, by rw [parts]; rfl,
    asserted.isMeant, needed.isMeant⟩

/-- There are no blanks to leave out. -/
theorem significant_eq_self (meant : ∀ token ∈ tokens, token.kind.isMeant = true) :
    significant tokens = tokens := by
  refine List.filter_eq_self.2 fun token stands => ?_
  have solid := meant token stands
  rw [TokenKind.isMeant, Bool.and_eq_true] at solid
  exact solid.1

theorem Phrase.Derives.significant_eq {phrase : Phrase} {tree : Tree}
    (derived : phrase.Derives tokens tree) : significant tokens = tokens :=
  significant_eq_self derived.isMeant

theorem DerivesComparison.significant_eq {relation : Comparison}
    (derived : DerivesComparison tokens relation) : significant tokens = tokens :=
  significant_eq_self derived.isMeant

theorem DerivesDeclaration.significant_eq {rule : Declaration}
    (derived : DerivesDeclaration tokens rule) : significant tokens = tokens :=
  significant_eq_self derived.isMeant

/-! ## Whole sources -/

section Whole

variable {parser : (sourceEnd : Nat) → (tokens : List Token) → Reply tokens α}
  {derives : List Token → α → Prop} {follow : Option TokenKind → Prop}

theorem Reads.outcome_complete_eq_ok_iff (reads : Reads parser derives follow) (ends : follow none)
    (sourceEnd : Nat) {value : α} :
    (Source.complete parser sourceEnd tokens).outcome = .ok value ↔
      derives (significant tokens) value := by
  simp only [Source.complete, Reply.outcome_eq_ok_iff, Reply.read?_andThen_eq_some_iff]
  constructor
  · rintro ⟨_, value', rest, done, last⟩
    split at last
    · rename_i nothing
      cases last
      obtain ⟨read, derived, leads⟩ := reads.sound sourceEnd done
      rw [leads.significant_eq, skipBlanks_eq_nil_iff.1 nothing, List.append_nil]
      exact derived
    · cases last
  · intro derived
    have parts : significant tokens = significant tokens ++ [] := (List.append_nil _).symm
    obtain ⟨rest, leads, nothing⟩ := exists_leads parts
    have last : peekKind? rest = none := by rw [peekKind?, next?_eq_none_iff.2 nothing]; rfl
    refine ⟨[], value, rest, reads.complete sourceEnd derived leads (by rw [last]; exact ends), ?_⟩
    rw [skipBlanks_eq_nil_iff.2 nothing]
    rfl

/-- A source is read exactly if what is left of it without its blanks is derived. -/
theorem Reads.parse_eq_ok_iff (reads : Reads parser derives follow) (ends : follow none)
    {source : String} {value : α} :
    parse parser source = .ok value ↔ derives (significant (tokenize source)) value :=
  reads.outcome_complete_eq_ok_iff ends _

/-- Nothing is derived in two ways. -/
def Unambiguous (derives : List Token → α → Prop) : Prop :=
  ∀ tokens value value', derives tokens value → derives tokens value' → value = value'

/-- What is read comes to one value only, so the grammar of a parser is unambiguous. -/
theorem Reads.unambiguous (reads : Reads parser derives follow) (ends : follow none)
    (solid : ∀ {tokens value}, derives tokens value → significant tokens = tokens) :
    Unambiguous derives := by
  intro tokens value value' derived derived'
  have same : significant tokens = tokens := solid derived
  have first := (reads.outcome_complete_eq_ok_iff ends 0).2 (same.symm ▸ derived)
  have second := (reads.outcome_complete_eq_ok_iff ends 0).2 (same.symm ▸ derived')
  exact Except.ok.inj (first.symm.trans second)

end Whole

/-- Sources are read as expressions, relations and rules exactly if the grammar derives what is left
of them without the blanks, and the value that is read is the only one it derives. -/
theorem parse_eq_ok_iff_derives (source : String) :
    (∀ tree, parse expression source = .ok tree ↔
        Phrase.expression.Derives (significant (tokenize source)) tree) ∧
      (∀ relation, parse comparison source = .ok relation ↔
        DerivesComparison (significant (tokenize source)) relation) ∧
      (∀ rule, parse declaration source = .ok rule ↔
        DerivesDeclaration (significant (tokenize source)) rule) ∧
      Unambiguous Phrase.expression.Derives ∧ Unambiguous DerivesComparison ∧
      Unambiguous DerivesDeclaration := by
  have ends : EndsExpression none := nofun
  refine ⟨fun tree => ?_, fun relation => ?_, fun rule => ?_, ?_, ?_, ?_⟩
  · exact reads_expression.parse_eq_ok_iff ends
  · exact reads_comparison.parse_eq_ok_iff ends
  · exact reads_declaration.parse_eq_ok_iff rfl
  · exact reads_expression.unambiguous ends Phrase.Derives.significant_eq
  · exact reads_comparison.unambiguous ends DerivesComparison.significant_eq
  · exact reads_declaration.unambiguous rfl DerivesDeclaration.significant_eq

end Calculation.Source
