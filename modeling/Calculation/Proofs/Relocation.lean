import Calculation.Proofs.Parsing
import Calculation.Proofs.Tiling

/-!
What a piece of a source is read as does not depend on the rest of the source.

The grammar looks at the kinds and the lexemes of tokens, and copies their regions.  So what it
derives from tokens it derives from the same tokens elsewhere, with the regions moved
(`Phrase.Derives.relocate`).  The tokens that something is derived from are those of a piece of the
source, and a piece that stands alone has the same tokens with their regions moved.

* `Leads.exists_run`, `exists_run`: the tokens that are read, with the blanks between them.
* `Reads.readsAlone`: what is derived from tokens of a source is read from their piece of it.
-/

namespace Calculation

/-- The region with its ends moved. -/
def Span.relocate (move : Nat → Nat) (span : Span) : Span := ⟨move span.start, move span.stop⟩

namespace Source

/-! ## Values elsewhere -/

section Relocate

variable (move : Nat → Nat)

def Token.relocate (token : Token) : Token := { token with span := token.span.relocate move }

def Atom.relocate (atom : Atom) : Atom := { atom with span := atom.span.relocate move }

def Placed.relocate {Operator : Type} (placed : Placed Operator) : Placed Operator :=
  { placed with span := placed.span.relocate move }

def Tree.relocate : Tree → Tree
  | .atom leaf => .atom (leaf.relocate move)
  | .paren inner span => .paren inner.relocate (span.relocate move)
  | .unary operator operand span =>
    .unary (operator.relocate move) operand.relocate (span.relocate move)
  | .binary lhs operator rhs span =>
    .binary lhs.relocate (operator.relocate move) rhs.relocate (span.relocate move)

def Comparison.relocate (comparison : Comparison) : Comparison where
  lhs := comparison.lhs.relocate move
  operator := comparison.operator.relocate move
  rhs := comparison.rhs.relocate move
  span := comparison.span.relocate move

/-- The region of a declaration ends with its last relation. -/
def Declaration.relocate (declaration : Declaration) : Declaration where
  name := declaration.name.relocate move
  quantified := declaration.quantified.map (Atom.relocate move)
  corollary := declaration.corollary.relocate move
  conditions := declaration.conditions.map (Comparison.relocate move)
  span := declaration.span.relocate move

theorem Tree.span_relocate (tree : Tree) :
    (tree.relocate move).span = tree.span.relocate move := by
  cases tree <;> rfl

/-- A region from one token to another moves with them. -/
theorem Tree.span_through_relocate (lhs rhs : Tree) :
    (lhs.relocate move).span.through (rhs.relocate move).span =
      (lhs.span.through rhs.span).relocate move := by
  rw [span_relocate, span_relocate]
  rfl

variable {move} {tokens : List Token}

theorem DerivesAtom.relocate {leaf : Atom} (derived : DerivesAtom tokens leaf)
    (move : Nat → Nat) :
    DerivesAtom (tokens.map (Token.relocate move)) (leaf.relocate move) := by
  obtain ⟨word⟩ := derived
  exact .intro word

theorem Phrase.Derives.relocate {phrase : Phrase} {tree : Tree}
    (derived : phrase.Derives tokens tree) (move : Nat → Nat) :
    phrase.Derives (tokens.map (Token.relocate move)) (tree.relocate move) := by
  induction derived with
  | atom derived => exact .atom (derived.relocate move)
  | @negation sign tokens operand minus factor ih =>
      have derived : Phrase.factor.Derives (sign.relocate move :: _) _ := .negation minus ih
      rw [Tree.span_relocate] at derived
      exact derived
  | parenthesis opens expression closes ih =>
      rw [List.map_cons, List.map_append]
      exact .parenthesis opens ih closes
  | factor _ ih => exact .factor ih
  | @product sign operator front back lhs rhs term stands factor ihl ihr =>
      have derived : Phrase.term.Derives (_ ++ sign.relocate move :: _) _ :=
        .product ihl stands ihr
      rw [Tree.span_through_relocate] at derived
      rw [List.map_append, List.map_cons]
      exact derived
  | term _ ih => exact .term ih
  | @sum sign operator front back lhs rhs expression stands term ihl ihr =>
      have derived : Phrase.expression.Derives (_ ++ sign.relocate move :: _) _ :=
        .sum ihl stands ihr
      rw [Tree.span_through_relocate] at derived
      rw [List.map_append, List.map_cons]
      exact derived

theorem DerivesComparison.relocate {comparison : Comparison}
    (derived : DerivesComparison tokens comparison) (move : Nat → Nat) :
    DerivesComparison (tokens.map (Token.relocate move)) (comparison.relocate move) := by
  obtain ⟨left, stands, right⟩ := derived
  rename_i sign operator front back lhs rhs
  have derived : DerivesComparison (_ ++ sign.relocate move :: _) _ :=
    .intro (left.relocate move) stands (right.relocate move)
  rw [Tree.span_through_relocate] at derived
  rw [List.map_append, List.map_cons]
  exact derived

theorem DerivesList.relocate {α : Type} {item : List Token → α → Prop} {delimiter : TokenKind}
    {relocate : α → α} (moves : ∀ {tokens value}, item tokens value →
      item (tokens.map (Token.relocate move)) (relocate value))
    {values : List α} (derived : DerivesList item delimiter tokens values) :
    DerivesList item delimiter (tokens.map (Token.relocate move)) (values.map relocate) := by
  induction derived with
  | last derived => exact .last (moves derived)
  | more derived delimits _ ih =>
      rw [List.map_append, List.map_cons, List.map_cons]
      exact .more (moves derived) delimits ih

theorem DerivesQuantifiers.relocate {atoms : List Atom} (derived : DerivesQuantifiers tokens atoms)
    (move : Nat → Nat) : DerivesQuantifiers (tokens.map (Token.relocate move))
      (atoms.map (Atom.relocate move)) := by
  obtain ⟨opens, derived, closes⟩ := derived
  rw [List.map_cons, List.map_append]
  refine .intro opens ?_ closes
  cases derived with
  | none => exact .none
  | some derived => exact .some (derived.relocate fun atom => atom.relocate move)

theorem DerivesConditions.relocate {conditions : List Comparison}
    (derived : DerivesConditions tokens conditions) (move : Nat → Nat) :
    DerivesConditions (tokens.map (Token.relocate move))
      (conditions.map (Comparison.relocate move)) := by
  cases derived with
  | none => exact .none
  | some implied derived =>
      exact .some implied (derived.relocate fun relation => relation.relocate move)

theorem DerivesDeclaration.relocate {declaration : Declaration}
    (derived : DerivesDeclaration tokens declaration) (move : Nat → Nat) :
    DerivesDeclaration (tokens.map (Token.relocate move)) (declaration.relocate move) := by
  obtain ⟨starts, names, quantifies, parts, asserts, needs⟩ := derived
  rename_i keyword colon called listed asserted needed name atoms corollary conditions
  have derived : DerivesDeclaration (keyword.relocate move :: _) _ :=
    .intro starts (names.relocate move) (quantifies.relocate move)
      (show (colon.relocate move).kind = .colon from parts) (asserts.relocate move)
      (needs.relocate move)
  have finish : ((conditions.map (Comparison.relocate move)).getLast?.map (·.span)).getD
      (corollary.relocate move).span =
        ((conditions.getLast?.map (·.span)).getD corollary.span).relocate move := by
    rw [List.getLast?_map]
    cases conditions.getLast? <;> rfl
  rw [finish] at derived
  simp only [List.map_cons, List.map_append]
  exact derived

end Relocate

/-- The tree in a source in which its text stands further on. -/
def Tree.shift (offset : Nat) (tree : Tree) : Tree := tree.relocate (· + offset)

/-- The comparison in a source in which its text stands further on. -/
def Comparison.shift (offset : Nat) (comparison : Comparison) : Comparison :=
  comparison.relocate (· + offset)

/-! ## Runs of tokens -/

variable {tokens rest own : List Token}

/-- Before the next token there are only blanks. -/
theorem exists_blanks_of_next? {found : Next tokens} (next : next? tokens = some found) :
    ∃ blanks, tokens = blanks ++ found.token :: found.rest ∧ significant blanks = [] ∧
      found.token.kind.isBlank = false := by
  induction tokens with
  | nil => cases next
  | cons token tokens ih =>
      rw [next?] at next
      split at next
      · rename_i blank
        obtain ⟨found', next', same⟩ := Option.map_eq_some_iff.1 next
        cases same
        obtain ⟨blanks, whole, none, solid⟩ := ih next'
        refine ⟨token :: blanks, congrArg (token :: ·) whole, ?_, solid⟩
        rw [significant, List.filter_cons_of_neg (by simp [blank])]
        exact none
      · rename_i solid
        cases next
        exact ⟨[], rfl, rfl, Bool.eq_false_iff.2 solid⟩

/-- The tokens that are read stand in a run that starts with the first of them and ends with the
last, and there are only blanks before it. -/
theorem Leads.exists_run {first : Token} {more : List Token}
    (leads : Leads (first :: more) tokens rest) :
    ∃ blanks after, tokens = blanks ++ (first :: after ++ rest) ∧ significant blanks = [] ∧
      significant (first :: after) = first :: more ∧
      (first :: after).getLast? = (first :: more).getLast? := by
  induction more generalizing first tokens with
  | nil =>
      obtain ⟨found, next, rfl, rfl⟩ := leads
      obtain ⟨blanks, whole, none, solid⟩ := exists_blanks_of_next? next
      exact ⟨blanks, [], whole, none, significant_cons solid [], rfl⟩
  | cons second more ih =>
      obtain ⟨found, next, rfl, later⟩ := leads
      obtain ⟨blanks, whole, none, solid⟩ := exists_blanks_of_next? next
      obtain ⟨between, after, follows, apart, reads, last⟩ := ih later
      refine ⟨blanks, between ++ second :: after, whole.trans ?_, none, ?_, ?_⟩
      · rw [follows, List.cons_append, List.cons_append, List.append_assoc, List.cons_append]
      · rw [significant_cons solid, significant_append, apart, reads, List.nil_append]
      · rw [← List.cons_append, List.getLast?_append, last, List.getLast?_cons_cons]
        rfl

/-- Tokens that stand next to each other, apart from blanks, stand in a run that starts with the
first of them and ends with the last. -/
theorem exists_run (stands : own <:+: significant tokens) (some : own ≠ []) :
    ∃ before run after, tokens = before ++ (run ++ after) ∧ significant run = own ∧
      run.head? = own.head? ∧ run.getLast? = own.getLast? := by
  obtain ⟨front, back, parts⟩ := stands
  cases own with
  | nil => exact absurd rfl some
  | cons first more =>
      rw [List.append_assoc] at parts
      obtain ⟨middle, leads, others⟩ := exists_leads parts.symm
      obtain ⟨rest, leads', -⟩ := exists_leads others
      obtain ⟨blanks, after, whole, -, reads, last⟩ := leads'.exists_run
      obtain ⟨before, split⟩ : ∃ before, tokens = before ++ middle := by
        cases front with
        | nil => exact ⟨[], leads⟩
        | cons opening inside =>
            obtain ⟨blanks, after, whole, -⟩ := leads.exists_run
            exact ⟨blanks ++ opening :: after, by rw [whole, List.append_assoc]⟩
      refine ⟨before ++ blanks, first :: after, rest, ?_, reads, rfl, last⟩
      rw [split, whole, List.append_assoc]

/-! ## Reading a piece -/

/-- The region of the first to the last of the tokens. -/
def TakesUp (tokens : List Token) (span : Span) : Prop :=
  ∃ first last, tokens.head? = some first ∧ tokens.getLast? = some last ∧
    span = first.span.through last.span

/-- What the source holds in the region is read as the value when it stands alone, apart from where
the value then is. -/
def ReadsAlone {α : Type}
    (parser : (sourceEnd : Nat) → (tokens : List Token) → Reply tokens α)
    (shift : Nat → α → α) (source : String) (span : Span) (value : α) : Prop :=
  ∃ piece alone, Text.slice? source.toList span = some piece ∧
    parse parser (String.ofList piece) = .ok alone ∧ shift span.start alone = value

theorem significant_map_relocate (move : Nat → Nat) (tokens : List Token) :
    significant (tokens.map (Token.relocate move)) =
      (significant tokens).map (Token.relocate move) :=
  List.filter_map

theorem Token.shift_eq_relocate (offset : Nat) :
    Token.shift offset = Token.relocate (· + offset) := rfl

/-- Tokens that stand further on can be moved back. -/
theorem map_relocate_shift (offset : Nat) (tokens : List Token) :
    (tokens.map (Token.shift offset)).map (Token.relocate (· - offset)) = tokens := by
  rw [List.map_map]
  apply List.map_id''
  intro token
  simp [Token.shift, Token.relocate, Span.shift, Span.relocate]

theorem Tile.start_of_head? {start stop : Nat} {first : Token} (tile : Tile start tokens stop)
    (begins : tokens.head? = some first) : first.span.start = start := by
  cases tokens with
  | nil => cases begins
  | cons token rest =>
      cases begins
      exact tile.1

theorem Tile.stop_of_getLast? {start stop : Nat} {last : Token} (tile : Tile start tokens stop)
    (finishes : tokens.getLast? = some last) : last.span.stop = stop := by
  have some : tokens ≠ [] := by
    intro none
    rw [none] at finishes
    cases finishes
  have stops := tile.endOf_eq some
  rwa [endOf, finishes] at stops

/-- What is derived from tokens of a source is read from the piece that they take up. -/
theorem Reads.readsAlone {α : Type}
    {parser : (sourceEnd : Nat) → (tokens : List Token) → Reply tokens α}
    {derives : List Token → α → Prop} {follow : Option TokenKind → Prop}
    (reads : Reads parser derives follow) (ends : follow none)
    (solid : ∀ {tokens value}, derives tokens value → significant tokens = tokens)
    {relocate : (Nat → Nat) → α → α}
    (moves : ∀ {tokens value}, derives tokens value →
      ∀ move, derives (tokens.map (Token.relocate move)) (relocate move value))
    {source : String} {value : α} {span : Span} (derived : derives own value)
    (stands : own <:+: significant (tokenize source)) (takes : TakesUp own span) :
    ReadsAlone parser (fun offset => relocate (· + offset)) source span value := by
  obtain ⟨first, last, begins, finishes, rfl⟩ := takes
  have some : own ≠ [] := by
    intro none
    rw [none] at begins
    cases begins
  obtain ⟨before, run, after, whole, runs, head, final⟩ := exists_run stands some
  obtain ⟨start, piece, -, stops, cut, tokens⟩ := exists_piece whole
  have tile := tile_tokensFrom start piece
  rw [tokens] at tile
  have starts : first.span.start = start := tile.start_of_head? (head.trans begins)
  have stops : last.span.stop = start + Text.byteLength piece :=
    tile.stop_of_getLast? (final.trans finishes)
  -- the tokens of the piece alone, which are those of the source moved to where it starts
  have shifted : own = (significant (tokenize (String.ofList piece))).map (Token.shift start) := by
    rw [Token.shift_eq_relocate, ← significant_map_relocate, ← Token.shift_eq_relocate,
      map_shift_tokenize, tokens, runs]
  have derived' := moves derived (· - start)
  rw [shifted, map_relocate_shift] at derived'
  refine ⟨piece, relocate (· - start) value, ?_, (reads.parse_eq_ok_iff ends).2 derived', ?_⟩
  · rw [Span.through, starts, stops]
    exact cut
  · have back := moves derived' (· + start)
    rw [← Token.shift_eq_relocate, ← shifted] at back
    rw [Span.through, starts]
    exact reads.unambiguous ends solid own _ _ back derived

end Source

end Calculation
