import Calculation.Proofs.Relocation

/-!
Every piece of what is read holds the region of exactly the tokens it was read from.

A region goes from the start of the first token to the end of the last.  The tokens of a source
stand one behind the other, and the tokens of a value are those of its parts with some signs
between them (`Holds`).  So the regions of the parts lie in that of the whole, from left to right
and apart.  What the source holds in the region of an expression or a relation is read as the same
value when it stands alone.

* `Phrase.Derives.takesUp`, `Phrase.Derives.holds`: the region of a tree, and those of its parts.
* `Covers.of_holds`: tokens that stand apart have parts that do.
* `readsInPlace`: what expressions, relations and rules are read as, and where reading stops.
-/

namespace Calculation.Source

variable {tokens front back own : List Token} {span : Span} {regions : List Span}

/-! ## What values are made of -/

/-- The regions of what the tree is made of, from left to right. -/
def Tree.parts : Tree → List Span
  | .atom _ => []
  | .paren inner _ => [inner.span]
  | .unary operator operand _ => [operator.span, operand.span]
  | .binary lhs operator rhs _ => [lhs.span, operator.span, rhs.span]

def Comparison.parts (comparison : Comparison) : List Span :=
  [comparison.lhs.span, comparison.operator.span, comparison.rhs.span]

def Declaration.parts (rule : Declaration) : List Span :=
  rule.name.span :: (rule.quantified.map (·.span) ++
    rule.corollary.span :: rule.conditions.map (·.span))

/-- The tree and all that stand in it. -/
def Tree.nodes : Tree → List Tree
  | .atom leaf => [.atom leaf]
  | .paren inner span => .paren inner span :: inner.nodes
  | .unary operator operand span => .unary operator operand span :: operand.nodes
  | .binary lhs operator rhs span => .binary lhs operator rhs span :: (lhs.nodes ++ rhs.nodes)

/-! ## Regions of tokens -/

/-- What stands behind a sign stands in the whole. -/
theorem infix_behind (front : List Token) (sign : Token) (back : List Token) :
    back <:+: front ++ sign :: back :=
  (List.suffix_cons ..).isInfix.trans (List.suffix_append ..).isInfix

namespace TakesUp

theorem ne_nil (takes : TakesUp tokens span) : tokens ≠ [] := by
  obtain ⟨first, last, begins, -⟩ := takes
  intro none
  rw [none] at begins
  cases begins

theorem singleton (token : Token) : TakesUp [token] token.span := ⟨token, token, rfl, rfl, rfl⟩

/-- Tokens in front of others take up the region up to the end of those. -/
theorem through {span' : Span} (takes : TakesUp front span) (takes' : TakesUp back span')
    (middle : List Token) : TakesUp (front ++ (middle ++ back)) (span.through span') := by
  obtain ⟨first, last, begins, -, rfl⟩ := takes
  obtain ⟨first', last', -, finishes, rfl⟩ := takes'
  refine ⟨first, last', ?_, ?_, rfl⟩
  · rw [List.head?_append, begins]
    rfl
  · rw [List.getLast?_append, List.getLast?_append, finishes]
    rfl

end TakesUp

/-- Runs of the tokens take up the regions, from left to right, with any tokens around them. -/
inductive Holds : List Token → List Span → Prop
  | nil : Holds [] []
  | other {token : Token} {tokens : List Token} {regions : List Span}
      (behind : Holds tokens regions) : Holds (token :: tokens) regions
  | part {own tokens : List Token} {span : Span} {regions : List Span} (takes : TakesUp own span)
      (behind : Holds tokens regions) : Holds (own ++ tokens) (span :: regions)

namespace Holds

theorem append {regions' : List Span} (holds : Holds front regions)
    (holds' : Holds back regions') :
    Holds (front ++ back) (regions ++ regions') := by
  induction holds with
  | nil => exact holds'
  | other _ ih => exact .other ih
  | part takes _ ih =>
      rw [List.append_assoc]
      exact .part takes ih

theorem whole (takes : TakesUp tokens span) : Holds tokens [span] := by
  have holds : Holds (tokens ++ []) [span] := .part takes .nil
  rwa [List.append_nil] at holds

theorem token (token : Token) : Holds [token] [token.span] := whole (.singleton token)

theorem skip (token : Token) : Holds [token] [] := .other .nil

/-- Two pieces with a sign between them. -/
theorem between {span' : Span} (left : TakesUp front span) (sign : Token)
    (right : TakesUp back span') : Holds (front ++ sign :: back) [span, sign.span, span'] :=
  (whole left).append ((token sign).append (whole right))

theorem bracketed (opening closing : Token) (holds : Holds tokens regions) :
    Holds (opening :: (tokens ++ [closing])) regions := by
  have both := holds.append (.skip closing)
  rw [List.append_nil] at both
  exact .other both

end Holds

/-! ## Tokens that stand apart -/

/-- The tokens stand one behind the other, and each of them takes up some of the source. -/
structure Apart (tokens : List Token) : Prop where
  ordered : tokens.Pairwise fun token later => token.span.stop ≤ later.span.start
  positive : ∀ token ∈ tokens, token.span.start < token.span.stop

theorem Tile.le_start {start stop : Nat} (tile : Tile start tokens stop) :
    ∀ token ∈ tokens, start ≤ token.span.start := by
  induction tokens generalizing start with
  | nil => nofun
  | cons first rest ih =>
      obtain ⟨starts, positive, behind⟩ := tile
      intro token stands
      rcases List.mem_cons.1 stands with rfl | later
      · exact Nat.le_of_eq starts.symm
      · exact Nat.le_trans (Nat.le_of_lt positive) (ih behind token later)

theorem Tile.apart {start stop : Nat} (tile : Tile start tokens stop) : Apart tokens := by
  induction tokens generalizing start with
  | nil => exact ⟨.nil, nofun⟩
  | cons first rest ih =>
      obtain ⟨starts, positive, behind⟩ := tile
      constructor
      case ordered => exact .cons behind.le_start (ih behind).ordered
      case positive =>
        intro token stands
        rcases List.mem_cons.1 stands with rfl | later
        · rw [starts]
          exact positive
        · exact (ih behind).positive token later

namespace Apart

theorem sublist (apart : Apart tokens) (within : own.Sublist tokens) : Apart own where
  ordered := apart.ordered.sublist within
  positive token stands := apart.positive token (within.subset stands)

/-- All tokens lie in the region that they take up. -/
theorem within (apart : Apart tokens) (takes : TakesUp tokens span) {token : Token}
    (stands : token ∈ tokens) :
    span.start ≤ token.span.start ∧ token.span.stop ≤ span.stop := by
  obtain ⟨first, last, begins, finishes, rfl⟩ := takes
  constructor
  · obtain ⟨rest, rfl⟩ := List.head?_eq_some_iff.1 begins
    rcases List.mem_cons.1 stands with rfl | later
    · exact Nat.le_refl _
    · have before := (List.pairwise_cons.1 apart.ordered).1 token later
      exact Nat.le_trans (Nat.le_of_lt (apart.positive first (List.mem_cons_self ..))) before
  · obtain ⟨init, rfl⟩ := List.getLast?_eq_some_iff.1 finishes
    rcases List.mem_append.1 stands with earlier | same
    · have last' : last ∈ [last] := List.mem_singleton_self last
      have before := (List.pairwise_append.1 apart.ordered).2.2 token earlier last last'
      have positive := apart.positive last (List.mem_append_right _ last')
      exact Nat.le_trans before (Nat.le_of_lt positive)
    · cases List.mem_singleton.1 same
      exact Nat.le_refl _

theorem start_lt_stop (apart : Apart tokens) (takes : TakesUp tokens span) :
    span.start < span.stop := by
  obtain ⟨token, stands⟩ := List.exists_mem_of_ne_nil tokens takes.ne_nil
  obtain ⟨starts, stops⟩ := apart.within takes stands
  exact Nat.lt_of_le_of_lt starts (Nat.lt_of_lt_of_le (apart.positive token stands) stops)

end Apart

/-- The region starts with the first of the tokens and ends with the last.  The parts lie in it from
left to right, and none of them overlaps another. -/
structure Covers (tokens : List Token) (span : Span) (parts : List Span) : Prop where
  takesUp : TakesUp tokens span
  within : ∀ part ∈ parts,
    span.start ≤ part.start ∧ part.start < part.stop ∧ part.stop ≤ span.stop
  ordered : parts.Pairwise fun part later => part.stop ≤ later.start

/-- A part starts and ends with tokens of the whole. -/
theorem Holds.exists_of_mem (holds : Holds tokens regions) {part : Span}
    (stands : part ∈ regions) : ∃ own, own.Sublist tokens ∧ TakesUp own part := by
  induction holds with
  | nil => cases stands
  | other _ ih =>
      obtain ⟨own, within, takes⟩ := ih stands
      exact ⟨own, within.cons _, takes⟩
  | part takes _ ih =>
      rcases List.mem_cons.1 stands with rfl | later
      · exact ⟨_, List.sublist_append_left .., takes⟩
      · obtain ⟨own, within, takes⟩ := ih later
        exact ⟨own, within.trans (List.sublist_append_right ..), takes⟩

theorem Holds.ordered (holds : Holds tokens regions) (apart : Apart tokens) :
    regions.Pairwise fun part later => part.stop ≤ later.start := by
  induction holds with
  | nil => exact .nil
  | other _ ih => exact ih (apart.sublist (List.sublist_cons_self ..))
  | @part own tokens span regions takes behind ih =>
      refine .cons ?_ (ih (apart.sublist (List.sublist_append_right ..)))
      intro later stands
      obtain ⟨run, within, first, -, begins, -, rfl⟩ := behind.exists_of_mem stands
      obtain ⟨-, last, -, finishes, rfl⟩ := takes
      apply (List.pairwise_append.1 apart.ordered).2.2 last (List.mem_of_getLast? finishes)
      exact within.subset (List.mem_of_head? begins)

theorem Covers.of_holds (apart : Apart tokens) (takes : TakesUp tokens span)
    (holds : Holds tokens regions) : Covers tokens span regions where
  takesUp := takes
  within part stands := by
    obtain ⟨own, within, takes'⟩ := holds.exists_of_mem stands
    have positive := (apart.sublist within).start_lt_stop takes'
    obtain ⟨first, last, begins, finishes, rfl⟩ := takes'
    have starts := apart.within takes (within.subset (List.mem_of_head? begins))
    have stops := apart.within takes (within.subset (List.mem_of_getLast? finishes))
    exact ⟨starts.1, positive, stops.2⟩
  ordered := holds.ordered apart

/-! ## Expressions -/

namespace Phrase.Derives

variable {phrase : Phrase} {tree : Tree}

theorem expression (derived : phrase.Derives tokens tree) :
    Phrase.expression.Derives tokens tree := by
  cases phrase with
  | factor => exact .term (.factor derived)
  | term => exact .term derived
  | expression => exact derived

theorem takesUp (derived : phrase.Derives tokens tree) : TakesUp tokens tree.span := by
  induction derived with
  | atom derived =>
      obtain ⟨-⟩ := derived
      exact .singleton _
  | negation _ _ ih => exact (TakesUp.singleton _).through ih []
  | @parenthesis opening closing tokens inner _ _ _ _ =>
      exact (TakesUp.singleton opening).through (.singleton closing) tokens
  | factor _ ih => exact ih
  | @product sign _ _ _ _ _ _ _ _ ihl ihr => exact ihl.through ihr [sign]
  | term _ ih => exact ih
  | @sum sign _ _ _ _ _ _ _ _ ihl ihr => exact ihl.through ihr [sign]

theorem holds (derived : phrase.Derives tokens tree) : Holds tokens tree.parts := by
  induction derived with
  | atom derived =>
      obtain ⟨-⟩ := derived
      exact .skip _
  | negation _ factor _ => exact (Holds.token _).append (.whole factor.takesUp)
  | parenthesis _ expression _ _ => exact (Holds.whole expression.takesUp).bracketed _ _
  | factor _ ih => exact ih
  | product term _ factor _ _ => exact .between term.takesUp _ factor.takesUp
  | term _ ih => exact ih
  | sum expression _ term _ _ => exact .between expression.takesUp _ term.takesUp

end Phrase.Derives

/-- The tree and those in it are derived from tokens that stand next to each other. -/
def Tree.NodesWithin (tokens : List Token) (tree : Tree) : Prop :=
  ∀ node ∈ tree.nodes, ∃ own, own <:+: tokens ∧ Phrase.expression.Derives own node

namespace Tree.NodesWithin

variable {sign : Token} {lhs rhs tree inner : Tree} {operator : Placed BinaryOperator}

theorem mono (nodes : tree.NodesWithin own) (within : own <:+: tokens) :
    tree.NodesWithin tokens := by
  intro node stands
  obtain ⟨part, within', derived⟩ := nodes node stands
  exact ⟨part, within'.trans within, derived⟩

/-- With the trees in a tree, the tree itself. -/
theorem of_cons {trees : List Tree} (itself : Phrase.expression.Derives tokens tree)
    (made : tree.nodes = tree :: trees)
    (inside : ∀ node ∈ trees, ∃ own, own <:+: tokens ∧ Phrase.expression.Derives own node) :
    tree.NodesWithin tokens := by
  intro node stands
  rw [made] at stands
  rcases List.mem_cons.1 stands with rfl | deeper
  · exact ⟨tokens, List.infix_refl _, itself⟩
  · exact inside node deeper

theorem binary (itself : Phrase.expression.Derives (front ++ sign :: back)
      (.binary lhs operator rhs span))
    (left : lhs.NodesWithin front) (right : rhs.NodesWithin back) :
    (Tree.binary lhs operator rhs span).NodesWithin (front ++ sign :: back) := by
  refine of_cons itself rfl fun node inside => ?_
  rcases List.mem_append.1 inside with stands | stands
  · exact left.mono (List.prefix_append ..).isInfix node stands
  · exact right.mono (infix_behind front sign back) node stands

end Tree.NodesWithin

theorem Phrase.Derives.nodesWithin {phrase : Phrase} {tree : Tree}
    (derived : phrase.Derives tokens tree) : tree.NodesWithin tokens := by
  induction derived with
  | atom derived => exact .of_cons (Phrase.Derives.atom derived).expression rfl nofun
  | negation minus factor ih =>
      have itself := (Phrase.Derives.negation minus factor).expression
      exact .of_cons itself rfl (ih.mono (List.suffix_cons ..).isInfix)
  | parenthesis opens expression closes ih =>
      have itself := (Phrase.Derives.parenthesis opens expression closes).expression
      refine .of_cons itself rfl (ih.mono ?_)
      exact (List.prefix_append ..).isInfix.trans (List.suffix_cons ..).isInfix
  | factor _ ih => exact ih
  | product term stands factor ihl ihr =>
      exact .binary (Phrase.Derives.product term stands factor).expression ihl ihr
  | term _ ih => exact ih
  | sum expression stands term ihl ihr => exact .binary (.sum expression stands term) ihl ihr

/-! ## Relations -/

namespace DerivesComparison

variable {relation : Comparison}

theorem takesUp (derived : DerivesComparison tokens relation) :
    TakesUp tokens relation.span := by
  obtain ⟨left, -, right⟩ := derived
  exact left.takesUp.through right.takesUp [_]

theorem holds (derived : DerivesComparison tokens relation) : Holds tokens relation.parts := by
  obtain ⟨left, -, right⟩ := derived
  exact .between left.takesUp _ right.takesUp

theorem nodesWithin (derived : DerivesComparison tokens relation) :
    relation.lhs.NodesWithin tokens ∧ relation.rhs.NodesWithin tokens := by
  obtain ⟨left, -, right⟩ := derived
  constructor
  · exact left.nodesWithin.mono (List.prefix_append ..).isInfix
  · exact right.nodesWithin.mono (infix_behind ..)

end DerivesComparison

/-! ## Rules -/

section Lists

variable {α : Type} {item : List Token → α → Prop} {delimiter : TokenKind} {values : List α}

theorem DerivesList.holds (region : α → Span)
    (takes : ∀ {tokens value}, item tokens value → TakesUp tokens (region value))
    (derived : DerivesList item delimiter tokens values) : Holds tokens (values.map region) := by
  induction derived with
  | last derived => exact .whole (takes derived)
  | more derived _ _ ih => exact (Holds.whole (takes derived)).append (.other ih)

/-- All items are derived from tokens that stand next to each other. -/
theorem DerivesList.exists_of_mem (derived : DerivesList item delimiter tokens values) {value : α}
    (stands : value ∈ values) : ∃ own, own <:+: tokens ∧ item own value := by
  induction derived with
  | last derived =>
      cases List.mem_singleton.1 stands
      exact ⟨_, List.infix_refl _, derived⟩
  | more derived _ _ ih =>
      rcases List.mem_cons.1 stands with rfl | later
      · exact ⟨_, (List.prefix_append ..).isInfix, derived⟩
      · obtain ⟨own, within, derived⟩ := ih later
        exact ⟨own, within.trans (infix_behind ..), derived⟩

/-- A list ends with its last item. -/
theorem DerivesList.exists_last (derived : DerivesList item delimiter tokens values) :
    ∃ before own value, tokens = before ++ own ∧ values.getLast? = some value ∧ item own value := by
  induction derived with
  | last derived => exact ⟨[], _, _, rfl, rfl, derived⟩
  | @more sign front _ _ values derived _ rest ih =>
      obtain ⟨before, own, value, rfl, last, derived'⟩ := ih
      refine ⟨front ++ sign :: before, own, value, ?_, ?_, derived'⟩
      · rw [List.append_assoc, List.cons_append]
      · cases values with
        | nil => cases last
        | cons => rwa [List.getLast?_cons_cons]

end Lists

theorem DerivesAtom.takesUp {leaf : Atom} (derived : DerivesAtom tokens leaf) :
    TakesUp tokens leaf.span := by
  obtain ⟨-⟩ := derived
  exact .singleton _

theorem DerivesQuantifiers.holds {atoms : List Atom} (derived : DerivesQuantifiers tokens atoms) :
    Holds tokens (atoms.map (·.span)) := by
  obtain ⟨-, derived, -⟩ := derived
  cases derived with
  | none => exact Holds.nil.bracketed _ _
  | some derived => exact (derived.holds Atom.span DerivesAtom.takesUp).bracketed _ _

theorem DerivesQuantifiers.exists_of_mem {atoms : List Atom}
    (derived : DerivesQuantifiers tokens atoms) {leaf : Atom} (stands : leaf ∈ atoms) :
    ∃ token ∈ tokens, leaf = ⟨token.lexeme, token.span⟩ := by
  obtain ⟨-, derived, -⟩ := derived
  cases derived with
  | none => cases stands
  | some derived =>
      obtain ⟨_, within, derived⟩ := derived.exists_of_mem stands
      obtain ⟨-⟩ := derived
      refine ⟨_, List.mem_cons_of_mem _ (List.mem_append_left _ ?_), rfl⟩
      exact within.subset (List.mem_singleton_self _)

theorem DerivesConditions.holds {values : List Comparison}
    (derived : DerivesConditions tokens values) : Holds tokens (values.map (·.span)) := by
  cases derived with
  | none => exact .nil
  | some _ derived => exact .other (derived.holds Comparison.span DerivesComparison.takesUp)

theorem DerivesConditions.exists_of_mem {values : List Comparison}
    (derived : DerivesConditions tokens values) {value : Comparison} (stands : value ∈ values) :
    ∃ own, own <:+: tokens ∧ DerivesComparison own value := by
  cases derived with
  | none => cases stands
  | some _ derived =>
      obtain ⟨own, within, derived⟩ := derived.exists_of_mem stands
      exact ⟨own, within.trans (List.suffix_cons ..).isInfix, derived⟩

/-- The relation of a rule and its conditions end with the last of them. -/
theorem DerivesConditions.exists_last {asserted : List Token} {corollary : Comparison}
    {values : List Comparison} (asserts : DerivesComparison asserted corollary)
    (derived : DerivesConditions tokens values) :
    ∃ before own, asserted ++ tokens = before ++ own ∧
      TakesUp own ((values.getLast?.map (·.span)).getD corollary.span) := by
  cases derived with
  | none => exact ⟨[], asserted, List.append_nil _, asserts.takesUp⟩
  | @some sign _ _ _ derived =>
      obtain ⟨before, own, value, rfl, last, derived⟩ := derived.exists_last
      refine ⟨asserted ++ sign :: before, own, ?_, ?_⟩
      · rw [List.append_assoc, List.cons_append]
      · rw [last]
        exact derived.takesUp

namespace DerivesDeclaration

variable {rule : Declaration}

theorem takesUp (derived : DerivesDeclaration tokens rule) : TakesUp tokens rule.span := by
  obtain ⟨-, -, -, -, asserts, needs⟩ := derived
  rename_i keyword colon called listed _ _ _ _ _ _
  obtain ⟨before, own, whole, takes⟩ := needs.exists_last asserts
  rw [whole]
  have parts := (TakesUp.singleton keyword).through takes (called ++ (listed ++ (colon :: before)))
  simpa only [List.append_assoc, List.cons_append, List.nil_append] using parts

theorem holds (derived : DerivesDeclaration tokens rule) : Holds tokens rule.parts := by
  obtain ⟨-, names, quantifies, -, asserts, needs⟩ := derived
  have relations := (Holds.whole asserts.takesUp).append needs.holds
  exact .other ((Holds.whole names.takesUp).append (quantifies.holds.append (.other relations)))

theorem exists_atom (derived : DerivesDeclaration tokens rule) {leaf : Atom}
    (stands : leaf ∈ rule.name :: rule.quantified) :
    ∃ token ∈ tokens, leaf = ⟨token.lexeme, token.span⟩ := by
  obtain ⟨-, names, quantifies, -, -, -⟩ := derived
  rcases List.mem_cons.1 stands with rfl | listed
  · obtain ⟨-⟩ := names
    exact ⟨_, List.mem_cons_of_mem _ (List.mem_cons_self ..), rfl⟩
  · obtain ⟨token, within, same⟩ := quantifies.exists_of_mem listed
    refine ⟨token, ?_, same⟩
    exact List.mem_cons_of_mem _ (List.mem_append_right _ (List.mem_append_left _ within))

theorem exists_relation (derived : DerivesDeclaration tokens rule) {relation : Comparison}
    (stands : relation ∈ rule.corollary :: rule.conditions) :
    ∃ own, own <:+: tokens ∧ DerivesComparison own relation := by
  obtain ⟨-, -, -, -, asserts, needs⟩ := derived
  rename_i keyword colon called listed asserted needed _ _ _ _
  have within : asserted ++ needed <:+:
      keyword :: (called ++ (listed ++ (colon :: (asserted ++ needed)))) :=
    ⟨keyword :: (called ++ (listed ++ [colon])), [], by simp⟩
  rcases List.mem_cons.1 stands with rfl | condition
  · exact ⟨asserted, (List.prefix_append ..).isInfix.trans within, asserts⟩
  · obtain ⟨own, inside, derived⟩ := needs.exists_of_mem condition
    exact ⟨own, inside.trans ((List.suffix_append ..).isInfix.trans within), derived⟩

end DerivesDeclaration

/-! ## Values in a source -/

/-- The tree is derived from its own tokens, its region is theirs, and what the source holds there
is read as the tree. -/
structure Tree.Stands (source : String) (own : List Token) (tree : Tree) : Prop where
  derived : Phrase.expression.Derives own tree
  covers : Covers own tree.span tree.parts
  alone : ReadsAlone expression Tree.shift source tree.span tree

/-- The tree stands in the source, and so do all trees in it. -/
def Tree.Sits (source : String) (own : List Token) (tree : Tree) : Prop :=
  tree.Stands source own ∧
    ∀ node ∈ tree.nodes, ∃ part, part <:+: own ∧ node.Stands source part

/-- The relation stands in the source, and so do all trees in it. -/
structure Comparison.Sits (source : String) (own : List Token) (relation : Comparison) :
    Prop where
  derived : DerivesComparison own relation
  covers : Covers own relation.span relation.parts
  alone : ReadsAlone comparison Comparison.shift source relation.span relation
  nodes : ∀ node ∈ relation.lhs.nodes ++ relation.rhs.nodes,
    ∃ part, part <:+: own ∧ node.Stands source part

/-- The rule stands in the source, and so does all that it is made of. -/
structure Declaration.Sits (source : String) (own : List Token) (rule : Declaration) : Prop where
  derived : DerivesDeclaration own rule
  covers : Covers own rule.span rule.parts
  atoms : ∀ leaf ∈ rule.name :: rule.quantified, ∃ token ∈ own, leaf = ⟨token.lexeme, token.span⟩
  relations : ∀ relation ∈ rule.corollary :: rule.conditions,
    ∃ part, part <:+: own ∧ relation.Sits source part

/-- The tokens of a source stand apart, and so do those that mean something. -/
theorem apart_of_placed {source : String} (placed : own <:+: significant (tokenize source)) :
    Apart own := by
  have apart := (tile_tokensFrom 0 source.toList).apart
  exact apart.sublist (placed.sublist.trans List.filter_sublist)

section Stand

variable {source : String} (placed : own <:+: significant (tokenize source))
include placed

theorem Phrase.Derives.stands {tree : Tree} (derived : Phrase.expression.Derives own tree) :
    tree.Stands source own where
  derived := derived
  covers := .of_holds (apart_of_placed placed) derived.takesUp derived.holds
  alone := reads_expression.readsAlone nofun Phrase.Derives.significant_eq Phrase.Derives.relocate
    derived placed derived.takesUp

/-- What is derived within the tokens stands in the source. -/
theorem Tree.NodesWithin.stands {tree : Tree} (nodes : tree.NodesWithin own) :
    ∀ node ∈ tree.nodes, ∃ part, part <:+: own ∧ node.Stands source part := by
  intro node inside
  obtain ⟨part, within, derived⟩ := nodes node inside
  exact ⟨part, within, derived.stands (within.trans placed)⟩

theorem Phrase.Derives.sits {tree : Tree} (derived : Phrase.expression.Derives own tree) :
    tree.Sits source own :=
  ⟨derived.stands placed, derived.nodesWithin.stands placed⟩

theorem DerivesComparison.sits {relation : Comparison}
    (derived : DerivesComparison own relation) : relation.Sits source own where
  derived := derived
  covers := .of_holds (apart_of_placed placed) derived.takesUp derived.holds
  alone := reads_comparison.readsAlone nofun DerivesComparison.significant_eq
    DerivesComparison.relocate derived placed derived.takesUp
  nodes node inside := by
    obtain ⟨left, right⟩ := derived.nodesWithin
    rcases List.mem_append.1 inside with inside | inside
    · exact left.stands placed node inside
    · exact right.stands placed node inside

theorem DerivesDeclaration.sits {rule : Declaration} (derived : DerivesDeclaration own rule) :
    rule.Sits source own where
  derived := derived
  covers := .of_holds (apart_of_placed placed) derived.takesUp derived.holds
  atoms _ := derived.exists_atom
  relations relation inside := by
    obtain ⟨part, within, derived⟩ := derived.exists_relation inside
    exact ⟨part, within, derived.sits (within.trans placed)⟩

end Stand

/-! ## Reading -/

/-- What was read are the tokens in front of the rest, and the last of them is no blank. -/
def StopsBehind (own tokens rest : List Token) : Prop :=
  ∃ front, tokens = front ++ rest ∧ significant front = own ∧ front.getLast? = own.getLast?

/-- What is read from anywhere in a source sits there, and reading stops right behind it. -/
structure ReadsInPlace {α : Type}
    (parser : (sourceEnd : Nat) → (tokens : List Token) → Reply tokens α)
    (sits : String → List Token → α → Prop) : Prop where
  upTo : ∀ source sourceEnd position value rest,
    (parser sourceEnd ((tokenize source).drop position)).read? = some (value, rest) →
    ∃ own, StopsBehind own ((tokenize source).drop position) rest ∧ sits source own value
  whole : ∀ source value, parse parser source = .ok value →
    sits source (significant (tokenize source)) value

theorem Leads.stopsBehind {rest : List Token} (leads : Leads own tokens rest) (some : own ≠ []) :
    StopsBehind own tokens rest := by
  cases own with
  | nil => exact absurd rfl some
  | cons first more =>
      obtain ⟨blanks, after, whole, none, reads, last⟩ := leads.exists_run
      refine ⟨blanks ++ first :: after, ?_, ?_, ?_⟩
      · rw [whole, List.append_assoc]
      · rw [significant_append, none, reads, List.nil_append]
      · rw [List.getLast?_append, last]
        rfl

theorem Reads.inPlace {α : Type}
    {parser : (sourceEnd : Nat) → (tokens : List Token) → Reply tokens α}
    {derives : List Token → α → Prop} {follow : Option TokenKind → Prop}
    {region : α → Span} {sits : String → List Token → α → Prop}
    (reads : Reads parser derives follow) (ends : follow none)
    (takes : ∀ {tokens value}, derives tokens value → TakesUp tokens (region value))
    (place : ∀ {source own value}, own <:+: significant (tokenize source) → derives own value →
      sits source own value) :
    ReadsInPlace parser sits := by
  constructor
  case upTo =>
    intro source sourceEnd position value rest done
    obtain ⟨own, derived, leads⟩ := reads.sound sourceEnd done
    refine ⟨own, leads.stopsBehind (takes derived).ne_nil, place ?_ derived⟩
    have behind : significant ((tokenize source).drop position) <:+:
        significant (tokenize source) := ((List.drop_suffix ..).filter _).isInfix
    rw [leads.significant_eq] at behind
    exact (List.prefix_append ..).isInfix.trans behind
  case whole =>
    intro source value done
    exact place (List.infix_refl _) ((reads.parse_eq_ok_iff ends).1 done)

/-- Expressions, relations and rules hold the regions that they take up in the source, and so do all
their parts. -/
theorem readsInPlace :
    ReadsInPlace expression Tree.Sits ∧ ReadsInPlace comparison Comparison.Sits ∧
      ReadsInPlace declaration Declaration.Sits := by
  refine ⟨?_, ?_, ?_⟩
  · apply reads_expression.inPlace nofun Phrase.Derives.takesUp
    exact fun placed derived => derived.sits placed
  · apply reads_comparison.inPlace nofun DerivesComparison.takesUp
    exact fun placed derived => derived.sits placed
  · apply reads_declaration.inPlace rfl DerivesDeclaration.takesUp
    exact fun placed derived => derived.sits placed

end Calculation.Source
