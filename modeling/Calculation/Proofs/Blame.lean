import Calculation.Proofs.Viability
import Mathlib.Data.List.Infix

/-!
Parsers stop before the first token that cannot go on.

When a parser fails, the tokens before some place can still be completed to what it reads, and with
the next token they cannot (`StopsAt`).  The parser that called it stops at the same place, with the
tokens before that it had read itself (`StopsAt.behind`).  So all that is left to say of each parser
is how the parts it is made of are completed.  The diagnostic points at that place (`PointsAt`),
apart from that of an unclosed parenthesis, which points at the innermost one still open.

* `locates_expression`, `locates_comparison`: where parsers fail.
* `Locates.pinpointsErrors`: what can be continued of a source that is not read, and what is pointed
  at.
* `PinpointsErrors.exists_isLongestBegun`: the same by what the grammar derives.
-/

namespace Calculation.Source

open Text

variable {α : Type} {sourceEnd : Nat} {tokens rest read front back : List Token}
  {diagnostic : Diagnostic} {opening : Token}

/-! ## Open parentheses -/

/-- The parentheses that are open after one more token, the innermost first. -/
def nest (opened : List Token) (token : Token) : List Token :=
  match token.kind with
  | .openParen => token :: opened
  | .closeParen => opened.tail
  | _ => opened

/-- The parentheses that are still open after the tokens, the innermost first. -/
def stillOpen (tokens : List Token) : List Token := tokens.foldl nest []

theorem nest_mono {opened opened' : List Token} (starts : opened <+: opened') (token : Token) :
    nest opened token <+: nest opened' token := by
  unfold nest
  split
  · exact List.cons_prefix_cons.2 ⟨rfl, starts⟩
  · simpa using starts.drop 1
  · exact starts

theorem foldl_nest_mono {opened opened' : List Token} (starts : opened <+: opened')
    (tokens : List Token) : tokens.foldl nest opened <+: tokens.foldl nest opened' := by
  induction tokens generalizing opened opened' with
  | nil => exact starts
  | cons token tokens ih => exact ih (nest_mono starts token)

/-- What is open in tokens is open after others too. -/
theorem head?_stillOpen_append (front : List Token)
    (innermost : (stillOpen tokens).head? = some opening) :
    (stillOpen (front ++ tokens)).head? = some opening := by
  have starts : stillOpen tokens <+: stillOpen (front ++ tokens) := by
    rw [stillOpen, stillOpen, List.foldl_append]
    exact foldl_nest_mono (List.nil_prefix) tokens
  obtain ⟨others, whole⟩ := starts
  rw [← whole, List.head?_append, innermost]
  rfl

/-- A phrase closes every parenthesis that it opens. -/
theorem Phrase.Derives.foldl_nest {phrase : Phrase} {tree : Tree}
    (derived : phrase.Derives tokens tree) (opened : List Token) :
    tokens.foldl nest opened = opened := by
  induction derived generalizing opened with
  | atom derived =>
      rcases derived with ⟨word⟩
      rcases word with kind | kind <;> simp [nest, kind]
  | negation minus _ ih => simpa [nest, minus] using ih opened
  | parenthesis opens _ closes ih => simp [nest, opens, closes, ih]
  | factor _ ih => exact ih opened
  | term _ ih => exact ih opened
  | product _ stands _ ihl ihr =>
      simp only [productSigns, List.mem_cons, Prod.mk.injEq, List.not_mem_nil, or_false] at stands
      rw [List.foldl_append, ihl, List.foldl_cons, ihr]
      rcases stands with ⟨kind, -⟩ | ⟨kind, -⟩ <;> simp [nest, kind]
  | sum _ stands _ ihl ihr =>
      simp only [sumSigns, List.mem_cons, Prod.mk.injEq, List.not_mem_nil, or_false] at stands
      rw [List.foldl_append, ihl, List.foldl_cons, ihr]
      rcases stands with ⟨kind, -⟩ | ⟨kind, -⟩ <;> simp [nest, kind]

/-! ## What is pointed at -/

/-- What the diagnostic of a syntax error points at, between the tokens before the place where
reading stopped and those behind it. -/
inductive PointsAt (sourceEnd : Nat) (front : List Token) : List Token → Diagnostic → Prop
  | unexpectedToken (expected : List TokenKind) (token : Token) (back : List Token) :
      PointsAt sourceEnd front (token :: back)
        (.pointingAt token.span (.unexpectedToken expected token.kind))
  | expectedEnd (token : Token) (back : List Token) :
      PointsAt sourceEnd front (token :: back) (.pointingAt token.span .expectedEnd)
  | unexpectedEnd : PointsAt sourceEnd front [] (.pointingAt (.empty sourceEnd) .unexpectedEnd)
  | emptyParenthesis {opening closing : Token} (last : front.getLast? = some opening)
      (opens : opening.kind = .openParen) (closes : closing.kind = .closeParen)
      (back : List Token) :
      PointsAt sourceEnd front (closing :: back)
        (.pointingAt (opening.span.through closing.span) .emptyParenthesis)
  | unclosedParenthesis {opening : Token} (innermost : (stillOpen front).head? = some opening)
      (back : List Token) :
      PointsAt sourceEnd front back (.pointingAt opening.span .unclosedParenthesis)

/-- What is pointed at is the same with more tokens before the place. -/
theorem PointsAt.behind (points : PointsAt sourceEnd front back diagnostic)
    (read : List Token) : PointsAt sourceEnd (read ++ front) back diagnostic := by
  cases points with
  | unexpectedToken expected token back => exact .unexpectedToken expected token back
  | expectedEnd token back => exact .expectedEnd token back
  | unexpectedEnd => exact .unexpectedEnd
  | emptyParenthesis last opens closes back =>
      exact .emptyParenthesis (by rw [List.getLast?_append, last]; rfl) opens closes back
  | unclosedParenthesis innermost back =>
      exact .unclosedParenthesis (head?_stillOpen_append read innermost) back

/-! ## Where reading stops -/

/-- Tokens that can be written down. -/
def AllStandalone (tokens : List Token) : Prop := ∀ token ∈ tokens, token.Standalone

/-- The tokens before the place can be completed by others that can be written down, and no tokens
are read that start like those before the place and the next one. -/
structure StopsAt (completes rejects : List Token → Prop) (front back : List Token) : Prop where
  viable : ∃ behind, AllStandalone behind ∧ completes (front ++ behind)
  stuck : ∀ token ∈ back.head?, ∀ tokens,
    kinds (front ++ [token]) <+: kinds (significant tokens) → rejects tokens

/-- The tokens are split where reading stops, and the diagnostic points there. -/
def Blames (sourceEnd : Nat) (completes rejects : List Token → Prop) (tokens : List Token)
    (diagnostic : Diagnostic) : Prop :=
  ∃ front back, significant tokens = front ++ back ∧ StopsAt completes rejects front back ∧
    PointsAt sourceEnd front back diagnostic

variable {completes rejects completes' rejects' : List Token → Prop}

/-- Reading stops before the first token if its kind is what no tokens that are read start with. -/
theorem StopsAt.here {behind : List Token} (alone : AllStandalone behind)
    (completed : completes behind)
    (stuck : ∀ kind tokens', peekKind? tokens = some kind → peekKind? tokens' = some kind →
      rejects tokens') : StopsAt completes rejects [] (significant tokens) where
  viable := ⟨behind, alone, completed⟩
  stuck := by
    intro token first tokens' starts
    apply stuck token.kind
    · rw [peekKind?_eq_head?, kinds, List.head?_map, first]
      rfl
    · obtain ⟨following, whole⟩ := starts
      rw [peekKind?_eq_head?, ← whole]
      rfl

/-- A parser stops where one that it has called stops, after what it had read before. -/
theorem StopsAt.behind (stops : StopsAt completes rejects front back)
    (split : significant rest = front ++ back) (leads : Leads read tokens rest)
    (more : ∀ own, completes own → ∃ behind, AllStandalone behind ∧
      completes' (read ++ (own ++ behind)))
    (worse : ∀ read' tokens' rest', kinds read' = kinds read → Leads read' tokens' rest' →
      peekKind? rest' = peekKind? rest → rejects rest' → rejects' tokens') :
    significant tokens = (read ++ front) ++ back ∧
      StopsAt completes' rejects' (read ++ front) back := by
  refine ⟨?_, ?_, ?_⟩
  · rw [leads.significant_eq, split, List.append_assoc]
  · obtain ⟨behind, alone, completed⟩ := stops.viable
    obtain ⟨behind', alone', completed'⟩ := more _ completed
    refine ⟨behind ++ behind', List.forall_mem_append.2 ⟨alone, alone'⟩, ?_⟩
    simpa only [List.append_assoc] using completed'
  · intro token first tokens' starts
    obtain ⟨following, whole⟩ := starts
    rw [List.append_assoc, kinds_append, List.append_assoc] at whole
    obtain ⟨read', own, parts, same, others⟩ := List.map_eq_append_iff.1 whole.symm
    obtain ⟨rest', leads', left⟩ := exists_leads parts
    have starts : kinds (front ++ [token]) <+: kinds (significant rest') := by
      rw [left]
      exact ⟨following, others.symm⟩
    refine worse read' tokens' rest' same leads' ?_ (stops.stuck token first rest' starts)
    obtain ⟨following', whole'⟩ := starts
    rw [peekKind?_eq_head?, peekKind?_eq_head?, split, ← whole']
    cases front with
    | cons => rfl
    | nil =>
        rw [List.nil_append back, kinds, kinds, List.head?_map, first]
        rfl

theorem Blames.behind (blames : Blames sourceEnd completes rejects rest diagnostic)
    (leads : Leads read tokens rest)
    (more : ∀ own, completes own → ∃ behind, AllStandalone behind ∧
      completes' (read ++ (own ++ behind)))
    (worse : ∀ read' tokens' rest', kinds read' = kinds read → Leads read' tokens' rest' →
      peekKind? rest' = peekKind? rest → rejects rest' → rejects' tokens') :
    Blames sourceEnd completes' rejects' tokens diagnostic := by
  obtain ⟨front, back, split, stops, points⟩ := blames
  obtain ⟨split', stops'⟩ := stops.behind split leads more worse
  exact ⟨read ++ front, back, split', stops', points.behind read⟩

/-- The first part of what a parser reads. -/
theorem Blames.first (blames : Blames sourceEnd completes rejects tokens diagnostic)
    (more : ∀ own, completes own → ∃ behind, AllStandalone behind ∧ completes' (own ++ behind))
    (worse : ∀ tokens', peekKind? tokens' = peekKind? tokens → rejects tokens' →
      rejects' tokens') : Blames sourceEnd completes' rejects' tokens diagnostic := by
  have nothing : Leads [] tokens tokens := rfl
  refine blames.behind nothing more ?_
  intro read' tokens' rest' same leads
  rw [kinds_eq_nil_iff.1 same] at leads
  cases leads
  exact worse tokens'

/-- The last part of what a parser reads, which nothing has to follow. -/
theorem Blames.last (blames : Blames sourceEnd completes rejects rest diagnostic)
    (leads : Leads read tokens rest)
    (whole : ∀ own, completes own → completes' (read ++ own))
    (worse : ∀ read' tokens' rest', kinds read' = kinds read → Leads read' tokens' rest' →
      peekKind? rest' = peekKind? rest → rejects rest' → rejects' tokens') :
    Blames sourceEnd completes' rejects' tokens diagnostic := by
  refine blames.behind leads (fun own completed => ⟨[], List.forall_mem_nil _, ?_⟩) worse
  rw [List.append_nil]
  exact whole own completed

/-! ## Parsers -/

/-- The parser does not read what the tokens start with. -/
def Rejects (parser : (sourceEnd : Nat) → (tokens : List Token) → Reply tokens α)
    (tokens : List Token) : Prop :=
  ∀ sourceEnd result, (parser sourceEnd tokens).read? ≠ some result

/-- If the parser fails on the tokens, it is for the first of them that cannot go on. -/
def LocatesIn (parser : (sourceEnd : Nat) → (tokens : List Token) → Reply tokens α)
    (derives : List Token → α → Prop) (sourceEnd : Nat) (tokens : List Token) : Prop :=
  ∀ diagnostic, (parser sourceEnd tokens).outcome = .error diagnostic →
    Blames sourceEnd (fun own => ∃ value, derives own value) (Rejects parser) tokens diagnostic

def Locates (parser : (sourceEnd : Nat) → (tokens : List Token) → Reply tokens α)
    (derives : List Token → α → Prop) : Prop :=
  ∀ sourceEnd tokens, LocatesIn parser derives sourceEnd tokens

/-- What is derived is read from other tokens of the same kinds too. -/
theorem Reads.exists_read {parser : (sourceEnd : Nat) → (tokens : List Token) → Reply tokens α}
    {derives : List Token → α → Prop} {follow : Option TokenKind → Prop}
    (reads : Reads parser derives follow) (respects : RespectsKinds derives) {value : α}
    {read' : List Token} (derived : derives read value) (same : kinds read' = kinds read)
    (leads : Leads read' tokens rest) (ends : follow (peekKind? rest)) (sourceEnd : Nat) :
    ∃ value', (parser sourceEnd tokens).read? = some (value', rest) := by
  obtain ⟨value', derived'⟩ := respects _ read' _ derived same
  exact ⟨value', reads.complete sourceEnd derived' leads ends⟩

/-- At the end of a source something is missing. -/
theorem Blames.at_end {behind : List Token} (none : next? tokens = none)
    (alone : AllStandalone behind) (completed : completes behind) :
    Blames sourceEnd completes rejects tokens
      (.pointingAt (.empty sourceEnd) .unexpectedEnd) := by
  have nothing : significant tokens = [] := next?_eq_none_iff.1 none
  refine ⟨[], significant tokens, rfl, .here alone completed fun kind _ peek => ?_, ?_⟩
  · rw [peekKind?, none] at peek
    cases peek
  · rw [nothing]
    exact .unexpectedEnd

/-- A token is of another kind than those that can stand there. -/
theorem Blames.at_token {behind : List Token} {found : Next tokens}
    (next : next? tokens = some found) (alone : AllStandalone behind)
    (completed : completes behind)
    (stuck : ∀ tokens', peekKind? tokens' = some found.token.kind → rejects tokens')
    (expected : List TokenKind) :
    Blames sourceEnd completes rejects tokens (unexpected expected found.token) := by
  refine ⟨[], significant tokens, rfl, .here alone completed ?_, ?_⟩
  · intro kind tokens' peek
    rw [peekKind?_eq_some_iff.2 ⟨found, next, rfl⟩] at peek
    cases peek
    exact stuck tokens'
  · rw [significant_of_next? next]
    exact .unexpectedToken ..

/-! ### Tokens to complete with -/

def nameToken : Token := .ofLexeme .name 0 ['x']

def closingToken : Token := .ofLexeme .closeParen 0 [')']

def equalToken : Token := .ofLexeme .equal 0 ['=']

theorem standalone_nameToken : nameToken.Standalone where
  solid := rfl
  ends rest := ⟨'x', [], rfl, scan_run rfl (by simp) (stops_cons rfl rest)⟩

theorem standalone_closingToken : closingToken.Standalone := ⟨rfl, fun _ => ⟨')', [], rfl, rfl⟩⟩

theorem standalone_equalToken : equalToken.Standalone := ⟨rfl, fun _ => ⟨'=', [], rfl, rfl⟩⟩

theorem derivesAtom_nameToken : DerivesAtom [nameToken] ⟨nameToken.lexeme, nameToken.span⟩ :=
  ⟨.inl rfl⟩

theorem derives_nameToken (phrase : Phrase) :
    phrase.Derives [nameToken] (.atom ⟨nameToken.lexeme, nameToken.span⟩) :=
  Phrase.Derives.of_factor (.atom derivesAtom_nameToken) phrase

/-! ### Single tokens -/

theorem locates_atom : Locates atom DerivesAtom := by
  intro sourceEnd tokens diagnostic failed
  have alone : AllStandalone [nameToken] := List.forall_mem_singleton.2 standalone_nameToken
  rw [atom, Reply.outcome_withNext_eq_error_iff] at failed
  rcases failed with ⟨none, rfl⟩ | ⟨found, next, failed⟩
  · exact .at_end none alone ⟨_, derivesAtom_nameToken⟩
  · split at failed
    · cases failed
    · cases failed
    · rename_i name numeral
      cases failed
      refine .at_token next alone ⟨_, derivesAtom_nameToken⟩ ?_ _
      rintro tokens' peek sourceEnd' ⟨leaf, rest⟩ done
      rcases (read?_atom_eq_some_iff sourceEnd').1 done with ⟨_, ⟨word⟩, leads⟩
      rw [peekKind?_of_leads leads] at peek
      rw [Option.some.inj peek] at word
      rcases word with kind | kind
      · exact name kind
      · exact numeral kind

/-- A relational operator with the region of its sign. -/
def DerivesSign (own : List Token) (operator : Placed RelationalOperator) : Prop :=
  ∃ sign : Token, (sign.kind, operator.kind) ∈ relationSigns ∧ sign.span = operator.span ∧
    own = [sign]

theorem locates_relationalOperator : Locates relationalOperator DerivesSign := by
  intro sourceEnd tokens diagnostic failed
  have alone : AllStandalone [equalToken] := List.forall_mem_singleton.2 standalone_equalToken
  have derived : DerivesSign [equalToken] ⟨.equal, equalToken.span⟩ :=
    ⟨equalToken, by decide, rfl, rfl⟩
  rw [relationalOperator, operator, Reply.outcome_withNext_eq_error_iff] at failed
  rcases failed with ⟨none, rfl⟩ | ⟨found, next, failed⟩
  · exact .at_end none alone ⟨_, derived⟩
  · split at failed
    · cases failed
    · rename_i other
      cases failed
      refine .at_token next alone ⟨_, derived⟩ ?_ _
      rintro tokens' peek sourceEnd' ⟨operator, rest⟩ done
      rcases (read?_relationalOperator_eq_some_iff sourceEnd').1 done with
        ⟨sign, stands, -, leads⟩
      rw [peekKind?_of_leads leads] at peek
      rw [Option.some.inj peek, mem_relationSigns_iff, other] at stands
      cases stands

/-! ## Expressions -/

section Expressions

variable {bound : Option Precedence} {tree lhs : Tree}

/-- Whether operations go on can be told from what is next. -/
theorem nextOperator?_eq_none_of_peekKind? {tokens' : List Token}
    (same : peekKind? tokens' = peekKind? tokens) (ends : nextOperator? bound tokens = none) :
    nextOperator? bound tokens' = none := by
  cases follows : nextOperator? bound tokens' with
  | none => rfl
  | some pair =>
      rcases nextOperator?_eq_some_iff.1 follows with ⟨next, stands, binds, -⟩
      rw [peekKind?_eq_some_iff.2 ⟨_, next, rfl⟩] at same
      rcases peekKind?_eq_some_iff.1 same.symm with ⟨found, next', kind⟩
      rw [← kind] at stands
      have taken : nextOperator? bound tokens = some (⟨pair.1.kind, found.token.span⟩, found) :=
        nextOperator?_eq_some_iff.2 ⟨next', stands, binds, rfl⟩
      rw [ends] at taken
      cases taken

theorem endsExpression_of_nextOperator? (ends : nextOperator? none tokens = none) :
    EndsExpression (peekKind? tokens) := by
  intro kind peek
  rcases peekKind?_eq_some_iff.1 peek with ⟨found, next, rfl⟩
  cases stands : found.token.kind.binaryOperator? with
  | none => rfl
  | some operator =>
      have taken : nextOperator? none tokens = some (⟨operator, found.token.span⟩, found) :=
        nextOperator?_eq_some_iff.2 ⟨next, stands, rfl, rfl⟩
      rw [ends] at taken
      cases taken

/-- The phrase that the right operand of an operator is can be read as such. -/
theorem Phrase.Derives.readsOperations {precedence : Precedence}
    (derived : (Phrase.above (some precedence)).Derives read tree) (leads : Leads read tokens rest)
    (ends : nextOperator? (some precedence) rest = none) :
    ReadsOperations sourceEnd (some precedence) tokens (tree, rest) := by
  have last : (operations sourceEnd (some precedence) tree rest).read? = some (tree, rest) :=
    operations_of_end ends
  cases precedence with
  | sum => exact derived.resumes leads (some .sum) (tree, rest) rfl last
  | product => exact ⟨tree, rest, derived.resumes leads, last⟩

/-- What operands and operations come to is one thing. -/
theorem ReadsOperations.unique {result result' : Tree × List Token}
    (reads : ReadsOperations sourceEnd bound tokens result)
    (reads' : ReadsOperations sourceEnd bound tokens result') : result = result' := by
  rcases reads with ⟨first, middle, factor, last⟩
  rcases reads' with ⟨first', middle', factor', last'⟩
  cases factor.symm.trans factor'
  exact Option.some.inj (last.symm.trans last')

/-- Operations do not read what the tokens start with, whatever their left operand is. -/
def RejectsOperations (bound : Option Precedence) (tokens : List Token) : Prop :=
  ∀ lhs, Rejects (fun sourceEnd => operations sourceEnd bound lhs) tokens

section Next

variable {operator : Placed BinaryOperator} {found : Next tokens}

theorem RejectsOperations.of_operand (follows : nextOperator? bound tokens = some (operator, found))
    (rejects : Rejects operand found.rest) : RejectsOperations bound tokens := by
  intro lhs sourceEnd result done
  rcases exists_of_operations follows done with ⟨_, _, ⟨first, middle, factor, -⟩, -⟩
  exact rejects sourceEnd (first, middle) factor

theorem RejectsOperations.of_inner (follows : nextOperator? bound tokens = some (operator, found))
    (factor : ∀ sourceEnd, ∃ tree, (operand sourceEnd found.rest).read? = some (tree, rest))
    (rejects : RejectsOperations (some operator.kind.precedence) rest) :
    RejectsOperations bound tokens := by
  intro lhs sourceEnd result done
  rcases exists_of_operations follows done with ⟨rhs, behind, ⟨first, _, factor', last⟩, -⟩
  rcases factor sourceEnd with ⟨tree, factor⟩
  cases factor'.symm.trans factor
  exact rejects first sourceEnd (rhs, behind) last

theorem RejectsOperations.of_outer (follows : nextOperator? bound tokens = some (operator, found))
    (right : ∀ sourceEnd, ∃ tree,
      ReadsOperations sourceEnd (some operator.kind.precedence) found.rest (tree, rest))
    (rejects : RejectsOperations bound rest) : RejectsOperations bound tokens := by
  intro lhs sourceEnd result done
  rcases exists_of_operations follows done with ⟨_, _, right', last⟩
  rcases right sourceEnd with ⟨tree, right⟩
  cases right'.unique right
  exact rejects _ sourceEnd result last

/-- Other tokens of the same kinds go on with the same operator. -/
theorem exists_nextOperator?_of_kinds {read' tokens' rest' : List Token}
    (follows : nextOperator? bound tokens = some (operator, found))
    (same : kinds read' = kinds (found.token :: read)) (leads : Leads read' tokens' rest') :
    ∃ operator' found' own, operator'.kind = operator.kind ∧
      nextOperator? bound tokens' = some (operator', found') ∧ kinds own = kinds read ∧
        Leads own found'.rest rest' := by
  rcases nextOperator?_eq_some_iff.1 follows with ⟨-, stands, binds, -⟩
  rcases kinds_eq_cons_iff.1 same with ⟨_, own, rfl, kind, others⟩
  rcases leads with ⟨found', next, rfl, later⟩
  refine ⟨⟨operator.kind, found'.token.span⟩, found', own, rfl, ?_, others, later⟩
  exact nextOperator?_eq_some_iff.2 ⟨next, by rw [kind]; exact stands, binds, rfl⟩

end Next

/-- Operations stop before the first token that cannot go on, as long as their operands do. -/
theorem blames_of_operations {size : Nat}
    (operands : ∀ tokens : List Token, tokens.length < size →
      LocatesIn operand Phrase.factor.Derives sourceEnd tokens)
    (within : tokens.length ≤ size) (grown : Grown bound front lhs tokens)
    (failed : (operations sourceEnd bound lhs tokens).outcome = .error diagnostic) :
    Blames sourceEnd (fun own => ∃ tree, (Phrase.above bound).Derives (front ++ own) tree)
      (RejectsOperations bound) tokens diagnostic := by
  -- the recursion calls itself twice, for the right operand and for what comes after it
  induction length : tokens.length using Nat.strongRecOn
    generalizing tokens bound front lhs with
  | ind _ ih =>
  subst length
  rw [operations] at failed
  split at failed
  · cases failed
  rename_i operator sign after lt follows
  rcases nextOperator?_eq_some_iff.1 follows with ⟨next, stands, binds, span⟩
  have leadsSign : Leads [sign] tokens after := leads_singleton_iff.2 ⟨_, next, rfl, rfl⟩
  have joined : ∀ own rhs, (Phrase.above (some operator.kind.precedence)).Derives own rhs →
      (Phrase.above bound).Derives (front ++ sign :: own)
        (lhs.join ⟨operator.kind, sign.span⟩ rhs) := by
    intro own rhs right
    exact (Phrase.Derives.join stands (grown.ready operator _ follows) right).to_above binds
  simp only [Reply.outcome_within, Reply.outcome_andThen_eq_error_iff] at failed
  rcases failed with failed | ⟨first, middle, factor, failed | ⟨rhs, behind, right, failed⟩⟩
  case inl =>
    refine (operands after (Nat.lt_of_lt_of_le lt within) _ failed).last leadsSign ?_ ?_
    · rintro own ⟨rhs, derived⟩
      exact ⟨_, joined own rhs (derived.of_factor _)⟩
    · intro read' tokens' rest' same leads _ rejects
      rcases exists_nextOperator?_of_kinds follows same leads with
        ⟨operator', found, own, -, follows', others, later⟩
      cases kinds_eq_nil_iff.1 others
      cases later
      exact .of_operand follows' rejects
  all_goals
    rcases readsFactor sourceEnd after first middle factor with ⟨read, derived, leads⟩
    have lt' : middle.length < tokens.length :=
      Nat.lt_of_le_of_lt (Reply.length_le_of_read? factor) lt
  case inr.inl =>
    have inner := ih middle.length lt' (Nat.le_of_lt (Nat.lt_of_lt_of_le lt' within))
      (.of_factor derived) failed rfl
    refine inner.last (leadsSign.cons leads) ?_ ?_
    · rintro own ⟨rhs, right⟩
      exact ⟨_, joined (read ++ own) rhs right⟩
    · intro read' tokens' rest' same leads' _ rejects
      rcases exists_nextOperator?_of_kinds follows same leads' with
        ⟨operator', found, own, kind, follows', others, later⟩
      rcases derived.of_kinds others with ⟨tree, derived'⟩
      refine .of_inner follows' (fun _ => ⟨tree, derived'.resumes later⟩) ?_
      rw [kind]
      exact rejects
  case inr.inr =>
    rcases exists_derives_of_operations (fun tokens _ => readsFactor _ tokens)
      (Nat.le_refl _) (.of_factor derived) right with ⟨read', derived', leads', ends⟩
    have grown' := Grown.join stands binds (grown.ready operator _ follows) derived' ends
    have same : (⟨operator.kind, sign.span⟩ : Placed BinaryOperator) = operator := by
      rw [show sign.span = operator.span from span]
    rw [same] at grown'
    have lt'' : behind.length < tokens.length :=
      Nat.lt_of_le_of_lt (Reply.length_le_of_read? right) lt'
    have outer := ih behind.length lt'' (Nat.le_of_lt (Nat.lt_of_lt_of_le lt'' within)) grown'
      failed rfl
    refine outer.last (leadsSign.cons (leads.append leads')) ?_ ?_
    · rintro own ⟨tree, whole⟩
      refine ⟨tree, ?_⟩
      rw [← List.append_assoc]
      exact whole
    · intro read'' tokens' rest' same' leads'' peek rejects
      rcases exists_nextOperator?_of_kinds follows same' leads'' with
        ⟨operator', found, own, kind, follows', others, later⟩
      rcases derived'.of_kinds others with ⟨tree, derived''⟩
      have ends' := nextOperator?_eq_none_of_peekKind? peek ends
      refine .of_outer follows' (fun _ => ⟨tree, ?_⟩) rejects
      rw [kind]
      exact derived''.readsOperations later ends'

/-- An expression stops before the first token that cannot go on, as long as its operands do. -/
theorem locatesIn_expression {size : Nat}
    (operands : ∀ tokens : List Token, tokens.length < size →
      LocatesIn operand Phrase.factor.Derives sourceEnd tokens)
    (within : tokens.length < size) :
    LocatesIn expression Phrase.expression.Derives sourceEnd tokens := by
  intro diagnostic failed
  rw [expression, Reply.outcome_andThen_eq_error_iff] at failed
  rcases failed with failed | ⟨first, middle, factor, failed⟩
  · refine (operands tokens within diagnostic failed).first ?_ ?_
    · rintro own ⟨tree, derived⟩
      refine ⟨[], List.forall_mem_nil _, tree, ?_⟩
      rw [List.append_nil]
      exact derived.of_factor _
    · intro tokens' _ rejects sourceEnd' result done
      rcases read?_expression_iff.1 done with ⟨first, middle, factor, -⟩
      exact rejects sourceEnd' (first, middle) factor
  · rcases readsFactor sourceEnd tokens first middle factor with ⟨read, derived, leads⟩
    have shorter := Nat.lt_of_le_of_lt (Reply.length_le_of_read? factor) within
    have later := blames_of_operations operands (Nat.le_of_lt shorter) (.of_factor derived) failed
    refine later.last leads (fun own whole => whole) ?_
    · intro read' tokens' rest' same leads' _ rejects sourceEnd' result done
      rcases read?_expression_iff.1 done with ⟨first', middle', factor', last⟩
      rcases derived.of_kinds same with ⟨tree, derived'⟩
      cases factor'.symm.trans (derived'.resumes leads')
      exact rejects _ sourceEnd' result last

end Expressions

/-! ## Operands -/

section Operands

theorem exists_of_negation {result : Tree × List Token} {sign : Token}
    (leads : Leads [sign] tokens rest) (minus : sign.kind = .minus)
    (done : (operand sourceEnd tokens).read? = some result) :
    ∃ result', (operand sourceEnd rest).read? = some result' := by
  rcases leads_singleton_iff.1 leads with ⟨found, next, rfl, rfl⟩
  rw [operand, peekKind?_eq_some_iff.2 ⟨found, next, minus⟩] at done
  change (negation sourceEnd tokens).read? = some result at done
  rw [negation, Reply.read?_withNext_eq_some_iff] at done
  rcases done with ⟨found', next', done⟩
  cases next.symm.trans next'
  rw [if_pos minus] at done
  rcases Reply.read?_map_eq_some_iff.1 done with ⟨inner, factor, -⟩
  exact ⟨_, factor⟩

/-- After an opening parenthesis comes not at once the closing one, but an expression before it. -/
theorem exists_of_parenthesis {result : Tree × List Token}
    (leads : Leads [opening] tokens rest) (opens : opening.kind = .openParen)
    (done : (operand sourceEnd tokens).read? = some result) :
    nextOf? .closeParen rest = none ∧ ∃ inner behind,
      (expression sourceEnd rest).read? = some (inner, behind) ∧
        nextOf? .closeParen behind ≠ none := by
  rcases leads_singleton_iff.1 leads with ⟨found, next, rfl, rfl⟩
  rw [operand, peekKind?_eq_some_iff.2 ⟨found, next, opens⟩] at done
  change (parenthesis sourceEnd tokens).read? = some result at done
  rw [parenthesis, Reply.read?_withNext_eq_some_iff] at done
  rcases done with ⟨found', next', done⟩
  cases next.symm.trans next'
  rw [if_pos opens] at done
  split at done
  · cases done
  · rename_i filled
    rcases Reply.read?_andThen_eq_some_iff.1 done with ⟨inner, behind, within, last⟩
    refine ⟨filled, inner, behind, within, fun none => ?_⟩
    rw [none] at last
    cases last

theorem operand_eq_map_atom (sourceEnd : Nat) (positive : peekKind? tokens ≠ some .minus)
    (bare : peekKind? tokens ≠ some .openParen) :
    operand sourceEnd tokens = (atom sourceEnd tokens).map .atom := by
  rw [operand]
  split
  · contradiction
  · contradiction
  · rfl

/-- An expression is read up to where no operator goes on with it. -/
theorem endsExpression_of_expression {tree : Tree}
    (done : (expression sourceEnd tokens).read? = some (tree, rest)) :
    EndsExpression (peekKind? rest) := by
  rcases exists_derives_of_expression (fun tokens _ => readsFactor _ tokens)
    (Nat.lt_succ_self _) done with ⟨read, -, -, ends⟩
  exact endsExpression_of_nextOperator? ends

theorem nextOf?_ne_none_of_peekKind? {kind : TokenKind} (peek : peekKind? tokens = some kind) :
    nextOf? kind tokens ≠ none := by
  rcases peekKind?_eq_some_iff.1 peek with ⟨found, next, same⟩
  rw [nextOf?_eq_some_iff.2 ⟨next, same⟩]
  exact nofun

theorem blames_of_negation {sign : Token} (leads : Leads [sign] tokens rest)
    (minus : sign.kind = .minus)
    (inner : LocatesIn operand Phrase.factor.Derives sourceEnd rest)
    (failed : (operand sourceEnd tokens).outcome = .error diagnostic) :
    Blames sourceEnd (fun own => ∃ tree, Phrase.factor.Derives own tree) (Rejects operand) tokens
      diagnostic := by
  rcases leads_singleton_iff.1 leads with ⟨found, next, rfl, rfl⟩
  rw [operand, peekKind?_eq_some_iff.2 ⟨found, next, minus⟩] at failed
  change (negation sourceEnd tokens).outcome = .error diagnostic at failed
  rw [negation, Reply.outcome_withNext_eq_error_iff] at failed
  rcases failed with ⟨none, -⟩ | ⟨found', next', failed⟩
  · cases next.symm.trans none
  cases next.symm.trans next'
  rw [if_pos minus, Reply.outcome_map_eq_error_iff] at failed
  refine (inner diagnostic failed).last leads ?_ ?_
  · rintro own ⟨tree, factor⟩
    exact ⟨.negated found.token.span tree, .negation minus factor⟩
  · intro read' tokens' rest' same leads' _ rejects sourceEnd' result done
    rcases kinds_eq_cons_iff.1 same with ⟨sign', none, rfl, kind, nothing⟩
    cases kinds_eq_nil_iff.1 nothing
    rcases exists_of_negation leads' (kind.trans minus) done with ⟨result', factor⟩
    exact rejects sourceEnd' result' factor

/-- A parenthesis is completed by an expression and the closing parenthesis. -/
theorem exists_derives_parenthesis (opens : opening.kind = .openParen) {tree : Tree}
    (derived : Phrase.expression.Derives read tree) : ∃ behind, AllStandalone behind ∧
      ∃ tree, Phrase.factor.Derives ([opening] ++ (read ++ behind)) tree :=
  ⟨[closingToken], List.forall_mem_singleton.2 standalone_closingToken, _,
    .parenthesis opens derived rfl⟩

/-- A parenthesis with nothing in it stops before the closing one. -/
theorem stopsAt_of_empty (leads : Leads [opening] tokens rest) (opens : opening.kind = .openParen)
    (closes : peekKind? rest = some .closeParen) :
    significant tokens = [opening] ++ significant rest ∧
      StopsAt (fun own => ∃ tree, Phrase.factor.Derives own tree) (Rejects operand) [opening]
        (significant rest) := by
  have alone : AllStandalone [nameToken] := List.forall_mem_singleton.2 standalone_nameToken
  have stops : StopsAt (fun own => ∃ tree, Phrase.expression.Derives own tree)
      (fun tokens' => nextOf? .closeParen tokens' ≠ none) [] (significant rest) := by
    refine .here alone ⟨_, derives_nameToken _⟩ fun kind tokens' peek => ?_
    rw [closes] at peek
    cases peek
    exact nextOf?_ne_none_of_peekKind?
  refine stops.behind rfl leads ?_ ?_
  · rintro own ⟨tree, derived⟩
    exact exists_derives_parenthesis opens derived
  · intro read' tokens' rest' same leads' _ filled sourceEnd' result done
    rcases kinds_eq_cons_iff.1 same with ⟨opening', none, rfl, kind, nothing⟩
    cases kinds_eq_nil_iff.1 nothing
    exact filled (exists_of_parenthesis leads' (kind.trans opens) done).1

/-- A parenthesis that is not closed stops behind the expression in it. -/
theorem stopsAt_of_unclosed {inside : List Token} {tree : Tree}
    (leads : Leads (opening :: inside) tokens rest) (opens : opening.kind = .openParen)
    (derived : Phrase.expression.Derives inside tree) (ends : EndsExpression (peekKind? rest))
    (unclosed : nextOf? .closeParen rest = none) :
    significant tokens = (opening :: inside) ++ significant rest ∧
      StopsAt (fun own => ∃ tree, Phrase.factor.Derives own tree) (Rejects operand)
        (opening :: inside) (significant rest) := by
  have closing : AllStandalone [closingToken] := List.forall_mem_singleton.2 standalone_closingToken
  have stops : StopsAt (fun own => own = [closingToken])
      (fun tokens' => nextOf? .closeParen tokens' = none) [] (significant rest) := by
    refine .here closing rfl fun kind tokens' peek peek' => nextOf?_of_peekKind? ?_
    rw [peek', ← peek]
    exact fun same => nextOf?_ne_none_of_peekKind? same unclosed
  rw [← List.append_nil (opening :: inside)]
  refine stops.behind rfl leads ?_ ?_
  · rintro own rfl
    exact ⟨[], List.forall_mem_nil _, _, .parenthesis opens derived rfl⟩
  · intro read' tokens' rest' same leads' peek none sourceEnd' result done
    rcases kinds_eq_cons_iff.1 same with ⟨opening', inside', rfl, kind, others⟩
    rcases leads_cons_iff.1 leads' with ⟨after, leadsOpening, leadsInside⟩
    rcases exists_of_parenthesis leadsOpening (kind.trans opens) done with
      ⟨-, inner', behind', within', closed'⟩
    rw [← peek] at ends
    rcases reads_expression.exists_read Phrase.expression.respectsKinds derived others
      leadsInside ends sourceEnd' with ⟨tree', within⟩
    cases within'.symm.trans within
    exact closed' none

theorem blames_of_parenthesis (leads : Leads [opening] tokens rest)
    (opens : opening.kind = .openParen)
    (inner : LocatesIn expression Phrase.expression.Derives sourceEnd rest)
    (failed : (operand sourceEnd tokens).outcome = .error diagnostic) :
    Blames sourceEnd (fun own => ∃ tree, Phrase.factor.Derives own tree) (Rejects operand) tokens
      diagnostic := by
  rcases leads_singleton_iff.1 leads with ⟨found, next, rfl, rfl⟩
  rw [operand, peekKind?_eq_some_iff.2 ⟨found, next, opens⟩] at failed
  change (parenthesis sourceEnd tokens).outcome = .error diagnostic at failed
  rw [parenthesis, Reply.outcome_withNext_eq_error_iff] at failed
  rcases failed with ⟨none, -⟩ | ⟨found', next', failed⟩
  · cases next.symm.trans none
  cases next.symm.trans next'
  rw [if_pos opens] at failed
  split at failed
  · rename_i last closes
    cases failed
    rcases nextOf?_eq_some_iff.1 closes with ⟨first, kind⟩
    obtain ⟨split, stops⟩ :=
      stopsAt_of_empty leads opens (peekKind?_eq_some_iff.2 ⟨last, first, kind⟩)
    refine ⟨_, _, split, stops, ?_⟩
    rw [significant_of_next? first]
    exact .emptyParenthesis rfl opens kind _
  simp only [Reply.outcome_andThen_eq_error_iff] at failed
  rcases failed with failed | ⟨tree, behind, within, failed⟩
  · refine (inner diagnostic failed).behind leads ?_ ?_
    · rintro own ⟨tree, derived⟩
      exact exists_derives_parenthesis opens derived
    · intro read' tokens' rest' same leads' _ rejects sourceEnd' result done
      rcases kinds_eq_cons_iff.1 same with ⟨opening', none, rfl, kind, nothing⟩
      cases kinds_eq_nil_iff.1 nothing
      rcases exists_of_parenthesis leads' (kind.trans opens) done with ⟨-, _, _, within, -⟩
      exact rejects sourceEnd' _ within
  · split at failed
    · cases failed
    rename_i unclosed
    cases failed
    rcases reads_expression.sound sourceEnd within with ⟨read, derived, leads'⟩
    have ends := endsExpression_of_expression within
    obtain ⟨split, stops⟩ :=
      stopsAt_of_unclosed (leads.cons leads') opens derived ends unclosed
    refine ⟨_, _, split, stops, .unclosedParenthesis ?_ _⟩
    rw [stillOpen, List.foldl_cons, derived.foldl_nest, nest, opens]
    rfl

theorem locates_operand : Locates operand Phrase.factor.Derives := by
  intro sourceEnd tokens
  induction length : tokens.length using Nat.strongRecOn generalizing tokens with
  | ind _ ih =>
  subst length
  have operands : ∀ shorter : List Token, shorter.length < tokens.length →
      LocatesIn operand Phrase.factor.Derives sourceEnd shorter :=
    fun shorter lt => ih _ lt shorter rfl
  intro diagnostic failed
  by_cases minus : peekKind? tokens = some .minus
  · rcases peekKind?_eq_some_iff.1 minus with ⟨found, next, kind⟩
    have leads : Leads [found.token] tokens found.rest := ⟨found, next, rfl, rfl⟩
    exact blames_of_negation leads kind (operands found.rest found.lt) failed
  by_cases opens : peekKind? tokens = some .openParen
  · rcases peekKind?_eq_some_iff.1 opens with ⟨found, next, kind⟩
    have leads : Leads [found.token] tokens found.rest := ⟨found, next, rfl, rfl⟩
    exact blames_of_parenthesis leads kind (locatesIn_expression operands found.lt) failed
  · rw [operand_eq_map_atom sourceEnd minus opens, Reply.outcome_map_eq_error_iff] at failed
    refine (locates_atom sourceEnd tokens diagnostic failed).first ?_ ?_
    · rintro own ⟨leaf, derived⟩
      refine ⟨[], List.forall_mem_nil _, .atom leaf, ?_⟩
      rw [List.append_nil]
      exact .atom derived
    · rintro tokens' same rejects sourceEnd' ⟨tree, rest⟩ done
      rw [← same] at minus opens
      rw [operand_eq_map_atom sourceEnd' minus opens] at done
      rcases Reply.read?_map_eq_some_iff.1 done with ⟨leaf, read, -⟩
      exact rejects sourceEnd' (leaf, rest) read

theorem locates_expression : Locates expression Phrase.expression.Derives :=
  fun sourceEnd _ => locatesIn_expression (fun shorter _ => locates_operand sourceEnd shorter)
    (Nat.lt_succ_self _)

end Operands

/-! ## Relations -/

/-- A relation is read up to where no operator goes on with its right side. -/
theorem endsExpression_of_comparison {relation : Comparison}
    (done : (comparison sourceEnd tokens).read? = some (relation, rest)) :
    EndsExpression (peekKind? rest) := by
  simp only [comparison, Reply.read?_andThen_eq_some_iff, Reply.read?_map_eq_some_iff] at done
  rcases done with ⟨lhs, middle, -, operator, behind, -, rhs, right, -⟩
  exact endsExpression_of_expression right

theorem rejects_comparison_of_left (rejects : Rejects expression tokens) :
    Rejects comparison tokens := by
  intro sourceEnd result done
  simp only [comparison, Reply.read?_andThen_eq_some_iff] at done
  rcases done with ⟨lhs, middle, left, -⟩
  exact rejects sourceEnd (lhs, middle) left

section Left

variable {middle : List Token}

theorem rejects_comparison_of_sign
    (left : ∀ sourceEnd, ∃ lhs, (expression sourceEnd tokens).read? = some (lhs, middle))
    (rejects : Rejects relationalOperator middle) : Rejects comparison tokens := by
  intro sourceEnd result done
  simp only [comparison, Reply.read?_andThen_eq_some_iff] at done
  rcases done with ⟨_, _, left', operator, behind, compares, -⟩
  rcases left sourceEnd with ⟨lhs, left⟩
  cases left.symm.trans left'
  exact rejects sourceEnd (operator, behind) compares

theorem rejects_comparison_of_right
    (left : ∀ sourceEnd, ∃ lhs, (expression sourceEnd tokens).read? = some (lhs, middle))
    (compares : ∀ sourceEnd, ∃ operator,
      (relationalOperator sourceEnd middle).read? = some (operator, rest))
    (rejects : Rejects expression rest) : Rejects comparison tokens := by
  rintro sourceEnd ⟨relation, after⟩ done
  simp only [comparison, Reply.read?_andThen_eq_some_iff, Reply.read?_map_eq_some_iff] at done
  rcases done with ⟨_, _, left', _, _, compares', rhs, right, -⟩
  rcases left sourceEnd with ⟨lhs, left⟩
  rcases compares sourceEnd with ⟨operator, compares⟩
  cases left.symm.trans left'
  cases compares.symm.trans compares'
  exact rejects sourceEnd (rhs, after) right

end Left

theorem locates_comparison : Locates comparison DerivesComparison := by
  intro sourceEnd tokens diagnostic failed
  simp only [comparison, Reply.outcome_andThen_eq_error_iff, Reply.outcome_map_eq_error_iff]
    at failed
  have equal : (equalToken.kind, RelationalOperator.equal) ∈ relationSigns := by decide
  rcases failed with failed | ⟨lhs, middle, left, failed | ⟨operator, behind, compares, failed⟩⟩
  case inl =>
    refine (locates_expression sourceEnd tokens diagnostic failed).first ?_ ?_
    · rintro own ⟨lhs, left⟩
      refine ⟨[equalToken, nameToken], ?_, _, .intro left equal (derives_nameToken _)⟩
      exact List.forall_mem_cons.2
        ⟨standalone_equalToken, List.forall_mem_singleton.2 standalone_nameToken⟩
    · exact fun tokens' _ rejects => rejects_comparison_of_left rejects
  all_goals
    rcases reads_expression.sound sourceEnd left with ⟨front, derived, leads⟩
    have ends := endsExpression_of_expression left
  case inr.inl =>
    have sign := locates_relationalOperator sourceEnd middle diagnostic failed
    refine sign.behind leads ?_ ?_
    · rintro own ⟨operator, sign, stands, -, rfl⟩
      exact ⟨[nameToken], List.forall_mem_singleton.2 standalone_nameToken, _,
        .intro derived stands (derives_nameToken _)⟩
    · intro read' tokens' rest' same leads' peek rejects
      rw [← peek] at ends
      refine rejects_comparison_of_sign ?_ rejects
      exact reads_expression.exists_read Phrase.expression.respectsKinds derived same leads' ends
  case inr.inr =>
    rcases (read?_relationalOperator_eq_some_iff sourceEnd).1 compares with
      ⟨sign, stands, span, leadsSign⟩
    have right := locates_expression sourceEnd behind diagnostic failed
    refine right.last (leads.append leadsSign) ?_ ?_
    · rintro own ⟨rhs, right⟩
      refine ⟨⟨lhs, ⟨operator.kind, sign.span⟩, rhs, lhs.span.through rhs.span⟩, ?_⟩
      rw [List.append_assoc]
      exact .intro derived stands right
    · intro read' tokens' rest' same leads' _ rejects
      rcases kinds_eq_append_iff.1 same with ⟨front', last, rfl, first, second⟩
      rcases kinds_eq_cons_iff.1 second with ⟨sign', none, rfl, kind, nothing⟩
      cases kinds_eq_nil_iff.1 nothing
      rcases leads_append_iff.1 leads' with ⟨middle', leadsFront, leadsSign'⟩
      rw [← kind] at stands
      have ends' : EndsExpression (peekKind? middle') := by
        rw [peekKind?_of_leads leadsSign']
        exact endsExpression_of_mem stands
      have left' := reads_expression.exists_read Phrase.expression.respectsKinds derived first
        leadsFront ends'
      refine rejects_comparison_of_right left' (fun sourceEnd' => ?_) rejects
      refine ⟨⟨operator.kind, sign'.span⟩, ?_⟩
      exact (read?_relationalOperator_eq_some_iff sourceEnd').2 ⟨sign', stands, rfl, leadsSign'⟩

/-! ## Whole sources -/

section Whole

variable {parser : (sourceEnd : Nat) → (tokens : List Token) → Reply tokens α}
  {derives : List Token → α → Prop} {follow : Option TokenKind → Prop}

/-- What is left after a value starts with a token that means something, if with any. -/
theorem exists_next?_of_skipBlanks {token : Token} (left : skipBlanks tokens = token :: rest) :
    ∃ found, next? tokens = some found ∧ found.token = token := by
  induction tokens with
  | nil => cases left
  | cons first tokens ih =>
      rw [skipBlanks, List.dropWhile_cons] at left
      rw [next?]
      cases blank : first.isBlank with
      | true =>
          rw [blank] at left
          rcases ih left with ⟨found, next, same⟩
          exact ⟨_, by rw [if_pos rfl, next]; rfl, same⟩
      | false =>
          rw [blank] at left
          cases left
          exact ⟨_, if_neg Bool.false_ne_true, rfl⟩

/-- A whole source stops before the first token that cannot go on if its parser does, and if the
parser stops only before what may follow. -/
theorem Locates.complete (locates : Locates parser derives) (reads : Reads parser derives follow)
    (respects : RespectsKinds derives)
    (stops : ∀ {sourceEnd tokens value rest}, (parser sourceEnd tokens).read? = some (value, rest) →
      follow (peekKind? rest)) :
    Locates (Source.complete parser) derives := by
  intro sourceEnd tokens diagnostic failed
  rw [Source.complete, Reply.outcome_andThen_eq_error_iff] at failed
  rcases failed with failed | ⟨value, rest, done, failed⟩
  · refine (locates sourceEnd tokens diagnostic failed).first ?_ ?_
    · rintro own ⟨value, derived⟩
      exact ⟨[], List.forall_mem_nil _, value, by rw [List.append_nil]; exact derived⟩
    · intro tokens' _ rejects sourceEnd' result done
      rw [Source.complete, Reply.read?_andThen_eq_some_iff] at done
      rcases done with ⟨value, rest, done, -⟩
      exact rejects sourceEnd' (value, rest) done
  · split at failed
    · cases failed
    rename_i token rest' left
    cases failed
    rcases reads.sound sourceEnd done with ⟨read, derived, leads⟩
    have ends := stops done
    rcases exists_next?_of_skipBlanks left with ⟨found, next, rfl⟩
    have ended : Blames sourceEnd (fun own => own = []) (fun tokens' => skipBlanks tokens' ≠ [])
        rest (.pointingAt found.token.span .expectedEnd) := by
      refine ⟨[], significant rest, rfl, .here (List.forall_mem_nil _) rfl ?_, ?_⟩
      · intro kind tokens' _ peek nothing
        rcases peekKind?_eq_some_iff.1 peek with ⟨found', next', -⟩
        rw [next?_eq_none_iff.2 (skipBlanks_eq_nil_iff.1 nothing)] at next'
        cases next'
      · rw [significant_of_next? next]
        exact .expectedEnd ..
    refine ended.last leads ?_ ?_
    · rintro own rfl
      refine ⟨value, ?_⟩
      rw [List.append_nil]
      exact derived
    · intro read' tokens' rest'' same leads' peek left sourceEnd' result done
      rw [← peek] at ends
      rcases reads.exists_read respects derived same leads' ends sourceEnd' with ⟨value', done'⟩
      rw [Source.complete, Reply.read?_andThen_eq_some_iff] at done
      rcases done with ⟨_, _, done'', last⟩
      cases done'.symm.trans done''
      split at last
      · exact left ‹_›
      · cases last

/-- The tokens are the longest run at the start of a source's that can be continued. -/
structure IsViablePrefix (parser : (sourceEnd : Nat) → (tokens : List Token) → Reply tokens α)
    (tokens front : List Token) : Prop where
  starts : front <+: tokens
  goesOn : Continuable parser front
  longest : ∀ other, other <+: tokens → Continuable parser other → other <+: front

/-- The error of a source that is not read points at the end of the longest run of its tokens that
can be continued to a text that is read. -/
def PinpointsErrors (parser : (sourceEnd : Nat) → (tokens : List Token) → Reply tokens α) : Prop :=
  ∀ source diagnostic, parse parser source = .error diagnostic →
    ∃ front back, significant (tokenize source) = front ++ back ∧
      IsViablePrefix parser (significant (tokenize source)) front ∧
      PointsAt (byteLength source.toList) front back diagnostic

/-- Nothing that starts with the tokens is read if they are what a parser is stuck at. -/
theorem not_continuable_of_stuck {front : List Token}
    (stuck : ∀ tokens, kinds front <+: kinds (significant tokens) →
      Rejects (Source.complete parser) tokens) : ¬ Continuable parser front := by
  rintro ⟨text, value, done, starts⟩
  rcases Reply.outcome_eq_ok_iff.1 done with ⟨rest, read⟩
  refine stuck (tokenize text) ?_ _ (value, rest) read
  have firsts := starts.map Prod.fst
  rw [List.map_map, List.map_map] at firsts
  exact firsts

theorem Locates.pinpointsErrors (locates : Locates (Source.complete parser) derives)
    (reads : Reads parser derives follow) (ends : follow none) (respects : RespectsKinds derives) :
    PinpointsErrors parser := by
  intro source diagnostic failed
  rcases locates _ _ diagnostic failed with ⟨front, back, split, stops, points⟩
  rw [tokenize, endOf_tokensFrom_zero] at points
  have starts : front <+: significant (tokenize source) := ⟨back, split.symm⟩
  refine ⟨front, back, split, ⟨starts, ?_, ?_⟩, points⟩
  · rcases stops.viable with ⟨behind, alone, value, derived⟩
    refine reads.continuable ends respects derived (List.forall_mem_append.2 ⟨?_, alone⟩)
    exact fun token stands => standalone_of_mem_tokenize (starts.subset stands)
  · intro other begins goesOn
    rcases List.prefix_or_prefix_of_prefix begins starts with shorter | ⟨further, rfl⟩
    · exact shorter
    cases further with
    | nil => rw [List.append_nil]
    | cons token further =>
        -- the longer run has the token at which reading stops
        rw [split, List.prefix_append_right_inj] at begins
        obtain ⟨remaining, rfl⟩ := begins
        refine absurd goesOn (not_continuable_of_stuck fun tokens' longer => ?_)
        refine stops.stuck token rfl tokens' (List.IsPrefix.trans ?_ longer)
        exact ⟨kinds further, by simp⟩

/-- The tokens are the longest run at the start of a source's that a text starts with which the
grammar derives. -/
structure IsLongestBegun (derives : List Token → α → Prop) (tokens front : List Token) : Prop where
  starts : front <+: tokens
  begins : Begins derives front
  longest : ∀ other, other <+: tokens → Begins derives other → other <+: front

theorem IsViablePrefix.isLongestBegun {front : List Token}
    (viable : IsViablePrefix parser tokens front) (reads : Reads parser derives follow)
    (ends : follow none) : IsLongestBegun derives tokens front where
  starts := viable.starts
  begins := (reads.continuable_iff_begins ends).1 viable.goesOn
  longest other starts begins :=
    viable.longest other starts ((reads.continuable_iff_begins ends).2 begins)

/-- The same in terms of the grammar, without the parser. -/
theorem PinpointsErrors.exists_isLongestBegun (pinpoints : PinpointsErrors parser)
    (reads : Reads parser derives follow) (ends : follow none) {source : String}
    (failed : parse parser source = .error diagnostic) :
    ∃ front back, significant (tokenize source) = front ++ back ∧
      IsLongestBegun derives (significant (tokenize source)) front ∧
      PointsAt (byteLength source.toList) front back diagnostic := by
  obtain ⟨front, back, split, viable, points⟩ := pinpoints source diagnostic failed
  exact ⟨front, back, split, viable.isLongestBegun reads ends, points⟩

end Whole

theorem pinpointsErrors_expression : PinpointsErrors expression := by
  have locates := locates_expression.complete reads_expression Phrase.expression.respectsKinds
    endsExpression_of_expression
  exact locates.pinpointsErrors reads_expression nofun Phrase.expression.respectsKinds

theorem pinpointsErrors_comparison : PinpointsErrors comparison := by
  have locates := locates_comparison.complete reads_comparison respectsKinds_comparison
    endsExpression_of_comparison
  exact locates.pinpointsErrors reads_comparison nofun respectsKinds_comparison

/-- Syntax errors of expressions and of relations are found at the first token that cannot go on. -/
theorem expression_comparison_pinpointsErrors :
    PinpointsErrors expression ∧ PinpointsErrors comparison :=
  ⟨pinpointsErrors_expression, pinpointsErrors_comparison⟩

/-- A source that is not read is blamed where it leaves what the grammar derives. -/
theorem exists_isLongestBegun_of_parse_eq_error (source : String) (diagnostic : Diagnostic) :
    (parse expression source = .error diagnostic →
      ∃ front back, significant (tokenize source) = front ++ back ∧
        IsLongestBegun Phrase.expression.Derives (significant (tokenize source)) front ∧
        PointsAt (byteLength source.toList) front back diagnostic) ∧
      (parse comparison source = .error diagnostic →
        ∃ front back, significant (tokenize source) = front ++ back ∧
          IsLongestBegun DerivesComparison (significant (tokenize source)) front ∧
          PointsAt (byteLength source.toList) front back diagnostic) := by
  constructor
  · intro failed
    exact pinpointsErrors_expression.exists_isLongestBegun reads_expression nofun failed
  · intro failed
    exact pinpointsErrors_comparison.exists_isLongestBegun reads_comparison nofun failed

end Calculation.Source
