import Calculation.Proofs.Meaning
import Calculation.Proofs.Printing
import Calculation.Proofs.Relocation
import Calculation.Proofs.Vocabulary
import Mathlib.Data.List.TakeWhile

/-!
Blanks around a line.

A line is split at blanks of all 25 kinds, and its arguments are trimmed of them.  So most commands
are read from what is left when the blanks are gone.  Only a rule is read from the whole line, by
its tokens, and there four of the blanks keep tokens apart while any other is a token of its own,
one that no declaration has.

* `TokenKind.Spells.blank`: where blanks can be in a token.
* `significant_tokenize_padded`: what tokens are left of a line.
* `Command.parse_padded_eq_ok_iff`: which commands are still read, and are the same.
-/

namespace Calculation

namespace Text

/-! ## Texts with blanks at the end -/

variable {blanks : List Char}

/-- Blanks at the end of a text stay behind what it is cut down to by leaving out its first
characters, if those are no blanks. -/
theorem dropWhile_append_blanks (blank : ∀ c ∈ blanks, isBlank c = true) (text : List Char) :
    (text ++ blanks).dropWhile (fun c => !isBlank c) =
      text.dropWhile (fun c => !isBlank c) ++ blanks := by
  have kept : blanks.dropWhile (fun c => !isBlank c) = blanks := by
    cases blanks with
    | nil => rfl
    | cons c rest => rw [List.dropWhile_cons_of_neg (by simp [blank c])]
  rw [List.dropWhile_append]
  split
  · rename_i none
    rw [kept, List.isEmpty_iff.1 none, List.nil_append]
  · rfl

theorem takeWhile_append_blanks (blank : ∀ c ∈ blanks, isBlank c = true) (text : List Char) :
    (text ++ blanks).takeWhile (fun c => !isBlank c) = text.takeWhile (fun c => !isBlank c) := by
  have none : blanks.takeWhile (fun c => !isBlank c) = [] := by
    cases blanks with
    | nil => rfl
    | cons c rest => rw [List.takeWhile_cons_of_neg (by simp [blank c])]
  rw [List.takeWhile_append]
  split
  · rename_i all
    rw [none, List.append_nil]
    exact ((List.takeWhile_prefix _).eq_of_length all).symm
  · rfl

theorem trimStart_append_blanks (blank : ∀ c ∈ blanks, isBlank c = true) (text : List Char) :
    trimStart (text ++ blanks) = trimStart text ++ blanks ∨
      trimStart text = [] ∧ trimStart (text ++ blanks) = [] := by
  unfold trimStart
  rw [List.dropWhile_append]
  split
  · rename_i none
    exact .inr ⟨List.isEmpty_iff.1 none, List.dropWhile_eq_nil_iff.2 blank⟩
  · exact .inl rfl

theorem trimEnd_append_blanks (blank : ∀ c ∈ blanks, isBlank c = true) (text : List Char) :
    trimEnd (text ++ blanks) = trimEnd text := by
  have blank : ∀ c ∈ blanks.reverse, isBlank c = true :=
    fun c mem => blank c (List.mem_reverse.1 mem)
  rw [trimEnd, List.reverse_append, List.dropWhile_append_of_pos blank]
  rfl

end Text

namespace Source

open Text

variable {offset : Nat} {kind : TokenKind} {first : Char} {after text blanks lexeme : List Char}
  {c : Char}

/-! ## Blanks in tokens -/

theorem isBlank_of_keepsApart (apart : keepsApart c = true) : isBlank c = true := by
  have same : (c = '\n' ∨ c = '\r') ∨ c = ' ' ∨ c = '\t' := by
    simpa [keepsApart, isLineBreak, isSeparator] using apart
  rcases same with (rfl | rfl) | rfl | rfl <;> rfl

theorem isBlank_of_continuesName (continues : continuesName c = true) : isBlank c = false := by
  have upper : c.isUpper = true → 65 ≤ c.toNat ∧ c.toNat ≤ 90 := fun upper => of_decide_eq_true upper
  have lower : c.isLower = true → 97 ≤ c.toNat ∧ c.toNat ≤ 122 := by
    intro lower
    obtain ⟨least, greatest⟩ := Bool.and_eq_true_iff.1 lower
    exact ⟨of_decide_eq_true least, of_decide_eq_true greatest⟩
  have digit : c.isDigit = true → 48 ≤ c.toNat ∧ c.toNat ≤ 57 := Char.isDigit_iff_toNat.1
  have printable : 32 < c.toNat ∧ c.toNat < 128 := by
    rw [continuesName, Char.isAlphanum, Bool.or_eq_true, Bool.or_eq_true, Bool.or_eq_true,
      beq_iff_eq, beq_iff_eq] at continues
    rcases continues with ((letter | isDigit) | rfl) | rfl
    · rcases Bool.or_eq_true_iff.1 letter with isUpper | isLower
      · have bounds := upper isUpper
        omega
      · have bounds := lower isLower
        omega
    · have bounds := digit isDigit
      omega
    · decide
    · decide
  obtain ⟨above, below⟩ := printable
  simp only [isBlank, Bool.or_eq_false_iff, Bool.and_eq_false_iff, decide_eq_false_iff_not,
    beq_eq_false_iff_ne]
  omega

/-- The characters of a token are blanks that keep tokens apart, or it is a single character that is
unknown, or there is no blank among them. -/
theorem TokenKind.Spells.blank (spells : kind.Spells lexeme) :
    (∀ c ∈ lexeme, keepsApart c = true) ∨ (kind = .unknown ∧ lexeme.length = 1) ∨
      ∀ c ∈ lexeme, Text.isBlank c = false := by
  cases spells with
  | sign listed =>
      have signs : TokenKind.spellings.all (fun sign => sign.1.all (!Text.isBlank ·)) = true := by
        decide
      have solid := List.all_eq_true.1 (List.all_eq_true.1 signs _ listed)
      exact .inr (.inr fun c mem => by simpa using solid c mem)
  | unknown => exact .inr (.inl ⟨rfl, rfl⟩)
  | @run _ starts belongs first after listed begins all =>
      simp only [TokenKind.runs, List.mem_cons, Prod.mk.injEq, List.not_mem_nil, or_false] at listed
      rcases listed with ⟨-, rfl, rfl⟩ | ⟨-, rfl, rfl⟩ | ⟨-, rfl, rfl⟩ | ⟨-, rfl, rfl⟩
      · have breaks : ∀ c ∈ first :: after, isLineBreak c = true :=
          List.forall_mem_cons.2 ⟨begins, all⟩
        exact .inl fun c mem => Bool.or_eq_true_iff.2 (.inl (breaks c mem))
      · have separates : ∀ c ∈ first :: after, isSeparator c = true :=
          List.forall_mem_cons.2 ⟨begins, all⟩
        exact .inl fun c mem => Bool.or_eq_true_iff.2 (.inr (separates c mem))
      · have continues : ∀ c, startsName c = true → continuesName c = true := by
          intro c starts
          rw [continuesName, Char.isAlphanum, Bool.or_eq_true, Bool.or_eq_true, Bool.or_eq_true]
          rcases Bool.or_eq_true_iff.1 starts with letter | underscore
          · exact .inl (.inl (.inl letter))
          · exact .inl (.inr underscore)
        have word : ∀ c ∈ first :: after, continuesName c = true :=
          List.forall_mem_cons.2 ⟨continues first begins, all⟩
        exact .inr (.inr fun c mem => isBlank_of_continuesName (word c mem))
      · have digits : ∀ c ∈ first :: after, c.isDigit = true :=
          List.forall_mem_cons.2 ⟨begins, all⟩
        refine .inr (.inr fun c mem => isBlank_of_continuesName ?_)
        simp [continuesName, Char.isAlphanum, digits c mem]

/-- What a text starts with does not change when blanks come behind the text, unless it is blank
itself. -/
theorem IsLongest.append_blanks (best : IsLongest kind lexeme text)
    (solid : ∀ c ∈ lexeme.head?, keepsApart c = false)
    (apart : ∀ c ∈ blanks, keepsApart c = true) : IsLongest kind lexeme (text ++ blanks) where
  spells := best.spells
  starts := best.starts.trans (List.prefix_append _ _)
  preferred := best.preferred
  longest other piece spells starts := by
    obtain ⟨rest, whole⟩ := starts
    rcases List.append_eq_append_iff.1 whole with ⟨more, inside, -⟩ | ⟨behind, longer, parts⟩
    · exact best.longest other piece spells ⟨more, inside.symm⟩
    · cases behind with
      | nil =>
          rw [List.append_nil] at longer
          exact best.longest other piece spells ⟨[], by rw [longer, List.append_nil]⟩
      | cons b behind =>
          -- the token would have a blank in it, though it does not start with one
          have blank : keepsApart b = true := apart b (parts ▸ List.mem_cons_self)
          obtain ⟨c, more, rfl⟩ := List.exists_cons_of_ne_nil best.spells.ne_nil
          obtain ⟨tail, rfl⟩ := best.starts
          rcases spells.blank with all | ⟨-, single⟩ | none
          · cases (solid c rfl).symm.trans (all c (by rw [longer]; simp))
          · rw [longer] at single
            simp at single
          · cases (none b (by rw [longer]; simp)).symm.trans (isBlank_of_keepsApart blank)

theorem significant_tokensFrom_blanks (apart : ∀ c ∈ blanks, keepsApart c = true) (offset : Nat)
    (text : List Char) : Cuts offset blanks text [] := by
  induction blanks generalizing offset with
  | nil => exact rfl
  | cons c blanks ih =>
      rw [List.forall_mem_cons] at apart
      exact Cuts.append (.apart apart.1) (ih apart.2 _)

/-- Blanks at the end are no tokens that mean something. -/
theorem significant_tokensFrom_append_blanks (apart : ∀ c ∈ blanks, keepsApart c = true)
    (offset : Nat) (text : List Char) :
    significant (tokensFrom offset (text ++ blanks)) = significant (tokensFrom offset text) := by
  induction length : text.length using Nat.strongRecOn generalizing offset text with
  | ind length ih =>
      cases text with
      | nil =>
          have cuts := significant_tokensFrom_blanks apart offset []
          rw [List.nil_append, cuts.significant_eq, tokensFrom]
          rfl
      | cons first after =>
          cases starts : keepsApart first with
          | true =>
              have cuts : Cuts offset [first] (after ++ blanks) [] := .apart starts
              have cuts' : Cuts offset [first] after [] := .apart starts
              rw [List.length_cons] at length
              have later := ih after.length (by omega) (offset + byteLength [first]) after rfl
              exact cuts.trans (later.trans cuts'.symm)
          | false =>
              obtain ⟨kind, more, rest, rfl, cut⟩ := exists_scan_eq first after
              have best := scan_isLongest first (more ++ rest)
              rw [cut] at best
              have solid : ∀ c ∈ (first :: more).head?, keepsApart c = false := by
                rintro c ⟨⟩
                exact starts
              have best' := best.append_blanks solid apart
              rw [List.cons_append, List.append_assoc] at best'
              have cut' := best'.scan_eq
              rw [List.length_cons, List.length_append] at length
              have later := ih rest.length (by omega) (offset + byteLength (first :: more)) rest rfl
              rw [← List.cons_append, List.append_assoc, tokensFrom_of_scan cut',
                tokensFrom_of_scan cut, ← List.singleton_append, significant_append, later,
                ← significant_append]
              rfl

/-- The tokens of a line between blanks are those of the line, further on. -/
theorem significant_tokenize_padded {before behind : List Char}
    (apart : ∀ c ∈ before, keepsApart c = true) (apart' : ∀ c ∈ behind, keepsApart c = true)
    (line : List Char) :
    significant (tokenize (String.ofList (before ++ (line ++ behind)))) =
      (significant (tokenize (String.ofList line))).map (Token.relocate (· + byteLength before)) := by
  have cuts := significant_tokensFrom_blanks apart 0 (line ++ behind)
  rw [tokenize, String.toList_ofList, cuts, List.nil_append,
    significant_tokensFrom_append_blanks apart', tokensFrom_add, Token.shift_eq_relocate,
    significant_map_relocate, tokenize, String.toList_ofList]

/-! ## Rules between blanks -/

/-- A blank that keeps no tokens apart is a token of its own. -/
theorem exists_unknown_of_mem {source : String} (mem : c ∈ source.toList)
    (blank : isBlank c = true) (foreign : keepsApart c = false) :
    ∃ token ∈ significant (tokenize source), token.kind = .unknown := by
  rw [← flatMap_lexeme_tokenize, List.mem_flatMap] at mem
  obtain ⟨token, stands, inside⟩ := mem
  obtain ⟨kind, front, lexeme, rest, -, rfl, best⟩ := exists_of_mem_tokensFrom stands
  have inside : c ∈ (String.ofList lexeme).toList := inside
  rw [String.toList_ofList] at inside
  rcases best.spells.blank with all | ⟨rfl, -⟩ | none
  · cases foreign.symm.trans (all c inside)
  · exact ⟨_, List.mem_filter.2 ⟨stands, rfl⟩, rfl⟩
  · cases (none c inside).symm.trans blank

section

variable (move : Nat → Nat)

theorem Tree.toExpr_relocate (tree : Tree) : (tree.relocate move).toExpr = tree.toExpr := by
  induction tree with
  | atom leaf => rfl
  | paren inner span ih => exact ih
  | unary operator operand span ih => exact congrArg (Expr.unary _) ih
  | binary lhs operator rhs span ihl ihr =>
      rw [relocate, toExpr, toExpr, ihl, ihr]
      rfl

theorem Tree.atoms_relocate (tree : Tree) :
    (tree.relocate move).atoms = tree.atoms.map (Atom.relocate move) := by
  induction tree with
  | atom leaf => rfl
  | paren inner span ih => exact ih
  | unary operator operand span ih => exact ih
  | binary lhs operator rhs span ihl ihr =>
      rw [relocate, atoms, atoms, ihl, ihr, List.map_append]

theorem Comparison.toRelation_relocate (relation : Comparison) :
    (relation.relocate move).toRelation = relation.toRelation := by
  rw [toRelation, toRelation, relocate, Tree.toExpr_relocate, Tree.toExpr_relocate]
  rfl

theorem Comparison.atoms_relocate (relation : Comparison) :
    (relation.relocate move).atoms = relation.atoms.map (Atom.relocate move) := by
  rw [atoms, atoms, relocate, Tree.atoms_relocate, Tree.atoms_relocate, List.map_append]

namespace Declaration

variable {declaration : Declaration} {rule : Rule}

theorem mentions_relocate (name : String) :
    (declaration.relocate move).Mentions name ↔ declaration.Mentions name := by
  simp only [Mentions, relocate, List.exists_mem_cons_iff, List.mem_map,
    exists_exists_and_eq_and, Comparison.atoms_relocate]
  rfl

/-- Where a declaration stands is no part of the rule. -/
theorem toRule_relocate_eq_ok_iff :
    (declaration.relocate move).toRule = .ok rule ↔ declaration.toRule = .ok rule := by
  have names : (declaration.relocate move).quantified.map Atom.name =
      declaration.quantified.map Atom.name := List.map_map
  have symbols : (declaration.relocate move).quantified.map Atom.symbol =
      declaration.quantified.map Atom.symbol := List.map_map
  have conditions : (declaration.relocate move).conditions.map Comparison.toRelation =
      declaration.conditions.map Comparison.toRelation :=
    List.map_map.trans (List.map_congr_left fun relation _ =>
      Comparison.toRelation_relocate move relation)
  have corollary : (declaration.relocate move).corollary.toRelation =
      declaration.corollary.toRelation := Comparison.toRelation_relocate move declaration.corollary
  have mentioned : (∀ leaf ∈ (declaration.relocate move).quantified,
      (declaration.relocate move).Mentions leaf.name) ↔
        ∀ leaf ∈ declaration.quantified, declaration.Mentions leaf.name := by
    simp only [mentions_relocate]
    exact List.forall_mem_map
  rw [toRule_eq_ok_iff, toRule_eq_ok_iff, names, symbols, conditions, corollary, mentioned]
  rfl

end Declaration

end

end Source

namespace Rule

open Source

/-- There is no blank in what a rule is read from but those that keep tokens apart. -/
theorem keepsApart_of_parse {source : String} {rule : Rule} (read : Rule.parse source = .ok rule)
    {c : Char} (mem : c ∈ source.toList) (blank : Text.isBlank c = true) :
    keepsApart c = true := by
  obtain ⟨declaration, derived, -⟩ := parse_eq_ok_iff.1 read
  cases apart : keepsApart c with
  | true => rfl
  | false =>
      obtain ⟨token, stands, unknown⟩ := exists_unknown_of_mem mem blank apart
      have meant := derived.isMeant token stands
      rw [unknown] at meant
      cases meant

/-- Blanks that keep tokens apart may stand around a rule. -/
theorem parse_apart_eq_ok_iff {before line behind : List Char} {rule : Rule}
    (apart : ∀ c ∈ before, keepsApart c = true) (apart' : ∀ c ∈ behind, keepsApart c = true) :
    Rule.parse (String.ofList (before ++ (line ++ behind))) = .ok rule ↔
      Rule.parse (String.ofList line) = .ok rule := by
  rw [parse_eq_ok_iff, parse_eq_ok_iff, significant_tokenize_padded apart apart']
  constructor
  · rintro ⟨declaration, derived, made⟩
    have back := derived.relocate (· - Text.byteLength before)
    rw [← Token.shift_eq_relocate, map_relocate_shift] at back
    exact ⟨_, back, (Declaration.toRule_relocate_eq_ok_iff _).2 made⟩
  · rintro ⟨declaration, derived, made⟩
    exact ⟨_, derived.relocate _, (Declaration.toRule_relocate_eq_ok_iff _).2 made⟩

/-- Of all blanks only those that keep tokens apart may stand around a rule. -/
theorem parse_blanks_eq_ok_iff {before behind : List Char} (line : List Char) (rule : Rule)
    (blank : ∀ c ∈ before, Text.isBlank c = true) (blank' : ∀ c ∈ behind, Text.isBlank c = true) :
    Rule.parse (String.ofList (before ++ (line ++ behind))) = .ok rule ↔
      Rule.parse (String.ofList line) = .ok rule ∧
        ∀ c ∈ before ++ behind, keepsApart c = true := by
  constructor
  · intro read
    have apart : ∀ c ∈ before, keepsApart c = true :=
      fun c mem => keepsApart_of_parse read (by simp [mem]) (blank c mem)
    have apart' : ∀ c ∈ behind, keepsApart c = true :=
      fun c mem => keepsApart_of_parse read (by simp [mem]) (blank' c mem)
    exact ⟨(parse_apart_eq_ok_iff apart apart').1 read, List.forall_mem_append.2 ⟨apart, apart'⟩⟩
  · rintro ⟨read, apart⟩
    obtain ⟨apart, apart'⟩ := List.forall_mem_append.1 apart
    exact (parse_apart_eq_ok_iff apart apart').2 read

end Rule

/-! ## Lines between blanks -/

namespace Command.Line

/-- The word and the arguments of a line do not change with the blanks around it. -/
theorem ofChars_padded {before behind : List Char} (blank : ∀ c ∈ before, Text.isBlank c = true)
    (blank' : ∀ c ∈ behind, Text.isBlank c = true) (line : List Char) :
    (ofChars (before ++ (line ++ behind))).word = (ofChars line).word ∧
      (ofChars (before ++ (line ++ behind))).arguments = (ofChars line).arguments := by
  have first : Text.trimStart (before ++ (line ++ behind)) = Text.trimStart (line ++ behind) :=
    List.dropWhile_append_of_pos blank
  simp only [ofChars, first]
  rcases Text.trimStart_append_blanks blank' line with some | ⟨none, none'⟩
  · rw [some, Text.takeWhile_append_blanks blank', Text.dropWhile_append_blanks blank']
    refine ⟨rfl, ?_⟩
    generalize (Text.trimStart line).dropWhile (fun c => !Text.isBlank c) = afterWord
    rcases Text.trimStart_append_blanks blank' afterWord with some | ⟨none, none'⟩
    · rw [some, Text.trimEnd_append_blanks blank']
    · rw [none, none']
  · rw [none, none']
    exact ⟨rfl, rfl⟩

end Command.Line

namespace Command

/-- What a line asks for between blanks of any kind is what it asks for without them, unless it is a
rule: then every one of the blanks is to be one that keeps tokens apart. -/
theorem parse_padded_eq_ok_iff {before line behind : String}
    (blank : ∀ c ∈ before.toList, Text.isBlank c = true)
    (blank' : ∀ c ∈ behind.toList, Text.isBlank c = true) (command : Command) :
    parse (before ++ line ++ behind) = .ok command ↔
      parse line = .ok command ∧
        ((∃ rule, command = .rule rule) →
          ∀ c ∈ before.toList ++ behind.toList, Source.keepsApart c = true) := by
  have whole : before ++ line ++ behind =
      String.ofList (before.toList ++ (line.toList ++ behind.toList)) := by
    rw [String.append_assoc, String.ofList_append, String.ofList_append, String.ofList_toList,
      String.ofList_toList, String.ofList_toList]
  obtain ⟨word, arguments⟩ := Line.ofChars_padded blank blank' line.toList
  rw [parse_eq_ok_iff, parse_eq_ok_iff, Line.ofString, Line.ofString, whole,
    String.toList_ofList, word, arguments]
  by_cases isRule : ∃ rule, command = .rule rule
  · -- a rule is read from the whole line, with the blanks
    obtain ⟨rule, rfl⟩ := isRule
    have read := Rule.parse_blanks_eq_ok_iff line.toList rule blank blank'
    rw [String.ofList_toList] at read
    simp only [meant?_eq_some_rule_iff, read, Command.rule.injEq, exists_eq', true_implies,
      ← and_assoc, exists_and_right]
  · have other : ∀ source verb, meant? source (Line.ofChars line.toList).arguments verb =
        some command → verb ≠ .rule := by
      rintro source verb meant rfl
      obtain ⟨rule, -, same⟩ := Option.map_eq_some_iff.1 meant
      exact isRule ⟨rule, same.symm⟩
    rw [and_iff_left fun given => absurd given isRule]
    apply exists_congr
    intro verb
    apply and_congr_right
    intro named
    constructor
    · intro meant
      exact (meant?_eq_of_ne_rule (other _ _ meant) _ _ _).symm.trans meant
    · intro meant
      exact (meant?_eq_of_ne_rule (other _ _ meant) _ _ _).symm.trans meant

/-- An ideographic space in front of a line and a line break behind it do not matter for a beginning,
though the tokenizer knows only one of them. -/
theorem parse_padded_eq_ok_iff_begin :
    (∀ c ∈ "\u3000".toList, Text.isBlank c = true) ∧ (∀ c ∈ "\n".toList, Text.isBlank c = true) ∧
      '\u3000' ∈ "\u3000".toList ∧ Source.keepsApart '\u3000' = false ∧
      parse ("\u3000" ++ "begin a" ++ "\n") = .ok (.begin (.atom { name := "a" })) := by
  have blank : "\u3000".toList.all Text.isBlank = true := by decide
  have blank' : "\n".toList.all Text.isBlank = true := by decide
  have read : parse "begin a" = .ok (.begin (.atom { name := "a" })) :=
    toOption_eq_some_iff.1 (by decide +kernel)
  have other : (∃ rule, Command.begin (.atom { name := "a" }) = .rule rule) →
      ∀ c ∈ "\u3000".toList ++ "\n".toList, Source.keepsApart c = true := by
    rintro ⟨rule, same⟩
    cases same
  have padded := (parse_padded_eq_ok_iff (List.all_eq_true.1 blank) (List.all_eq_true.1 blank')
    _).2 ⟨read, other⟩
  exact ⟨List.all_eq_true.1 blank, List.all_eq_true.1 blank', by decide, rfl, padded⟩

/-- A rule is not read behind a no-break space. -/
theorem not_forall_parse_padded_eq_ok_iff : ¬ ∀ before line behind : String,
    (∀ c ∈ before.toList, Text.isBlank c = true) → (∀ c ∈ behind.toList, Text.isBlank c = true) →
      ∀ command, parse (before ++ line ++ behind) = .ok command ↔ parse line = .ok command := by
  intro same
  have unread : (parse ("\u00a0" ++ "rule r []: a = a" ++ "")).toOption = none := by decide +kernel
  have read : (parse "rule r []: a = a").toOption.isSome := by decide +kernel
  obtain ⟨command, read⟩ := Option.isSome_iff_exists.1 read
  have blank : "\u00a0".toList.all Text.isBlank = true := by decide
  have padded := (same "\u00a0" "rule r []: a = a" "" (List.all_eq_true.1 blank)
    (List.forall_mem_nil _) command).2 (toOption_eq_some_iff.1 read)
  rw [padded] at unread
  cases unread

end Command

end Calculation
