import Calculation.Proofs.Blame
import Calculation.Proofs.Regions

/-!
The regions that a syntax error points at are regions of tokens.

Some tokens take such a region up, or it is the empty region at the end of the source (`Marks`).  A
parser that is put together from others marks what they mark, since each of them is given some of
the last tokens of the source (`Reply.Marking.andThen`).  As for the source, tokens start and end at
the borders of characters, and so does whatever they take up (`Marks.pointsInto`).

* `Locates.marksTokens`, `marksTokens_declaration`: what parsers mark.
* `Marks.pointsInto`: regions that are marked are regions of the source.
-/

namespace Calculation

/-! ## Regions of a text -/

/-- The offset is where a character of the text ends and where the next one starts, or one of the
ends of the text. -/
def Text.IsBorder (text : List Char) (offset : Nat) : Prop :=
  ∃ front back, text = front ++ back ∧ byteLength front = offset

/-- The region lies in the text, and it starts and stops at borders of characters. -/
structure Span.PointsInto (span : Span) (text : List Char) : Prop where
  ordered : span.start ≤ span.stop
  inside : span.stop ≤ Text.byteLength text
  starts : Text.IsBorder text span.start
  stops : Text.IsBorder text span.stop

open Text

variable {text piece : List Char} {span : Span}

theorem isBorder_byteLength (text : List Char) : IsBorder text (byteLength text) :=
  ⟨text, [], (List.append_nil text).symm, rfl⟩

/-- Such regions are those that cut a piece out of the text. -/
theorem Span.pointsInto_iff : span.PointsInto text ↔ ∃ piece, slice? text span = some piece := by
  constructor
  · rintro ⟨ordered, -, ⟨front, back, whole, start⟩, ⟨front', back', whole', stop⟩⟩
    have starts : front <+: front' := by
      have begins : front <+: text := ⟨back, whole.symm⟩
      have begins' : front' <+: text := ⟨back', whole'.symm⟩
      rcases List.prefix_or_prefix_of_prefix begins begins' with shorter | ⟨further, rfl⟩
      · exact shorter
      · rw [byteLength_append] at start
        have none : further = [] := by
          refine Classical.byContradiction fun some => ?_
          have positive := byteLength_pos some
          omega
        rw [none, List.append_nil]
    obtain ⟨piece, rfl⟩ := starts
    refine ⟨piece, slice?_eq_some_iff.2 ⟨front, back', ?_, ?_⟩⟩
    · rw [whole', List.append_assoc]
    · rw [byteLength_append, start] at stop
      rw [start, stop]
  · rintro ⟨piece, cut⟩
    obtain ⟨front, back, rfl, rfl⟩ := slice?_eq_some_iff.1 cut
    have length := byteLength_append front piece
    refine ⟨Nat.le_add_right _ _, ?_, ⟨front, piece ++ back, rfl, rfl⟩,
      ⟨front ++ piece, back, ?_, length⟩⟩
    · rw [← List.append_assoc, byteLength_append _ back, length]
      exact Nat.le_add_right _ _
    · rw [List.append_assoc]

/-- What a region cuts out of a text is also cut out where the text stands in a larger one. -/
theorem slice?_shift {outer : Span} (cut : slice? text span = some piece) {whole : List Char}
    (within : slice? whole outer = some text) :
    slice? whole (span.shift outer.start) = some piece := by
  obtain ⟨front, back, rfl, rfl⟩ := slice?_eq_some_iff.1 cut
  obtain ⟨before, behind, rfl, rfl⟩ := slice?_eq_some_iff.1 within
  refine slice?_eq_some_iff.2 ⟨before ++ front, back ++ behind, ?_, ?_⟩
  · simp only [List.append_assoc]
  · simp only [Span.shift, byteLength_append, Span.mk.injEq]
    omega

/-- All regions that the diagnostic points at are regions of the text. -/
def Diagnostic.PointsInto (diagnostic : Diagnostic) (text : List Char) : Prop :=
  ∀ span ∈ diagnostic.spans, span.PointsInto text

namespace Source

variable {α β : Type} {sourceEnd : Nat} {tokens rest read front back all : List Token}
  {diagnostic : Diagnostic}

/-! ## Regions of tokens -/

/-- Some of the tokens take up the region, or it is the end of the source. -/
def Marks (sourceEnd : Nat) (tokens : List Token) (span : Span) : Prop :=
  span = .empty sourceEnd ∨ ∃ own, own.Sublist (significant tokens) ∧ TakesUp own span

theorem Marks.mono (marks : Marks sourceEnd tokens span)
    (within : (significant tokens).Sublist (significant all)) : Marks sourceEnd all span := by
  rcases marks with none | ⟨own, stands, takes⟩
  · exact .inl none
  · exact .inr ⟨own, stands.trans within, takes⟩

theorem Marks.token {token : Token} (stands : token ∈ significant tokens) :
    Marks sourceEnd tokens token.span :=
  .inr ⟨[token], List.singleton_sublist.2 stands, .singleton token⟩

/-- What is still open has been opened. -/
theorem mem_of_mem_stillOpen {opening : Token} (stands : opening ∈ stillOpen tokens) :
    opening ∈ tokens := by
  have general : ∀ opened, opening ∈ tokens.foldl nest opened → opening ∈ opened ++ tokens := by
    clear stands
    induction tokens with
    | nil => exact fun opened stands => by simpa using stands
    | cons token tokens ih =>
        intro opened stands
        have either := ih _ stands
        rw [List.mem_append] at either ⊢
        rcases either with earlier | later
        · unfold nest at earlier
          split at earlier
          · rcases List.mem_cons.1 earlier with rfl | earlier
            · exact .inr List.mem_cons_self
            · exact .inl earlier
          · exact .inl (List.mem_of_mem_tail earlier)
          · exact .inl earlier
        · exact .inr (List.mem_cons_of_mem _ later)
  exact general [] stands

/-- What is pointed at around the place where reading stopped. -/
theorem PointsAt.marks (points : PointsAt sourceEnd front back diagnostic)
    (split : significant tokens = front ++ back) :
    ∀ span ∈ diagnostic.spans, Marks sourceEnd tokens span := by
  intro span pointed
  cases points with
  | unexpectedToken expected token back =>
      cases List.mem_singleton.1 pointed
      exact .token (by rw [split]; exact List.mem_append_right _ List.mem_cons_self)
  | expectedEnd token back =>
      cases List.mem_singleton.1 pointed
      exact .token (by rw [split]; exact List.mem_append_right _ List.mem_cons_self)
  | unexpectedEnd =>
      cases List.mem_singleton.1 pointed
      exact .inl rfl
  | @emptyParenthesis opening closing last opens closes back =>
      cases List.mem_singleton.1 pointed
      refine .inr ⟨[opening] ++ [closing], ?_, ?_⟩
      · rw [split]
        refine List.Sublist.append ?_ ?_
        · exact List.singleton_sublist.2 (List.mem_of_getLast? last)
        · exact List.singleton_sublist.2 List.mem_cons_self
      · exact (TakesUp.singleton opening).through (.singleton closing) []
  | @unclosedParenthesis opening innermost back =>
      cases List.mem_singleton.1 pointed
      refine .token ?_
      rw [split]
      exact List.mem_append_left _ (mem_of_mem_stillOpen (List.mem_of_head? innermost))

/-! ## What replies mark -/

/-- If the reply is a diagnostic, then it points at tokens or at the end of the source. -/
def Reply.Marking (reply : Reply tokens α) (sourceEnd : Nat) (all : List Token) : Prop :=
  ∀ diagnostic, reply.outcome = .error diagnostic →
    ∀ span ∈ diagnostic.spans, Marks sourceEnd all span

namespace Reply.Marking

theorem of_ok {reply : Reply tokens α} {value : α} (done : reply.outcome = .ok value) :
    reply.Marking sourceEnd all := by
  intro diagnostic failed
  cases done.symm.trans failed

theorem failed (cause : Diagnostic.Cause) {span : Span} (marks : Marks sourceEnd all span)
    (rest : List Token) :
    (Reply.failed (.pointingAt span cause) rest : Reply tokens α).Marking sourceEnd all := by
  intro diagnostic failed span' pointed
  cases failed
  cases List.mem_singleton.1 pointed
  exact marks

theorem within {longer : List Token} {reply : Reply tokens α}
    (marking : reply.Marking sourceEnd all) (le : tokens.length ≤ longer.length) :
    (reply.within le).Marking sourceEnd all := by
  intro diagnostic failed
  rw [outcome_within] at failed
  exact marking diagnostic failed

theorem map {reply : Reply tokens α} (marking : reply.Marking sourceEnd all) (make : α → β) :
    (reply.map make).Marking sourceEnd all :=
  fun diagnostic failed => marking diagnostic (outcome_map_eq_error_iff.1 failed)

theorem andThen {reply : Reply tokens α}
    {next : (value : α) → (rest : List Token) → rest.length ≤ tokens.length → Reply rest β}
    (first : reply.Marking sourceEnd all)
    (later : ∀ value rest (read : reply.read? = some (value, rest)),
      (next value rest (length_le_of_read? read)).Marking sourceEnd all) :
    (reply.andThen next).Marking sourceEnd all := by
  intro diagnostic failed
  rcases outcome_andThen_eq_error_iff.1 failed with failed | ⟨value, rest, read, failed⟩
  · exact first diagnostic failed
  · exact later value rest read diagnostic failed

theorem withNext
    {use : (token : Token) → (rest : List Token) → rest.length < tokens.length → Reply rest α}
    (later : ∀ found : Next tokens, next? tokens = some found →
      (use found.token found.rest found.lt).Marking sourceEnd all) :
    (Source.withNext sourceEnd tokens use).Marking sourceEnd all := by
  intro diagnostic failed
  rcases outcome_withNext_eq_error_iff.1 failed with ⟨-, rfl⟩ | ⟨found, next, failed⟩
  · intro span pointed
    cases List.mem_singleton.1 pointed
    exact .inl rfl
  · exact later found next diagnostic failed

end Reply.Marking

/-! ## What parsers mark -/

/-- The tokens are some of the last of those that mean something. -/
def EndsWith (all tokens : List Token) : Prop := significant tokens <:+ significant all

theorem EndsWith.behind (ends : EndsWith all tokens) (leads : Leads read tokens rest) :
    EndsWith all rest :=
  List.IsSuffix.trans ⟨read, leads.significant_eq.symm⟩ ends

theorem EndsWith.mem {token : Token} (ends : EndsWith all tokens)
    (stands : token ∈ significant tokens) : token ∈ significant all :=
  ends.subset stands

/-- Wherever the parser starts, it marks tokens of the whole. -/
def MarksTokens (parser : (sourceEnd : Nat) → (tokens : List Token) → Reply tokens α) : Prop :=
  ∀ sourceEnd {all tokens}, EndsWith all tokens → (parser sourceEnd tokens).Marking sourceEnd all

theorem Locates.marksTokens {parser : (sourceEnd : Nat) → (tokens : List Token) → Reply tokens α}
    {derives : List Token → α → Prop} (locates : Locates parser derives) :
    MarksTokens parser := by
  intro sourceEnd all tokens ends diagnostic failed span pointed
  rcases locates sourceEnd tokens diagnostic failed with ⟨front, back, split, -, points⟩
  exact (points.marks split span pointed).mono ends.sublist

/-- A token that is accepted by what it is, and pointed at if it is not. -/
theorem marking_withNext_check {check : Token → Prop} [DecidablePred check]
    (cause : Token → Diagnostic.Cause) (ends : EndsWith all tokens) :
    (withNext sourceEnd tokens fun token rest _ =>
        if check token then .pure token
        else .failed (.pointingAt token.span (cause token)) rest).Marking sourceEnd all := by
  refine .withNext fun found next => ?_
  split
  · exact .of_ok rfl
  · refine .failed _ (.token (ends.mem ?_)) _
    rw [significant_of_next? next]
    exact List.mem_cons_self

theorem marksTokens_tokenOf (kind : TokenKind) (expected : List TokenKind) :
    MarksTokens (tokenOf kind expected) :=
  fun _ _ _ ends => marking_withNext_check (fun token => .unexpectedToken expected token.kind) ends

theorem marksTokens_ruleKeyword : MarksTokens ruleKeyword :=
  fun _ _ _ ends => marking_withNext_check (fun _ => .expectedKeyword Declaration.keyword) ends

section Lists

variable {item : (sourceEnd : Nat) → (tokens : List Token) → Reply tokens α}
  {derives : List Token → α → Prop} {follow : Option TokenKind → Prop} {delimiter : TokenKind}

theorem MarksTokens.delimited (marks : MarksTokens item) (reads : Reads item derives follow) :
    MarksTokens fun sourceEnd => Source.delimited (item sourceEnd) delimiter := by
  intro sourceEnd all tokens ends
  induction length : tokens.length using Nat.strongRecOn generalizing tokens with
  | ind _ ih =>
  subst length
  refine (marks sourceEnd ends).andThen fun value rest read => .map ?_ _
  obtain ⟨own, -, leads⟩ := reads.sound sourceEnd read
  rw [moreItems]
  split
  · exact .of_ok rfl
  · rename_i sign after lt follows
    rcases nextOf?_eq_some_iff.1 follows with ⟨next, -⟩
    have leads' : Leads [sign] rest after := leads_singleton_iff.2 ⟨_, next, rfl, rfl⟩
    have shorter := Nat.lt_of_lt_of_le lt (Reply.length_le_of_read? read)
    exact (ih after.length shorter ((ends.behind leads).behind leads') rfl).within _

end Lists

theorem marksTokens_quantifiedAtoms : MarksTokens quantifiedAtoms := by
  intro sourceEnd all tokens ends
  rw [quantifiedAtoms]
  split
  · exact .of_ok rfl
  · exact locates_atom.marksTokens.delimited reads_atom sourceEnd ends

theorem marksTokens_quantifiers : MarksTokens quantifiers := by
  intro sourceEnd all tokens ends
  rw [quantifiers]
  refine (marksTokens_tokenOf _ _ sourceEnd ends).andThen fun opening rest read => ?_
  obtain ⟨-, leads⟩ := (read?_tokenOf_eq_some_iff sourceEnd).1 read
  have ends' := ends.behind leads
  refine (marksTokens_quantifiedAtoms sourceEnd ends').andThen fun atoms rest' _ => ?_
  split
  · exact .of_ok rfl
  · refine .failed _ (.token (ends.mem ?_)) _
    rw [leads.significant_eq]
    exact List.mem_cons_self

theorem marksTokens_conditions : MarksTokens conditions := by
  intro sourceEnd all tokens ends
  rw [conditions]
  split
  · rename_i sign after lt implied
    rcases nextOf?_eq_some_iff.1 implied with ⟨next, -⟩
    have leads : Leads [sign] tokens after := leads_singleton_iff.2 ⟨_, next, rfl, rfl⟩
    refine .within ?_ _
    exact locates_comparison.marksTokens.delimited reads_comparison sourceEnd (ends.behind leads)
  · exact .of_ok rfl

theorem marksTokens_declaration : MarksTokens declaration := by
  intro sourceEnd all tokens ends
  rw [declaration]
  refine (marksTokens_ruleKeyword sourceEnd ends).andThen fun keyword rest₁ read => ?_
  obtain ⟨-, leads⟩ := (read?_ruleKeyword_eq_some_iff sourceEnd).1 read
  replace ends := ends.behind leads
  refine (locates_atom.marksTokens sourceEnd ends).andThen fun name rest₂ read => ?_
  obtain ⟨_, -, leads⟩ := reads_atom.sound sourceEnd read
  replace ends := ends.behind leads
  refine (marksTokens_quantifiers sourceEnd ends).andThen fun quantified rest₃ read => ?_
  obtain ⟨_, -, leads⟩ := reads_quantifiers.sound sourceEnd read
  replace ends := ends.behind leads
  refine (marksTokens_tokenOf _ _ sourceEnd ends).andThen fun colon rest₄ read => ?_
  obtain ⟨-, leads⟩ := (read?_tokenOf_eq_some_iff sourceEnd).1 read
  replace ends := ends.behind leads
  refine (locates_comparison.marksTokens sourceEnd ends).andThen fun corollary rest₅ read => ?_
  obtain ⟨_, -, leads⟩ := reads_comparison.sound sourceEnd read
  exact (marksTokens_conditions sourceEnd (ends.behind leads)).map _

/-! ## Whole sources -/

theorem MarksTokens.complete {parser : (sourceEnd : Nat) → (tokens : List Token) → Reply tokens α}
    {derives : List Token → α → Prop} {follow : Option TokenKind → Prop}
    (marks : MarksTokens parser) (reads : Reads parser derives follow) :
    MarksTokens (Source.complete parser) := by
  intro sourceEnd all tokens ends
  refine (marks sourceEnd ends).andThen fun value rest read => ?_
  obtain ⟨_, -, leads⟩ := reads.sound sourceEnd read
  split
  · exact .of_ok rfl
  · rename_i left
    obtain ⟨found, next, rfl⟩ := exists_next?_of_skipBlanks left
    refine .failed _ (.token ((ends.behind leads).mem ?_)) _
    rw [significant_of_next? next]
    exact List.mem_cons_self

/-- The tokens of a source start and end at borders of its characters. -/
theorem Marks.pointsInto {source : String}
    (marks : Marks (endOf (tokenize source)) (tokenize source) span) :
    span.PointsInto source.toList := by
  have regions : ∀ token ∈ significant (tokenize source), token.span.PointsInto source.toList := by
    intro token stands
    exact Span.pointsInto_iff.2 ⟨_, (fits_of_mem_tokenize (List.mem_of_mem_filter stands)).slice⟩
  rcases marks with rfl | ⟨own, stands, takes⟩
  · rw [tokenize, endOf_tokensFrom_zero]
    have last := isBorder_byteLength source.toList
    exact ⟨Nat.le_refl _, Nat.le_refl _, last, last⟩
  · have apart := (apart_of_placed List.infix_rfl).sublist stands
    have positive := apart.start_lt_stop takes
    obtain ⟨first, last, begins, finishes, rfl⟩ := takes
    have starts := regions first (stands.subset (List.mem_of_head? begins))
    have stops := regions last (stands.subset (List.mem_of_getLast? finishes))
    exact ⟨Nat.le_of_lt positive, stops.inside, starts.starts, stops.stops⟩

/-- Syntax errors point at regions of the source. -/
theorem MarksTokens.pointsInto {parser : (sourceEnd : Nat) → (tokens : List Token) → Reply tokens α}
    {derives : List Token → α → Prop} {follow : Option TokenKind → Prop}
    (marks : MarksTokens parser) (reads : Reads parser derives follow) {source : String}
    (failed : parse parser source = .error diagnostic) : diagnostic.PointsInto source.toList := by
  intro span pointed
  have whole : EndsWith (tokenize source) (tokenize source) := List.suffix_rfl
  exact (marks.complete reads _ whole diagnostic failed span pointed).pointsInto

end Source

end Calculation
