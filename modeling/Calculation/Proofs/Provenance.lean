import Calculation.Proofs.Offer

/-!
Where the links come from that a session commits.

A `Record` is a workspace together with what is remembered of its past: the chains that were begun
in it, the nodes that were selected when something was committed, and the request for suggestions
that was answered last.  The past has no influence on what is done.

A user who only chooses from the list that is shown (`Record.Attentive`) lets a chain grow by links
that are offered.  A commit lets the chain grow at its end, but the root of any step can be selected
for it.  So what is committed continues the chain from the step that was selected.

* `Record.exists_run_suggests`: what is suggested follows from the choices at the operands.
* `Record.exists_run_continues`: every link of a chain that was begun in the session is offered for
  the step that was selected when it was committed.
* `Record.not_forall_offers_previous`: that need not be the step right before the link.
-/

namespace Calculation

/-- What is remembered of what was done in a workspace. -/
structure Past where
  /-- The chains that were begun in the document. -/
  begun : List ChainId := []
  /-- The nodes that were selected when something was committed, in the order of the commits. -/
  commits : List NodeId := []
  /-- The node that the last request was about, of those that were answered, and the answer. -/
  answered : Option (NodeId × List Link) := none

namespace Past

/-- The nodes of a chain that were selected when a link was committed to it. -/
def sources (past : Past) (id : ChainId) : List NodeId := past.commits.filter (·.chain = id)

theorem sources_commit (past : Past) (node : NodeId) (id : ChainId) :
    Past.sources { past with commits := past.commits ++ [node] } id =
      if node.chain = id then past.sources id ++ [node] else past.sources id := by
  simp only [sources, List.filter_append, List.filter_cons, decide_eq_true_eq, List.filter_nil]
  split
  · rfl
  · exact List.append_nil _

/-- Takes note of an operation, of the workspace before it, and of what it came to. -/
def note (past : Past) (before : Workspace) (operation : Workspace.Operation)
    (outcome : Workspace.Outcome) : Past :=
  match operation with
  | .begin _ _ => { past with begun := before.nextId :: past.begun }
  | .request node _ =>
    if outcome.accepted then { past with answered := some (node, outcome.suggestions) } else past
  | .commit =>
    if outcome.accepted then { past with commits := past.commits ++ before.session.left.toList }
    else past
  | _ => past

/-- Nothing is remembered of what is done with loose chains. -/
theorem note_of_isAside {past : Past} {before : Workspace} {operation : Workspace.Operation}
    {outcome : Workspace.Outcome} (aside : operation.isAside = true) :
    past.note before operation outcome = past := by
  cases operation <;> first | rfl | cases aside

end Past

/-- A workspace and what is remembered of its past. -/
structure Record where
  workspace : Workspace := {}
  past : Past := {}

namespace Record

/-- Does what is asked for, and takes note of it. -/
def perform (record : Record) (operation : Workspace.Operation) : Except Fault Record := do
  let outcome ← record.workspace.perform operation
  pure ⟨outcome.workspace, record.past.note record.workspace operation outcome⟩

/-- Does one thing after the other. -/
def run (record : Record) (operations : List Workspace.Operation) : Except Fault Record :=
  operations.foldlM perform record

/-- What is chosen for a node is from the list that is shown for it. -/
def Attentive (record : Record) : Workspace.Operation → Prop
  | .choose node link => record.workspace.session.chooser.isSome ∧
      ∃ answer ∈ record.past.answered, answer.1 = node ∧ link ∈ answer.2
  | _ => True

instance (record : Record) : (operation : Workspace.Operation) →
    Decidable (record.Attentive operation)
  | .choose _ _ => inferInstanceAs (Decidable (_ ∧ _))
  | .begin _ _ | .start _ _ | .sample | .extend _ _ | .copy _ | .adopt _ | .request _ _ | .dismiss
  | .escape | .commit => .isTrue trivial

/-- Whenever something is chosen in a run, it is from the list that is shown. -/
def AlwaysAttentive (record : Record) : List Workspace.Operation → Prop
  | [] => True
  | operation :: rest => record.Attentive operation ∧
      ∀ after ∈ (record.perform operation).toOption, after.AlwaysAttentive rest

instance decidableAlwaysAttentive (record : Record) : (operations : List Workspace.Operation) →
    Decidable (record.AlwaysAttentive operations)
  | [] => .isTrue trivial
  | operation :: rest =>
    have (after : Record) : Decidable (after.AlwaysAttentive rest) :=
      decidableAlwaysAttentive after rest
    inferInstanceAs (Decidable (record.Attentive operation ∧
      ∀ after ∈ (record.perform operation).toOption, after.AlwaysAttentive rest))

end Record

/-! ## What a document owes to the past -/

/-- What a document has is explained by the past: its choices and what it was last asked for are
offered by the rules, and so are the links of the chains that were begun in it. -/
structure Document.Explained (document : Document) (past : Past) : Prop where
  founded : ∀ id chain, document.find? id = some chain → chain.Founded
  answered : ∀ node links, past.answered = some (node, links) → ∃ chain found,
    document.find? node.chain = some chain ∧ chain.nodes[node.index]? = some found ∧
      ∀ link ∈ links, chain.theory.Offers found.expr link
  committed : ∀ node ∈ past.commits, ∃ chain, document.find? node.chain = some chain
  continues : ∀ id ∈ past.begun, ∃ chain, document.find? id = some chain ∧
    chain.Continues (past.sources id)

namespace Document.Explained

variable {nextId : ChainId} {document later : Document} {past : Past}

theorem empty : ({} : Document).Explained {} where
  founded _ _ listed := nomatch listed
  answered _ _ asked := nomatch asked
  committed _ mem := nomatch mem
  continues _ mem := nomatch mem

/-- A chain takes the place of one that it only differs from in its choices, and that may be shorter
by links that were committed. -/
theorem replace (explained : document.Explained past) (before chain : Chain)
    (listed : document.find? chain.id = some before) (theory : chain.theory = before.theory)
    (kept : ∀ (index : Nat) (found : Node), before.nodes[index]? = some found →
      ∃ same, chain.nodes[index]? = some same ∧ same.expr = found.expr)
    (founded : chain.Founded) {commits : List NodeId}
    (own : ∀ node ∈ commits, node ∈ past.commits ∨ node.chain = chain.id)
    (others : ∀ id, id ≠ chain.id → Past.sources { past with commits } id = past.sources id)
    (continues : before.Continues (past.sources chain.id) →
      chain.Continues (Past.sources { past with commits } chain.id)) :
    (document.insert chain).Explained { past with commits } where
  founded id found here := by
    rw [find?_insert] at here
    split at here
    · cases here
      exact founded
    · exact explained.founded id found here
  answered node links asked := by
    rcases explained.answered node links asked with ⟨known, found, here, stands, offered⟩
    rw [find?_insert]
    split
    · rename_i same
      rw [← same, listed] at here
      cases here
      rcases kept node.index found stands with ⟨again, there, expr⟩
      refine ⟨chain, again, rfl, there, fun link mem => ?_⟩
      rw [theory, expr]
      exact offered link mem
    · exact ⟨known, found, here, stands, offered⟩
  committed node mem := by
    rw [find?_insert]
    split
    · exact ⟨chain, rfl⟩
    · rename_i other
      rcases own node mem with old | same
      · exact explained.committed node old
      · exact absurd same.symm other
  continues id mem := by
    rcases explained.continues id mem with ⟨known, here, grown⟩
    rw [find?_insert]
    split
    · rename_i same
      subst same
      cases Option.some.inj (listed.symm.trans here)
      exact ⟨chain, rfl, continues grown⟩
    · rename_i other
      rw [others id fun same => other same.symm]
      exact ⟨known, here, grown⟩

/-- A choice may be made at a node, if it is of a link that is offered, or be taken back. -/
theorem annotate (explained : document.Explained past) {node : NodeId} {choice : Option Choice}
    (offered : ∀ chain found made, document.find? node.chain = some chain →
      chain.nodes[node.index]? = some found → choice = some made →
      chain.theory.Offers found.expr made.link)
    (done : document.annotate node choice = .ok later) : later.Explained past := by
  rw [Document.annotate] at done
  cases listed : document.find? node.chain with
  | none =>
      rw [listed] at done
      cases done
      exact explained
  | some chain =>
      simp only [listed] at done
      rcases exists_of_bind_eq_ok done with ⟨annotated, step, inserted⟩
      cases inserted
      rw [Chain.annotate] at step
      split at step
      · cases step
        refine explained.replace chain
          { chain with nodes := chain.nodes.modify node.index fun found => { found with choice } }
          ((congrArg document.find? (mem_of_find? listed).2).trans listed) rfl
          (fun index found here => ?_)
          ((explained.founded _ chain listed).modify node.index choice fun found made here =>
            offered chain found made listed here)
          (fun node mem => .inl mem) (fun id other => rfl) fun grown => grown.of_nodes _
        refine ⟨_, (List.getElem?_modify ..).trans (congrArg _ here), ?_⟩
        split
        · rfl
        · rfl
      · cases step

/-- A link that is offered for the root of a step may be committed to its chain. -/
theorem append (explained : document.Explained past) (intact : document.Intact nextId)
    {node : NodeId} {chain : Chain} {found : Node} {link : Link}
    (listed : document.find? node.chain = some chain)
    (here : chain.nodes[node.index]? = some found) (root : found.parent = none)
    (offered : chain.theory.Offers found.expr link) :
    (document.insert (chain.append link)).Explained
      { past with commits := past.commits ++ [node] } := by
  rcases mem_of_find? listed with ⟨mem, same⟩
  have same : chain.id = node.chain := same
  have whole := intact.chains chain mem
  refine explained.replace chain (chain.append link)
    ((congrArg document.find? same).trans listed) rfl (fun index found here => ?_)
    ((explained.founded _ chain listed).append link) ?_ ?_ ?_
  · exact ⟨found, Chain.getElem?_append_of_eq_some here _, rfl⟩
  · intro other committed
    rcases List.mem_append.1 committed with old | new
    · exact .inl old
    · rw [List.mem_singleton.1 new]
      exact .inr same.symm
  · intro id other
    rw [Past.sources_commit, if_neg fun here => other (here.symm.trans same.symm)]
  · intro grown
    rw [Past.sources_commit]
    exact (if_pos same.symm).symm ▸ grown.append whole here root offered

/-- A chain without choices may be added under a new id. -/
theorem insert (explained : document.Explained past) {chain : Chain}
    (new : document.find? chain.id = none) (blank : chain.Blank) :
    (document.insert chain).Explained past where
  founded id found here := by
    rw [find?_insert] at here
    split at here
    · cases here
      exact blank.founded
    · exact explained.founded id found here
  answered node links asked := by
    rcases explained.answered node links asked with ⟨known, found, here, stands, offered⟩
    rw [find?_insert, if_neg]
    · exact ⟨known, found, here, stands, offered⟩
    · intro same
      rw [← same, new] at here
      cases here
  committed node mem := by
    rw [find?_insert]
    split
    · exact ⟨chain, rfl⟩
    · exact explained.committed node mem
  continues id mem := by
    rcases explained.continues id mem with ⟨known, here, grown⟩
    rw [find?_insert, if_neg]
    · exact ⟨known, here, grown⟩
    · rintro rfl
      rw [new] at here
      cases here

/-- A chain may be begun under a new id. -/
theorem begin (explained : document.Explained past) {id : ChainId}
    (new : document.find? id = none) (theory : Theory) (beginning : Expr) :
    (document.insert (.start id theory beginning)).Explained
      { past with begun := id :: past.begun } := by
  have inserted := explained.insert new (Chain.Blank.start id theory beginning)
  refine ⟨inserted.founded, inserted.answered, inserted.committed, fun other mem => ?_⟩
  rcases List.mem_cons.1 mem with rfl | old
  · -- the id is new, so nothing can have been committed to a chain that has it
    have none : past.sources other = [] := by
      refine List.filter_eq_nil_iff.2 fun node mem same => ?_
      rcases explained.committed node mem with ⟨chain, listed⟩
      rw [of_decide_eq_true same, new] at listed
      cases listed
    refine ⟨.start other theory beginning, ?_, ?_⟩
    · rw [find?_insert]
      exact if_pos rfl
    · change Chain.Continues _ (past.sources other)
      rw [none]
      exact .start other theory beginning
  · exact inserted.continues other old

/-- A request may be answered with links that are offered for the node. -/
theorem answer (explained : document.Explained past) {node : NodeId} {chain : Chain} {found : Node}
    (listed : document.find? node.chain = some chain)
    (here : chain.nodes[node.index]? = some found) {links : List Link}
    (offered : ∀ link ∈ links, chain.theory.Offers found.expr link) :
    document.Explained { past with answered := some (node, links) } where
  founded := explained.founded
  answered node' links' asked := by
    cases asked
    exact ⟨chain, found, listed, here, offered⟩
  committed := explained.committed
  continues := explained.continues

end Document.Explained

/-! ## What a session does -/

namespace Session

variable {nextId : ChainId} {session : Session} {past : Past}

/-- To take choices back leaves nothing that has to be explained. -/
theorem explained_clear (explained : session.document.Explained past) {side : Side}
    {after : Session × List Change} (done : session.clear side = .ok after) :
    after.1.document.Explained past := by
  rcases of_clear done with ⟨-, rfl⟩ | ⟨node, later, -, annotated, rfl⟩
  · exact explained
  · refine explained.annotate (fun chain found made listed here none => ?_) annotated
    cases none

theorem explained_clearBoth (explained : session.document.Explained past)
    {after : Session × List Change} (done : session.clearBoth = .ok after) :
    after.1.document.Explained past := by
  rcases of_clearBoth done with ⟨middle, last, clearRight, clearLeft, rfl⟩
  exact (explained_clear (explained_clear explained clearRight) clearLeft :)

/-- A link of the list that was asked for last may be chosen for the node of the list. -/
theorem explained_place (explained : session.document.Explained past) {node : NodeId}
    {links : List Link} (asked : past.answered = some (node, links)) {link : Link}
    (mem : link ∈ links) {step : Transition Bool} (done : session.place node link = .ok step) :
    step.session.document.Explained past := by
  rcases explained.answered node links asked with ⟨chain, found, listed, here, offered⟩
  rcases of_place done with rfl | ⟨_, _, later, -, -, annotated, rfl⟩
  · exact explained
  · refine explained.annotate (fun chain' found' made listed' here' chose => ?_) annotated
    cases Option.some.inj (listed.symm.trans listed')
    cases Option.some.inj (here.symm.trans here')
    cases chose
    exact offered link mem

theorem explained_choose (explained : session.document.Explained past) {node : NodeId}
    {links : List Link} (asked : past.answered = some (node, links)) {link : Link}
    (mem : link ∈ links) {step : Transition Bool} (done : session.choose node link = .ok step) :
    step.session.document.Explained past := by
  rcases of_choose done with rfl |
    ⟨admission, active, ready, cleared, placed, -, -, activated, emptied, inserted, rfl⟩
  · exact explained
  · rw [← document_of_activate activated] at explained
    -- the choices at the operands are taken back if the node takes their place, but what was
    -- offered for it while they were there remains offered
    have ready : ({ ready with chooser := none } : Session).document.Explained past := by
      rcases emptied with ⟨-, emptied⟩ | ⟨-, rfl, -⟩
      · exact (explained_clearBoth explained emptied :)
      · exact explained
    exact (explained_place ready asked mem inserted :)

theorem explained_escape (explained : session.document.Explained past) {step : Transition Bool}
    (done : session.escape = .ok step) : step.session.document.Explained past := by
  rcases of_escape done with ⟨ticket, -, rfl⟩ | ⟨-, rfl | ⟨side, cleared, emptied, rfl⟩⟩
  · exact explained
  · exact explained
  · exact (document_release cleared.1).symm ▸ explained_clear explained emptied

/-- What is suggested for a node can be taken note of. -/
theorem Tidy.explained_request (tidy : session.Tidy nextId)
    (explained : session.document.Explained past) {node : NodeId} {ticket : Ticket}
    {step : Transition (Option (List Link))} (done : session.request node ticket = .ok step) :
    step.session.document = session.document ∧
      ∀ links, step.answer = some links →
        session.document.Explained { past with answered := some (node, links) } := by
  constructor
  · rcases of_request done with rfl | ⟨-, -, links, rfl⟩
    · rfl
    · rfl
  · intro links answer
    obtain ⟨chain, found, listed, here, suggests⟩ :=
      tidy.exists_suggests explained.founded done answer
    exact explained.answer listed here fun link mem => suggests.offers mem

/-- A commit continues the chain from the step whose root is selected. -/
theorem Tidy.explained_commit (tidy : session.Tidy nextId)
    (explained : session.document.Explained past) {step : Transition Bool}
    (done : session.commit = .ok step) :
    (step.answer = false → step.session.document.Explained past) ∧
      (step.answer = true → step.session.document.Explained
        { past with commits := past.commits ++ session.left.toList }) := by
  rcases of_commit done with rfl | ⟨chain, link, cleared, asked, emptied, rfl⟩
  · exact ⟨fun _ => explained, fun accepted => nomatch accepted⟩
  · rcases exists_of_committable? asked with
      ⟨node, found, choice, onLeft, listed, here, root, chose, rfl⟩
    refine ⟨(fun refused => nomatch refused), fun _ => ?_⟩
    have grown := explained.append tidy.intact listed here root
      (explained.founded _ chain listed found (List.mem_of_getElem? here) choice chose)
    rw [onLeft]
    have grown : ({ session with
        document := session.document.insert (chain.append choice.link) } :
          Session).document.Explained { past with commits := past.commits ++ [node] } := grown
    exact (document_release cleared.1).symm ▸ explained_clearBoth grown emptied

end Session

/-! ## What is recorded -/

namespace Record

variable {record : Record}

/-- A record that explains what is in the document. -/
structure Sound (record : Record) : Prop where
  settled : record.workspace.Settled
  explained : record.workspace.session.document.Explained record.past

theorem sound_empty (nextId : ChainId) : ({ workspace := { nextId } } : Record).Sound :=
  ⟨Workspace.settled_empty nextId, .empty⟩

/-- What is recorded of an operation is what it comes to. -/
theorem perform_eq {operation : Workspace.Operation} {outcome : Workspace.Outcome}
    (done : record.workspace.perform operation = .ok outcome) : record.perform operation =
      .ok ⟨outcome.workspace, record.past.note record.workspace operation outcome⟩ := by
  rw [perform, done]
  rfl

/-- What an operation does is explained, if what is chosen is from the list that is shown. -/
theorem Sound.explained_perform (sound : record.Sound) {operation : Workspace.Operation}
    (attentive : record.Attentive operation) {outcome : Workspace.Outcome}
    (done : record.workspace.perform operation = .ok outcome) :
    outcome.workspace.session.document.Explained
      (record.past.note record.workspace operation outcome) := by
  have explained := sound.explained
  have tidy := sound.settled.session.toTidy
  cases sound.settled.course done with
  | begun theory beginning new => exact explained.begin new theory beginning
  | adopted chain new blank => exact explained.insert new blank
  | aside aside session changes closed =>
      rw [session, Past.note_of_isAside aside]
      exact explained
  | request node ticket step asked =>
      rcases tidy.explained_request explained asked with ⟨same, answered⟩
      change step.session.document.Explained _
      rw [same, Past.note]
      cases answer : step.answer with
      | none => exact explained
      | some links => exact answered links answer
  | choose node link step chose =>
      rcases attentive with ⟨-, ⟨_, links⟩, asked, rfl, mem⟩
      exact Session.explained_choose explained asked mem chose
  | dismiss => exact explained
  | escape step escaped => exact Session.explained_escape explained escaped
  | commit step committed =>
      rcases tidy.explained_commit explained committed with ⟨refused, accepted⟩
      change step.session.document.Explained _
      rw [Past.note]
      change step.session.document.Explained (if step.answer = true then _ else _)
      cases answer : step.answer with
      | false => exact refused answer
      | true => exact accepted answer

theorem Sound.exists_perform (sound : record.Sound) {operation : Workspace.Operation}
    (attentive : record.Attentive operation) :
    ∃ after, record.perform operation = .ok after ∧ after.Sound ∧
      (Workspace.Outcome.workspace <$> record.workspace.perform operation) =
        .ok after.workspace := by
  rcases sound.settled.exists_perform operation with ⟨outcome, done, settled⟩
  refine ⟨_, perform_eq done, ⟨settled, sound.explained_perform attentive done⟩, ?_⟩
  rw [done]
  rfl

/-- Whatever is done can be done, and what it does is explained, if what is chosen is always from
the list that is shown. -/
theorem Sound.exists_run (sound : record.Sound) (operations : List Workspace.Operation)
    (attentive : record.AlwaysAttentive operations) :
    ∃ after, record.run operations = .ok after ∧ after.Sound ∧
      record.workspace.run operations = .ok after.workspace := by
  induction operations generalizing record with
  | nil => exact ⟨record, rfl, sound, rfl⟩
  | cons operation rest ih =>
      rcases sound.exists_perform attentive.1 with ⟨between, done, soundBetween, did⟩
      have attentiveRest := attentive.2 between (by rw [done]; rfl)
      rcases ih soundBetween attentiveRest with ⟨after, ran, soundAfter, went⟩
      refine ⟨after, ?_, soundAfter, ?_⟩
      · rw [run, List.foldlM_cons, done]
        exact ran
      · rw [Workspace.run, List.foldlM_cons, did]
        exact went

/-- If what is chosen is always from the list that is shown, then what is suggested for a node next
comes from the rules of its chain, resolved with the links that are chosen for its operands at that
moment, and these had been offered for the operands. -/
theorem exists_run_suggests (nextId : ChainId) (operations : List Workspace.Operation)
    (attentive : ({ workspace := { nextId } } : Record).AlwaysAttentive operations) :
    ∃ record, ({ workspace := { nextId } } : Record).run operations = .ok record ∧
      ∀ node ticket, ∃ step, record.workspace.session.request node ticket = .ok step ∧
        ∀ links, step.answer = some links → ∃ chain found,
          record.workspace.session.document.find? node.chain = some chain ∧
          chain.nodes[node.index]? = some found ∧
          chain.Suggests found (found.operands.filterMap chain.chosen?) links := by
  obtain ⟨record, ran, sound, -⟩ := (sound_empty nextId).exists_run operations attentive
  refine ⟨record, ran, fun node ticket => ?_⟩
  obtain ⟨step, asked, -⟩ := sound.settled.session.exists_request node ticket
  exact ⟨step, asked, fun links =>
    sound.settled.session.toTidy.exists_suggests sound.explained.founded asked⟩

/-- If what is chosen is always from the list that is shown, the links of every chain that was begun
are offered for the step whose root was selected when they were committed.  That step is one before
the link, and it is the one right before it exactly if the step that was last then was selected. -/
theorem exists_run_continues (nextId : ChainId) (operations : List Workspace.Operation)
    (attentive : ({ workspace := { nextId } } : Record).AlwaysAttentive operations) :
    ∃ record, ({ workspace := { nextId } } : Record).run operations = .ok record ∧
      ({ nextId } : Workspace).run operations = .ok record.workspace ∧
      ∀ id ∈ record.past.begun, ∃ chain,
        record.workspace.session.document.find? id = some chain ∧
        (record.past.sources id).length = chain.links.length ∧
        ∀ (index : Nat) (link : Link) (node : NodeId), chain.links[index]? = some link →
          (record.past.sources id)[index]? = some node →
          ∃ step expr, step ≤ index ∧ chain.roots[step]? = some node.index ∧
            chain.expressions[step]? = some expr ∧ chain.theory.Offers expr link ∧
            (step = index ↔ chain.roots[index]? = some node.index) := by
  rcases (sound_empty nextId).exists_run operations attentive with ⟨record, ran, sound, went⟩
  refine ⟨record, ran, went, fun id mem => ?_⟩
  rcases sound.explained.continues id mem with ⟨chain, listed, continues⟩
  have laid := (sound.settled.session.intact.chains chain (Document.mem_of_find? listed).1).laid
  have distinct : chain.roots.Nodup := laid.sorted.imp Nat.ne_of_lt
  refine ⟨chain, listed, continues.length, fun index link node stands source => ?_⟩
  rcases continues.offers index link node stands source with
    ⟨step, expr, before, begins, here, offered⟩
  refine ⟨step, expr, before, begins, here, offered, fun same => same ▸ begins, fun last => ?_⟩
  have bound := (List.getElem?_eq_some_iff.1 begins).1
  exact (List.getElem?_inj bound distinct).1 (begins.trans last.symm)

/-- What was chosen for an operand lets a rule with a condition offer something for a sum. -/
theorem exists_run_continues_monotone :
    let x : Symbol := { name := "x" }
    let y : Symbol := { name := "y" }
    let z : Symbol := { name := "z" }
    let a : Expr := .named "a"
    let b : Expr := .named "b"
    let c : Expr := .named "c"
    let theory : Theory := ⟨[.simple "order" [] ⟨a, .less, c⟩,
      .implication "monotone" [x, y, z] ⟨.atom x + .atom z, .less, .atom y + .atom z⟩
        [⟨.atom x, .less, .atom y⟩]]⟩
    let link : Link := ⟨.less, c + b⟩
    let operations : List Workspace.Operation := [.begin theory (a + b), .request ⟨0, 1⟩ 0,
      .choose ⟨0, 1⟩ ⟨.less, c⟩, .request ⟨0, 0⟩ 1, .choose ⟨0, 0⟩ link, .commit]
    ({} : Record).AlwaysAttentive operations ∧ ∃ record chain,
      ({} : Record).run operations = .ok record ∧
      record.workspace.session.document.find? 0 = some chain ∧
      chain.links = [link] ∧ chain.theory.Offers (a + b) link := by
  intro x y z a b c theory link operations
  have attentive : ({} : Record).AlwaysAttentive operations := by decide +kernel
  have came : ∀ record ∈ (({} : Record).run operations).toOption, 0 ∈ record.past.begun ∧
      record.past.sources 0 = [⟨0, 0⟩] ∧
      ∀ chain ∈ record.workspace.session.document.find? 0, chain.links = [link] ∧
        chain.roots = [0, 3] ∧ chain.expressions = [a + b, c + b] := by
    decide +kernel
  rcases exists_run_continues 0 operations attentive with ⟨record, ran, -, continues⟩
  rcases came record (congrArg Except.toOption ran) with ⟨begun, sources, shape⟩
  rcases continues 0 begun with ⟨chain, listed, -, offered⟩
  rcases shape chain listed with ⟨links, roots, expressions⟩
  rw [sources, links, roots, expressions] at offered
  rcases offered 0 link ⟨0, 0⟩ rfl rfl with ⟨step, expr, -, -, here, offers, first⟩
  cases first.2 rfl
  cases here
  exact ⟨attentive, record, chain, ran, listed, links, offers⟩

/-- Not every link is offered for the expression before it.  After `a < b` has been committed, `a`
can be selected again, and the chain goes on with the line that `b < b`. -/
theorem not_forall_offers_previous :
    ¬ ∀ (nextId : ChainId) (operations : List Workspace.Operation) (record : Record),
      ({ workspace := { nextId } } : Record).AlwaysAttentive operations →
      ({ workspace := { nextId } } : Record).run operations = .ok record →
      ∀ id ∈ record.past.begun, ∀ chain,
        record.workspace.session.document.find? id = some chain →
        ∀ (index : Nat) (link : Link) (expr : Expr), chain.links[index]? = some link →
          chain.expressions[index]? = some expr → chain.theory.Offers expr link := by
  intro previous
  let a : Expr := .named "a"
  let b : Expr := .named "b"
  let theory : Theory := ⟨[.simple "order" [] ⟨a, .less, b⟩]⟩
  let link : Link := ⟨.less, b⟩
  let operations : List Workspace.Operation := [.begin theory a,
    .request ⟨0, 0⟩ 0, .choose ⟨0, 0⟩ link, .commit,
    .request ⟨0, 0⟩ 1, .choose ⟨0, 0⟩ link, .commit]
  have attentive : ({} : Record).AlwaysAttentive operations := by decide +kernel
  have came : ∀ record ∈ (({} : Record).run operations).toOption, 0 ∈ record.past.begun ∧
      ∃ chain ∈ record.workspace.session.document.find? 0, chain.theory = theory ∧
        chain.links = [link, link] ∧ chain.expressions = [a, b, b] := by
    decide +kernel
  rcases (sound_empty 0).exists_run operations attentive with ⟨record, ran, -⟩
  rcases came record (congrArg Except.toOption ran) with
    ⟨begun, chain, listed, rules, links, expressions⟩
  have offers := previous 0 operations record attentive ran 0 begun chain listed 1 link b
    (by rw [links]; rfl) (by rw [expressions]; rfl)
  rw [rules] at offers
  -- nothing can be chosen for the operands of a symbol, so only the rule itself is asked
  rcases offers with ⟨chosen, operands, -, suggested⟩
  cases List.map_eq_nil_iff.1 (List.sublist_nil.1 operands)
  exact absurd suggested (by decide +kernel)

end Record

end Calculation
