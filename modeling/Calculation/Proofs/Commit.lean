import Calculation.Proofs.Undoing

/-!
What a commit does, and when.

The root of a step has no other operand beside it, and it is selected only together with a choice.
So all that a commit finds out is whether the root of a step is selected, on the left
(`Session.Tidy.committable?_of_mem_steps`).  Then the session comes to be the document in which one
chain has a step more, with nothing chosen and nothing selected, and that is all there is to say of
it (`Session.Settled.exists_commit_eq`).

* `Session.Settled.commits`: what this means for the chain and for all others.
* `Workspace.exists_run_commits`: it is so in every state that can be reached.
-/

namespace Calculation

namespace Chain

variable {chain grown : Chain} {link : Link} {node : NodeId}

/-! ## Chains with a step more -/

theorem mem_steps_iff : node ∈ chain.steps ↔ node.chain = chain.id ∧ node.index ∈ chain.roots := by
  rw [steps, List.mem_map]
  constructor
  · intro stands
    obtain ⟨root, mem, rfl⟩ := stands
    exact ⟨rfl, mem⟩
  · intro same
    exact ⟨node.index, same.2, NodeId.ext same.1.symm rfl⟩

/-- The chain has a step more, for the link, and nothing is chosen at it. -/
structure GrowsBy (chain : Chain) (link : Link) (grown : Chain) : Prop where
  id : grown.id = chain.id
  beginning : grown.beginning = chain.beginning
  theory : grown.theory = chain.theory
  links : grown.links = chain.links ++ [link]
  current : grown.current = link.target
  steps : grown.steps = chain.steps ++ [grown.lastStep]
  /-- The root of the last step is new. -/
  new : chain.contains grown.lastStep = false
  /-- The nodes that were there are what and where they were, their choices apart, and behind them
  come those of the target of the link. -/
  nodes : grown.nodes = chain.nodes.map Node.bare ++
    Node.layout link.target none grown.lastStep.index .left grown.lastStep.index
  unchosen : grown.Blank

theorem growsBy_bare_append (chain : Chain) (link : Link) :
    chain.GrowsBy link (chain.append link).bare := by
  have last : (chain.append link).bare.lastStep = chain.idOf chain.nodes.length := by
    simp [lastStep, append, bare, idOf]
  constructor
  case id => rfl
  case beginning => rfl
  case theory => rfl
  case links => rfl
  case current => simp [current, append, bare]
  case steps =>
    rw [last]
    exact List.map_append ..
  case new => simp [last, contains, idOf]
  case nodes =>
    have unchosen : ∀ node ∈ Node.layout link.target none chain.nodes.length .left
        chain.nodes.length, node.bare = node :=
      fun node mem => Node.bare_eq_self.2 (Node.choice_of_mem_layout mem)
    rw [last, bare, append, List.map_append, List.map_congr_left unchosen, List.map_id']
    rfl
  case unchosen => exact blank_bare _

end Chain

namespace Session

variable {nextId : ChainId} {session : Session} {node : NodeId} {chain : Chain} {link : Link}

/-! ## What can be committed -/

/-- The root of a step that is selected can be committed with the link that was chosen for it. -/
theorem Tidy.committable?_of_mem_steps (tidy : session.Tidy nextId)
    (held : session.left = some node) (listed : session.document.find? node.chain = some chain)
    (root : node ∈ chain.steps) : ∃ choice, session.document.choice? node = some choice ∧
      session.committable? = .ok (some (chain, choice.link)) := by
  obtain ⟨-, found, known, onLeft⟩ := tidy.held .left node held
  obtain ⟨chain', listed', -, -, asked, here⟩ := Document.exists_owner known
  cases Option.some.inj (listed.symm.trans listed')
  have whole := tidy.intact.chains chain (Document.mem_of_find? listed).1
  have parent : found.parent = none :=
    (whole.parent_eq_none_iff here).2 (Chain.mem_steps_iff.1 root).2
  have alone : session.right = none :=
    (tidy.alone_of_root (show session.slot .left = some node from held) known parent).2 .right
      fun same => nomatch same
  obtain ⟨choice, chose⟩ := Option.isSome_iff_exists.1
    ((tidy.chosen node found known).2 (by rw [onLeft]; exact held))
  refine ⟨choice, (Document.choice?_of_node? known).trans chose, ?_⟩
  simp only [committable?, held, alone, listed, asked, bind, Except.bind]
  rw [Node.isRoot, parent, chose]
  rfl

/-- What can be committed is the link that was chosen for the root of a step. -/
theorem Tidy.exists_mem_steps_of_committable? (tidy : session.Tidy nextId)
    (asked : session.committable? = .ok (some (chain, link))) :
    ∃ node, session.left = some node ∧ session.document.find? node.chain = some chain ∧
      node ∈ chain.steps := by
  obtain ⟨node, found, choice, held, listed, here, parent, -⟩ := exists_of_committable? asked
  obtain ⟨mem, same⟩ := Document.mem_of_find? listed
  have root := ((tidy.intact.chains chain mem).parent_eq_none_iff here).1 parent
  exact ⟨node, held, listed, Chain.mem_steps_iff.2 ⟨same.symm, root⟩⟩

/-! ## What a commit does -/

/-- A commit comes to the document in which the chain has a step more, and nothing is chosen or
selected. -/
theorem Settled.exists_commit_eq (settled : session.Settled nextId)
    (asked : session.committable? = .ok (some (chain, link))) :
    ∃ step, session.commit = .ok step ∧ step.answer = true ∧
      step.session = { document := (session.document.insert (chain.append link)).bare } := by
  obtain ⟨node, found, choice, held, listed, here, parent, -⟩ := exists_of_committable? asked
  obtain ⟨mem, same⟩ := Document.mem_of_find? listed
  have listed' : session.document.find? chain.id = some chain := same ▸ listed
  have intact := settled.intact.insert ((settled.intact.chains chain mem).append link)
  obtain ⟨later, cleared, tidy, -⟩ :=
    (settled.toTidy.extend intact (.of_insert_append listed' link)).exists_clearBoth
  let emptied : Session := { session with document := later, left := none, right := none }
  have after : emptied.release.1.Settled nextId := tidy.settled_release
  refine ⟨{
    answer := true
    session := emptied.release.1
    changes := .chain chain.id :: ((session.right.toList ++ session.left.toList).map .node ++
      emptied.release.2) }, ?_, rfl, ?_⟩
  · simp only [commit, asked, bind, Except.bind, cleared]
    rfl
  · have known : session.document.node? node = some found := by
      rw [Document.node?_eq, listed, Option.bind_some, here]
    have empty : ∀ side, emptied.release.1.slot side = none := fun side =>
      (slot_release emptied side).trans (by cases side <;> rfl)
    have hidden : emptied.release.1.chooser = none :=
      (chooser_release emptied).trans (settled.unasked .left node found held known parent)
    have outline : emptied.release.1.document.outline =
        (session.document.insert (chain.append link)).outline :=
      (congrArg Document.outline (document_release emptied)).trans (outline_of_clearBoth cleared)
    exact (after.eq_bare empty hidden).trans (congrArg (fun document => ({ document } : Session))
      (intact.bare_eq_of_outline_eq after.intact outline))

/-- What a commit of the link does to a session, in which the root of a step of the chain was
selected alone. -/
structure Commits (before : Session) (chain : Chain) (link : Link) (after : Session) : Prop where
  grown : ∃ grown, after.document.find? chain.id = some grown ∧ chain.GrowsBy link grown
  others : ∀ id, id ≠ chain.id → after.document.find? id = before.document.find? id
  left : after.left = none
  right : after.right = none
  active : after.active = none
  chooser : after.chooser = none
  /-- Nothing is chosen for any node. -/
  choices : ∀ node, after.document.choice? node = none
  /-- The nodes that were there are what they were, their choices apart. -/
  nodes : ∀ node found, before.document.node? node = some found →
    after.document.node? node = some found.bare

/-- Nothing is chosen in a chain of which nothing is selected. -/
theorem Tidy.blank_of_ne (tidy : session.Tidy nextId) {id : ChainId}
    (listed : session.document.find? id = some chain)
    (apart : ∀ side selected, session.slot side = some selected → selected.chain ≠ id) :
    chain.Blank := by
  intro found mem
  obtain ⟨index, here⟩ := List.mem_iff_getElem?.1 mem
  have known : session.document.node? ⟨id, index⟩ = some found := by
    rw [Document.node?_eq, listed, Option.bind_some, here]
  rw [← Document.choice?_of_node? known]
  exact tidy.choice?_eq_none fun side held => apart side _ held rfl

theorem Settled.commits (settled : session.Settled nextId)
    (asked : session.committable? = .ok (some (chain, link))) :
    session.Commits chain link
      { document := (session.document.insert (chain.append link)).bare } := by
  obtain ⟨node, -, -, held, listed, -⟩ := exists_of_committable? asked
  have same := (Document.mem_of_find? listed).2
  have outline := Document.outline_insert session.document (chain.append link)
  constructor
  case grown =>
    refine ⟨_, ?_, chain.growsBy_bare_append link⟩
    rw [Document.find?_bare, outline]
    exact if_pos rfl
  case others =>
    intro id other
    rw [Document.find?_bare, outline, if_neg fun here => other here.symm, Document.outline]
    cases listed' : session.document.find? id with
    | none => rfl
    | some chain' =>
        have blank : chain'.Blank := settled.blank_of_ne listed' fun side selected held' here => by
          -- all that is selected belongs to one chain
          have active := (settled.held .left node held).1.symm.trans (settled.held _ _ held').1
          exact other (here.symm.trans ((Option.some.inj active).symm.trans same.symm))
        rw [Option.map_some, blank.bare_eq]
  case left => rfl
  case right => rfl
  case active => rfl
  case chooser => rfl
  case choices => exact Document.choice?_bare _
  case nodes =>
    intro node' found known
    have extended := Document.Extends.of_insert_append (same ▸ listed) link
    rw [Document.node?_bare, extended.kept node' found known, Option.map_some]

/-- A commit is accepted if the root of a step is selected, and only then. -/
theorem Settled.exists_commits (settled : session.Settled nextId) :
    ∃ step, session.commit = .ok step ∧
      (step.answer = true → ∃ node chain, session.left = some node ∧
        session.document.find? node.chain = some chain ∧ node ∈ chain.steps) ∧
      ∀ node chain, session.left = some node →
        session.document.find? node.chain = some chain → node ∈ chain.steps →
        ∃ choice, session.document.choice? node = some choice ∧ step.answer = true ∧
          session.Commits chain choice.link step.session := by
  obtain ⟨answer, asked, -⟩ := settled.exists_committable?
  have asked_of_root : ∀ node chain, session.left = some node →
      session.document.find? node.chain = some chain → node ∈ chain.steps →
      ∃ choice, session.document.choice? node = some choice ∧
        answer = some (chain, choice.link) := by
    intro node chain held listed root
    obtain ⟨choice, chose, asked'⟩ := settled.committable?_of_mem_steps held listed root
    exact ⟨choice, chose, Except.ok.inj (asked.symm.trans asked')⟩
  cases answer with
  | none =>
      refine ⟨session.stay false, ?_, fun accepted => absurd accepted Bool.false_ne_true, ?_⟩
      · rw [commit, asked]
        rfl
      · intro node chain held listed root
        obtain ⟨choice, -, none⟩ := asked_of_root node chain held listed root
        cases none
  | some answer =>
      obtain ⟨chain, link⟩ := answer
      obtain ⟨step, done, accepted, same⟩ := settled.exists_commit_eq asked
      refine ⟨step, done, fun _ => ?_, fun node chain' held listed root => ?_⟩
      · obtain ⟨node, root⟩ := settled.exists_mem_steps_of_committable? asked
        exact ⟨node, chain, root⟩
      · obtain ⟨choice, chose, equal⟩ := asked_of_root node chain' held listed root
        cases equal
        exact ⟨choice, chose, accepted, same ▸ settled.commits asked⟩

end Session

/-! ## All states -/

namespace Workspace

/-- Whatever is done from an empty workspace on, a commit is accepted if the root of a step is
selected on the left, be it the last step or another, and only then.  It lets the chain of the step
grow by the link that was chosen there. -/
theorem exists_run_commits (nextId : ChainId) (operations : List Operation) :
    ∃ workspace outcome, ({ nextId } : Workspace).run operations = .ok workspace ∧
      workspace.perform .commit = .ok outcome ∧
      (outcome.accepted = true ↔ ∃ node chain, workspace.session.left = some node ∧
        workspace.session.document.find? node.chain = some chain ∧ node ∈ chain.steps) ∧
      ∀ node chain, workspace.session.left = some node →
        workspace.session.document.find? node.chain = some chain → node ∈ chain.steps →
        ∃ choice, workspace.session.document.choice? node = some choice ∧
          outcome.workspace = { workspace with session := outcome.workspace.session } ∧
          workspace.session.Commits chain choice.link outcome.workspace.session := by
  obtain ⟨workspace, ran, settled⟩ := (settled_empty nextId).exists_run operations
  obtain ⟨step, done, root_of_answer, commits⟩ := settled.session.exists_commits
  refine ⟨workspace, _, ran, perform_commit done, ⟨root_of_answer, fun root => ?_⟩, ?_⟩
  · obtain ⟨node, chain, held, listed, root⟩ := root
    obtain ⟨-, -, answer, -⟩ := commits node chain held listed root
    exact answer
  · intro node chain held listed root
    obtain ⟨choice, chose, -, effect⟩ := commits node chain held listed root
    exact ⟨choice, chose, rfl, effect⟩

/-- Committing from the first step, after the chain has got a second one, adds a third one. -/
example :
    let a : Expr := .named "a"
    let b : Expr := .named "b"
    let operations : List Operation := [.begin {} (a + b), .choose ⟨0, 0⟩ ⟨.equal, b + a⟩, .commit,
      .choose ⟨0, 0⟩ ⟨.less, a⟩, .commit]
    (run {} operations).map (fun after => after.session.document.chains.map fun chain =>
        (chain.links, chain.current, chain.lastStep)) =
      .ok [([⟨.equal, b + a⟩, ⟨.less, a⟩], a, ⟨0, 6⟩)] :=
  rfl

end Workspace

end Calculation
