import Calculation.Proofs.Conversation
import Calculation.Proofs.Ledger
import Calculation.Proofs.Reference
import Calculation.Proofs.Rendering

/-!
What nodes are known by in a conversation.

A node is known by the place of its chain in the document and by its own place in the chain.  Chains
only come to a console by being begun, each with a greater id than those before, so a new chain comes
last in the document and takes no other chain's place.  This is why a label that was printed once
can be typed in later.

* `Workspace.Settled.ids_perform`: where an operation puts a new chain.
* `Console.Step.Numbers`: what a line does to the numbers of the chains.
* `Console.exists_run_labels`: what labels are and what they mean after any number of lines.
-/

namespace Calculation

/-! ## Documents -/

namespace Document

variable {nextId id : ChainId} {document : Document} {chain : Chain} {number : Nat}

/-- The place of a chain is where its id is in the list of ids. -/
theorem position?_eq (document : Document) (id : ChainId) :
    document.position? id = document.ids.findIdx? (· = id) := by
  rw [ids, List.findIdx?_map]
  rfl

/-- A chain is found again where it is said to be. -/
theorem Intact.exists_position (intact : document.Intact nextId)
    (listed : document.find? id = some chain) :
    ∃ number, document.position? id = some number ∧ document.chains[number]? = some chain := by
  have mem := (mem_of_find? listed).1
  have same := (mem_of_find? listed).2
  cases place : document.position? id with
  | none =>
      have absent := List.findIdx?_eq_none_iff.1 place chain mem
      rw [same] at absent
      simp at absent
  | some number =>
      obtain ⟨inside, here, -⟩ := List.findIdx?_eq_some_iff_getElem.1 place
      have here : document.chains[number].id = id := by simpa using here
      have listed' := intact.find?_eq_some_iff.2 ⟨List.getElem_mem inside, here⟩
      cases listed.symm.trans listed'
      exact ⟨number, rfl, List.getElem?_eq_getElem inside⟩

theorem Intact.lt_of_mem_ids (intact : document.Intact nextId) (mem : id ∈ document.ids) :
    id < nextId := by
  obtain ⟨chain, listed, rfl⟩ := List.mem_map.1 mem
  exact (intact.chains chain listed).id_lt

end Document

/-! ## Operations -/

namespace Workspace

variable {workspace : Workspace}

/-- A chain that is put into the document with the next id comes last there, and the others stay in
their places. -/
theorem Settled.ids_perform (settled : workspace.Settled) {operation : Operation}
    {outcome : Outcome} (done : workspace.perform operation = .ok outcome) {entered : Option ChainId}
    (enters : Step.entered? ⟨workspace, operation, outcome⟩ = entered)
    (new : ∀ id ∈ entered, id = workspace.nextId) :
    outcome.workspace.session.document.ids =
      workspace.session.document.ids ++ entered.toList := by
  obtain ⟨outcome', done', after⟩ := settled.exists_perform operation
  cases done.symm.trans done'
  have intact := settled.session.intact
  have sorted : (workspace.session.document.ids ++ entered.toList).Pairwise (· < ·) := by
    refine List.pairwise_append.2 ⟨intact.sorted_ids, ?_, ?_⟩
    · cases entered with
      | none => exact .nil
      | some id => exact List.pairwise_singleton ..
    · intro id mem last isLast
      rw [new last (Option.mem_toList.1 isLast)]
      exact intact.lt_of_mem_ids mem
  apply after.session.intact.sorted_ids.eq_of_mem_iff sorted
  intro id
  rw [(settled.enters done).document, enters, List.mem_append]

end Workspace

namespace Console

open Command (Line NodeReference Selects)

variable {console later : Console} {line : Line} {command : Command} {answer : Answer}

/-! ## Chains that are begun -/

/-- The id of the chain that the command begins. -/
def begun? (console : Console) : Command → Option ChainId
  | .begin _ => some console.workspace.nextId
  | _ => none

/-- The id of the chain that the line begins. -/
def Step.begun? (step : Step) : Option ChainId :=
  match Command.parse step.source with
  | .ok command => step.before.begun? command
  | .error _ => none

/-- The ids of the chains that were begun, in this order. -/
def begun (steps : List Step) : List ChainId := steps.filterMap Step.begun?

/-- A command has an operation performed, or none at all.  Only a command that begins a chain puts
one into the document, and this chain is then the current one. -/
structure Works (console : Console) (command : Command) (answer : Answer) : Prop where
  current : answer.console.current = (console.begun? command).or console.current
  workspace : console.begun? command = none ∧ answer.console.workspace = console.workspace ∨
    ∃ operation outcome, console.workspace.perform operation = .ok outcome ∧
      answer.console.workspace = outcome.workspace ∧
      Workspace.Step.entered? ⟨console.workspace, operation, outcome⟩ = console.begun? command

namespace Works

theorem aside (begins : console.begun? command = none)
    (current : answer.console.current = console.current)
    (workspace : answer.console.workspace = console.workspace) : console.Works command answer where
  current := by
    rw [begins]
    exact current
  workspace := .inl ⟨begins, workspace⟩

theorem performed {operation : Workspace.Operation} {outcome : Workspace.Outcome}
    (begins : console.begun? command = none)
    (done : console.workspace.perform operation = .ok outcome)
    (enters : Workspace.Step.entered? ⟨console.workspace, operation, outcome⟩ = none)
    (current : answer.console.current = console.current)
    (workspace : answer.console.workspace = outcome.workspace) : console.Works command answer where
  current := by
    rw [begins]
    exact current
  workspace := .inr ⟨operation, outcome, done, workspace, enters.trans begins.symm⟩

theorem begin (console : Console) (line : Line) (beginning : Expr) :
    console.Works (.begin beginning) (console.begin line beginning) := by
  have done : console.workspace.perform (.begin console.theory beginning) =
      .ok { workspace := (console.workspace.begin console.theory beginning).2 } := rfl
  unfold Console.begin
  dsimp only [Workspace.begin]
  split
  · exact ⟨rfl, .inr ⟨_, _, done, rfl, rfl⟩⟩
  · exact ⟨rfl, .inr ⟨_, _, done, rfl, rfl⟩⟩

theorem showChain (begins : console.begun? command = none) (line : Line) (number : Option Nat)
    (lines : Chain → List String) : console.Works command (console.showChain line number lines) := by
  unfold Console.showChain
  split
  · exact .aside begins rfl rfl
  · exact .aside begins rfl rfl

theorem of_select {reference : NodeReference} (done : console.select line reference = .ok answer) :
    console.Works (.select reference) answer := by
  unfold Console.select at done
  split at done
  · cases done
    exact .aside rfl rfl rfl
  · rename_i node resolved
    obtain ⟨request, asked, done⟩ := exists_of_bind_eq_ok done
    have performed := Workspace.perform_request asked
    dsimp only at done
    split at done
    · cases done
      exact .performed rfl performed rfl rfl rfl
    · cases done
      exact .performed rfl performed rfl rfl rfl
    · cases done
      -- a list without links is closed again
      refine .performed rfl Workspace.perform_dismiss rfl rfl ?_
      rcases Session.of_request asked with rfl | ⟨-, -, links, rfl⟩
      · rfl
      · rfl
    · cases done
      exact .performed rfl performed rfl rfl rfl

theorem of_choose {index : Nat} (done : console.choose line index = .ok answer) :
    console.Works (.choose index) answer := by
  unfold Console.choose at done
  split at done
  · cases done
    exact .aside rfl rfl rfl
  · split at done
    · cases done
      exact .aside rfl rfl rfl
    · obtain ⟨choice, chose, done⟩ := exists_of_bind_eq_ok done
      have performed := Workspace.perform_choose chose
      dsimp only at done
      split at done
      · cases done
        exact .performed rfl performed rfl rfl rfl
      · cases done
        exact .performed rfl performed rfl rfl rfl

theorem of_escape (done : console.escape = .ok answer) : console.Works .escape answer := by
  obtain ⟨step, escaped, done⟩ := exists_of_bind_eq_ok done
  cases done
  exact .performed rfl (Workspace.perform_escape escaped) rfl rfl rfl

theorem of_commit (done : console.commit line = .ok answer) : console.Works .commit answer := by
  obtain ⟨step, committed, done⟩ := exists_of_bind_eq_ok done
  have performed := Workspace.perform_commit committed
  dsimp only at done
  split at done
  · cases done
    exact .performed rfl performed rfl rfl rfl
  · cases done
    exact .performed rfl performed rfl rfl rfl

theorem of_perform (done : console.perform line command = .ok answer) :
    console.Works command answer := by
  cases command with
  | begin beginning =>
      cases done
      exact .begin ..
  | rule rule =>
      cases done
      exact .aside rfl rfl rfl
  | rules =>
      cases done
      exact .aside rfl rfl rfl
  | chain number =>
      cases done
      exact .showChain rfl ..
  | nodes number =>
      cases done
      exact .showChain rfl ..
  | select reference => exact .of_select done
  | choose index => exact .of_choose done
  | dismiss =>
      cases done
      exact .performed rfl Workspace.perform_dismiss rfl rfl rfl
  | escape => exact .of_escape done
  | commit => exact .of_commit done
  | help =>
      cases done
      exact .aside rfl rfl rfl
  | quit =>
      cases done
      exact .aside rfl rfl rfl

theorem withChanges (works : console.Works command answer) (line : Line) :
    console.Works command (answer.withChanges line) := by
  unfold Answer.withChanges
  split
  · exact works
  · dsimp only
    split
    · exact ⟨works.current, works.workspace⟩
    · exact ⟨works.current, works.workspace⟩

theorem ids (works : console.Works command answer) (ready : console.Ready) :
    answer.console.document.ids = console.document.ids ++ (console.begun? command).toList := by
  have new : ∀ id ∈ console.begun? command, id = console.workspace.nextId := by
    intro id begun
    cases command with
    | begin beginning => exact (Option.some.inj begun).symm
    | _ => cases begun
  rcases works.workspace with ⟨none, same⟩ | ⟨operation, outcome, done, same, enters⟩
  · rw [document, session, same, none]
    exact (List.append_nil _).symm
  · rw [document, session, same]
    exact ready.settled.ids_perform done enters new

theorem grown (works : console.Works command answer) (ready : console.Ready) :
    console.document.Grows answer.console.document := by
  rw [document, document, session, session]
  rcases works.workspace with ⟨-, same⟩ | ⟨operation, outcome, done, same, -⟩
  · rw [same]
    exact .refl _
  · rw [same]
    exact ready.settled.grows_perform done

end Works

/-! ## Lines -/

/-- What a line does to the numbers of the chains: the chain that it begins gets the next number, and
the others keep theirs. -/
structure Step.Numbers (step : Step) : Prop where
  ids : step.answer.console.document.ids = step.before.document.ids ++ step.begun?.toList
  current : step.answer.console.current = step.begun?.or step.before.current
  grown : step.before.document.Grows step.answer.console.document

theorem Ready.numbers (ready : console.Ready) {source : String}
    (done : console.execute source = .ok answer) : Step.Numbers ⟨console, source, answer⟩ := by
  unfold execute at done
  cases parsed : Command.parse source with
  | error diagnostic =>
      rw [parsed] at done
      cases done
      have none : Step.begun? ⟨console, source, ⟨.error diagnostic, console⟩⟩ = none := by
        rw [Step.begun?, parsed]
      constructor
      · rw [none]
        exact (List.append_nil _).symm
      · rw [none]
        rfl
      · exact .refl _
  | ok command =>
      rw [parsed] at done
      obtain ⟨answer, performed, done⟩ := exists_of_bind_eq_ok done
      cases done
      have works := (Works.of_perform performed).withChanges (.ofString source)
      have begins : Step.begun? ⟨console, source, answer.withChanges (.ofString source)⟩ =
          console.begun? command := by
        rw [Step.begun?, parsed]
      exact ⟨begins ▸ works.ids ready, begins ▸ works.current, works.grown ready⟩

/-! ## References -/

/-- If a chain is meant, the reference means its node with the index, if it has one. -/
theorem resolve_of_pick? {reference : NodeReference} {chain : Chain}
    (picked : console.pick? reference.chain = some chain) :
    console.resolve reference =
      if reference.index < chain.nodes.length then .ok ⟨chain.id, reference.index⟩
      else .error (.invalidNode reference.text) := by
  have contains : chain.contains (chain.idOf reference.index) =
      decide (reference.index < chain.nodes.length) := by
    rw [Chain.contains, Chain.idOf, beq_self_eq_true, Bool.true_and]
  rw [resolve, picked]
  dsimp only
  rw [contains]
  by_cases inside : reference.index < chain.nodes.length
  · rw [decide_eq_true inside, if_pos rfl, if_pos inside]
    rfl
  · rw [decide_eq_false inside, if_neg Bool.false_ne_true, if_neg inside]

theorem resolve_eq_noChain_iff {reference : NodeReference} :
    console.resolve reference = .error .noChain ↔ console.pick? reference.chain = none := by
  cases picked : console.pick? reference.chain with
  | none => simp [resolve, picked]
  | some chain =>
      rw [resolve_of_pick? picked]
      split
      · simp
      · simp

/-- A chain is what is meant by its number. -/
theorem pick?_chainNumber {nextId id : ChainId} {chain : Chain}
    (intact : console.document.Intact nextId) (listed : console.document.find? id = some chain) :
    console.pick? (some (console.chainNumber id)) = some chain := by
  obtain ⟨number, place, here⟩ := intact.exists_position listed
  rw [chainNumber, place]
  exact here

/-- What is typed for a node is the node. -/
theorem resolve_label {nextId : ChainId} (intact : console.document.Intact nextId) {node : NodeId}
    {found : Node} (known : console.document.node? node = some found) :
    console.resolve ⟨some (console.chainNumber node.chain), node.index⟩ = .ok node := by
  obtain ⟨chain, listed, -, -, -, here⟩ := Document.exists_owner known
  rw [resolve_of_pick? (pick?_chainNumber intact listed),
    if_pos (List.getElem?_eq_some_iff.1 here).1, (Document.mem_of_find? listed).2]

/-- A chain keeps its number if others only come behind it. -/
theorem chainNumber_eq_of_prefix {id : ChainId} (mem : id ∈ console.document.ids)
    (behind : console.document.ids <+: later.document.ids) :
    later.chainNumber id = console.chainNumber id := by
  rw [chainNumber, chainNumber, Document.position?_eq, Document.position?_eq]
  cases place : console.document.ids.findIdx? (· = id) with
  | none =>
      have absent := List.findIdx?_eq_none_iff.1 place id mem
      simp at absent
  | some number => rw [behind.findIdx?_eq_some place]

/-! ## Runs -/

/-- The chains of the document are those that were begun, in this order, and the console remembers
the last of them. -/
structure Registers (steps : List Step) (console : Console) : Prop where
  ids : console.document.ids = begun steps
  current : console.current = (begun steps).getLast?

namespace Registers

variable {steps : List Step}

theorem concat {step : Step} (registers : Registers steps step.before) (numbers : step.Numbers) :
    Registers (steps ++ [step]) step.answer.console := by
  have begun : begun (steps ++ [step]) = begun steps ++ step.begun?.toList := by
    rw [Console.begun, List.filterMap_append, List.filterMap_cons]
    cases step.begun? <;> rfl
  constructor
  · rw [begun, numbers.ids, registers.ids]
  · rw [begun, numbers.current, registers.current, List.getLast?_append]
    cases step.begun? <;> rfl

/-- There is a chain for every id that was given to one. -/
theorem exists_find? (registers : Registers steps console) (ready : console.Ready) {id : ChainId}
    (mem : id ∈ begun steps) : ∃ chain, console.document.find? id = some chain := by
  rw [← registers.ids] at mem
  obtain ⟨chain, listed, same⟩ := List.mem_map.1 mem
  exact ⟨chain, ready.settled.session.intact.find?_eq_some_iff.2 ⟨listed, same⟩⟩

/-- The chain that is worked on, or else the one that was begun last, is meant if no other is. -/
theorem exists_pick? (registers : Registers steps console) (ready : console.Ready) {id : ChainId}
    (meant : console.session.active.or (begun steps).getLast? = some id) :
    ∃ chain, chain.id = id ∧ console.document.find? id = some chain ∧
      console.pick? none = some chain := by
  have listed : ∃ chain, console.document.find? id = some chain := by
    rcases Option.or_eq_some_iff.1 meant with working | ⟨-, last⟩
    · exact ready.settled.session.exists_active working
    · exact registers.exists_find? ready (List.mem_of_getLast? last)
  obtain ⟨chain, listed⟩ := listed
  refine ⟨chain, (Document.mem_of_find? listed).2, listed, ?_⟩
  have either : (console.session.active <|> console.current) = some id := by
    rw [registers.current, ← meant]
    cases console.session.active <;> rfl
  rw [pick?, either]
  exact listed

/-- No chain is meant if none was begun. -/
theorem pick?_eq_none_iff (registers : Registers steps console) (ready : console.Ready) :
    console.pick? none = none ↔ begun steps = [] := by
  constructor
  · intro unmeant
    cases meant : console.session.active.or (begun steps).getLast? with
    | none => exact List.getLast?_eq_none_iff.1 (Option.or_eq_none_iff.1 meant).2
    | some id =>
        obtain ⟨chain, -, -, picked⟩ := registers.exists_pick? ready meant
        cases unmeant.symm.trans picked
  · intro nothing
    cases picked : console.pick? none with
    | none => rfl
    | some chain =>
        have mem : chain.id ∈ console.document.ids := List.mem_map_of_mem (mem_of_pick? picked)
        rw [registers.ids, nothing] at mem
        cases mem

end Registers

/-- What the nodes of a console are known by after the steps of a conversation, and what is meant by
what is typed for a node.  A number that is too great to be read would take more chains or nodes than
there can be. -/
structure Labels (steps : List Step) (console : Console) : Prop where
  /-- The chains have their places in the order in which they were begun. -/
  chains : console.document.ids = begun steps
  /-- Different nodes are known by different labels. -/
  distinct : ∀ node other found found', console.document.node? node = some found →
    console.document.node? other = some found' → console.label node = console.label other →
      node = other
  /-- The label of a node has the number of its chain and its index, which mean the node, and to
  select it is all that a line with the label can ask for. -/
  typed : ∀ node found, console.document.node? node = some found →
    let reference : NodeReference := ⟨some (console.chainNumber node.chain), node.index⟩
    console.label node =
        toString (console.chainNumber node.chain) ++ "." ++ toString node.index ∧
      console.resolve reference = .ok node ∧
      Selects ("select " ++ console.label node) (console.label node) ∧
      ∀ source, Selects source (console.label node) → ∀ command,
        Command.parse source = .ok command ↔ command = .select reference ∧ reference.Readable
  /-- The index of a node alone asks for a node of the chain that is worked on, or else of the one
  that was begun last. -/
  bare : ∀ id, console.session.active.or (begun steps).getLast? = some id →
    ∃ chain, console.document.find? id = some chain ∧ ∀ index,
      console.resolve ⟨none, index⟩ = if index < chain.nodes.length then .ok ⟨id, index⟩
        else .error (.invalidNode (toString index))
  /-- An index that is typed is read. -/
  read : ∀ source index, Selects source (toString index) → ∀ command,
    Command.parse source = .ok command ↔
      command = .select ⟨none, index⟩ ∧ index < Text.numeralBound
  /-- There is no chain to be meant only if none was begun. -/
  noChain : ∀ index, console.resolve ⟨none, index⟩ = .error .noChain ↔ begun steps = []

theorem Registers.labels {steps : List Step} (registers : Registers steps console)
    (ready : console.Ready) : Labels steps console where
  chains := registers.ids
  distinct node other found found' known known' same := by
    have intact := ready.settled.session.intact
    have resolved := resolve_label intact known
    rw [NodeReference.eq_of_text_eq same, resolve_label intact known'] at resolved
    exact (Except.ok.inj resolved).symm
  typed node found known := by
    refine ⟨rfl, resolve_label ready.settled.session.intact known, Command.selects_text _, ?_⟩
    intro source selects command
    exact selects.parse_eq_ok_iff
  bare id meant := by
    obtain ⟨chain, same, listed, picked⟩ := registers.exists_pick? ready meant
    exact ⟨chain, listed, fun index => same ▸ resolve_of_pick? picked⟩
  read source index selects command := by
    have selects : Selects source (NodeReference.text ⟨none, index⟩) := selects
    rw [selects.parse_eq_ok_iff]
    simp [NodeReference.Readable]
  noChain index := resolve_eq_noChain_iff.trans (registers.pick?_eq_none_iff ready)

/-- Whatever a new console is told, nodes can be asked for by what they are known by, and are known
by it as long as the conversation goes on. -/
theorem exists_run_labels (nextId : ChainId) (theory : Theory) (sources more : List String) :
    ∃ steps console later,
      ({ theory, workspace := { nextId } } : Console).trace sources = .ok steps ∧
      ({ theory, workspace := { nextId } } : Console).run sources = .ok console ∧
      console.run more = .ok later ∧ steps.map Step.source = sources ∧ Labels steps console ∧
      ∀ node found, console.document.node? node = some found →
        later.label node = console.label node ∧
        ∃ same, later.document.node? node = some same ∧ same.bare = found.bare := by
  obtain ⟨steps, console, traced, ran, same, ready, remembers, registers⟩ :=
    (Remembers.empty nextId theory).exists_trace (.empty nextId theory) Registers
      (fun _ _ _ _ ready registers done => registers.concat (ready.numbers done))
      ⟨rfl, rfl⟩ sources
  obtain ⟨-, later, -, ranMore, -, -, -, behind, grown⟩ :=
    remembers.exists_trace ready
      (fun _ later => console.document.ids <+: later.document.ids ∧
        console.document.Grows later.document)
      (fun _ _ _ _ ready kept done => by
        have numbers := ready.numbers done
        refine ⟨kept.1.trans ?_, kept.2.trans numbers.grown⟩
        exact ⟨_, numbers.ids.symm⟩)
      ⟨List.prefix_rfl, .refl _⟩ more
  refine ⟨steps, console, later, traced, ran, ranMore, same, registers.labels ready, ?_⟩
  intro node found known
  obtain ⟨chain, listed, -⟩ := Document.exists_owner known
  have mem : node.chain ∈ console.document.ids := by
    rw [← (Document.mem_of_find? listed).2]
    exact List.mem_map_of_mem (Document.mem_of_find? listed).1
  refine ⟨?_, grown.exists_node known⟩
  rw [label, label, chainNumber_eq_of_prefix mem behind]

end Console

end Calculation
