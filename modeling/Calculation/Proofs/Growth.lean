import Calculation.Proofs.Chooser

/-!
Documents only grow.

The choices at its nodes are all that a session ever changes in a chain.  Without them, a document
is a table of chains (`Document.outline`) that most operations leave alone: a commit adds a step at
the end of one chain, and a new chain comes under an id that is free.  So the chains of a document
are the beginnings of what they are later on (`Chain.Grows`), and an index of a node, once given,
means the same node for ever.

* `Workspace.Settled.grows_perform`: the step.
* `Workspace.exists_run_append_only`: any two states of a run, one after the other.
-/

namespace Calculation

/-! ## Chains -/

namespace Chain

variable {chain before later : Chain}

/-- The chain without its choices. -/
def bare (chain : Chain) : Chain := { chain with nodes := chain.nodes.map Node.bare }

/-- A chain that another has come to be: steps were added at its end, and apart from their choices
the nodes that there were have stayed what and where they were. -/
structure Grows (before later : Chain) : Prop where
  id : later.id = before.id
  beginning : later.beginning = before.beginning
  theory : later.theory = before.theory
  links : before.links <+: later.links
  nodes : before.nodes.map Node.bare <+: later.nodes.map Node.bare
  roots : before.roots <+: later.roots

namespace Grows

theorem of_bare_eq (same : later.bare = before.bare) : before.Grows later where
  id := (congrArg Chain.id same :)
  beginning := (congrArg Chain.beginning same :)
  theory := (congrArg Chain.theory same :)
  links := by
    have links : later.links = before.links := (congrArg Chain.links same :)
    exact links ▸ List.prefix_refl _
  nodes := by
    have nodes : later.nodes.map Node.bare = before.nodes.map Node.bare :=
      (congrArg Chain.nodes same :)
    exact nodes ▸ List.prefix_refl _
  roots := by
    have roots : later.roots = before.roots := (congrArg Chain.roots same :)
    exact roots ▸ List.prefix_refl _

theorem trans {last : Chain} (first : before.Grows later) (second : later.Grows last) :
    before.Grows last where
  id := second.id.trans first.id
  beginning := second.beginning.trans first.beginning
  theory := second.theory.trans first.theory
  links := first.links.trans second.links
  nodes := first.nodes.trans second.nodes
  roots := first.roots.trans second.roots

theorem append (chain : Chain) (link : Link) : chain.Grows (chain.append link) where
  id := rfl
  beginning := rfl
  theory := rfl
  links := List.prefix_append _ _
  nodes := by
    rw [Chain.append, List.map_append]
    exact List.prefix_append _ _
  roots := List.prefix_append _ _

/-- A node that a chain has stays under its index, and only its choice can be another. -/
theorem exists_node (grows : before.Grows later) {index : Nat} {found : Node}
    (here : before.nodes[index]? = some found) :
    ∃ same, later.nodes[index]? = some same ∧ same.bare = found.bare := by
  have bare : (before.nodes.map Node.bare)[index]? = some found.bare := by
    rw [List.getElem?_map, here, Option.map_some]
  obtain ⟨rest, whole⟩ := grows.nodes
  have inside := (List.getElem?_eq_some_iff.1 bare).1
  have there : (later.nodes.map Node.bare)[index]? = some found.bare := by
    rw [← whole, List.getElem?_append_left inside, bare]
  rw [List.getElem?_map] at there
  exact Option.map_eq_some_iff.1 there

end Grows

/-- A chain that is annotated differs in choices only. -/
theorem bare_of_annotate {node : NodeId} {choice : Option Choice}
    (done : chain.annotate node choice = .ok later) : later.bare = chain.bare := by
  unfold annotate at done
  split at done
  · cases done
    exact congrArg (fun nodes => { chain with nodes }) (Node.map_bare_modify ..)
  · cases done

end Chain

/-! ## Documents -/

namespace Document

variable {document before later : Document} {chain : Chain} {id : ChainId}

/-- The chains of the document by their ids, without their choices. -/
def outline (document : Document) (id : ChainId) : Option Chain :=
  (document.find? id).map Chain.bare

theorem outline_insert (document : Document) (chain : Chain) (id : ChainId) :
    (document.insert chain).outline id =
      if chain.id = id then some chain.bare else document.outline id := by
  rw [outline, find?_insert]
  split <;> rfl

/-- Choosing and taking back do not change the outline of a document. -/
theorem outline_of_annotate {node : NodeId} {choice : Option Choice}
    (done : document.annotate node choice = .ok later) : later.outline = document.outline := by
  unfold annotate at done
  split at done
  · cases done
    rfl
  · rename_i chain listed
    obtain ⟨annotated, step, inserted⟩ := exists_of_bind_eq_ok done
    cases inserted
    have bare := Chain.bare_of_annotate step
    have same : annotated.id = node.chain :=
      (congrArg Chain.id bare).trans (mem_of_find? listed).2
    funext id
    rw [outline_insert, bare, same]
    split
    · rename_i here
      rw [outline, ← here, listed]
      rfl
    · rfl

theorem exists_of_outline_eq (same : later.outline id = before.outline id)
    (listed : before.find? id = some chain) :
    ∃ kept, later.find? id = some kept ∧ kept.bare = chain.bare := by
  rw [outline, outline, listed] at same
  exact Option.map_eq_some_iff.1 same

/-- A document in which there is all that was in another, and maybe more. -/
def Grows (before later : Document) : Prop :=
  ∀ id chain, before.find? id = some chain →
    ∃ grown, later.find? id = some grown ∧ chain.Grows grown

namespace Grows

theorem of_outline_eq (same : later.outline = before.outline) : before.Grows later := by
  intro id chain listed
  obtain ⟨kept, listed', bare⟩ := exists_of_outline_eq (congrFun same id) listed
  exact ⟨kept, listed', .of_bare_eq bare⟩

theorem refl (document : Document) : document.Grows document := .of_outline_eq rfl

theorem trans {last : Document} (first : before.Grows later) (second : later.Grows last) :
    before.Grows last := by
  intro id chain listed
  obtain ⟨between, listed', grows⟩ := first id chain listed
  obtain ⟨grown, listed'', grows'⟩ := second id between listed'
  exact ⟨grown, listed'', grows.trans grows'⟩

theorem of_insert_new (new : document.find? chain.id = none) :
    document.Grows (document.insert chain) := by
  intro id other listed
  rw [find?_insert, if_neg]
  · exact ⟨other, listed, .of_bare_eq rfl⟩
  · rintro rfl
    cases new.symm.trans listed

theorem of_insert_append (listed : document.find? chain.id = some chain) (link : Link) :
    document.Grows (document.insert (chain.append link)) := by
  intro id other listed'
  rw [find?_insert]
  split
  · rename_i same
    have same : chain.id = id := same
    subst same
    cases listed.symm.trans listed'
    exact ⟨_, rfl, .append chain link⟩
  · exact ⟨other, listed', .of_bare_eq rfl⟩

/-- A node of the document stays what it is, its choice apart. -/
theorem exists_node (grows : before.Grows later) {node : NodeId} {found : Node}
    (known : before.node? node = some found) :
    ∃ same, later.node? node = some same ∧ same.bare = found.bare := by
  rw [node?_eq] at known ⊢
  obtain ⟨chain, listed, here⟩ := Option.bind_eq_some_iff.1 known
  obtain ⟨grown, listed', grows⟩ := grows _ chain listed
  rw [listed', Option.bind_some]
  exact grows.exists_node here

end Grows

end Document

/-! ## Sessions -/

namespace Session

variable {nextId : ChainId} {session : Session} {node : NodeId}

theorem outline_of_clear {side : Side} {after : Session × List Change}
    (done : session.clear side = .ok after) :
    after.1.document.outline = session.document.outline := by
  rcases of_clear done with ⟨-, rfl⟩ | ⟨node, later, -, annotated, rfl⟩
  · rfl
  · exact Document.outline_of_annotate annotated

theorem outline_of_clearBoth {after : Session × List Change}
    (done : session.clearBoth = .ok after) :
    after.1.document.outline = session.document.outline := by
  obtain ⟨middle, last, clearRight, clearLeft, rfl⟩ := of_clearBoth done
  exact (outline_of_clear clearLeft).trans (outline_of_clear clearRight)

theorem outline_of_place {link : Link} {step : Transition Bool}
    (done : session.place node link = .ok step) :
    step.session.document.outline = session.document.outline := by
  rcases of_place done with rfl | ⟨chain, found, later, -, -, annotated, rfl⟩
  · rfl
  · exact Document.outline_of_annotate annotated

theorem outline_of_choose {link : Link} {step : Transition Bool}
    (done : session.choose node link = .ok step) :
    step.session.document.outline = session.document.outline := by
  rcases of_choose done with rfl |
    ⟨admission, active, ready, cleared, placed, -, -, activated, emptied, inserted, rfl⟩
  · rfl
  · have emptied : ready.document.outline = active.document.outline := by
      rcases emptied with ⟨-, emptied⟩ | ⟨-, rfl, -⟩
      · exact (outline_of_clearBoth emptied :)
      · rfl
    calc placed.session.document.outline
      _ = ready.document.outline := (outline_of_place inserted :)
      _ = active.document.outline := emptied
      _ = session.document.outline := by rw [document_of_activate activated]

theorem outline_of_escape {step : Transition Bool} (done : session.escape = .ok step) :
    step.session.document.outline = session.document.outline := by
  rcases of_escape done with ⟨ticket, -, rfl⟩ | ⟨-, rfl | ⟨side, cleared, emptied, rfl⟩⟩
  · rfl
  · rfl
  · exact (congrArg Document.outline (document_release cleared.1)).trans (outline_of_clear emptied)

/-- A commit adds one link to a chain of the document, and that is all. -/
theorem Tidy.outline_of_commit (tidy : session.Tidy nextId) {step : Transition Bool}
    (done : session.commit = .ok step) : step = session.stay false ∨
      ∃ chain link, session.committable? = .ok (some (chain, link)) ∧
        session.document.find? chain.id = some chain ∧
        step.session.document.outline =
          (session.document.insert (chain.append link)).outline := by
  rcases of_commit done with rfl | ⟨chain, link, cleared, asked, emptied, rfl⟩
  · exact .inl rfl
  · obtain ⟨answer, asked', listed⟩ := tidy.exists_committable?
    cases asked.symm.trans asked'
    refine .inr ⟨chain, link, asked, listed chain link rfl, ?_⟩
    exact (congrArg Document.outline (document_release cleared.1)).trans
      (outline_of_clearBoth emptied :)

end Session

/-! ## Runs -/

namespace Workspace

variable {workspace : Workspace}

/-- Whatever is done, there is all that was there before. -/
theorem Settled.grows_perform (settled : workspace.Settled) {operation : Operation}
    {outcome : Outcome} (done : workspace.perform operation = .ok outcome) :
    workspace.session.document.Grows outcome.workspace.session.document := by
  cases settled.course done with
  | begun theory beginning new => exact .of_insert_new new
  | adopted chain new blank => exact .of_insert_new new
  | aside aside session changes closed => exact session ▸ .refl _
  | request node ticket step asked =>
      rcases Session.of_request asked with rfl | ⟨-, -, links, rfl⟩
      · exact .refl _
      · exact .refl _
  | choose node link step chose => exact .of_outline_eq (Session.outline_of_choose chose)
  | dismiss => exact .refl _
  | escape step escaped => exact .of_outline_eq (Session.outline_of_escape escaped)
  | commit step committed =>
      rcases settled.session.outline_of_commit committed with
        rfl | ⟨chain, link, -, listed, outline⟩
      · exact .refl _
      · exact (Document.Grows.of_insert_append listed link).trans (.of_outline_eq outline)

/-- What was in a document is in it after every run. -/
theorem Settled.exists_run_grows (settled : workspace.Settled) (operations : List Operation) :
    ∃ later, workspace.run operations = .ok later ∧ later.Settled ∧
      workspace.session.document.Grows later.session.document := by
  obtain ⟨-, later, -, ran, -, last, grows⟩ := settled.exists_trace
    (fun _ later => workspace.session.document.Grows later.session.document)
    (fun _ _ _ _ settled grown done => grown.trans (settled.grows_perform done))
    [] (.refl _) operations
  exact ⟨later, ran, last, grows⟩

/-- Of any two states of a run, the later one has every chain of the earlier one, under its id and
with all its links and nodes.  Only choices can be others, and only steps be added. -/
theorem exists_run_append_only (nextId : ChainId) (first rest : List Operation) :
    ∃ before later, ({ nextId } : Workspace).run first = .ok before ∧
      before.run rest = .ok later ∧ ({ nextId } : Workspace).run (first ++ rest) = .ok later ∧
      (∀ chain ∈ before.session.document.chains,
        ∃ grown, later.session.document.find? chain.id = some grown ∧ chain.Grows grown) ∧
      ∀ node found, before.session.document.node? node = some found →
        ∃ same, later.session.document.node? node = some same ∧
          same = { found with choice := same.choice } := by
  obtain ⟨before, ran, settled⟩ := (settled_empty nextId).exists_run first
  obtain ⟨later, went, -, grows⟩ := settled.exists_run_grows rest
  refine ⟨before, later, ran, went, ?_, fun chain mem => ?_, fun node found known => ?_⟩
  · rw [run, List.foldlM_append]
    exact (congrArg (· >>= _) ran).trans went
  · exact grows chain.id chain (settled.session.intact.find?_eq_some_iff.2 ⟨mem, rfl⟩)
  · obtain ⟨same, known', bare⟩ := grows.exists_node known
    refine ⟨same, known', ?_⟩
    cases same
    cases found
    cases bare
    rfl

end Workspace

end Calculation
