import Calculation.Proofs.Run

/-!
Nothing that is asked of a session goes wrong, and what it refuses changes nothing.

Operations can be handed any node: one of a chain outside the document, one that was never there, or
one that cannot be selected now.  They find out before they change anything, since all that could
fail later on is ruled out by the state of the session (`Session.Settled`).

* `Workspace.Safe`: what holds of every operation in a state.
* `Workspace.exists_run_safe`: it holds in every state that can be reached.
-/

namespace Calculation

/-- Whatever is asked of the session of a workspace is answered, and a step that is refused leaves
the session as it was, changes nothing for others, and closes no list. -/
structure Workspace.Safe (workspace : Workspace) : Prop where
  /-- The chain that a node belongs to knows it. -/
  node : ∀ node chain, workspace.session.document.owner? node = some chain →
    ∃ found, chain.node node = .ok found ∧ workspace.session.document.node? node = some found
  admission : ∀ node, ∃ admission, workspace.session.admission node = .ok admission
  effectiveTheory : ∀ node, ∃ theory, workspace.session.effectiveTheory node = .ok theory
  request : ∀ node ticket, ∃ step, workspace.session.request node ticket = .ok step ∧
    (step.answer = none → step = workspace.session.stay none)
  choose : ∀ node link, ∃ step, workspace.session.choose node link = .ok step ∧
    (step.answer = false → step = workspace.session.stay false)
  dismiss : workspace.session.dismiss.answer = false →
    workspace.session.dismiss = workspace.session.stay false
  escape : ∃ step, workspace.session.escape = .ok step ∧
    (step.answer = false → step = workspace.session.stay false)
  commit : ∃ step, workspace.session.commit = .ok step ∧
    (step.answer = false → step = workspace.session.stay false)
  /-- A chain that is not added is handed back, and a chain with its id is there already. -/
  addChain : ∀ chain back, workspace.session.addChain chain = .error back →
    back = chain ∧ ∃ other ∈ workspace.session.document.chains, other.id = chain.id
  adopt : ∀ chain, (workspace.adopt chain).1 = false → (workspace.adopt chain).2 = workspace

namespace Session

variable {session : Session}

/-- Nothing is forgotten if no list is shown. -/
theorem dismiss_eq_stay (refused : session.dismiss.answer = false) :
    session.dismiss = session.stay false := by
  have hidden : session.chooser = none := Option.not_isSome_iff_eq_none.1 fun shown =>
    Bool.false_ne_true (refused.symm.trans shown)
  cases session
  cases hidden
  rfl

/-- Only a chain with an id that is taken is handed back. -/
theorem of_addChain_eq_error {chain back : Chain} (handed : session.addChain chain = .error back) :
    back = chain ∧ ∃ other ∈ session.document.chains, other.id = chain.id := by
  rw [addChain] at handed
  cases listed : session.document.find? chain.id with
  | none =>
      rw [listed] at handed
      cases handed
  | some other =>
      rw [listed] at handed
      exact ⟨(Except.error.inj handed).symm, other, Document.mem_of_find? listed⟩

end Session

namespace Workspace

theorem adopt_eq_self {workspace : Workspace} {chain : Chain}
    (refused : (workspace.adopt chain).1 = false) : (workspace.adopt chain).2 = workspace := by
  unfold adopt at refused ⊢
  split
  · rename_i session added
    rw [added] at refused
    cases refused
  · rfl

theorem Settled.safe {workspace : Workspace} (settled : workspace.Settled) : workspace.Safe where
  node node chain owner := by
    rcases Document.exists_known owner with ⟨found, known⟩
    rcases Document.exists_owner known with ⟨chain', -, owner', -, asked, -⟩
    cases Option.some.inj (owner.symm.trans owner')
    exact ⟨found, asked, known⟩
  admission node := by
    rcases settled.session.exists_admits node with ⟨admission, decided, -⟩
    exact ⟨admission, decided⟩
  effectiveTheory := settled.session.exists_effectiveTheory
  request node ticket := by
    rcases settled.session.exists_request node ticket with ⟨step, done, -, refused⟩
    exact ⟨step, done, refused⟩
  choose node link := by
    rcases settled.session.exists_choose node link with ⟨step, done, -, refused⟩
    exact ⟨step, done, refused⟩
  dismiss := Session.dismiss_eq_stay
  escape := by
    rcases settled.session.exists_escape with ⟨step, done, -, refused⟩
    exact ⟨step, done, refused⟩
  commit := by
    rcases settled.session.exists_commit with ⟨step, done, -, refused⟩
    exact ⟨step, done, refused⟩
  addChain chain back := Session.of_addChain_eq_error
  adopt chain := adopt_eq_self

/-- Whatever is done from an empty workspace on can be done, and leads to a state in which nothing
goes wrong and what is refused changes nothing. -/
theorem exists_run_safe (nextId : ChainId) (operations : List Operation) :
    ∃ workspace, ({ nextId } : Workspace).run operations = .ok workspace ∧ workspace.Safe := by
  rcases (settled_empty nextId).exists_run operations with ⟨workspace, ran, settled⟩
  exact ⟨workspace, ran, settled.safe⟩

end Workspace

end Calculation
