import Calculation.Proofs.Operation
import Calculation.Workspace

/-!
Runs: what is done in a workspace, one thing after the other.

`Workspace.Operation` is all that can be done, with any node, any link and any chain.  A workspace
that was empty in the beginning is `Workspace.Settled` ever after, and no run of operations is
broken off.

* `Workspace.Settled.exists_perform`: the step.
* `Workspace.Settled.exists_run`: the run.
-/

namespace Calculation

namespace Workspace

variable {workspace : Workspace}

/-! ## Operations -/

/-- What can be done in a workspace. -/
inductive Operation where
  | begin (theory : Theory) (beginning : Expr)
  /-- Makes a loose chain. -/
  | start (theory : Theory) (beginning : Expr)
  /-- Makes the loose chain for associativity. -/
  | sample
  | extend (chain : ChainId) (link : Link)
  | copy (chain : ChainId)
  | adopt (chain : ChainId)
  | request (node : NodeId) (ticket : Ticket)
  | choose (node : NodeId) (link : Link)
  | dismiss
  | escape
  | commit

/-- What an operation came to. -/
structure Outcome where
  workspace : Workspace
  /-- Whether the operation was admitted. -/
  accepted : Bool := true
  /-- The suggestions that were asked for. -/
  suggestions : List Link := []
  changes : List Change := []
  /-- The request whose suggestions were closed by the operation. -/
  closed : Option Ticket := none

/-- What an operation of the session came to. -/
def follow (workspace : Workspace) (step : Transition Bool) : Outcome where
  workspace := { workspace with session := step.session }
  accepted := step.answer
  changes := step.changes
  closed := step.closed

/-- Does what is asked for.  What is asked of a chain that is not there, or is not loose although it
has to be, is refused. -/
def perform (workspace : Workspace) : Operation → Except Fault Outcome
  | .begin theory beginning => pure { workspace := (workspace.begin theory beginning).2 }
  | .start theory beginning => pure { workspace := (workspace.start theory beginning).2 }
  | .sample => pure { workspace := (workspace.build .associativity).2 }
  | .extend id link => pure {
      workspace := workspace.extend id link
      accepted := workspace.loose.any (·.id = id) }
  | .copy id =>
    match workspace.chain? id with
    | none => pure { workspace, accepted := false }
    | some chain => pure { workspace := (workspace.copy chain).2 }
  | .adopt id =>
    match workspace.loose.find? (·.id = id) with
    | none => pure { workspace, accepted := false }
    | some chain =>
      let (accepted, after) := workspace.adopt chain
      pure { workspace := after, accepted }
  | .request node ticket => do
    let step ← workspace.session.request node ticket
    pure {
      workspace := { workspace with session := step.session }
      accepted := step.answer.isSome
      suggestions := step.answer.getD []
      changes := step.changes
      closed := step.closed }
  | .choose node link => do pure (workspace.follow (← workspace.session.choose node link))
  | .dismiss => pure (workspace.follow workspace.session.dismiss)
  | .escape => do pure (workspace.follow (← workspace.session.escape))
  | .commit => do pure (workspace.follow (← workspace.session.commit))

/-- Does one thing after the other. -/
def run (workspace : Workspace) (operations : List Operation) : Except Fault Workspace :=
  operations.foldlM (fun workspace operation => Outcome.workspace <$> workspace.perform operation)
    workspace

/-! ## Operations of the session -/

section

variable {step : Transition Bool}

theorem perform_request {node : NodeId} {ticket : Ticket} {step : Transition (Option (List Link))}
    (done : workspace.session.request node ticket = .ok step) :
    workspace.perform (.request node ticket) = .ok {
      workspace := { workspace with session := step.session }
      accepted := step.answer.isSome
      suggestions := step.answer.getD []
      changes := step.changes
      closed := step.closed } := by
  rw [perform, done]
  rfl

theorem perform_choose {node : NodeId} {link : Link}
    (done : workspace.session.choose node link = .ok step) :
    workspace.perform (.choose node link) = .ok (workspace.follow step) := by
  rw [perform, done]
  rfl

theorem perform_dismiss :
    workspace.perform .dismiss = .ok (workspace.follow workspace.session.dismiss) :=
  rfl

theorem perform_escape (done : workspace.session.escape = .ok step) :
    workspace.perform .escape = .ok (workspace.follow step) := by
  rw [perform, done]
  rfl

theorem perform_commit (done : workspace.session.commit = .ok step) :
    workspace.perform .commit = .ok (workspace.follow step) := by
  rw [perform, done]
  rfl

end

/-! ## Settled workspaces -/

/-- A workspace between operations. -/
structure Settled (workspace : Workspace) : Prop where
  session : workspace.session.Settled workspace.nextId
  /-- Loose chains have the right nodes, and nothing is chosen at them. -/
  loose : ∀ chain ∈ workspace.loose, chain.Intact workspace.nextId ∧ chain.Blank

/-- An empty workspace is settled, whichever ids were given to chains elsewhere. -/
theorem settled_empty (nextId : ChainId) : ({ nextId } : Workspace).Settled where
  session := {
    intact := ⟨.nil, fun chain mem => nomatch mem⟩
    held := fun side node held => by cases side <;> cases held
    chosen := fun node found known => nomatch known
    sided := fun node found choice known => nomatch known
    paired := fun side other node node' found found' _ held => by cases side <;> cases held
    unasked := fun side node found held => by cases side <;> cases held
    busy := fun chain active => nomatch active }
  loose chain mem := nomatch mem

namespace Settled

theorem build (settled : workspace.Settled) {make : ChainId → Chain}
    (intact : (make workspace.nextId).Intact (workspace.nextId + 1))
    (blank : (make workspace.nextId).Blank) : (workspace.build make).2.Settled where
  session := settled.session.mono (Nat.le_succ _)
  loose chain mem := by
    rcases List.mem_append.1 mem with old | new
    · rcases settled.loose chain old with ⟨intact, blank⟩
      exact ⟨intact.mono (Nat.le_succ _), blank⟩
    · cases List.mem_singleton.1 new
      exact ⟨intact, blank⟩

theorem start (settled : workspace.Settled) (theory : Theory) (beginning : Expr) :
    (workspace.start theory beginning).2.Settled := by
  have intact : (Chain.start workspace.nextId theory beginning).Intact (workspace.nextId + 1) :=
    .start (Nat.lt_succ_self _) theory beginning
  exact settled.build intact (.start _ theory beginning)

theorem begin (settled : workspace.Settled) (theory : Theory) (beginning : Expr) :
    (workspace.begin theory beginning).2.Settled where
  session := settled.session.extend
    ((settled.session.intact.mono (Nat.le_succ _)).insert
      (.start (Nat.lt_succ_self _) theory beginning))
    (.of_insert_new settled.session.intact.find?_eq_none (.start _ theory beginning))
  loose chain mem := by
    rcases settled.loose chain mem with ⟨intact, blank⟩
    exact ⟨intact.mono (Nat.le_succ _), blank⟩

theorem extend (settled : workspace.Settled) (id : ChainId) (link : Link) :
    (workspace.extend id link).Settled where
  session := settled.session
  loose chain mem := by
    rcases List.mem_map.1 mem with ⟨before, old, rfl⟩
    rcases settled.loose before old with ⟨intact, blank⟩
    split
    · exact ⟨intact.append link, blank.append link⟩
    · exact ⟨intact, blank⟩

theorem intact_of_chain? (settled : workspace.Settled) {id : ChainId} {chain : Chain}
    (found : workspace.chain? id = some chain) : chain.Intact workspace.nextId := by
  rw [chain?] at found
  cases listed : workspace.session.document.find? id with
  | some chain' =>
      rw [listed] at found
      cases found
      exact settled.session.intact.chains chain (Document.mem_of_find? listed).1
  | none =>
      rw [listed] at found
      exact (settled.loose chain (List.mem_of_find?_eq_some found)).1

theorem adopt (settled : workspace.Settled) {chain : Chain} (loose : chain ∈ workspace.loose) :
    (workspace.adopt chain).2.Settled := by
  rcases settled.loose chain loose with ⟨intact, blank⟩
  rw [Workspace.adopt, Session.addChain]
  cases listed : workspace.session.document.find? chain.id with
  | some chain' => exact settled
  | none =>
      refine ⟨settled.session.extend (settled.session.intact.insert intact)
        (.of_insert_new listed blank), fun other mem => ?_⟩
      exact settled.loose other (List.mem_filter.1 mem).1

/-- What a session does leaves the workspace settled if it leaves the session settled. -/
theorem withSession (settled : workspace.Settled) {session : Session}
    (after : session.Settled workspace.nextId) : ({ workspace with session } : Workspace).Settled :=
  ⟨after, settled.loose⟩

/-- Whatever is done in a settled workspace can be done, and leaves it settled. -/
theorem exists_perform (settled : workspace.Settled) (operation : Operation) :
    ∃ outcome, workspace.perform operation = .ok outcome ∧ outcome.workspace.Settled := by
  cases operation with
  | begin theory beginning => exact ⟨_, rfl, settled.begin theory beginning⟩
  | start theory beginning => exact ⟨_, rfl, settled.start theory beginning⟩
  | sample =>
      exact ⟨_, rfl, settled.build ((Chain.Intact.start (Nat.lt_succ_self _) _ _).append _)
        ((Chain.Blank.start _ _ _).append _)⟩
  | extend chain link => exact ⟨_, rfl, settled.extend chain link⟩
  | copy id =>
      rw [perform]
      cases known : workspace.chain? id with
      | none => exact ⟨_, rfl, settled⟩
      | some chain =>
          have intact := (settled.intact_of_chain? known).mono (Nat.le_succ workspace.nextId)
          exact ⟨_, rfl, settled.build (intact.copy (Nat.lt_succ_self _)) (.copy chain _)⟩
  | adopt id =>
      rw [perform]
      cases known : workspace.loose.find? (·.id = id) with
      | none => exact ⟨_, rfl, settled⟩
      | some chain => exact ⟨_, rfl, settled.adopt (List.mem_of_find?_eq_some known)⟩
  | request node ticket =>
      rcases settled.session.exists_request node ticket with ⟨step, done, after, -⟩
      exact ⟨_, perform_request done, settled.withSession after⟩
  | choose node link =>
      rcases settled.session.exists_choose node link with ⟨step, done, after, -⟩
      exact ⟨_, perform_choose done, settled.withSession after⟩
  | dismiss =>
      exact ⟨_, perform_dismiss, settled.withSession
        (settled.session.withChooser none fun _ _ _ _ _ _ => rfl)⟩
  | escape =>
      rcases settled.session.exists_escape with ⟨step, done, after, -⟩
      exact ⟨_, perform_escape done, settled.withSession after⟩
  | commit =>
      rcases settled.session.exists_commit with ⟨step, done, after, -⟩
      exact ⟨_, perform_commit done, settled.withSession after⟩

theorem exists_run (settled : workspace.Settled) (operations : List Operation) :
    ∃ after, workspace.run operations = .ok after ∧ after.Settled := by
  induction operations generalizing workspace with
  | nil => exact ⟨workspace, rfl, settled⟩
  | cons operation rest ih =>
      rcases settled.exists_perform operation with ⟨outcome, done, between⟩
      rcases ih between with ⟨after, ran, last⟩
      refine ⟨after, ?_, last⟩
      rw [run, List.foldlM_cons, done]
      exact ran

end Settled

end Workspace

end Calculation
