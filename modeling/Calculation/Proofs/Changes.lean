import Calculation.Proofs.Chooser
import Calculation.Proofs.Growth
import Calculation.Proofs.Layout

/-!
What a session reports as changed is what has changed.

Every operation lists the changes that it makes.  Emptying slots takes choices back and a slot is
filled with a node that was in neither, so no node is listed twice, and none whose choice is what it
was (`Document.Marks`).  A chain is listed for a link that is added to it, and when the session lets
go of it (`Session.Reports`).

So whoever reads the links that a chain comes into the document with, and from then on only what is
listed, knows all choices and all links (`View`).  The first reading cannot be spared: there is no
change that says that a chain was added.

* `Workspace.Settled.reported`: the step.
* `Workspace.exists_run_reports`: every operation, in every state that can be reached.
-/

namespace Calculation

/-! ## Choices in a document -/

namespace Document

variable {nextId : ChainId} {document before later : Document} {node : NodeId} {found : Node}
  {changes : List Change}

/-- The choice at a node, if the node is in the document and something is chosen for it. -/
def choice? (document : Document) (node : NodeId) : Option Choice :=
  (document.node? node).bind Node.choice

theorem choice?_of_node? (known : document.node? node = some found) :
    document.choice? node = found.choice := by
  rw [choice?, known, Option.bind_some]

/-- New nodes come without choices. -/
theorem Extends.choice?_eq (grown : document.Extends later) (node : NodeId) :
    later.choice? node = document.choice? node := by
  cases known : document.node? node with
  | some found => rw [choice?, choice?, grown.kept node found known, known]
  | none =>
      rw [choice?, choice?, known, Option.bind_none]
      cases came : later.node? node with
      | none => rfl
      | some found =>
          rcases grown.unchosen node found came with old | unchosen
          · cases known.symm.trans old
          · exact unchosen

/-- Another choice at a node is another choice at this node only. -/
theorem Intact.choice?_of_annotate (intact : document.Intact nextId)
    (known : document.node? node = some found) {choice : Option Choice}
    (done : document.annotate node choice = .ok later) (other : NodeId) :
    later.choice? other = if other = node then choice else document.choice? other := by
  obtain ⟨later', done', -, changed⟩ := intact.exists_annotate known choice
  cases done.symm.trans done'
  rw [choice?, changed]
  split <;> rfl

/-- The changes list the nodes that have got another choice or lost theirs, each of them once, and
no chains. -/
structure Marks (before later : Document) (changes : List Change) : Prop where
  nodes : ∀ node, changes.count (.node node) =
    if later.choice? node = before.choice? node then 0 else 1
  chains : ∀ id, changes.count (.chain id) = 0

namespace Marks

theorem of_choice?_eq (same : ∀ node, later.choice? node = before.choice? node) :
    before.Marks later [] where
  nodes node := by rw [if_pos (same node), List.count_nil]
  chains _ := List.count_nil

theorem of_choice?_ne {choice : Option Choice} (different : document.choice? node ≠ choice)
    (changed : ∀ other,
      later.choice? other = if other = node then choice else document.choice? other) :
    document.Marks later [.node node] where
  nodes other := by
    rw [List.count_singleton, changed]
    by_cases same : other = node
    · subst same
      rw [if_pos rfl, if_neg different.symm, beq_self_eq_true, if_pos rfl]
    · rw [if_neg same, if_pos rfl, if_neg]
      simp only [beq_iff_eq, Change.node.injEq]
      exact fun equal => same equal.symm
  chains id := rfl

/-- Changes that come one after the other are changes together, unless one takes another back. -/
theorem append {last : Document} {more : List Change} (first : before.Marks later changes)
    (second : later.Marks last more)
    (apart : ∀ node, later.choice? node = before.choice? node ∨
      last.choice? node = later.choice? node) :
    before.Marks last (changes ++ more) where
  nodes node := by
    rw [List.count_append, first.nodes, second.nodes]
    rcases apart node with same | same
    · rw [if_pos same, Nat.zero_add, same]
    · rw [if_pos same, Nat.add_zero, same]
  chains id := by rw [List.count_append, first.chains, second.chains]

end Marks

end Document

/-! ## Parts of operations -/

namespace Session

variable {nextId : ChainId} {session : Session} {node : NodeId} {found : Node}

namespace Tidy

/-- Nothing is chosen for a node that is not selected. -/
theorem choice?_eq_none (tidy : session.Tidy nextId)
    (free : ∀ side, session.slot side ≠ some node) : session.document.choice? node = none := by
  cases known : session.document.node? node with
  | none => rw [Document.choice?, known, Option.bind_none]
  | some found =>
      rw [Document.choice?_of_node? known]
      exact Option.not_isSome_iff_eq_none.1 fun chose =>
        free found.side ((tidy.chosen node found known).1 chose)

/-- What was not a choice is no choice once it is taken back. -/
theorem marks_clear (tidy : session.Tidy nextId) {side : Side} {after : Session × List Change}
    (done : session.clear side = .ok after) :
    after.1.Tidy nextId ∧ after.1.active = session.active ∧
      session.document.Marks after.1.document after.2 ∧
      ∀ node, after.1.document.choice? node = session.document.choice? node ∨
        after.1.document.choice? node = none := by
  obtain ⟨later', done', tidyAfter, -⟩ := tidy.exists_clear side
  cases done.symm.trans done'
  refine ⟨tidyAfter, active_setSlot .., ?_⟩
  rcases of_clear done with ⟨empty, same⟩ | ⟨node, later, held, annotated, same⟩
  · rw [same]
    exact ⟨.of_choice?_eq fun _ => rfl, fun _ => .inl rfl⟩
  · obtain ⟨-, found, known, rfl⟩ := tidy.held _ node held
    have changed := tidy.intact.choice?_of_annotate known annotated
    rw [same]
    refine ⟨.of_choice?_ne ?_ changed, fun other => ?_⟩
    · rw [Document.choice?_of_node? known]
      exact Option.isSome_iff_ne_none.1 ((tidy.chosen node found known).2 held)
    · rw [changed]
      split
      · exact .inr rfl
      · exact .inl rfl

theorem marks_clearBoth (tidy : session.Tidy nextId) {after : Session × List Change}
    (done : session.clearBoth = .ok after) :
    after.1.Tidy nextId ∧ after.1.active = session.active ∧
      session.document.Marks after.1.document after.2 ∧
      ∀ node, after.1.document.choice? node = session.document.choice? node ∨
        after.1.document.choice? node = none := by
  obtain ⟨middle, last, clearRight, clearLeft, rfl⟩ := of_clearBoth done
  obtain ⟨tidyMiddle, active, marks, taken⟩ := tidy.marks_clear clearRight
  obtain ⟨tidyLast, active', marks', taken'⟩ := tidyMiddle.marks_clear clearLeft
  refine ⟨tidyLast, active'.trans active, marks.append marks' fun node => ?_, fun node => ?_⟩
  · -- a choice that was taken back cannot be taken back again
    rcases taken node with kept | none
    · exact .inl kept
    · rcases taken' node with kept' | none'
      · exact .inr kept'
      · exact .inr (none'.trans none.symm)
  · rcases taken' node with kept' | none'
    · rw [kept']
      exact taken node
    · exact .inr none'

theorem of_activate (tidy : session.Tidy nextId) {after : Session}
    (done : session.activate node = .ok after) : after.Tidy nextId := by
  rcases Session.of_activate done with ⟨idle, rfl⟩ | ⟨-, rfl⟩
  · refine tidy.withActive (fun side => ?_) _
    cases held : session.slot side with
    | none => rfl
    | some other => cases idle.symm.trans (tidy.held side other held).1
  · exact tidy

/-- Nodes that are selected are not admitted. -/
theorem slot_ne_of_admitted (tidy : session.Tidy nextId) {admission : Admission}
    (decided : session.admission node = .ok admission) (admitted : admission ≠ .refused)
    (side : Side) : session.slot side ≠ some node := by
  intro held
  obtain ⟨admission', decided', admits⟩ := tidy.exists_admits node
  cases decided.symm.trans decided'
  cases admits with
  | refused => exact admitted rfl
  | alone known empty => cases (empty side).symm.trans held
  | @beside found before selected side' known held' alone was different chain root parent =>
      by_cases same : side = side'
      · subst same
        exact different (Option.some.inj (held'.symm.trans held))
      · cases (alone side same).symm.trans held
  | @above found before selected side' known held' was chain root parent =>
      -- the node would be an operand of itself
      have own : found.parent = some node.index := by
        by_cases same : side' = side
        · subst same
          cases Option.some.inj (held'.symm.trans held)
          cases Option.some.inj (was.symm.trans known)
          exact parent
        · obtain ⟨shared, -⟩ :=
            tidy.paired side' side selected node before found same held' held was known
          exact shared.symm.trans parent
      obtain ⟨owner, listed, -, -, -, here⟩ := Document.exists_owner known
      have intact := tidy.intact.chains owner (Document.mem_of_find? listed).1
      obtain ⟨operation, position, there, stands, -⟩ := intact.exists_operation here own
      exact Nat.lt_irrefl _ (intact.exists_operand there stands).1

/-- A slot is filled with a node that had no choice. -/
theorem marks_place (tidy : session.Tidy nextId) {link : Link} {step : Transition Bool}
    (free : session.document.choice? node = none) (done : session.place node link = .ok step) :
    step.session.active = session.active ∧
      session.document.Marks step.session.document step.changes ∧
      ∀ other ≠ node, step.session.document.choice? other = session.document.choice? other := by
  rcases of_place done with rfl | ⟨chain, found, later, listed, known, annotated, rfl⟩
  · exact ⟨rfl, .of_choice?_eq fun _ => rfl, fun _ _ => rfl⟩
  · have known : session.document.node? node = some found := by
      rw [Document.node?_eq, listed]
      exact Chain.getElem?_of_node (Document.mem_of_find? listed).2 known
    have changed := tidy.intact.choice?_of_annotate known annotated
    refine ⟨active_setSlot .., .of_choice?_ne ?_ changed, fun other different => ?_⟩
    · rw [free]
      exact fun none => nomatch none
    · exact (changed other).trans (if_neg different)

theorem marks_choose (tidy : session.Tidy nextId) {link : Link} {step : Transition Bool}
    (done : session.choose node link = .ok step) :
    session.document.Marks step.session.document step.changes ∧
      ∀ id, session.active = some id → step.session.active = some id := by
  rcases of_choose done with rfl | ⟨admission, active, ready, cleared, placed, decided, admitted,
    activated, emptied, inserted, rfl⟩
  · exact ⟨.of_choice?_eq fun _ => rfl, fun _ working => working⟩
  · have before : active.document = session.document := document_of_activate activated
    have free : session.document.choice? node = none :=
      tidy.choice?_eq_none (tidy.slot_ne_of_admitted decided admitted)
    obtain ⟨tidyReady, working, marks, taken⟩ : ready.Tidy nextId ∧ ready.active = active.active ∧
        session.document.Marks ready.document cleared ∧
        ∀ node, ready.document.choice? node = session.document.choice? node ∨
          ready.document.choice? node = none := by
      rcases emptied with ⟨-, emptied⟩ | ⟨-, rfl, rfl⟩
      · rw [← before]
        exact (tidy.of_activate activated).marks_clearBoth emptied
      · rw [← before]
        exact ⟨tidy.of_activate activated, rfl, .of_choice?_eq fun _ => rfl, fun _ => .inl rfl⟩
    have free' : ready.document.choice? node = none :=
      (taken node).elim (fun kept => kept.trans free) id
    obtain ⟨working', marks', kept⟩ :=
      (tidyReady.withChooser none fun _ _ _ _ _ _ => rfl).marks_place free' inserted
    refine ⟨marks.append marks' fun other => ?_, fun id busy => ?_⟩
    · by_cases same : other = node
      · rw [same]
        exact .inl (free'.trans free.symm)
      · exact .inr (kept other same)
    · have busy : active.active = some id := by
        rcases Session.of_activate activated with ⟨idle, -⟩ | ⟨-, rfl⟩
        · cases idle.symm.trans busy
        · exact busy
      exact working'.trans (working.trans busy)

end Tidy

/-! ## Operations -/

/-- The changes are those from one session to another: a node is listed if its choice is another,
and a chain once for each link that was added to it, and once if the session has let go of it. -/
structure Reports (before after : Session) (changes : List Change) : Prop where
  nodes : ∀ node, changes.count (.node node) =
    if after.document.choice? node = before.document.choice? node then 0 else 1
  chains : ∀ id chain, before.document.find? id = some chain → ∃ grown added,
    after.document.find? id = some grown ∧ grown.links = chain.links ++ added ∧
      changes.count (.chain id) =
        added.length + if before.active = some id ∧ after.active = none then 1 else 0
  /-- A chain that comes into the document is not listed. -/
  new : ∀ id, before.document.find? id = none → changes.count (.chain id) = 0

namespace Reports

variable {before after : Session} {changes : List Change}

/-- Changes of choices only. -/
theorem of_marks (marks : before.document.Marks after.document changes)
    (same : after.document.outline = before.document.outline)
    (working : ∀ id, before.active = some id → after.active = some id) :
    before.Reports after changes where
  nodes := marks.nodes
  chains id chain listed := by
    obtain ⟨kept, listed', bare⟩ := Document.exists_of_outline_eq (congrFun same id) listed
    refine ⟨kept, [], listed', ?_, ?_⟩
    · rw [List.append_nil]
      exact (congrArg Chain.links bare :)
    · rw [marks.chains, if_neg]
      · rfl
      · rintro ⟨busy, idle⟩
        cases (working id busy).symm.trans idle
  new id _ := marks.chains id

/-- No change of a document is one for the session as long as it works on the same chain. -/
theorem of_document_eq (same : after.document = before.document)
    (working : after.active = before.active) : before.Reports after [] :=
  .of_marks (.of_choice?_eq fun _ => by rw [same]) (by rw [same])
    fun _ busy => working.trans busy

/-- A chain that is added is no change of those that are there. -/
theorem of_insert_new {chain : Chain} (new : before.document.find? chain.id = none)
    (blank : chain.Blank) :
    before.Reports { before with document := before.document.insert chain } [] where
  nodes node := by
    rw [if_pos ((Document.Extends.of_insert_new new blank).choice?_eq node), List.count_nil]
  chains id known listed := by
    have listed' : (before.document.insert chain).find? id = some known :=
      (Workspace.undisturbed_insert new).chains id known listed
    refine ⟨known, [], listed', (List.append_nil _).symm, ?_⟩
    rw [List.count_nil, if_neg]
    · rfl
    · rintro ⟨busy, idle⟩
      cases busy.symm.trans idle
  new _ _ := List.count_nil

/-- To let go of a chain is listed after the nodes whose choices are taken back, and these after the
chains that have grown. -/
theorem of_release {cleared : Session} (grown : List Change)
    (marks : before.document.Marks cleared.document changes)
    (quiet : ∀ node, grown.count (.node node) = 0)
    (chains : ∀ id chain, before.document.find? id = some chain → ∃ longer added,
      cleared.document.find? id = some longer ∧ longer.links = chain.links ++ added ∧
        grown.count (.chain id) = added.length)
    (new : ∀ id, before.document.find? id = none → grown.count (.chain id) = 0)
    (working : cleared.active = before.active)
    (listed : ∀ id, before.active = some id → ∃ chain, before.document.find? id = some chain) :
    before.Reports cleared.release.1 (grown ++ (changes ++ cleared.release.2)) := by
  have released : (∀ node, cleared.release.2.count (.node node) = 0) ∧
      ∀ id, cleared.release.2.count (.chain id) =
        if before.active = some id ∧ cleared.release.1.active = none then 1 else 0 := by
    rcases Session.of_release cleared with same | ⟨active, busy, same⟩
    · rw [same]
      refine ⟨fun _ => List.count_nil, fun id => ?_⟩
      rw [List.count_nil, if_neg]
      rintro ⟨busy, idle⟩
      cases (working.trans busy).symm.trans idle
    · rw [same]
      refine ⟨fun _ => rfl, fun id => ?_⟩
      rw [← working, busy, List.count_singleton]
      by_cases same : active = id <;> simp [same]
  constructor
  case nodes =>
    intro node
    rw [List.count_append, List.count_append, quiet, released.1, marks.nodes, document_release,
      Nat.zero_add, Nat.add_zero]
  case chains =>
    intro id chain here
    obtain ⟨longer, added, there, links, counted⟩ := chains id chain here
    refine ⟨longer, added, (document_release cleared).symm ▸ there, links, ?_⟩
    rw [List.count_append, List.count_append, counted, marks.chains, released.2, Nat.zero_add]
  case new =>
    intro id absent
    rw [List.count_append, List.count_append, new id absent, marks.chains, released.2, if_neg]
    rintro ⟨busy, -⟩
    obtain ⟨chain, here⟩ := listed id busy
    cases absent.symm.trans here

end Reports

namespace Settled

/-- The chain that a session works on is in the document. -/
theorem exists_active (settled : session.Settled nextId) {id : ChainId}
    (working : session.active = some id) : ∃ chain, session.document.find? id = some chain := by
  obtain ⟨side, node, held⟩ := settled.busy id working
  obtain ⟨active, found, known, -⟩ := settled.held side node held
  cases Option.some.inj (working.symm.trans active)
  obtain ⟨chain, listed, -⟩ := Document.exists_owner known
  exact ⟨chain, listed⟩

theorem reports_escape (settled : session.Settled nextId) {step : Transition Bool}
    (done : session.escape = .ok step) : session.Reports step.session step.changes := by
  rcases of_escape done with ⟨ticket, -, rfl⟩ | ⟨-, rfl | ⟨side, cleared, emptied, rfl⟩⟩
  · exact .of_document_eq rfl rfl
  · exact .of_document_eq rfl rfl
  · obtain ⟨-, working, marks, -⟩ := settled.marks_clear emptied
    refine .of_release [] marks (fun _ => List.count_nil) (fun id chain listed => ?_)
      (fun _ _ => List.count_nil) working fun _ => settled.exists_active
    obtain ⟨kept, listed', bare⟩ :=
      Document.exists_of_outline_eq (congrFun (outline_of_clear emptied) id) listed
    exact ⟨kept, [], listed', (congrArg Chain.links bare).trans (List.append_nil _).symm, rfl⟩

theorem reports_commit (settled : session.Settled nextId) {step : Transition Bool}
    (done : session.commit = .ok step) : session.Reports step.session step.changes := by
  rcases of_commit done with rfl | ⟨chain, link, cleared, asked, emptied, rfl⟩
  · exact .of_document_eq rfl rfl
  · obtain ⟨answer, asked', listed⟩ := settled.exists_committable?
    cases asked.symm.trans asked'
    have listed := listed chain link rfl
    have extended := Document.Extends.of_insert_append listed link
    have intact := settled.intact.chains chain (Document.mem_of_find? listed).1
    have grown := settled.toTidy.extend (settled.intact.insert (intact.append link)) extended
    obtain ⟨-, working, marks, -⟩ := grown.marks_clearBoth emptied
    have marks := (Document.Marks.of_choice?_eq extended.choice?_eq).append marks fun node =>
      .inl (extended.choice?_eq node)
    refine .of_release [.chain chain.id] marks (fun _ => rfl) (fun id known here => ?_)
      (fun id absent => ?_) working fun _ => settled.exists_active
    · have outline := (congrFun (outline_of_clearBoth emptied) id).trans
        (Document.outline_insert _ _ id)
      by_cases same : chain.id = id
      · subst same
        cases Option.some.inj (listed.symm.trans here)
        obtain ⟨longer, there, bare⟩ := Option.map_eq_some_iff.1 (outline.trans (if_pos rfl))
        exact ⟨longer, [link], there, congrArg Chain.links bare, List.count_singleton_self⟩
      · obtain ⟨kept, there, bare⟩ :=
          Document.exists_of_outline_eq (outline.trans (if_neg same)) here
        refine ⟨kept, [], there, (congrArg Chain.links bare).trans (List.append_nil _).symm, ?_⟩
        rw [List.count_singleton, if_neg]
        · rfl
        · simpa using same
    · rw [List.count_singleton, if_neg]
      simp only [beq_iff_eq, Change.chain.injEq]
      rintro rfl
      cases absent.symm.trans listed

end Settled

end Session

/-! ## Observers -/

/-- What an observer knows of a document. -/
structure View where
  choices : NodeId → Option Choice
  links : ChainId → List Link

namespace Document

/-- The links of a chain, if it is in the document. -/
def links (document : Document) (id : ChainId) : List Link :=
  ((document.find? id).map Chain.links).getD []

theorem links_of_find?_eq_none {document : Document} {id : ChainId}
    (absent : document.find? id = none) : document.links id = [] := by
  rw [links, absent, Option.map_none, Option.getD_none]

/-- All that there is to know of choices and links. -/
def view (document : Document) : View := ⟨document.choice?, document.links⟩

end Document

namespace Workspace

variable {workspace : Workspace}

/-- The chain that comes into the document with the links that it has already. -/
def Step.adopted? (step : Step) : Option ChainId :=
  match step.operation with
  | .adopt id => if step.outcome.accepted then some id else none
  | _ => none

theorem Step.adopted?_eq_none {step : Step} (other : ∀ id, step.operation ≠ .adopt id) :
    step.adopted? = none := by
  unfold adopted?
  split
  · rename_i id same
    exact absurd same (other id)
  · rfl

/-- Reads what is listed as changed, and takes all else to be what it was. -/
def Step.reread (view : View) (step : Step) : View :=
  let document := step.outcome.workspace.session.document
  { choices := fun node =>
      if .node node ∈ step.outcome.changes then document.choice? node else view.choices node
    links := fun id =>
      if .chain id ∈ step.outcome.changes then document.links id else view.links id }

/-- Reads what is listed as changed, and the links of a chain that comes with them into the
document. All else is taken to be what it was. -/
def Step.observe (view : View) (step : Step) : View :=
  let document := step.outcome.workspace.session.document
  { choices := fun node =>
      if .node node ∈ step.outcome.changes then document.choice? node else view.choices node
    links := fun id =>
      if .chain id ∈ step.outcome.changes ∨ step.adopted? = some id then document.links id
      else view.links id }

/-- The two readings differ only where a chain comes into the document. -/
theorem Step.observe_eq_reread {step : Step} (none : step.adopted? = none) (view : View) :
    step.observe view = step.reread view := by
  have unread : ∀ id, step.adopted? ≠ some id := by
    rw [none]
    exact fun id same => nomatch same
  simp only [observe, reread, unread, or_false]

/-- A step reports what it changes, and brings no links into the document but those of the chain it
says. -/
structure Step.Reported (step : Step) : Prop where
  reports : step.before.session.Reports step.outcome.workspace.session step.outcome.changes
  adopted : ∀ id, step.before.session.document.find? id = none → step.adopted? ≠ some id →
    step.outcome.workspace.session.document.links id = []

/-- An observer who knew all before a step knows all after it. -/
theorem Step.Reported.observe_view {step : Step} (reported : step.Reported) :
    step.observe step.before.session.document.view =
      step.outcome.workspace.session.document.view := by
  obtain ⟨reports, adopted⟩ := reported
  refine View.mk.injEq .. |>.mpr ⟨funext fun node => ?_, funext fun id => ?_⟩
  · split
    · rfl
    · rename_i unlisted
      have counted := (List.count_eq_zero.2 unlisted).symm.trans (reports.nodes node)
      split at counted
      · rename_i same
        exact same.symm
      · cases counted
  · split
    · rfl
    · rename_i unread
      obtain ⟨unlisted, old⟩ := not_or.1 unread
      change step.before.session.document.links id =
        step.outcome.workspace.session.document.links id
      cases listed : step.before.session.document.find? id with
      | none => rw [Document.links_of_find?_eq_none listed, adopted id listed old]
      | some chain =>
          obtain ⟨grown, added, listed', links, counted⟩ := reports.chains id chain listed
          rw [List.count_eq_zero.2 unlisted] at counted
          have none : added = [] := List.eq_nil_of_length_eq_zero (by omega)
          rw [Document.links, Document.links, listed, listed', Option.map_some, Option.map_some,
            links, none, List.append_nil]

/-- A step that leaves the outline of the document alone brings no links into it. -/
theorem Step.Reported.of_outline_eq {step : Step}
    (reports : step.before.session.Reports step.outcome.workspace.session step.outcome.changes)
    (same : step.outcome.workspace.session.document.outline =
      step.before.session.document.outline) : step.Reported where
  reports := reports
  adopted id absent _ := by
    have absent : step.outcome.workspace.session.document.outline id = none := by
      rw [same, Document.outline, absent, Option.map_none]
    exact Document.links_of_find?_eq_none (Option.map_eq_none_iff.1 absent)

/-- A step that leaves the document alone and reports no changes. -/
theorem Step.Reported.of_document_eq {step : Step}
    (document : step.outcome.workspace.session.document = step.before.session.document)
    (active : step.outcome.workspace.session.active = step.before.session.active)
    (changes : step.outcome.changes = []) : step.Reported :=
  .of_outline_eq (changes ▸ .of_document_eq document active) (congrArg Document.outline document)

/-- Every step in a settled workspace reports what it changes. -/
theorem Settled.reported (settled : workspace.Settled) {operation : Operation} {outcome : Outcome}
    (done : workspace.perform operation = .ok outcome) :
    Step.Reported ⟨workspace, operation, outcome⟩ := by
  cases settled.course done with
  | begun theory beginning new =>
      refine ⟨.of_insert_new new (.start _ theory beginning), fun id absent _ => ?_⟩
      change (((workspace.session.document.insert _).find? id).map Chain.links).getD [] = []
      rw [Document.find?_insert]
      split
      · rfl
      · rw [absent, Option.map_none, Option.getD_none]
  | adopted chain new blank =>
      refine ⟨.of_insert_new new blank, fun id absent other => ?_⟩
      exact Document.links_of_find?_eq_none ((Document.find?_insert ..).trans
        ((if_neg fun same => other (congrArg some same)).trans absent))
  | aside aside session changes closed =>
      exact .of_document_eq (congrArg Session.document session) (congrArg Session.active session)
        changes
  | request node ticket step asked =>
      rcases Session.of_request asked with rfl | ⟨-, -, links, rfl⟩
      · exact .of_document_eq rfl rfl rfl
      · exact .of_document_eq rfl rfl rfl
  | choose node link step chose =>
      have outline := Session.outline_of_choose chose
      obtain ⟨marks, working⟩ := settled.session.marks_choose chose
      exact .of_outline_eq (.of_marks marks outline working) outline
  | dismiss => exact .of_document_eq rfl rfl rfl
  | escape step escaped =>
      exact .of_outline_eq (settled.session.reports_escape escaped)
        (Session.outline_of_escape escaped)
  | commit step committed =>
      refine ⟨settled.session.reports_commit committed, fun id absent _ => ?_⟩
      rcases settled.session.outline_of_commit committed with
        rfl | ⟨chain, link, -, listed, outline⟩
      · exact Document.links_of_find?_eq_none absent
      · refine Document.links_of_find?_eq_none
          (Option.map_eq_none_iff.1 ((congrFun outline id).trans ?_))
        rw [Document.outline_insert, if_neg, Document.outline, absent, Option.map_none]
        rintro rfl
        cases absent.symm.trans listed

/-! ## Runs -/

/-- An observer who knows all before a run knows all after it. -/
theorem Settled.exists_run_observed (settled : workspace.Settled) (operations : List Operation) :
    ∃ steps later, workspace.trace operations = .ok steps ∧ workspace.run operations = .ok later ∧
      steps.map Step.operation = operations ∧ later.Settled ∧
      steps.foldl Step.observe workspace.session.document.view = later.session.document.view := by
  obtain ⟨steps, later, traced, ran, asked, last, observed⟩ := settled.exists_trace
    (fun steps later =>
      steps.foldl Step.observe workspace.session.document.view = later.session.document.view)
    (fun steps before operation outcome settled observed done => by
      rw [List.foldl_append, observed]
      exact (settled.reported done).observe_view)
    [] rfl operations
  exact ⟨steps, later, traced, ran, asked, last, observed⟩

/-- Whatever is done from an empty workspace on, the next operation lists what it changes and
nothing else.  So an observer who only reads what is listed, and the links that a chain has when it
comes into the document, knows all choices and all links. -/
theorem exists_run_reports (nextId : ChainId) (operations : List Operation) :
    ∃ steps workspace, ({ nextId } : Workspace).trace operations = .ok steps ∧
      ({ nextId } : Workspace).run operations = .ok workspace ∧
      (∀ operation, ∃ outcome, workspace.perform operation = .ok outcome ∧
        workspace.session.Reports outcome.workspace.session outcome.changes) ∧
      steps.foldl Step.observe ⟨fun _ => none, fun _ => []⟩ = workspace.session.document.view := by
  obtain ⟨steps, workspace, traced, ran, -, settled, observed⟩ :=
    (settled_empty nextId).exists_run_observed operations
  refine ⟨steps, workspace, traced, ran, fun operation => ?_, observed⟩
  obtain ⟨outcome, done, -⟩ := settled.exists_perform operation
  exact ⟨outcome, done, (settled.reported done).reports⟩

/-- A sample has a link already when it is added, and to add it is not listed.  So an observer who
only reads what is listed does not know of this link. -/
theorem exists_run_reread_ne :
    ∃ steps workspace, trace {} [.sample, .adopt 0] = .ok steps ∧
      run {} [.sample, .adopt 0] = .ok workspace ∧
      steps.foldl Step.reread ⟨fun _ => none, fun _ => []⟩ ≠ workspace.session.document.view := by
  refine ⟨_, _, rfl, rfl, fun same => ?_⟩
  have missed : ([] : List Link) = (Chain.associativity 0).links :=
    congrArg (fun view => view.links 0) same
  cases missed

/-- As long as no chain is added that was made outside the document, an observer who only reads what
is listed knows all. -/
theorem exists_run_reread (nextId : ChainId) (operations : List Operation)
    (inside : ∀ id, .adopt id ∉ operations) :
    ∃ steps workspace, ({ nextId } : Workspace).trace operations = .ok steps ∧
      ({ nextId } : Workspace).run operations = .ok workspace ∧
      steps.foldl Step.reread ⟨fun _ => none, fun _ => []⟩ = workspace.session.document.view := by
  obtain ⟨steps, workspace, traced, ran, asked, -, observed⟩ :=
    (settled_empty nextId).exists_run_observed operations
  have alike : ∀ view, ∀ step ∈ steps, step.reread view = step.observe view := by
    intro view step mem
    have asked : step.operation ∈ operations := asked ▸ List.mem_map_of_mem mem
    have none := Step.adopted?_eq_none fun id same => inside id (same ▸ asked)
    exact (Step.observe_eq_reread none view).symm
  exact ⟨steps, workspace, traced, ran, (List.foldl_ext _ _ _ alike).trans observed⟩

-- A choice for an operation takes back those for its operands; a commit takes back the one it uses,
-- and lets go of the chain that it has let grow.
example :
    let product : Expr := .named "a" * .named "b"
    let link : Link := ⟨.equal, .named "c"⟩
    let operations : List Operation :=
      [.begin {} product, .choose ⟨0, 2⟩ link, .choose ⟨0, 1⟩ link, .choose ⟨0, 0⟩ link, .commit]
    ((trace {} operations).map fun steps => steps.map fun step => step.outcome.changes) =
      .ok [[], [.node ⟨0, 2⟩], [.node ⟨0, 1⟩], [.node ⟨0, 2⟩, .node ⟨0, 1⟩, .node ⟨0, 0⟩],
        [.chain 0, .node ⟨0, 0⟩, .chain 0]] :=
  rfl

end Workspace

end Calculation
