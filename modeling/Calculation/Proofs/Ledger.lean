import Mathlib.Data.List.Sort
import Calculation.Proofs.Growth

/-!
Chains are neither taken for one another nor lost.

A run is a list of steps, and the steps say which chains were made, in this order, and which of them
were put into the document (`Workspace.made`, `Workspace.entered`).  This is all there is to know
about where the chains are: ids are numbers that are given one after the other, so the document
holds those that entered in the order in which they were made, and the others are loose.

* `Workspace.Settled.enters`: what any step does to the chains.
* `Workspace.Ledger.concat`: what was made and what entered, after one step more.
* `Workspace.exists_run_ledger`: after every run, each chain is where the ledger has it.
-/

namespace Calculation

/-! ## Documents -/

theorem Chain.Grows.refl (chain : Chain) : chain.Grows chain := .of_bare_eq rfl

namespace Document

variable {nextId nextId' id : ChainId} {document before later : Document} {chain : Chain}

/-- The ids of the chains, in the order of the document. -/
def ids (document : Document) : List ChainId := document.chains.map Chain.id

theorem Intact.sorted_ids (intact : document.Intact nextId) : document.ids.Pairwise (· < ·) :=
  List.pairwise_map.2 intact.sorted

/-- A chain has the id if one is found under it. -/
theorem Intact.mem_ids_iff (intact : document.Intact nextId) :
    id ∈ document.ids ↔ (document.outline id).isSome = true := by
  rw [outline, Option.isSome_map, Option.isSome_iff_exists, ids, List.mem_map]
  exact exists_congr fun _ => intact.find?_eq_some_iff.symm

theorem Intact.mem_insert_iff (intact : document.Intact nextId)
    (new : document.find? chain.id = none) {other : Chain} :
    other ∈ (document.insert chain).chains ↔ other = chain ∨ other ∈ document.chains := by
  constructor
  · exact mem_insertInto
  · intro either
    have found : (document.insert chain).find? other.id = some other := by
      rw [find?_insert]
      rcases either with rfl | old
      · rw [if_pos rfl]
      · have listed := intact.find?_eq_some_iff.2 ⟨old, rfl⟩
        rw [if_neg]
        · exact listed
        · intro same
          rw [same, listed] at new
          cases new
    exact (mem_of_find? found).1

theorem Intact.mem_ids_insert_iff (intact : document.Intact nextId)
    (new : document.find? chain.id = none) :
    id ∈ (document.insert chain).ids ↔ id = chain.id ∨ id ∈ document.ids := by
  simp only [ids, List.mem_map, intact.mem_insert_iff new]
  constructor
  · rintro ⟨other, rfl | old, rfl⟩
    · exact .inl rfl
    · exact .inr ⟨other, old, rfl⟩
  · rintro (rfl | ⟨other, old, rfl⟩)
    · exact ⟨chain, .inl rfl, rfl⟩
    · exact ⟨other, .inr old, rfl⟩

/-- A chain with the greatest id comes last. -/
theorem insertInto_of_lt {chains : List Chain} (less : ∀ other ∈ chains, other.id < chain.id) :
    insertInto chain chains = chains ++ [chain] := by
  induction chains with
  | nil => rfl
  | cons first rest ih =>
      have before := less first (List.mem_cons_self ..)
      rw [insertInto, if_neg (Nat.not_lt_of_gt before), if_neg (Nat.ne_of_gt before),
        ih fun other mem => less other (List.mem_cons_of_mem _ mem), List.cons_append]

/-- A chain that was there before comes from the one that had its id. -/
theorem Grows.exists_of_mem (grows : before.Grows later) (intact : later.Intact nextId)
    (intact' : before.Intact nextId') (mem : chain ∈ later.chains) (old : chain.id ∈ before.ids) :
    ∃ original ∈ before.chains, original.Grows chain := by
  obtain ⟨original, mem', same⟩ := List.mem_map.1 old
  have listed := intact'.find?_eq_some_iff.2 ⟨mem', same⟩
  obtain ⟨grown, listed', grows⟩ := grows chain.id original listed
  cases listed'.symm.trans (intact.find?_eq_some_iff.2 ⟨mem, rfl⟩)
  exact ⟨original, mem', grows⟩

end Document

namespace Workspace

variable {workspace : Workspace} {nextId : ChainId} {steps : List Step}

/-! ## What steps make and put into the document -/

/-- All chains, those of the document first. -/
def chains (workspace : Workspace) : List Chain :=
  workspace.session.document.chains ++ workspace.loose

/-- The ids of the chains outside the document. -/
def looseIds (workspace : Workspace) : List ChainId := workspace.loose.map Chain.id

/-- The chain that the step makes, as it is made. -/
def Step.made? (step : Step) : Option Chain :=
  match step.operation with
  | .begin theory beginning | .start theory beginning =>
    some (.start step.before.nextId theory beginning)
  | .sample => some (.associativity step.before.nextId)
  | .copy id => (step.before.chain? id).map (·.copy step.before.nextId)
  | _ => none

/-- The id of the chain that the step puts into the document. -/
def Step.entered? (step : Step) : Option ChainId :=
  match step.operation with
  | .begin _ _ => some step.before.nextId
  | .adopt id => if step.outcome.accepted then some id else none
  | _ => none

/-- The chains that were made, the oldest first. -/
def made (steps : List Step) : List Chain := steps.filterMap Step.made?

/-- The ids of the chains that were put into the document, in this order. -/
def entered (steps : List Step) : List ChainId := steps.filterMap Step.entered?

/-- What a step does to the chains.  The one that it makes gets the next id, the one that it puts
into the document is loose or new, and the others stay where they are. -/
structure Step.Enters (step : Step) : Prop where
  nextId : step.outcome.workspace.nextId = step.before.nextId + step.made?.toList.length
  made : ∀ chain ∈ step.made?.toList, chain.id = step.before.nextId
  document : ∀ id, id ∈ step.outcome.workspace.session.document.ids ↔
    id ∈ step.before.session.document.ids ∨ id ∈ step.entered?.toList
  loose : step.outcome.workspace.looseIds =
    (step.before.looseIds ++ step.made?.toList.map Chain.id).filter (· ∉ step.entered?.toList)
  entered : ∀ id ∈ step.entered?.toList,
    id ∈ step.before.looseIds ++ step.made?.toList.map Chain.id
  grown : ∀ chain ∈ step.outcome.workspace.chains,
    ∃ original ∈ step.before.chains ++ step.made?.toList, original.Grows chain

namespace Step.Enters

variable {step : Step}

/-- A step that makes no chain and moves none. -/
theorem of_kept (makes : step.made? = none) (enters : step.entered? = none)
    (nextId : step.outcome.workspace.nextId = step.before.nextId)
    (ids : step.outcome.workspace.session.document.ids = step.before.session.document.ids)
    (loose : step.outcome.workspace.looseIds = step.before.looseIds)
    (grown : ∀ chain ∈ step.outcome.workspace.chains,
      ∃ original ∈ step.before.chains, original.Grows chain) : step.Enters where
  nextId := by
    rw [makes, nextId]
    rfl
  made chain mem := by
    rw [makes] at mem
    cases mem
  document id := by
    rw [ids, enters]
    simp
  loose := by
    rw [loose, makes, enters]
    simp
  entered id mem := by
    rw [enters] at mem
    cases mem
  grown chain mem := by
    obtain ⟨original, old, grows⟩ := grown chain mem
    exact ⟨original, List.mem_append_left _ old, grows⟩

/-- A step that leaves everything as it is. -/
theorem of_same (makes : step.made? = none) (enters : step.entered? = none)
    (same : step.outcome.workspace = step.before) : step.Enters := by
  apply of_kept makes enters
  case nextId => rw [same]
  case ids => rw [same]
  case loose => rw [same]
  case grown =>
    rw [same]
    exact fun chain mem => ⟨chain, mem, .refl chain⟩

/-- A step that makes a loose chain. -/
theorem of_build (make : ChainId → Chain) (makes : step.made? = some (make step.before.nextId))
    (enters : step.entered? = none) (named : (make step.before.nextId).id = step.before.nextId)
    (built : step.outcome.workspace = (step.before.build make).2) : step.Enters where
  nextId := by
    rw [built, makes]
    rfl
  made chain mem := by
    rw [makes] at mem
    cases List.mem_singleton.1 mem
    exact named
  document id := by
    rw [built, enters]
    simp [build]
  loose := by
    rw [built, makes, enters]
    simp [build, looseIds]
  entered id mem := by
    rw [enters] at mem
    cases mem
  grown chain mem := by
    refine ⟨chain, ?_, .refl chain⟩
    rw [built] at mem
    rw [makes]
    simpa [chains, build] using mem

/-- A step that puts a chain into the document, one that is loose or that it has made. -/
theorem of_insert {chain : Chain} {nextId : ChainId}
    (intact : step.before.session.document.Intact nextId)
    (new : step.before.session.document.find? chain.id = none)
    (enters : step.entered? = some chain.id) (here : chain ∈ step.before.loose ++ step.made?.toList)
    (counts : step.outcome.workspace.nextId = step.before.nextId + step.made?.toList.length)
    (named : ∀ other ∈ step.made?.toList, other.id = step.before.nextId)
    (inserted : step.outcome.workspace.session.document =
      step.before.session.document.insert chain)
    (left : step.outcome.workspace.loose =
      (step.before.loose ++ step.made?.toList).filter (·.id ≠ chain.id)) : step.Enters where
  nextId := counts
  made := named
  document id := by
    rw [inserted, enters, intact.mem_ids_insert_iff new, or_comm, Option.toList_some,
      List.mem_singleton]
  loose := by
    rw [looseIds, looseIds, left, enters, ← List.map_append, List.filter_map]
    simp [Function.comp_def]
  entered id mem := by
    rw [enters] at mem
    cases List.mem_singleton.1 mem
    rw [looseIds, ← List.map_append]
    exact List.mem_map_of_mem here
  grown other mem := by
    refine ⟨other, ?_, .refl other⟩
    rw [chains, inserted, left] at mem
    rw [chains, List.append_assoc]
    rcases List.mem_append.1 mem with listed | outside
    · rcases Document.mem_insertInto listed with rfl | old
      · exact List.mem_append_right _ here
      · exact List.mem_append_left _ old
    · exact List.mem_append_right _ (List.mem_filter.1 outside).1

end Step.Enters

/-- What is done in the session does not make or move chains, except for those it begins. -/
theorem Settled.enters_session (settled : workspace.Settled) {operation : Operation}
    {outcome : Outcome} (done : workspace.perform operation = .ok outcome)
    (makes : Step.made? ⟨workspace, operation, outcome⟩ = none)
    (enters : Step.entered? ⟨workspace, operation, outcome⟩ = none)
    (nextId : outcome.workspace.nextId = workspace.nextId)
    (loose : outcome.workspace.loose = workspace.loose)
    (known : ∀ id, (outcome.workspace.session.document.outline id).isSome =
      (workspace.session.document.outline id).isSome) :
    Step.Enters ⟨workspace, operation, outcome⟩ := by
  obtain ⟨outcome', done', after⟩ := settled.exists_perform operation
  cases done.symm.trans done'
  have intact := settled.session.intact
  have intact' := after.session.intact
  have ids : outcome.workspace.session.document.ids = workspace.session.document.ids := by
    apply intact'.sorted_ids.eq_of_mem_iff intact.sorted_ids
    intro id
    rw [intact'.mem_ids_iff, intact.mem_ids_iff, known]
  apply Step.Enters.of_kept makes enters nextId ids (congrArg (List.map Chain.id) loose)
  intro chain mem
  rcases List.mem_append.1 mem with listed | outside
  · have old : chain.id ∈ workspace.session.document.ids := ids ▸ List.mem_map_of_mem listed
    obtain ⟨original, mem', grows⟩ :=
      (settled.grows_perform done).exists_of_mem intact' intact listed old
    exact ⟨original, List.mem_append_left _ mem', grows⟩
  · exact ⟨chain, List.mem_append_right _ (loose ▸ outside), .refl chain⟩

/-- A chain that has come last goes by its id. -/
theorem filter_concat_id_ne {list : List Chain} {chain : Chain}
    (others : ∀ other ∈ list, other.id ≠ chain.id) :
    (list ++ [chain]).filter (·.id ≠ chain.id) = list := by
  have all : list.filter (·.id ≠ chain.id) = list :=
    List.filter_eq_self.2 fun other mem => decide_eq_true (others other mem)
  rw [List.filter_append, all, List.filter_cons_of_neg (by simp), List.filter_nil, List.append_nil]

theorem Settled.enters_begin (settled : workspace.Settled) (theory : Theory) (beginning : Expr) :
    Step.Enters ⟨workspace, .begin theory beginning,
      { workspace := (workspace.begin theory beginning).2 }⟩ := by
  have here : .start workspace.nextId theory beginning ∈
      workspace.loose ++ [.start workspace.nextId theory beginning] :=
    List.mem_append_right _ (List.mem_singleton_self _)
  apply Step.Enters.of_insert settled.session.intact settled.session.intact.find?_eq_none rfl here
  case counts => rfl
  case inserted => rfl
  case named =>
    intro other mem
    cases List.mem_singleton.1 mem
    rfl
  case left =>
    apply (filter_concat_id_ne _).symm
    exact fun other mem => Nat.ne_of_lt (settled.loose other mem).1.id_lt

theorem enters_extend (workspace : Workspace) (id : ChainId) (link : Link) (accepted : Bool) :
    Step.Enters ⟨workspace, .extend id link,
      { workspace := workspace.extend id link, accepted }⟩ := by
  apply Step.Enters.of_kept rfl rfl
  case nextId => rfl
  case ids => rfl
  case loose =>
    refine (List.map_map ..).trans (List.map_congr_left fun chain _ => ?_)
    rw [Function.comp_apply]
    split <;> rfl
  case grown =>
    intro chain mem
    rcases List.mem_append.1 mem with listed | outside
    · exact ⟨chain, List.mem_append_left _ listed, .refl chain⟩
    · obtain ⟨original, old, rfl⟩ := List.mem_map.1 outside
      refine ⟨original, List.mem_append_right _ old, ?_⟩
      split
      · exact .append original link
      · exact .refl original

theorem Settled.enters_adopt (settled : workspace.Settled) {id : ChainId} {chain : Chain}
    (found : workspace.loose.find? (·.id = id) = some chain) :
    Step.Enters ⟨workspace, .adopt id,
      { workspace := (workspace.adopt chain).2, accepted := (workspace.adopt chain).1 }⟩ := by
  have same : chain.id = id := by simpa using List.find?_some found
  subst same
  rw [Workspace.adopt, Session.addChain]
  cases listed : workspace.session.document.find? chain.id with
  | some other => exact .of_same rfl rfl rfl
  | none =>
      have here : chain ∈ workspace.loose ++ [] :=
        List.mem_append_left _ (List.mem_of_find?_eq_some found)
      apply Step.Enters.of_insert settled.session.intact listed rfl here
      case counts => rfl
      case inserted => rfl
      case named => exact List.forall_mem_nil _
      case left => exact congrArg (List.filter _) (List.append_nil _).symm

/-- Every operation in a settled workspace does this to the chains. -/
theorem Settled.enters (settled : workspace.Settled) {operation : Operation} {outcome : Outcome}
    (done : workspace.perform operation = .ok outcome) :
    Step.Enters ⟨workspace, operation, outcome⟩ := by
  cases operation with
  | begin theory beginning =>
      cases done
      exact settled.enters_begin theory beginning
  | start theory beginning =>
      cases done
      exact .of_build (.start · theory beginning) rfl rfl rfl rfl
  | sample =>
      cases done
      exact .of_build .associativity rfl rfl rfl rfl
  | extend id link =>
      cases done
      exact enters_extend ..
  | copy id =>
      rw [perform] at done
      split at done
      · rename_i unknown
        cases done
        exact .of_same (congrArg (Option.map (·.copy workspace.nextId)) unknown :) rfl rfl
      · rename_i chain known
        cases done
        have makes := congrArg (Option.map (·.copy workspace.nextId)) known
        exact .of_build chain.copy makes rfl rfl rfl
  | adopt id =>
      rw [perform] at done
      split at done
      · cases done
        exact .of_same rfl rfl rfl
      · rename_i chain found
        cases done
        exact settled.enters_adopt found
  | request node ticket =>
      cases settled.course done with
      | aside aside => cases aside
      | request _ _ step asked =>
          refine settled.enters_session done rfl rfl rfl rfl fun id => ?_
          rcases Session.of_request asked with rfl | ⟨-, -, links, rfl⟩ <;> rfl
  | choose node link =>
      cases settled.course done with
      | aside aside => cases aside
      | choose _ _ step chose =>
          refine settled.enters_session done rfl rfl rfl rfl fun id => ?_
          rw [Workspace.follow, Session.outline_of_choose chose]
  | dismiss =>
      cases settled.course done with
      | aside aside => cases aside
      | dismiss => exact settled.enters_session done rfl rfl rfl rfl fun _ => rfl
  | escape =>
      cases settled.course done with
      | aside aside => cases aside
      | escape step escaped =>
          refine settled.enters_session done rfl rfl rfl rfl fun id => ?_
          rw [Workspace.follow, Session.outline_of_escape escaped]
  | commit =>
      cases settled.course done with
      | aside aside => cases aside
      | commit step committed =>
          refine settled.enters_session done rfl rfl rfl rfl fun id => ?_
          rcases settled.session.outline_of_commit committed with
            rfl | ⟨chain, link, -, listed, outline⟩
          · rfl
          · rw [Workspace.follow, outline, Document.outline_insert]
            split
            · rename_i same
              have same : chain.id = id := same
              rw [Document.outline, ← same, listed]
              rfl
            · rfl

/-! ## Runs -/

theorem made_concat (steps : List Step) (step : Step) :
    made (steps ++ [step]) = made steps ++ step.made?.toList := by
  rw [made, List.filterMap_append, List.filterMap_cons]
  cases step.made? <;> rfl

theorem entered_concat (steps : List Step) (step : Step) :
    entered (steps ++ [step]) = entered steps ++ step.entered?.toList := by
  rw [entered, List.filterMap_append, List.filterMap_cons]
  cases step.entered? <;> rfl

/-- What the steps of a run have to do with the chains after it.  The chains got their ids one after
the other.  In this order, those that entered are the chains of the document, and the others are
loose.  Each of them has grown from what was made. -/
structure Ledger (nextId : ChainId) (steps : List Step) (workspace : Workspace) : Prop where
  numbered : (made steps).map Chain.id = List.range' nextId (made steps).length
  next : workspace.nextId = nextId + (made steps).length
  once : (entered steps).Nodup
  known : ∀ id ∈ entered steps, id ∈ (made steps).map Chain.id
  document : workspace.session.document.ids =
    ((made steps).map Chain.id).filter (· ∈ entered steps)
  loose : workspace.looseIds = ((made steps).map Chain.id).filter (· ∉ entered steps)
  grown : ∀ chain ∈ workspace.chains, ∃ original ∈ made steps, original.Grows chain

namespace Ledger

theorem empty (nextId : ChainId) : Ledger nextId [] { nextId } where
  numbered := rfl
  next := rfl
  once := .nil
  known := nofun
  document := rfl
  loose := rfl
  grown := nofun

/-- The chains have different ids, in the order in which they were made. -/
theorem sorted (ledger : Ledger nextId steps workspace) :
    ((made steps).map Chain.id).Pairwise (· < ·) := by
  rw [ledger.numbered]
  exact List.pairwise_lt_range'

theorem lt_of_mem (ledger : Ledger nextId steps workspace) {id : ChainId}
    (mem : id ∈ (made steps).map Chain.id) : id < workspace.nextId := by
  rw [ledger.numbered, List.mem_range'_1] at mem
  rw [ledger.next]
  exact mem.2

variable {step : Step}

/-- What enters is loose or new, so it did not enter before. -/
theorem not_mem_entered (ledger : Ledger nextId steps step.before) (enters : step.Enters)
    {id : ChainId} (here : id ∈ step.before.looseIds ++ step.made?.toList.map Chain.id) :
    id ∉ entered steps ∧ id ∈ (made (steps ++ [step])).map Chain.id := by
  rw [made_concat, List.map_append]
  rcases List.mem_append.1 here with loose | new
  · rw [ledger.loose, List.mem_filter, decide_eq_true_eq] at loose
    exact ⟨loose.2, List.mem_append_left _ loose.1⟩
  · refine ⟨fun before => ?_, List.mem_append_right _ new⟩
    obtain ⟨chain, made, rfl⟩ := List.mem_map.1 new
    have less := ledger.lt_of_mem (ledger.known _ before)
    rw [enters.made chain made] at less
    exact Nat.lt_irrefl _ less

/-- The ledger goes on with every step. -/
theorem concat (ledger : Ledger nextId steps step.before) (enters : step.Enters)
    (after : step.outcome.workspace.Settled) :
    Ledger nextId (steps ++ [step]) step.outcome.workspace := by
  have numbered : (made (steps ++ [step])).map Chain.id =
      List.range' nextId (made (steps ++ [step])).length := by
    rw [made_concat, List.map_append, List.length_append, ledger.numbered]
    cases new : step.made? with
    | none => simp
    | some chain =>
        have named := enters.made chain (by simp [new])
        simp [named, ledger.next, List.range'_1_concat]
  have known : ∀ id ∈ entered (steps ++ [step]), id ∈ (made (steps ++ [step])).map Chain.id := by
    intro id mem
    rw [entered_concat] at mem
    rcases List.mem_append.1 mem with old | new
    · rw [made_concat, List.map_append]
      exact List.mem_append_left _ (ledger.known id old)
    · exact (ledger.not_mem_entered enters (enters.entered id new)).2
  constructor
  case numbered => exact numbered
  case next => rw [enters.nextId, ledger.next, made_concat, List.length_append, Nat.add_assoc]
  case once =>
    rw [entered_concat]
    refine List.nodup_append.2 ⟨ledger.once, ?_, ?_⟩
    · cases step.entered? <;> simp
    · rintro id old _ new rfl
      exact (ledger.not_mem_entered enters (enters.entered id new)).1 old
  case known => exact known
  case document =>
    have sorted : ((made (steps ++ [step])).map Chain.id).Pairwise (· < ·) := by
      rw [numbered]
      exact List.pairwise_lt_range'
    apply after.session.intact.sorted_ids.eq_of_mem_iff (sorted.sublist List.filter_sublist)
    intro id
    rw [enters.document, ledger.document, List.mem_filter, List.mem_filter, decide_eq_true_eq,
      decide_eq_true_eq, entered_concat, List.mem_append]
    constructor
    · intro mem
      have entered : id ∈ entered steps ∨ id ∈ step.entered?.toList := mem.imp_left And.right
      refine ⟨known id ?_, entered⟩
      rwa [entered_concat, List.mem_append]
    · rintro ⟨-, entered⟩
      exact entered.imp_left fun old => ⟨ledger.known id old, old⟩
  case loose =>
    have old : (((made steps).map Chain.id).filter (· ∉ entered steps)).filter
        (· ∉ step.entered?.toList) =
          ((made steps).map Chain.id).filter (· ∉ entered (steps ++ [step])) := by
      rw [List.filter_filter, entered_concat]
      apply List.filter_congr
      simp [Bool.and_comm]
    have new : (step.made?.toList.map Chain.id).filter (· ∉ step.entered?.toList) =
        (step.made?.toList.map Chain.id).filter (· ∉ entered (steps ++ [step])) := by
      apply List.filter_congr
      intro id mem
      have fresh := (ledger.not_mem_entered enters (List.mem_append_right _ mem)).1
      simp [entered_concat, fresh]
    rw [enters.loose, ledger.loose, List.filter_append, old, new, made_concat, List.map_append,
      List.filter_append]
  case grown =>
    intro chain mem
    obtain ⟨between, here, grows⟩ := enters.grown chain mem
    rw [made_concat]
    rcases List.mem_append.1 here with old | new
    · obtain ⟨original, made, grows'⟩ := ledger.grown between old
      exact ⟨original, List.mem_append_left _ made, grows'.trans grows⟩
    · exact ⟨between, List.mem_append_right _ new, grows⟩

end Ledger

/-! ## Chains that are kept apart -/

/-- No chain is taken for another.  A new one takes the place of none in the document, and every
loose one is let in, which leaves the others where they are.  Nothing is chosen at loose chains. -/
structure Apart (workspace : Workspace) : Prop where
  distinct : (workspace.chains.map Chain.id).Nodup
  found : ∀ chain ∈ workspace.session.document.chains,
    workspace.session.document.find? chain.id = some chain
  owner : ∀ node, ∀ chain ∈ workspace.chains, ∀ other ∈ workspace.chains,
    chain.contains node = true → other.contains node = true → chain = other
  begins : ∀ theory beginning,
    (workspace.begin theory beginning).2.session.document.chains =
      workspace.session.document.chains ++ [.start workspace.nextId theory beginning]
  adopts : ∀ chain ∈ workspace.loose, (workspace.adopt chain).1 = true ∧
    (∀ other, other ∈ (workspace.adopt chain).2.session.document.chains ↔
      other = chain ∨ other ∈ workspace.session.document.chains) ∧
    ∀ other, other ∈ (workspace.adopt chain).2.loose ↔ other ∈ workspace.loose ∧ other ≠ chain
  blank : ∀ chain ∈ workspace.loose, chain.Blank

theorem Ledger.distinct (ledger : Ledger nextId steps workspace) :
    (workspace.chains.map Chain.id).Nodup := by
  have nodup : ((made steps).map Chain.id).Nodup := ledger.sorted.imp Nat.ne_of_lt
  have parts : workspace.chains.map Chain.id =
      workspace.session.document.ids ++ workspace.looseIds := List.map_append
  rw [parts, ledger.document, ledger.loose]
  refine List.nodup_append.2 ⟨nodup.filter _, nodup.filter _, ?_⟩
  rintro id inside _ outside rfl
  rw [List.mem_filter, decide_eq_true_eq] at inside outside
  exact outside.2 inside.2

theorem Ledger.apart (ledger : Ledger nextId steps workspace) (settled : workspace.Settled) :
    workspace.Apart := by
  have intact := settled.session.intact
  have known : ∀ chain ∈ workspace.chains, ∀ other ∈ workspace.chains, chain.id = other.id →
      chain = other :=
    fun chain mem other mem' => List.inj_on_of_nodup_map ledger.distinct mem mem'
  constructor
  case distinct => exact ledger.distinct
  case found => exact fun chain mem => intact.find?_eq_some_iff.2 ⟨mem, rfl⟩
  case owner =>
    intro node chain mem other mem' inside inside'
    apply known chain mem other mem'
    rw [Chain.contains, Bool.and_eq_true, beq_iff_eq] at inside inside'
    exact inside.1.symm.trans inside'.1
  case begins =>
    intro theory beginning
    apply Document.insertInto_of_lt
    exact fun other mem => (intact.chains other mem).id_lt
  case adopts =>
    intro chain mem
    have new : workspace.session.document.find? chain.id = none := by
      cases listed : workspace.session.document.find? chain.id with
      | none => rfl
      | some other =>
          obtain ⟨inside, same⟩ := Document.mem_of_find? listed
          have twice := List.nodup_append.1 (List.map_append ▸ ledger.distinct)
          exact absurd same
            (twice.2.2 _ (List.mem_map_of_mem inside) _ (List.mem_map_of_mem mem))
    rw [Workspace.adopt, Session.addChain, new]
    refine ⟨rfl, fun other => intact.mem_insert_iff new, fun other => ?_⟩
    rw [List.mem_filter, decide_eq_true_eq]
    refine and_congr_right fun mem' => not_congr ⟨fun same => ?_, congrArg Chain.id⟩
    exact known other (List.mem_append_right _ mem') chain (List.mem_append_right _ mem) same
  case blank => exact fun chain mem => (settled.loose chain mem).2

/-- After every run the ids of all chains are different, the document holds those that entered in
the order in which they were made, and the others are loose. -/
theorem exists_run_ledger (nextId : ChainId) (operations : List Operation) :
    ∃ steps after, ({ nextId } : Workspace).trace operations = .ok steps ∧
      ({ nextId } : Workspace).run operations = .ok after ∧
      steps.map Step.operation = operations ∧ after.Apart ∧ Ledger nextId steps after := by
  obtain ⟨steps, after, traced, ran, same, settled, ledger⟩ :=
    (settled_empty nextId).exists_trace (fun steps workspace => Ledger nextId steps workspace)
      (fun steps workspace operation outcome settled ledger done => by
        obtain ⟨outcome', done', after⟩ := settled.exists_perform operation
        cases done.symm.trans done'
        exact ledger.concat (settled.enters done) after)
      [] (.empty nextId) operations
  exact ⟨steps, after, traced, ran, same, Ledger.apart ledger settled, ledger⟩

end Workspace

end Calculation
