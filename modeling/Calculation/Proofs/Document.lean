import Calculation.Document
import Calculation.Proofs.Arena

/-!
What a document holds after it has changed.

A document is a table from ids to chains (`Document.find?_insert`) and from nodes to what is known
of them (`Document.node?_insert`).  All that a session changes in it is the choice at one node
(`Document.Intact.exists_annotate`), or else it adds chains and links (`Document.Extends`).  This is
what the proofs about sessions have to know of documents, and they need not look at lists.
-/

namespace Calculation

theorem Chain.node?_of_id {chain : Chain} {node : NodeId} (same : chain.id = node.chain) :
    chain.node? node = chain.nodes[node.index]? := by
  rw [Chain.node?, Chain.contains, same, beq_self_eq_true, Bool.true_and]
  split
  · rfl
  · rename_i outside
    rw [decide_eq_true_eq, Nat.not_lt] at outside
    rw [List.getElem?_eq_none outside]

theorem Chain.getElem?_of_node {chain : Chain} {node : NodeId} {found : Node}
    (same : chain.id = node.chain) (known : chain.node node = .ok found) :
    chain.nodes[node.index]? = some found := by
  rw [Chain.node, Chain.node?_of_id same] at known
  split at known
  · rename_i here
    cases known
    exact here
  · cases known

theorem NodeId.ext {node other : NodeId} (chain : node.chain = other.chain)
    (index : node.index = other.index) : node = other := by
  cases node
  cases other
  cases chain
  cases index
  rfl

namespace Document

variable {nextId : ChainId} {document : Document} {chain : Chain} {node : NodeId} {found : Node}

/-! ## Chains by id -/

theorem mem_insertInto {other : Chain} {chains : List Chain}
    (mem : other ∈ insertInto chain chains) : other = chain ∨ other ∈ chains := by
  induction chains with
  | nil => exact .inl (List.mem_singleton.1 mem)
  | cons first rest ih =>
      rw [insertInto] at mem
      split at mem
      · exact List.mem_cons.1 mem
      · split at mem
        · rcases List.mem_cons.1 mem with same | later
          · exact .inl same
          · exact .inr (List.mem_cons_of_mem _ later)
        · rcases List.mem_cons.1 mem with same | later
          · exact .inr (same ▸ List.mem_cons_self)
          · rcases ih later with same | old
            · exact .inl same
            · exact .inr (List.mem_cons_of_mem _ old)

theorem pairwise_insertInto {chains : List Chain} (sorted : chains.Pairwise (·.id < ·.id)) :
    (insertInto chain chains).Pairwise (·.id < ·.id) := by
  induction chains with
  | nil => exact List.pairwise_singleton _ _
  | cons first rest ih =>
      rcases List.pairwise_cons.1 sorted with ⟨least, sortedRest⟩
      rw [insertInto]
      split
      · rename_i before
        refine List.pairwise_cons.2 ⟨fun other mem => ?_, sorted⟩
        rcases List.mem_cons.1 mem with rfl | later
        · exact before
        · exact Nat.lt_trans before (least other later)
      · rename_i notBefore
        split
        · rename_i same
          exact List.pairwise_cons.2 ⟨fun other mem => same ▸ least other mem, sortedRest⟩
        · rename_i different
          refine List.pairwise_cons.2 ⟨fun other mem => ?_, ih sortedRest⟩
          rcases mem_insertInto mem with rfl | later
          · exact Nat.lt_of_le_of_ne (Nat.le_of_not_lt notBefore) (Ne.symm different)
          · exact least other later

theorem find?_insertInto (chain : Chain) (chains : List Chain) (id : ChainId) :
    (insertInto chain chains).find? (·.id = id) =
      if chain.id = id then some chain else chains.find? (·.id = id) := by
  induction chains with
  | nil => simp only [insertInto, List.find?_cons, List.find?_nil]; split <;> simp_all
  | cons first rest ih =>
      rw [insertInto]
      split
      · rw [List.find?_cons]
        split <;> simp_all
      · split
        · rename_i same
          simp only [List.find?_cons]
          split <;> simp_all
        · rename_i different
          rw [List.find?_cons, ih, List.find?_cons]
          split
          · rename_i here
            rw [if_neg]
            simp_all
          · rfl

/-- The chain that is inserted is found under its id, and every other id leads where it led. -/
theorem find?_insert (document : Document) (chain : Chain) (id : ChainId) :
    (document.insert chain).find? id = if chain.id = id then some chain else document.find? id :=
  find?_insertInto chain document.chains id

theorem mem_of_find? {id : ChainId} (found : document.find? id = some chain) :
    chain ∈ document.chains ∧ chain.id = id := by
  have same := List.find?_some found
  exact ⟨List.mem_of_find?_eq_some found, by simpa using same⟩

/-! ## Nodes -/

/-- A node is known if its chain is found and has a node with its index. -/
theorem node?_eq (document : Document) (node : NodeId) :
    document.node? node =
      (document.find? node.chain).bind fun chain => chain.nodes[node.index]? := by
  rw [node?, owner?]
  cases found : document.find? node.chain with
  | none => rfl
  | some chain =>
      have same := (mem_of_find? found).2
      have known := Chain.node?_of_id same
      rw [Option.bind_some, Option.filter_some]
      cases inside : chain.contains node with
      | true => simpa using known
      | false =>
          have unknown : chain.node? node = none := by
            rw [Chain.node?, inside]
            rfl
          rw [← known, unknown]
          rfl

/-- A node that is known has a chain, which can be asked about it. -/
theorem exists_owner (known : document.node? node = some found) :
    ∃ chain, document.find? node.chain = some chain ∧ document.owner? node = some chain ∧
      chain.contains node = true ∧ chain.node node = .ok found ∧
      chain.nodes[node.index]? = some found := by
  rcases Option.bind_eq_some_iff.1 known with ⟨chain, owner, held⟩
  rcases Option.filter_eq_some_iff.1 owner with ⟨listed, inside⟩
  refine ⟨chain, listed, owner, inside, ?_, ?_⟩
  · rw [Chain.node, held]
  · rwa [Chain.node?_of_id (mem_of_find? listed).2] at held

/-- A chain that owns a node knows it. -/
theorem exists_known (owner : document.owner? node = some chain) :
    ∃ found, document.node? node = some found := by
  rcases Option.filter_eq_some_iff.1 owner with ⟨listed, inside⟩
  have same := (mem_of_find? listed).2
  rw [Chain.contains, Bool.and_eq_true, decide_eq_true_eq] at inside
  refine ⟨chain.nodes[node.index], ?_⟩
  rw [node?, owner, Option.bind_some, Chain.node?_of_id same, List.getElem?_eq_getElem inside.2]

theorem node?_insert (document : Document) (chain : Chain) (node : NodeId) :
    (document.insert chain).node? node =
      if chain.id = node.chain then chain.nodes[node.index]? else document.node? node := by
  rw [node?_eq, find?_insert, node?_eq]
  split
  · rfl
  · rfl

/-- A document that has only nodes more than another, and no choices at these. -/
structure Extends (document later : Document) : Prop where
  kept : ∀ node found, document.node? node = some found → later.node? node = some found
  unchosen : ∀ node found, later.node? node = some found →
    document.node? node = some found ∨ found.choice = none

/-- A node that was known is what it was. -/
theorem Extends.node?_eq_some {later : Document} {before : Node} (grown : document.Extends later)
    (was : document.node? node = some before) (known : later.node? node = some found) :
    document.node? node = some found := by
  have same := grown.kept node before was
  rw [known] at same
  cases same
  exact was

theorem Extends.refl (document : Document) : document.Extends document :=
  ⟨fun _ _ known => known, fun _ _ known => .inl known⟩

theorem Extends.of_insert_new (new : document.find? chain.id = none)
    (blank : chain.Blank) :
    document.Extends (document.insert chain) where
  kept node found known := by
    rw [node?_insert, if_neg]
    · exact known
    · intro same
      rw [node?_eq, ← same, new] at known
      cases known
  unchosen node found known := by
    rw [node?_insert] at known
    split at known
    · exact .inr (blank found (List.mem_of_getElem? known))
    · exact .inl known

theorem Extends.of_insert_append (listed : document.find? chain.id = some chain) (link : Link) :
    document.Extends (document.insert (chain.append link)) where
  kept node found known := by
    rw [node?_insert]
    split
    · rename_i same
      rw [node?_eq, ← show chain.id = node.chain from same, listed, Option.bind_some] at known
      exact (List.getElem?_append_left (List.getElem?_eq_some_iff.1 known).1).trans known
    · exact known
  unchosen node found known := by
    rw [node?_insert] at known
    split at known
    · rename_i same
      rw [node?_eq, ← show chain.id = node.chain from same, listed, Option.bind_some]
      rw [Chain.append, List.getElem?_append] at known
      split at known
      · exact .inl known
      · exact .inr (Node.choice_of_mem_layout (List.mem_of_getElem? known))
    · exact .inl known

/-! ## Documents in order -/

/-- A document whose chains are in the order of their ids, and have the right nodes. -/
structure Intact (nextId : ChainId) (document : Document) : Prop where
  sorted : document.chains.Pairwise (·.id < ·.id)
  chains : ∀ chain ∈ document.chains, chain.Intact nextId

namespace Intact

theorem find?_eq_some_iff (intact : document.Intact nextId) {id : ChainId} :
    document.find? id = some chain ↔ chain ∈ document.chains ∧ chain.id = id := by
  refine ⟨mem_of_find?, fun ⟨mem, same⟩ => ?_⟩
  have sorted := intact.sorted
  rw [find?]
  generalize document.chains = chains at mem sorted
  induction chains with
  | nil => cases mem
  | cons first rest ih =>
      rcases List.pairwise_cons.1 sorted with ⟨least, sortedRest⟩
      rw [List.find?_cons]
      rcases List.mem_cons.1 mem with rfl | later
      · rw [same, decide_eq_true rfl]
      · have different : first.id ≠ id := Nat.ne_of_lt (same ▸ least chain later)
        rw [decide_eq_false different]
        exact ih later sortedRest

theorem insert (intact : document.Intact nextId) (whole : chain.Intact nextId) :
    (document.insert chain).Intact nextId where
  sorted := pairwise_insertInto intact.sorted
  chains other mem := by
    rcases mem_insertInto mem with rfl | old
    · exact whole
    · exact intact.chains other old

theorem mono (intact : document.Intact nextId) {later : ChainId} (le : nextId ≤ later) :
    document.Intact later :=
  ⟨intact.sorted, fun chain mem => (intact.chains chain mem).mono le⟩

/-- No chain of the document has the id that is given next. -/
theorem find?_eq_none (intact : document.Intact nextId) : document.find? nextId = none := by
  cases listed : document.find? nextId with
  | none => rfl
  | some chain =>
      rcases mem_of_find? listed with ⟨mem, same⟩
      exact absurd same (Nat.ne_of_lt (intact.chains chain mem).id_lt)

/-- Nodes of a chain that have the same place in it are the same. -/
theorem eq_of_place (intact : document.Intact nextId) {other : NodeId} {found' : Node}
    (known : document.node? node = some found) (known' : document.node? other = some found')
    (chain : node.chain = other.chain) (place : found.place = found'.place) : node = other := by
  rcases exists_owner known with ⟨owner, listed, -, -, -, held⟩
  rcases exists_owner known' with ⟨owner', listed', -, -, -, held'⟩
  rw [← chain, listed, Option.some.injEq] at listed'
  subst listed'
  exact NodeId.ext chain
    ((intact.chains owner (mem_of_find? listed).1).eq_of_place held held' place)

theorem side_of_isRoot (intact : document.Intact nextId)
    (known : document.node? node = some found) (root : found.parent = none) :
    found.side = .left := by
  rcases exists_owner known with ⟨owner, listed, -, -, -, held⟩
  exact (intact.chains owner (mem_of_find? listed).1).side_of_isRoot (List.mem_of_getElem? held)
    root

/-- Annotating a node that is known changes its choice and nothing else. -/
theorem exists_annotate (intact : document.Intact nextId)
    (known : document.node? node = some found) (choice : Option Choice) :
    ∃ later, document.annotate node choice = .ok later ∧ later.Intact nextId ∧
      ∀ other, later.node? other =
        if other = node then some { found with choice } else document.node? other := by
  rcases exists_owner known with ⟨chain, listed, -, inside, -, held⟩
  rcases mem_of_find? listed with ⟨mem, same⟩
  let annotated : Chain := { chain with
    nodes := chain.nodes.modify node.index fun found => { found with choice } }
  have step : chain.annotate node choice = .ok annotated := by
    rw [Chain.annotate, if_pos inside]
  refine ⟨document.insert annotated, ?_,
    intact.insert ((intact.chains chain mem).of_modify node.index choice), fun other => ?_⟩
  · rw [annotate, listed]
    simp only [step]
    rfl
  · rw [node?_insert, node?_eq document other]
    split
    · rename_i sameChain
      have sameChain : chain.id = other.chain := sameChain
      rw [← sameChain, same, listed, Option.bind_some]
      by_cases index : node.index = other.index
      · have equal : other = node := NodeId.ext (sameChain.symm.trans same) index.symm
        rw [if_pos equal, ← index, List.getElem?_modify_eq, held]
        rfl
      · rw [if_neg (fun equal => index (congrArg NodeId.index equal).symm),
          List.getElem?_modify_ne _ _ index]
    · rename_i otherChain
      rw [if_neg]
      rintro rfl
      exact otherChain same

end Intact

end Document

end Calculation
