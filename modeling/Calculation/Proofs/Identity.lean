import Calculation.Proofs.Changes

/-!
What a document and a session are known by.

A document in order has each of its chains under its id, so it is known by what is found in it
(`Document.Intact.eq_of_find?_eq`), and this again by its outline and its choices
(`Document.Intact.eq_of_outline_eq`).  So two ways through the operations of a session that come to
the same slots, the same outline and the same choices come to the same session
(`Session.eq_of_outline_eq`), whatever is done in between.

A document without its choices (`Document.bare`) is what is left when all of them are taken back.
-/

namespace Calculation

/-- A node is what it is without its choice, and its choice. -/
theorem Node.eq_of_bare_eq {node other : Node} (bare : node.bare = other.bare)
    (choice : node.choice = other.choice) : node = other := by
  cases node
  cases other
  cases bare
  cases choice
  rfl

namespace Chain

variable {nextId : ChainId} {chain other : Chain}

theorem getElem?_bare (chain : Chain) (index : Nat) :
    chain.bare.nodes[index]? = chain.nodes[index]?.map Node.bare :=
  List.getElem?_map ..

theorem blank_bare (chain : Chain) : chain.bare.Blank := .copy chain chain.id

theorem Blank.bare_eq (blank : chain.Blank) : chain.bare = chain := by
  have nodes : chain.nodes.map Node.bare = chain.nodes := by
    rw [List.map_congr_left fun node mem => Node.bare_eq_self.2 (blank node mem), List.map_id']
  rw [bare, nodes]

theorem bare_bare (chain : Chain) : chain.bare.bare = chain.bare := by
  simp only [bare, List.map_map]
  rfl

theorem Intact.bare (intact : chain.Intact nextId) : chain.bare.Intact nextId :=
  intact.copy intact.id_lt

/-- A chain is what it is without its choices, and the choices at its nodes. -/
theorem eq_of_bare_eq (bare : chain.bare = other.bare)
    (choices : ∀ index : Nat, chain.nodes[index]?.bind Node.choice =
      other.nodes[index]?.bind Node.choice) : chain = other := by
  have nodes : chain.nodes = other.nodes := by
    refine List.ext_getElem? fun index => ?_
    have same : chain.nodes[index]?.map Node.bare = other.nodes[index]?.map Node.bare := by
      rw [← getElem?_bare, ← getElem?_bare, bare]
    have choice := choices index
    cases here : chain.nodes[index]? with
    | none =>
        rw [here] at same
        exact (Option.map_eq_none_iff.1 same.symm).symm
    | some node =>
        rw [here] at same choice
        obtain ⟨node', there, bare'⟩ := Option.map_eq_some_iff.1 same.symm
        rw [there] at choice
        rw [there, Node.eq_of_bare_eq bare'.symm choice]
  cases chain
  cases other
  cases nodes
  cases bare
  rfl

end Chain

namespace Document

variable {nextId laterId : ChainId} {document before later : Document} {id : ChainId}

/-! ## Documents without choices -/

/-- The document without its choices. -/
def bare (document : Document) : Document := ⟨document.chains.map Chain.bare⟩

theorem find?_bare (document : Document) (id : ChainId) :
    document.bare.find? id = document.outline id :=
  List.find?_map ..

theorem Intact.bare (intact : document.Intact nextId) : document.bare.Intact nextId where
  sorted := List.pairwise_map.2 intact.sorted
  chains chain mem := by
    obtain ⟨original, listed, rfl⟩ := List.mem_map.1 mem
    exact (intact.chains original listed).bare

/-- Nothing is changed but choices. -/
theorem outline_bare (document : Document) : document.bare.outline = document.outline := by
  funext id
  rw [outline, find?_bare, outline]
  cases document.find? id with
  | none => rfl
  | some chain => exact congrArg some chain.bare_bare

theorem node?_bare (document : Document) (node : NodeId) :
    document.bare.node? node = (document.node? node).map Node.bare := by
  rw [node?_eq, node?_eq, find?_bare, outline]
  cases document.find? node.chain with
  | none => rfl
  | some chain => exact chain.getElem?_bare node.index

/-- No choice is left. -/
theorem choice?_bare (document : Document) (node : NodeId) : document.bare.choice? node = none := by
  rw [choice?, node?_bare]
  cases document.node? node <;> rfl

/-! ## Equal documents -/

/-- Documents in order in which the same is found are the same. -/
theorem Intact.eq_of_find?_eq (intact : before.Intact nextId) (intact' : later.Intact laterId)
    (same : ∀ id, later.find? id = before.find? id) : later = before := by
  have nodup : ∀ {nextId : ChainId} {document : Document}, document.Intact nextId →
      document.chains.Nodup := fun intact =>
    intact.sorted.imp fun smaller same => Nat.ne_of_lt smaller (congrArg Chain.id same)
  have members : later.chains.Perm before.chains := by
    refine (List.perm_ext_iff_of_nodup (nodup intact') (nodup intact)).2 fun chain => ?_
    have found : ∀ {nextId : ChainId} {document : Document}, document.Intact nextId →
        (chain ∈ document.chains ↔ document.find? chain.id = some chain) := fun intact =>
      ⟨fun mem => intact.find?_eq_some_iff.2 ⟨mem, rfl⟩, fun listed => (mem_of_find? listed).1⟩
    rw [found intact', found intact, same]
  have chains : later.chains = before.chains :=
    members.eq_of_pairwise (fun _ _ _ _ less more => absurd less (Nat.lt_asymm more))
      intact'.sorted intact.sorted
  cases before
  cases later
  cases chains
  rfl

/-- The documents without choices are the same if the outlines are. -/
theorem Intact.bare_eq_of_outline_eq (intact : before.Intact nextId)
    (intact' : later.Intact laterId) (outline : later.outline = before.outline) :
    later.bare = before.bare :=
  intact.bare.eq_of_find?_eq intact'.bare fun id => by rw [find?_bare, find?_bare, outline]

/-- A document in order is known by its outline and its choices. -/
theorem Intact.eq_of_outline_eq (intact : before.Intact nextId) (intact' : later.Intact laterId)
    (outline : later.outline = before.outline)
    (choices : ∀ node, later.choice? node = before.choice? node) : later = before := by
  refine intact.eq_of_find?_eq intact' fun id => ?_
  have same := congrFun outline id
  cases listed : before.find? id with
  | none =>
      rw [Document.outline, Document.outline, listed] at same
      exact Option.map_eq_none_iff.1 same
  | some chain =>
      obtain ⟨kept, listed', bare⟩ := exists_of_outline_eq same listed
      rw [listed', Chain.eq_of_bare_eq bare fun index => ?_]
      have choice := choices ⟨id, index⟩
      rwa [choice?, choice?, node?_eq, node?_eq, listed, listed'] at choice

end Document

namespace Session

variable {nextId laterId : ChainId} {before later : Session}

/-- A session is known by its slots, the chain that is worked on, the list that is shown, and the
outline and the choices of its document. -/
theorem eq_of_outline_eq (intact : before.document.Intact nextId)
    (intact' : later.document.Intact laterId)
    (slots : ∀ side, later.slot side = before.slot side) (active : later.active = before.active)
    (chooser : later.chooser = before.chooser)
    (outline : later.document.outline = before.document.outline)
    (choices : ∀ node, later.document.choice? node = before.document.choice? node) :
    later = before := by
  have document := intact.eq_of_outline_eq intact' outline choices
  have left : later.left = before.left := slots .left
  have right : later.right = before.right := slots .right
  cases before
  cases later
  cases document
  cases active
  cases left
  cases right
  cases chooser
  rfl

end Session

end Calculation
