import Mathlib.Data.List.Nodup
import Mathlib.Data.List.Basic

/-!
# Depth-first search with an open stack

A search opens nodes and walks the edges of an open node in order.  An edge whose target
is still open closes a cycle, one whose target was opened before is passed by, one that
is barred is not taken, and any other opens its target, whose edges are walked before the
next edge of the node.  `Forest` is the record of such a walk, `DepthFirst` says that the
forest is the one the rule makes, and the lemmas say what a whole walk establishes: every
node is opened once, the opened nodes are closed under the edges, and nothing else is
opened than what the edges reach.
-/

namespace Hearth.Library

/-- What a search does with an edge. -/
inductive Mark
  | skipped | cycle | seen | barred | followed
  deriving DecidableEq, Repr

/-- A graph that is searched: nodes are told apart by their keys. -/
structure Search (Node Edge Key : Type*) where
  key : Node → Key
  /-- The edges of a node in their order. -/
  Loads : Node → List Edge → Prop
  target : Edge → Option Key
  Barred : Edge → Prop
  /-- The node that taking the edge opens. -/
  child : Node → Edge → Key → Node
  key_child : ∀ node edge key', key (child node edge key') = key'
  mark : Edge → Mark

/-- The edges of an open node, each followed edge with the walk of the node it opens. -/
inductive Forest (Node Edge : Type*)
  | done
  | leaf (edge : Edge) (rest : Forest Node Edge)
  | followed (edge : Edge) (node : Node) (below rest : Forest Node Edge)

namespace Forest

variable {Node Edge : Type*}

/-- The edges of the open node itself. -/
def own : Forest Node Edge → List Edge
  | done => []
  | leaf edge rest => edge :: rest.own
  | followed edge _ _ rest => edge :: rest.own

/-- All edges in the order they are met. -/
def preorder : Forest Node Edge → List Edge
  | done => []
  | leaf edge rest => edge :: rest.preorder
  | followed edge _ below rest => edge :: (below.preorder ++ rest.preorder)

/-- The nodes that are opened, in order, each with its own edges. -/
def opened : Forest Node Edge → List (Node × List Edge)
  | done => []
  | leaf _ rest => rest.opened
  | followed _ node below rest => (node, below.own) :: (below.opened ++ rest.opened)

/-- Every edge met is an edge of the open node or of one node opened below it. -/
theorem mem_preorder {forest : Forest Node Edge} {edge : Edge} :
    edge ∈ forest.preorder ↔ edge ∈ forest.own ∨ ∃ row ∈ forest.opened, edge ∈ row.2 := by
  induction forest with
  | done => simp [preorder, own, opened]
  | leaf first rest ih =>
      simp only [preorder, own, opened, List.mem_cons, ih]
      tauto
  | followed first node below rest ihBelow ihRest =>
      simp only [preorder, own, opened, List.mem_cons, List.mem_append, ihBelow, ihRest]
      constructor
      · rintro (rfl | (h | ⟨row, hrow, h⟩) | h | ⟨row, hrow, h⟩)
        · exact .inl (.inl rfl)
        · exact .inr ⟨_, .inl rfl, h⟩
        · exact .inr ⟨row, .inr (.inl hrow), h⟩
        · exact .inl (.inr h)
        · exact .inr ⟨row, .inr (.inr hrow), h⟩
      · rintro ((rfl | h) | ⟨row, rfl | hrow | hrow, h⟩)
        · exact .inl rfl
        · exact .inr (.inr (.inl h))
        · exact .inr (.inl (.inl h))
        · exact .inr (.inl (.inr ⟨row, hrow, h⟩))
        · exact .inr (.inr (.inr ⟨row, hrow, h⟩))

end Forest

variable {Node Edge Key : Type*}

/-- `DepthFirst s active node seen forest seen'`: with the nodes of `active` open, `node`
on top, and those of `seen` opened before, walking the edges of `node` makes `forest`
and leaves `seen'`. -/
inductive DepthFirst (s : Search Node Edge Key) :
    List Key → Node → List Key → Forest Node Edge → List Key → Prop
  | done {active node seen} : DepthFirst s active node seen .done seen
  | skipped {active node seen seen' edge rest} (htarget : s.target edge = none)
      (hmark : s.mark edge = .skipped) (hrest : DepthFirst s active node seen rest seen') :
      DepthFirst s active node seen (.leaf edge rest) seen'
  | cycle {active node seen seen' edge rest key} (htarget : s.target edge = some key)
      (hactive : key ∈ active) (hmark : s.mark edge = .cycle)
      (hrest : DepthFirst s active node seen rest seen') :
      DepthFirst s active node seen (.leaf edge rest) seen'
  | seen {active node seen seen' edge rest key} (htarget : s.target edge = some key)
      (hactive : key ∉ active) (hseen : key ∈ seen) (hmark : s.mark edge = .seen)
      (hrest : DepthFirst s active node seen rest seen') :
      DepthFirst s active node seen (.leaf edge rest) seen'
  | barred {active node seen seen' edge rest key} (htarget : s.target edge = some key)
      (hseen : key ∉ seen) (hbarred : s.Barred edge) (hmark : s.mark edge = .barred)
      (hrest : DepthFirst s active node seen rest seen') :
      DepthFirst s active node seen (.leaf edge rest) seen'
  | followed {active node seen middle seen' edge below rest key}
      (htarget : s.target edge = some key) (hactive : key ∉ active) (hseen : key ∉ seen)
      (hbarred : ¬ s.Barred edge) (hmark : s.mark edge = .followed)
      (hloads : s.Loads (s.child node edge key) below.own)
      (hbelow : DepthFirst s (key :: active) (s.child node edge key) (key :: seen) below middle)
      (hrest : DepthFirst s active node middle rest seen') :
      DepthFirst s active node seen (.followed edge (s.child node edge key) below rest) seen'

namespace DepthFirst

variable {s : Search Node Edge Key} {active : List Key} {node : Node} {seen seen' : List Key}
  {forest : Forest Node Edge}

/-- What is seen afterwards is what was seen before and what was opened. -/
theorem seen_eq (h : DepthFirst s active node seen forest seen') :
    seen' = (forest.opened.map fun row => s.key row.1).reverse ++ seen := by
  induction h with
  | done => rfl
  | skipped _ _ _ ih => exact ih
  | cycle _ _ _ _ ih => exact ih
  | seen _ _ _ _ _ ih => exact ih
  | barred _ _ _ _ _ ih => exact ih
  | followed _ _ _ _ _ _ _ _ ihBelow ihRest =>
      rw [ihRest, ihBelow]
      simp [Forest.opened, s.key_child]

/-- No node is opened twice. -/
theorem nodup (h : DepthFirst s active node seen forest seen') (hnodup : seen.Nodup) :
    seen'.Nodup := by
  induction h with
  | done => exact hnodup
  | skipped _ _ _ ih => exact ih hnodup
  | cycle _ _ _ _ ih => exact ih hnodup
  | seen _ _ _ _ _ ih => exact ih hnodup
  | barred _ _ _ _ _ ih => exact ih hnodup
  | followed _ _ hseen _ _ _ _ _ ihBelow ihRest =>
      exact ihRest (ihBelow (List.nodup_cons.mpr ⟨hseen, hnodup⟩))

/-- Every opened node is walked along its own edges. -/
theorem loads (h : DepthFirst s active node seen forest seen') {row : Node × List Edge}
    (hrow : row ∈ forest.opened) : s.Loads row.1 row.2 := by
  induction h with
  | done => cases hrow
  | skipped _ _ _ ih => exact ih hrow
  | cycle _ _ _ _ ih => exact ih hrow
  | seen _ _ _ _ _ ih => exact ih hrow
  | barred _ _ _ _ _ ih => exact ih hrow
  | followed _ _ _ _ _ hloads _ _ ihBelow ihRest =>
      simp only [Forest.opened, List.mem_cons, List.mem_append] at hrow
      rcases hrow with rfl | hrow | hrow
      · exact hloads
      · exact ihBelow hrow
      · exact ihRest hrow

/-- What was seen stays seen. -/
theorem subset (h : DepthFirst s active node seen forest seen') : seen ⊆ seen' := by
  intro key hkey
  rw [h.seen_eq]
  exact List.mem_append_right _ hkey

/-- Every edge that is met leads to a node that is opened sooner or later, or it is marked
as barred. -/
theorem closed (h : DepthFirst s active node seen forest seen') (hactive : active ⊆ seen)
    {edge : Edge} (hedge : edge ∈ forest.preorder) {key : Key} (htarget : s.target edge = some key) :
    key ∈ seen' ∨ s.Barred edge ∧ s.mark edge = .barred := by
  induction h with
  | done => cases hedge
  | skipped hnone _ _ ih =>
      rcases List.mem_cons.mp hedge with rfl | hedge
      · rw [hnone] at htarget
        cases htarget
      · exact ih hactive hedge
  | cycle hsome hopen _ hrest ih =>
      rcases List.mem_cons.mp hedge with rfl | hedge
      · cases hsome.symm.trans htarget
        exact .inl (hrest.subset (hactive hopen))
      · exact ih hactive hedge
  | seen hsome _ hseen _ hrest ih =>
      rcases List.mem_cons.mp hedge with rfl | hedge
      · cases hsome.symm.trans htarget
        exact .inl (hrest.subset hseen)
      · exact ih hactive hedge
  | barred _ _ hbarred hmark _ ih =>
      rcases List.mem_cons.mp hedge with rfl | hedge
      · exact .inr ⟨hbarred, hmark⟩
      · exact ih hactive hedge
  | followed hsome _ _ _ _ _ hbelow hrest ihBelow ihRest =>
      simp only [Forest.preorder, List.mem_cons, List.mem_append] at hedge
      rcases hedge with rfl | hedge | hedge
      · cases hsome.symm.trans htarget
        exact .inl (hrest.subset (hbelow.subset List.mem_cons_self))
      · rcases ihBelow (List.cons_subset_cons _ hactive) hedge with hmem | hbar
        · exact .inl (hrest.subset hmem)
        · exact .inr hbar
      · exact ihRest (fun key hkey => hbelow.subset (List.mem_cons_of_mem _ (hactive hkey))) hedge

/-- Only an edge that leads nowhere is skipped. -/
theorem target_eq_none (h : DepthFirst s active node seen forest seen') {edge : Edge}
    (hedge : edge ∈ forest.preorder) (hmark : s.mark edge = .skipped) : s.target edge = none := by
  induction h with
  | done => cases hedge
  | skipped htarget _ _ ih =>
      rcases List.mem_cons.mp hedge with rfl | hedge
      · exact htarget
      · exact ih hedge
  | cycle _ _ hother _ ih =>
      rcases List.mem_cons.mp hedge with rfl | hedge
      · cases hother.symm.trans hmark
      · exact ih hedge
  | seen _ _ _ hother _ ih =>
      rcases List.mem_cons.mp hedge with rfl | hedge
      · cases hother.symm.trans hmark
      · exact ih hedge
  | barred _ _ _ hother _ ih =>
      rcases List.mem_cons.mp hedge with rfl | hedge
      · cases hother.symm.trans hmark
      · exact ih hedge
  | followed _ _ _ _ hother _ _ _ ihBelow ihRest =>
      simp only [Forest.preorder, List.mem_cons, List.mem_append] at hedge
      rcases hedge with rfl | hedge | hedge
      · cases hother.symm.trans hmark
      · exact ihBelow hedge
      · exact ihRest hedge

/-- The keys that edges lead to from `start`, over the nodes of `rows` and their edges. -/
inductive Reached (s : Search Node Edge Key) (rows : List (Node × List Edge)) (start : Key) :
    Key → Prop
  | start : Reached s rows start start
  | edge {row edge key} (hrow : row ∈ rows) (hreached : Reached s rows start (s.key row.1))
      (hedge : edge ∈ row.2) (htarget : s.target edge = some key) (hbarred : ¬ s.Barred edge) :
      Reached s rows start key

/-- Every node that is opened below a reached node is reached. -/
theorem reached {rows : List (Node × List Edge)} {start : Key}
    (h : DepthFirst s active node seen forest seen') {edges : List Edge}
    (hnode : (node, edges) ∈ rows) (hown : forest.own ⊆ edges) (hrows : forest.opened ⊆ rows)
    (hstart : Reached s rows start (s.key node)) {row : Node × List Edge}
    (hrow : row ∈ forest.opened) : Reached s rows start (s.key row.1) := by
  induction h generalizing edges with
  | done => cases hrow
  | skipped _ _ _ ih => exact ih hnode (List.cons_subset.mp hown).2 hrows hstart hrow
  | cycle _ _ _ _ ih => exact ih hnode (List.cons_subset.mp hown).2 hrows hstart hrow
  | seen _ _ _ _ _ ih => exact ih hnode (List.cons_subset.mp hown).2 hrows hstart hrow
  | barred _ _ _ _ _ ih => exact ih hnode (List.cons_subset.mp hown).2 hrows hstart hrow
  | @followed _ node _ _ _ edge _ _ key htarget _ _ hbarred _ _ _ _ ihBelow ihRest =>
      obtain ⟨hedge, hown⟩ := List.cons_subset.mp hown
      obtain ⟨hchild, hrest⟩ := List.cons_subset.mp hrows
      obtain ⟨hbelowRows, hrestRows⟩ := List.append_subset.mp hrest
      have hopened : Reached s rows start (s.key (s.child node edge key)) := by
        rw [s.key_child]
        exact .edge hnode hstart hedge htarget hbarred
      simp only [Forest.opened, List.mem_cons, List.mem_append] at hrow
      rcases hrow with rfl | hrow | hrow
      · exact hopened
      · exact ihBelow hchild (List.Subset.refl _) hbelowRows hopened hrow
      · exact ihRest hnode hown hrestRows hstart hrow

end DepthFirst

/-- The walk of a whole search from `root`. -/
structure Searched (s : Search Node Edge Key) (root : Node) (forest : Forest Node Edge) : Prop where
  loads : s.Loads root forest.own
  walk : ∃ seen, DepthFirst s [s.key root] root [s.key root] forest seen

namespace Searched

variable {s : Search Node Edge Key} {root : Node} {forest : Forest Node Edge}

/-- The nodes that the search opens, the root first. -/
def rows (root : Node) (forest : Forest Node Edge) : List (Node × List Edge) :=
  (root, forest.own) :: forest.opened

theorem loads_of_mem (h : Searched s root forest) {row : Node × List Edge}
    (hrow : row ∈ rows root forest) : s.Loads row.1 row.2 := by
  obtain ⟨seen, hwalk⟩ := h.walk
  rcases List.mem_cons.mp hrow with rfl | hrow
  · exact h.loads
  · exact hwalk.loads hrow

theorem nodup (h : Searched s root forest) :
    ((rows root forest).map fun row => s.key row.1).Nodup := by
  obtain ⟨seen, hwalk⟩ := h.walk
  have hseen : seen.Nodup := hwalk.nodup (List.nodup_singleton _)
  rw [hwalk.seen_eq, ← List.nodup_reverse] at hseen
  simpa [rows] using hseen

/-- An edge met is an edge of an opened node. -/
theorem mem_preorder {edge : Edge} :
    edge ∈ forest.preorder ↔ ∃ row ∈ rows root forest, edge ∈ row.2 := by
  rw [Forest.mem_preorder]
  simp [rows]

theorem closed (h : Searched s root forest) {edge : Edge} (hedge : edge ∈ forest.preorder)
    {key : Key} (htarget : s.target edge = some key) :
    key ∈ (rows root forest).map (fun row => s.key row.1) ∨ s.Barred edge ∧ s.mark edge = .barred := by
  obtain ⟨seen, hwalk⟩ := h.walk
  have hclosed := hwalk.closed (List.Subset.refl _) hedge htarget
  rw [hwalk.seen_eq] at hclosed
  rcases hclosed with hmem | hbar
  · simp only [List.mem_append, List.mem_reverse, List.mem_singleton] at hmem
    simp only [rows, List.map_cons, List.mem_cons]
    exact .inl hmem.symm
  · exact .inr hbar

/-- The opened nodes are exactly the reached ones. -/
theorem reached_iff (h : Searched s root forest) {key : Key} :
    DepthFirst.Reached s (rows root forest) (s.key root) key ↔
      key ∈ (rows root forest).map fun row => s.key row.1 := by
  constructor
  · intro hreached
    induction hreached with
    | start => exact List.mem_map.mpr ⟨_, List.mem_cons_self, rfl⟩
    | edge hrow _ hedge htarget hbarred _ =>
        rcases h.closed (mem_preorder.mpr ⟨_, hrow, hedge⟩) htarget with hmem | ⟨hbar, -⟩
        · exact hmem
        · exact absurd hbar hbarred
  · intro hmem
    obtain ⟨row, hrow, rfl⟩ := List.mem_map.mp hmem
    obtain ⟨seen, hwalk⟩ := h.walk
    rcases List.mem_cons.mp hrow with rfl | hrow
    · exact .start
    · exact hwalk.reached List.mem_cons_self (List.Subset.refl _) (List.subset_cons_self _ _) .start hrow

end Searched

end Hearth.Library
