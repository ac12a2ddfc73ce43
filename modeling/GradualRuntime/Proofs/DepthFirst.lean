import Mathlib.Data.Finset.Card
import Mathlib.Data.Finset.Filter
import Mathlib.Data.List.Chain
import Mathlib.Logic.Relation

/-!
# Depth-first traversal

A traversal visits nodes in order. It enters a node that it has not met, visits the successors of
the node in order, and is then done with the node. It passes over the nodes that it is done with,
and it stops at the first node that it meets again while the node is on the path (`Visits`).

From finitely many nodes the traversal always comes to an end (`exists_visits`), in one way
(`Visits.unique`). Started at one
node, it stops on the path exactly when the node reaches a cycle (`finished_iff`), and otherwise it
is done with exactly the nodes that can be reached (`mem_done_iff`).
-/

set_option autoImplicit false

namespace GradualRuntime

namespace DepthFirst

variable {ν : Type}

/-- How a traversal comes out. -/
inductive Result (ν : Type) where
  /-- All nodes have been visited. -/
  | finished (done : List ν)
  /-- A node of the path was met again; the innermost node of the path comes first. -/
  | again (node : ν) (path done : List ν)

/-- The nodes that are done with when a traversal comes out. -/
def Result.done : Result ν → List ν
  | .finished done | .again _ _ done => done

/-- The traversal of a list of nodes, from a path and the nodes that are done with. -/
inductive Visits (next : ν → List ν) : List ν → List ν → List ν → Result ν → Prop where
  | nil (path done : List ν) : Visits next path done [] (.finished done)
  | skip {path done rest : List ν} {node : ν} {result : Result ν} (known : node ∈ done)
    (after : Visits next path done rest result) : Visits next path done (node :: rest) result
  | again {path done : List ν} (rest : List ν) {node : ν} (unknown : node ∉ done)
    (active : node ∈ path) : Visits next path done (node :: rest) (.again node path done)
  | enter {path done inner rest : List ν} {node : ν} {result : Result ν} (unknown : node ∉ done)
    (inactive : node ∉ path)
    (inside : Visits next (node :: path) done (next node) (.finished inner))
    (after : Visits next path (node :: inner) rest result) :
    Visits next path done (node :: rest) result
  | abort {path done innerPath innerDone : List ν} (rest : List ν) {node repeated : ν}
    (unknown : node ∉ done) (inactive : node ∉ path)
    (inside : Visits next (node :: path) done (next node) (.again repeated innerPath innerDone)) :
    Visits next path done (node :: rest) (.again repeated innerPath innerDone)

/-- One node leads to another in some steps. -/
def Reaches (next : ν → List ν) : ν → ν → Prop :=
  Relation.ReflTransGen fun node successor ↦ successor ∈ next node

/-- One of some nodes leads to another node. -/
def AnyReaches (next : ν → List ν) (nodes : List ν) (other : ν) : Prop :=
  ∃ first ∈ nodes, Reaches next first other

/-- A node leads back to itself. -/
def OnCycle (next : ν → List ν) (node : ν) : Prop :=
  Relation.TransGen (fun node successor ↦ successor ∈ next node) node node

variable {next : ν → List ν} {path done nodes : List ν}

theorem AnyReaches.cons {other : ν} (h : AnyReaches next nodes other) (node : ν) :
    AnyReaches next (node :: nodes) other := by
  obtain ⟨first, hfirst, hreach⟩ := h
  exact ⟨first, List.mem_cons_of_mem node hfirst, hreach⟩

/-- What the successors of a node lead to, the node leads to. -/
theorem AnyReaches.of_next {node other : ν} (h : AnyReaches next (next node) other)
    (rest : List ν) : AnyReaches next (node :: rest) other := by
  obtain ⟨first, hfirst, hreach⟩ := h
  exact ⟨node, List.mem_cons_self, .head hfirst hreach⟩

theorem anyReaches_head (next : ν → List ν) (node : ν) (rest : List ν) :
    AnyReaches next (node :: rest) node := ⟨node, List.mem_cons_self, .refl⟩

theorem anyReaches_singleton_iff {node other : ν} :
    AnyReaches next [node] other ↔ Reaches next node other := by
  simp [AnyReaches]

/-- What a traversal is done with, it stays done with. -/
theorem Visits.subset_done {result : Result ν} (h : Visits next path done nodes result) :
    done ⊆ result.done := by
  induction h with
  | nil => exact List.Subset.refl _
  | skip _ _ ih => exact ih
  | again => exact List.Subset.refl _
  | enter _ _ _ _ ihinside ihafter =>
    exact fun _ hmem ↦ ihafter (List.mem_cons_of_mem _ (ihinside hmem))
  | abort _ _ _ _ ih => exact ih

/-- A traversal comes out in one way. -/
theorem Visits.unique {result other : Result ν} (h : Visits next path done nodes result)
    (hother : Visits next path done nodes other) : other = result := by
  induction h generalizing other with
  | nil =>
    cases hother
    rfl
  | skip known _ ih =>
    cases hother with
    | skip _ after => exact ih after
    | again _ unknown | enter unknown | abort _ unknown => exact absurd known unknown
  | again _ unknown active =>
    cases hother with
    | skip known => exact absurd known unknown
    | again => rfl
    | enter _ inactive | abort _ _ inactive => exact absurd active inactive
  | enter unknown inactive _ _ ihinside ihafter =>
    cases hother with
    | skip known => exact absurd known unknown
    | again _ _ active => exact absurd active inactive
    | enter _ _ inside after =>
      cases ihinside inside
      exact ihafter after
    | abort _ _ _ inside => cases ihinside inside
  | abort _ unknown inactive _ ih =>
    cases hother with
    | skip known => exact absurd known unknown
    | again _ _ active => exact absurd active inactive
    | enter _ _ inside _ => cases ih inside
    | abort _ _ _ inside => exact ih inside

section Termination

variable [DecidableEq ν]

/-- The nodes that a traversal has not met. -/
def unseen (names : Finset ν) (path done : List ν) : Finset ν :=
  names.filter fun node ↦ node ∉ path ∧ node ∉ done

theorem card_unseen_cons_lt {names : Finset ν} {node : ν} (hname : node ∈ names)
    (hpath : node ∉ path) (hdone : node ∉ done) :
    (unseen names (node :: path) done).card < (unseen names path done).card := by
  refine Finset.card_lt_card (Finset.ssubset_iff_of_subset ?_ |>.2 ⟨node, ?_, ?_⟩)
  · intro other hother
    simp only [unseen, Finset.mem_filter, List.mem_cons, not_or] at hother ⊢
    exact ⟨hother.1, hother.2.1.2, hother.2.2⟩
  · exact Finset.mem_filter.2 ⟨hname, hpath, hdone⟩
  · simp [unseen]

theorem card_unseen_le {names : Finset ν} {more : List ν} (h : done ⊆ more) :
    (unseen names path more).card ≤ (unseen names path done).card := by
  refine Finset.card_le_card fun other hother ↦ ?_
  simp only [unseen, Finset.mem_filter] at hother ⊢
  exact ⟨hother.1, hother.2.1, fun hmem ↦ hother.2.2 (h hmem)⟩

/-- The traversal of nodes from a finite closed set comes to an end. -/
theorem exists_visits {names : Finset ν}
    (hclosed : ∀ node ∈ names, ∀ successor ∈ next node, successor ∈ names)
    (path done nodes : List ν) (hnodes : ∀ node ∈ nodes, node ∈ names) :
    ∃ result, Visits next path done nodes result := by
  match nodes with
  | [] => exact ⟨_, .nil path done⟩
  | node :: rest =>
    have hname : node ∈ names := hnodes node List.mem_cons_self
    have hrest : ∀ other ∈ rest, other ∈ names :=
      fun other hother ↦ hnodes other (List.mem_cons_of_mem node hother)
    by_cases hdone : node ∈ done
    · obtain ⟨result, hresult⟩ := exists_visits hclosed path done rest hrest
      exact ⟨result, .skip hdone hresult⟩
    by_cases hpath : node ∈ path
    · exact ⟨_, .again rest hdone hpath⟩
    have hfewer := card_unseen_cons_lt hname hpath hdone
    obtain ⟨inside, hinside⟩ :=
      exists_visits hclosed (node :: path) done (next node) (hclosed node hname)
    cases inside with
    | again repeated innerPath innerDone => exact ⟨_, .abort rest hdone hpath hinside⟩
    | finished inner =>
      have hmore : (unseen names path (node :: inner)).card ≤ (unseen names path done).card :=
        card_unseen_le fun _ hmem ↦ List.mem_cons_of_mem node (hinside.subset_done hmem)
      obtain ⟨result, hresult⟩ := exists_visits hclosed path (node :: inner) rest hrest
      exact ⟨result, .enter hdone hpath hinside hresult⟩
termination_by ((unseen names path done).card, nodes.length)
decreasing_by
  · exact Prod.Lex.right _ (Nat.lt_succ_self rest.length)
  · exact Prod.Lex.left _ _ hfewer
  · exact Prod.Lex.right' _ hmore (Nat.lt_succ_self rest.length)

end Termination

section Success

/-- Nodes that a traversal is done with: their successors are among them, and no cycle goes through
any of them. -/
structure Settled (next : ν → List ν) (done : List ν) : Prop where
  closed : ∀ node ∈ done, ∀ successor ∈ next node, successor ∈ done
  acyclic : ∀ node ∈ done, ¬ OnCycle next node

theorem settled_nil : Settled next [] := ⟨by simp, by simp⟩

theorem Settled.mem_of_transGen (h : Settled next done) {node other : ν} (hnode : node ∈ done)
    (hreach : Relation.TransGen (fun first second ↦ second ∈ next first) node other) :
    other ∈ done := by
  induction hreach with
  | single hstep => exact h.closed _ hnode _ hstep
  | tail _ hstep ih => exact h.closed _ ih _ hstep

theorem Settled.mem_of_reaches (h : Settled next done) {node other : ν} (hnode : node ∈ done)
    (hreach : Reaches next node other) : other ∈ done := by
  rcases Relation.reflTransGen_iff_eq_or_transGen.1 hreach with rfl | htrans
  · exact hnode
  · exact h.mem_of_transGen hnode htrans

/-- A node all of whose successors are settled can be added, unless it is settled itself. -/
theorem Settled.cons (h : Settled next done) {node : ν} (hnew : node ∉ done)
    (hnext : ∀ successor ∈ next node, successor ∈ done) : Settled next (node :: done) := by
  refine ⟨?_, ?_⟩
  · rintro other hother successor hsuccessor
    rcases List.mem_cons.1 hother with rfl | hmem
    · exact List.mem_cons_of_mem _ (hnext successor hsuccessor)
    · exact List.mem_cons_of_mem _ (h.closed other hmem successor hsuccessor)
  · intro other hother hcycle
    rcases List.mem_cons.1 hother with rfl | hmem
    · obtain ⟨successor, hfirst, hback⟩ := Relation.TransGen.head'_iff.1 hcycle
      exact hnew (h.mem_of_reaches (hnext successor hfirst) hback)
    · exact h.acyclic other hmem hcycle

/-- What a traversal that finishes has done. -/
theorem Visits.settled {result : List ν} (h : Visits next path done nodes (.finished result))
    (hdone : Settled next done) (hpath : ∀ node ∈ path, node ∉ done) :
    Settled next result ∧ nodes ⊆ result ∧ (∀ node ∈ path, node ∉ result) ∧
      ∀ node ∈ result, node ∈ done ∨ AnyReaches next nodes node := by
  generalize hfinished : Result.finished result = outcome at h
  induction h generalizing result with
  | nil =>
    cases hfinished
    exact ⟨hdone, by simp, hpath, fun _ hnode ↦ .inl hnode⟩
  | @skip path done rest node _ known after ih =>
    obtain ⟨hsettled, hrest, hpath', hfrom⟩ := ih hdone hpath hfinished
    refine ⟨hsettled, ?_, hpath', fun other hother ↦ ?_⟩
    · refine List.cons_subset.2 ⟨?_, hrest⟩
      subst hfinished
      exact after.subset_done known
    · exact (hfrom other hother).imp_right fun hreach ↦ hreach.cons node
  | again => cases hfinished
  | @enter path done inner rest node _ unknown inactive inside after ihinside ihafter =>
    have hinsidePath : ∀ other ∈ node :: path, other ∉ done := by
      rintro other hother
      rcases List.mem_cons.1 hother with rfl | hmem
      · exact unknown
      · exact hpath other hmem
    obtain ⟨hinner, hnext, hinnerPath, hinnerFrom⟩ := ihinside hdone hinsidePath rfl
    -- The node was on the path inside, so nothing that is done with leads back to it.
    have hnode : node ∉ inner := hinnerPath node List.mem_cons_self
    have hafterPath : ∀ other ∈ path, other ∉ node :: inner := by
      intro other hother hmem
      rcases List.mem_cons.1 hmem with rfl | hmem
      · exact inactive hother
      · exact hinnerPath other (List.mem_cons_of_mem node hother) hmem
    obtain ⟨hsettled, hrest, hpath', hfrom⟩ :=
      ihafter (hinner.cons hnode fun successor hsuccessor ↦ hnext hsuccessor) hafterPath hfinished
    refine ⟨hsettled, ?_, hpath', fun other hother ↦ ?_⟩
    · refine List.cons_subset.2 ⟨?_, hrest⟩
      subst hfinished
      exact after.subset_done List.mem_cons_self
    · rcases hfrom other hother with hbefore | hreach
      · rcases List.mem_cons.1 hbefore with rfl | hmem
        · exact .inr (anyReaches_head next other rest)
        · exact (hinnerFrom other hmem).imp_right fun hreach ↦ hreach.of_next rest
      · exact .inr (hreach.cons node)
  | abort => cases hfinished

end Success

section Failure

/-- Every node of a path is a successor of the node that comes after it in the list. -/
def IsPath (next : ν → List ν) (path : List ν) : Prop :=
  path.IsChain fun inner outer ↦ inner ∈ next outer

/-- From every node of a path its innermost node can be reached. -/
theorem IsPath.reaches_head {head : ν} {rest : List ν} (h : IsPath next (head :: rest)) {node : ν}
    (hnode : node ∈ head :: rest) : Reaches next node head := by
  induction rest generalizing head with
  | nil =>
    obtain rfl : node = head := by simpa using hnode
    exact .refl
  | cons second rest ih =>
    obtain ⟨hstep, htail⟩ := List.isChain_cons_cons.1 h
    rcases List.mem_cons.1 hnode with rfl | hmem
    · exact .refl
    · exact (ih htail hmem).tail hstep

/-- What a traversal that stops on its path has found: a longer path, whose innermost node leads
back to a node of it. -/
theorem Visits.again_spec {repeated : ν} {innerPath innerDone : List ν}
    (h : Visits next path done nodes (.again repeated innerPath innerDone))
    (hpath : IsPath next path) (hnodes : ∀ head ∈ path.head?, nodes ⊆ next head) :
    IsPath next innerPath ∧ repeated ∈ innerPath ∧
      (∀ head ∈ innerPath.head?, repeated ∈ next head) ∧
      ∀ node ∈ innerPath, node ∈ path ∨ AnyReaches next nodes node := by
  have hlater : ∀ {path rest : List ν} {node : ν},
      (∀ head ∈ path.head?, node :: rest ⊆ next head) → ∀ head ∈ path.head?, rest ⊆ next head :=
    fun hall head hhead ↦ (List.cons_subset.1 (hall head hhead)).2
  generalize hagain : Result.again repeated innerPath innerDone = outcome at h
  induction h with
  | nil => cases hagain
  | @skip path done rest node _ known after ih =>
    obtain ⟨hinner, hmem, hback, hfrom⟩ := ih hpath (hlater hnodes) hagain
    exact ⟨hinner, hmem, hback, fun other hother ↦
      (hfrom other hother).imp_right fun hreach ↦ hreach.cons node⟩
  | again rest unknown active =>
    cases hagain
    exact ⟨hpath, active, fun head hhead ↦ (List.cons_subset.1 (hnodes head hhead)).1,
      fun _ hother ↦ .inl hother⟩
  | @enter path done inner rest node _ unknown inactive inside after _ ihafter =>
    obtain ⟨hinner, hmem, hback, hfrom⟩ := ihafter hpath (hlater hnodes) hagain
    exact ⟨hinner, hmem, hback, fun other hother ↦
      (hfrom other hother).imp_right fun hreach ↦ hreach.cons node⟩
  | @abort path done _ _ rest node _ unknown inactive inside ih =>
    have hlonger : IsPath next (node :: path) :=
      hpath.cons fun head hhead ↦ (List.cons_subset.1 (hnodes head hhead)).1
    obtain ⟨hinner, hmem, hback, hfrom⟩ := ih hlonger (by simp) hagain
    refine ⟨hinner, hmem, hback, fun other hother ↦ ?_⟩
    rcases hfrom other hother with hbefore | hreach
    · rcases List.mem_cons.1 hbefore with rfl | hbefore
      · exact .inr (anyReaches_head next other rest)
      · exact .inl hbefore
    · exact .inr (hreach.of_next rest)

end Failure

section Characterization

variable {node : ν} {result : Result ν}

/-- From a fresh start at one node, the traversal is done with exactly the nodes that the node
reaches, and none of them lies on a cycle. -/
theorem mem_done_iff {done : List ν} (h : Visits next [] [] [node] (.finished done)) (other : ν) :
    other ∈ done ↔ Reaches next node other := by
  obtain ⟨hsettled, hnode, -, hfrom⟩ := h.settled settled_nil (by simp)
  constructor
  · intro hmem
    rcases hfrom other hmem with hnil | hreach
    · exact absurd hnil List.not_mem_nil
    · exact anyReaches_singleton_iff.1 hreach
  · exact hsettled.mem_of_reaches (hnode List.mem_cons_self)

/-- From a fresh start at one node, the traversal finishes exactly when the node reaches no
cycle. -/
theorem finished_iff (h : Visits next [] [] [node] result) :
    (∃ done, result = .finished done) ↔
      ∀ other, Reaches next node other → ¬ OnCycle next other := by
  cases result with
  | finished done =>
    refine iff_of_true ⟨done, rfl⟩ fun other hreach ↦ ?_
    obtain ⟨hsettled, -⟩ := h.settled settled_nil (by simp)
    exact hsettled.acyclic other ((mem_done_iff h other).2 hreach)
  | again repeated path done =>
    refine iff_of_false (by simp) fun hacyclic ↦ ?_
    obtain ⟨hpath, hmem, hback, hfrom⟩ := h.again_spec List.IsChain.nil (by simp)
    obtain ⟨head, rest, rfl⟩ := List.exists_cons_of_ne_nil (List.ne_nil_of_mem hmem)
    have hcycle : OnCycle next repeated :=
      Relation.TransGen.tail' (hpath.reaches_head hmem) (hback head rfl)
    rcases hfrom repeated hmem with hnil | hreach
    · exact absurd hnil List.not_mem_nil
    · exact hacyclic repeated (anyReaches_singleton_iff.1 hreach) hcycle

end Characterization

end DepthFirst

end GradualRuntime
