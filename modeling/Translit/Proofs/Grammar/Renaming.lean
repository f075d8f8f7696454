import Translit.Parse.Error
import Translit.Proofs.Grammar.Automaton
import Translit.Proofs.Table

/-!
# Grammars with other node numbers

The numbers of nodes are names. Under a renaming a grammar keeps its nodes, with their lists in
order, and its constrained edges, and has them under other numbers.

* `Node.rename`, `Grammar.rename` : a node and a grammar under other numbers; `node?_rename`,
  `edge?_rename`, `Node.successors_rename` : what is found in them;
* `Defect.rename`, `ParseError.rename` : the errors that tell of them.
-/

namespace Translit

/-- A node whose lists name other numbers. -/
def Node.rename (f : NodeId → NodeId) (n : Node) : Node :=
  { n with children := n.children.mapValues (·.map f), fallback := n.fallback.map f }

theorem Node.successors_rename (f : NodeId → NodeId) (n : Node) (token : String) :
    (n.rename f).successors token = (n.successors token).map f := by
  show ((n.children.mapValues (·.map f)).get? token).getD (n.fallback.map f) = _
  unfold Node.successors
  rw [Table.get?_mapValues]
  cases n.children.get? token <;> rfl

namespace Grammar

/-- The grammar with other numbers for its nodes: as keys, in all lists, and at both ends of the
edges. -/
def rename (f : NodeId → NodeId) (g : Grammar) : Grammar :=
  { g with
    nodes := g.nodes.rename f (Node.rename f)
    edges := g.edges.rename f (Table.rename f fun c => c) }

variable {f : NodeId → NodeId} (hf : Function.Injective f) (g : Grammar)

include hf

theorem node?_rename (id : NodeId) :
    (g.rename f).node? (f id) = (g.node? id).map (Node.rename f) :=
  Table.get?_rename hf (Node.rename f) g.nodes id

theorem edge?_rename (parent child : NodeId) :
    (g.rename f).edge? (f parent) (f child) = g.edge? parent child := by
  have hparent : (g.rename f).edges.get? (f parent) =
      (g.edges.get? parent).map (Table.rename f fun c => c) :=
    Table.get?_rename hf _ g.edges parent
  unfold edge?
  rw [hparent]
  cases g.edges.get? parent with
  | none => rfl
  | some targets =>
    show (targets.rename f fun c => c).get? (f child) = targets.get? child
    rw [Table.get?_rename hf, Option.map_id']

end Grammar

/-! ## Errors -/

/-- A defect told of by other node numbers. -/
def Defect.rename (f : NodeId → NodeId) : Defect → Defect
  | missingNode id => missingNode (f id)
  | acceptsNothing node => acceptsNothing (f node)
  | acceptsUnknown node rule => acceptsUnknown (f node) rule
  | unknownRule rule => unknownRule rule
  | emptyRule rule => emptyRule rule
  | unknownOnmatch id => unknownOnmatch id
  | stated reason => stated reason

/-- An error told of by other node numbers; only defects of the grammar name nodes. -/
def ParseError.rename (f : NodeId → NodeId) : ParseError → ParseError
  | malformed defect => malformed (defect.rename f)
  | noMatch position token => noMatch position token
  | inputTooLarge size limit => inputTooLarge size limit
  | stackLimit size limit => stackLimit size limit
  | unrecognized spans => unrecognized spans

end Translit
