import Translit.Grammar.Basic
import Translit.Grammar.Document.Reader
import Translit.Text.Quoted

/-!
# Loading a grammar

A document becomes a grammar when its pattern compiles and all its keys are node numbers; the
first fault in that order is the answer. Of several keys for one number the last in ascending
order of keys wins, for nodes among all of them, for edges among those with a constraint. How
patterns compile, and which do, is an argument: what is known of loading holds for every pattern
language.

* `NodeId.ofKey?` : the node number that a key denotes;
* `Grammar.loadWith` : the grammar of a document, for a way to compile patterns;
* `Grammar.load` : the grammar of a document with a pattern of `Pattern.compile?`;
* `Grammar.read` : the grammar of a text.
-/

namespace Translit

/-- Why a grammar cannot be loaded. -/
inductive LoadError where
  | invalidPattern (pattern : String)
  | invalidNodeKey (key : String)
  | invalidDocument
deriving DecidableEq

/-- How a load error reads. -/
def LoadError.message : LoadError → String
  | invalidPattern pattern => "Invalid tokenizer pattern " ++ Text.quoted pattern ++ ": "
  | invalidNodeKey key => "Invalid node key " ++ Text.quoted key
  | invalidDocument => "Invalid grammar document: "

/-- The number that a row of digits denotes, if it is below `2 ^ 64`. -/
def NodeId.ofDigits? (cs : List Char) : Option NodeId := do
  let ds ← cs.mapM Number.Digit.ofChar?
  if ds ≠ [] ∧ Number.value ds < UInt64.size then return UInt64.ofNat (Number.value ds) else none

/-- The node number that a key denotes: digits, behind a plus sign or not. -/
def NodeId.ofKey? (key : String) : Option NodeId :=
  match key.toList with
  | '+' :: cs => NodeId.ofDigits? cs
  | cs => NodeId.ofDigits? cs

namespace Grammar

/-- A key as a node number. -/
def nodeId (key : String) : Except LoadError NodeId :=
  match NodeId.ofKey? key with
  | some id => .ok id
  | none => .error (.invalidNodeKey key)

/-- A node with its fallback list set apart; a token with an empty list has none of its own. -/
def nodeOf (n : Document.Node) : Node where
  accepting := n.accepting
  rule := n.rule
  children := n.orderedChildren.filter fun token ids => token ≠ Document.fallbackKey ∧ ids ≠ []
  fallback := (n.orderedChildren.get? Document.fallbackKey).getD []

/-- The nodes of a document by number. -/
def loadNodes (t : Table String Document.Node) : Except LoadError (Table NodeId Node) :=
  t.entries.foldlM (fun nodes e => do return nodes.insert (← nodeId e.1) (nodeOf e.2)) .empty

/-- The edges with one more, unless it is without constraints. -/
def insertEdge (edges : Table NodeId (Table NodeId Constraints)) (parent child : NodeId)
    (e : Document.Edge) : Table NodeId (Table NodeId Constraints) :=
  let constraints := e.constraints.getD .empty
  if constraints.isEmpty then edges
  else edges.insert parent (((edges.get? parent).getD .empty).insert child constraints)

/-- The edges of a document by the numbers of their ends. -/
def loadEdges (t : Table String (Table String Document.Edge)) :
    Except LoadError (Table NodeId (Table NodeId Constraints)) :=
  t.entries.foldlM (fun edges targets => do
    let parent ← nodeId targets.1
    targets.2.entries.foldlM
      (fun edges e => do return insertEdge edges parent (← nodeId e.1) e.2) edges) .empty

/-- Classes in ascending order and each once. -/
def classSet (classes : List String) : List String :=
  (Table.ofList (classes.map fun c => (c, ()))).keys

/-- The grammar of a document, its pattern made ready by `compile`. -/
def loadWith (compile : String → Option Pattern) (d : Document) : Except LoadError Grammar := do
  let some pattern := compile d.pattern | throw (.invalidPattern d.pattern)
  let nodes ← loadNodes d.graph.nodes
  let edges ← loadEdges d.graph.edges
  return {
    nodes := nodes
    edges := edges
    rules := d.rules.toArray
    onmatchRules := d.onmatchRules.toArray
    onmatchLookup := d.onmatchLookup
    pattern := pattern
    classes := d.classes.mapValues classSet
    whitespace := d.whitespace }

/-- The grammar of a document whose pattern `Pattern.compile?` makes ready. -/
def load (d : Document) : Except LoadError Grammar := loadWith Pattern.compile? d

/-- The grammar of a text. -/
def read (s : String) : Except LoadError Grammar :=
  match Document.read? s with
  | some d => load d
  | none => .error .invalidDocument

end Grammar

end Translit
