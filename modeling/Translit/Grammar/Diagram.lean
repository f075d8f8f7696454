import Translit.Grammar.Basic
import Translit.Text.Quoted

/-!
# Diagrams

The automaton of a grammar as a directed graph in the DOT language: nodes in ascending order, then
the edges of each node, first those of its tokens in ascending order, then dashed those that serve
every other token. An accepting node also shows the production of its rule.

* `Grammar.diagram` : the text of the graph.
-/

namespace Translit.Grammar

/-- A text inside a DOT string. -/
def dotEscaped (s : String) : String :=
  String.ofList (s.toList.flatMap fun c => if c = '\\' ∨ c = '"' then ['\\', c] else [c])

/-- The constraints of an edge as they stand in its label, each behind a space. -/
def constraintLabel (g : Grammar) (parent child : NodeId) : String :=
  match g.edge? parent child with
  | none => ""
  | some c => String.join (c.kinds.map fun (name, values) =>
      " " ++ name ++ "=" ++ Text.quotedList values)

/-- The line of a node. -/
def nodeLine (g : Grammar) (id : NodeId) (n : Node) : String :=
  if n.accepting then
    let production := ((n.rule.bind g.rule?).map (·.production)).getD "?"
    s!"  n{id} [shape=doublecircle, label=\"{id}\\n" ++ dotEscaped production ++ "\"];\n"
  else s!"  n{id} [shape=circle, label=\"{id}\"];\n"

/-- The line of an edge, with what stands before its label. -/
def edgeLine (parent child : NodeId) (style label : String) : String :=
  s!"  n{parent} -> n{child} [" ++ style ++ "label=\"" ++ dotEscaped label ++ "\"];\n"

/-- The lines of the edges of a node. -/
def edgeLines (g : Grammar) (showConstraints : Bool) (id : NodeId) (n : Node) : String :=
  let constraints (child : NodeId) : String :=
    if showConstraints then g.constraintLabel id child else ""
  let keyed := n.children.entries.flatMap fun (token, ids) =>
    ids.map fun child => edgeLine id child "" (Text.quoted token ++ constraints child)
  let served := n.fallback.map fun child =>
    edgeLine id child "style=dashed, "
      (String.ofList ((constraints child).toList.dropWhile (· = ' ')))
  String.join (keyed ++ served)

/-- The automaton as a DOT graph. -/
def diagram (g : Grammar) (showConstraints : Bool) : String :=
  "digraph automaton \x7b\n  rankdir=LR;\n"
    ++ String.join (g.nodes.entries.map fun (id, n) => g.nodeLine id n)
    ++ String.join (g.nodes.entries.map fun (id, n) => g.edgeLines showConstraints id n)
    ++ "\x7d\n"

end Translit.Grammar
