import Translit.Grammar.Diagram
import Translit.Proofs.Text.Quoted

/-!
# Diagrams read back

A diagram is a row of statements, each of which ends with a label between quotes. Whatever the
tokens, productions and constraints in the labels are, a label ends where the writer closed it, so
the statements can be taken off the text one by one, and what they say is read off them.

* `Statement` : what a line of a diagram says; `Statement.text` : the line, up to its label, the
  label and the end;
* `Grammar.statements` : the statements of a diagram; `Grammar.diagram_eq` : it is their lines;
* `Statement.sealed_label` : a label goes on up to the quote that the writer puts behind it;
* `Statement.read?_diagram` : the statements are read off the diagram.
-/

namespace Translit

/-- What a line of a diagram says: a node, with what its rule writes if a rule ends there; or an
edge, with its token, or none if it serves every other token, and the constraints that it shows. -/
inductive Statement where
  | node (id : NodeId) (production : Option String)
  | edge (parent child : NodeId) (token : Option String) (constraints : Constraints)
deriving DecidableEq

namespace Statement

open Text

/-! ## Lines -/

/-- The values of a kind of constraint as they stand in a label. -/
def kindText (kind : String × List String) : String :=
  " " ++ kind.1 ++ "=" ++ quotedList kind.2

/-- The line of a statement up to its label. -/
def lead : Statement → String
  | node id none => "  n" ++ toString id ++ " [shape=circle, label="
  | node id (some _) => "  n" ++ toString id ++ " [shape=doublecircle, label="
  | edge parent child (some _) _ =>
    "  n" ++ toString parent ++ " -> n" ++ toString child ++ " [label="
  | edge parent child none _ =>
    "  n" ++ toString parent ++ " -> n" ++ toString child ++ " [style=dashed, label="

/-- The label of a statement as it stands between quotes. The constraints of an edge that serves
every other token stand without the space before the first of them. -/
def label : Statement → String
  | node id none => toString id
  | node id (some production) => toString id ++ "\\n" ++ Grammar.dotEscaped production
  | edge _ _ (some token) constraints =>
    Grammar.dotEscaped (quoted token ++ String.join (constraints.kinds.map kindText))
  | edge _ _ none constraints =>
    Grammar.dotEscaped (.ofList ((String.join (constraints.kinds.map kindText)).toList.dropWhile
      (· = ' ')))

/-- The line of a statement. -/
def text (s : Statement) : String := s.lead ++ "\"" ++ s.label ++ "\"];\n"

end Statement

namespace Grammar

/-- The constraints that the diagram shows on an edge, none of any kind if it shows none. -/
def shownOn (g : Grammar) (showConstraints : Bool) (parent child : NodeId) : Constraints :=
  if showConstraints then (g.edge? parent child).getD .empty else .empty

/-- The statement of a node. -/
def nodeStatement (g : Grammar) (id : NodeId) (n : Node) : Statement :=
  .node id
    (if n.accepting then some (((n.rule.bind g.rule?).map (·.production)).getD "?") else none)

/-- The statements of the edges of a node: those of its tokens, each with its children in their
order, and then those of its fallback list. -/
def edgeStatements (g : Grammar) (showConstraints : Bool) (id : NodeId) (n : Node) :
    List Statement :=
  n.children.entries.flatMap (fun e => e.2.map fun child =>
    .edge id child (some e.1) (g.shownOn showConstraints id child)) ++
  n.fallback.map fun child => .edge id child none (g.shownOn showConstraints id child)

/-- The statements of a diagram: those of the nodes, and then those of the edges of each node. -/
def statements (g : Grammar) (showConstraints : Bool) : List Statement :=
  g.nodes.entries.map (fun e => g.nodeStatement e.1 e.2) ++
    g.nodes.entries.flatMap fun e => g.edgeStatements showConstraints e.1 e.2

theorem nodeLine_eq (g : Grammar) (id : NodeId) (n : Node) :
    g.nodeLine id n = (g.nodeStatement id n).text := by
  have hcircle : " [shape=circle, label=\"" = " [shape=circle, label=" ++ "\"" := by decide
  have hdouble : " [shape=doublecircle, label=\"" = " [shape=doublecircle, label=" ++ "\"" := by
    decide
  unfold nodeLine nodeStatement
  by_cases h : n.accepting = true
  · rw [if_pos h, if_pos h]
    simp only [Statement.text, Statement.lead, Statement.label, Text.toString_string, hdouble,
      String.append_assoc]
  · rw [if_neg h, if_neg h]
    simp only [Statement.text, Statement.lead, Statement.label, Text.toString_string, hcircle,
      String.append_assoc]

theorem edgeLine_eq (parent child : NodeId) (style label : String) :
    edgeLine parent child style label =
      "  n" ++ toString parent ++ " -> n" ++ toString child ++ (" [" ++ style ++ "label=") ++ "\""
        ++ dotEscaped label ++ "\"];\n" := by
  have hopen : "label=\"" = "label=" ++ "\"" := by decide
  unfold edgeLine
  simp only [Text.toString_string, hopen, String.append_assoc]

theorem edgeLine_keyed (parent child : NodeId) (token : String) (constraints : Constraints) :
    edgeLine parent child ""
        (Text.quoted token ++ String.join (constraints.kinds.map Statement.kindText)) =
      (Statement.edge parent child (some token) constraints).text := by
  rw [edgeLine_eq]
  rfl

theorem edgeLine_served (parent child : NodeId) (constraints : Constraints) :
    edgeLine parent child "style=dashed, "
        (.ofList ((String.join (constraints.kinds.map Statement.kindText)).toList.dropWhile
          (· = ' '))) =
      (Statement.edge parent child none constraints).text := by
  rw [edgeLine_eq]
  rfl

theorem constraintLabel_eq (g : Grammar) (showConstraints : Bool) (parent child : NodeId) :
    (if showConstraints then g.constraintLabel parent child else "") =
      String.join ((g.shownOn showConstraints parent child).kinds.map Statement.kindText) := by
  unfold shownOn constraintLabel
  cases showConstraints with
  | false => rfl
  | true => cases g.edge? parent child <;> rfl

theorem edgeLines_eq (g : Grammar) (showConstraints : Bool) (id : NodeId) (n : Node) :
    g.edgeLines showConstraints id n =
      String.join ((g.edgeStatements showConstraints id n).map Statement.text) := by
  unfold edgeLines edgeStatements
  dsimp only
  simp only [constraintLabel_eq, edgeLine_keyed, edgeLine_served, List.map_append,
    List.map_flatMap, List.map_map, Function.comp_def]

/-- A diagram is the lines of its statements. -/
theorem diagram_eq (g : Grammar) (showConstraints : Bool) :
    g.diagram showConstraints = "digraph automaton \x7b\n  rankdir=LR;\n"
      ++ String.join ((g.statements showConstraints).map Statement.text) ++ "\x7d\n" := by
  have hnodes : g.nodes.entries.map (fun e => g.nodeLine e.1 e.2) =
      (g.nodes.entries.map fun e => g.nodeStatement e.1 e.2).map Statement.text := by
    rw [List.map_map]
    congr 1
    funext e
    exact g.nodeLine_eq e.1 e.2
  have hedges (es : List (NodeId × Node)) :
      String.join (es.map fun e => g.edgeLines showConstraints e.1 e.2) =
        String.join ((es.flatMap fun e => g.edgeStatements showConstraints e.1 e.2).map
          Statement.text) := by
    induction es with
    | nil => rfl
    | cons e es ih =>
      rw [List.map_cons, String.join_cons, ih, edgeLines_eq, ← String.join_append,
        ← List.map_append, List.flatMap_cons]
  unfold diagram statements
  rw [List.map_append, String.join_append, ← hnodes, ← hedges]
  simp only [String.append_assoc]

end Grammar

namespace Statement

open Text

/-! ## Labels -/

theorem sealed_dotEscaped (s : String) : Sealed (Grammar.dotEscaped s).toList := by
  rw [Grammar.dotEscaped, String.toList_ofList]
  apply Sealed.flatMap
  intro c
  by_cases hc : c = '\\' ∨ c = '"'
  · rw [if_pos hc]
    exact .escape c
  · rw [if_neg hc]
    exact .singleton (fun h => hc (.inr h)) (fun h => hc (.inl h))

theorem sealed_number (n : Nat) : Sealed (toString n).toList :=
  .of_notMem (Number.notMem_toString (by decide) n) (Number.notMem_toString (by decide) n)

/-- A label goes on up to the quote that is put behind it. -/
theorem sealed_label (s : Statement) : Sealed s.label.toList := by
  cases s with
  | node id production =>
    cases production with
    | none => exact sealed_number id.toNat
    | some production =>
      have hlabel : (label (node id (some production))).toList =
          (toString id.toNat).toList ++ ['\\', 'n'] ++ (Grammar.dotEscaped production).toList := by
        rw [label, String.toList_append, String.toList_append]
        rfl
      rw [hlabel]
      exact .append (.append (sealed_number id.toNat) (.escape 'n')) (sealed_dotEscaped production)
  | edge parent child token constraints =>
    cases token with
    | none => exact sealed_dotEscaped _
    | some token => exact sealed_dotEscaped _

/-- The text that stands in a string with its backslashes taken off. -/
def unescaped : (behind : Bool) → List Char → List Char
  | _, [] => []
  | behind, c :: cs =>
    if !behind ∧ c = '\\' then unescaped true cs else c :: unescaped false cs

theorem unescaped_dotEscaped (s : String) :
    unescaped false (Grammar.dotEscaped s).toList = s.toList := by
  rw [Grammar.dotEscaped, String.toList_ofList]
  induction s.toList with
  | nil => rfl
  | cons c cs ih =>
    rw [List.flatMap_cons]
    by_cases hc : c = '\\' ∨ c = '"'
    · rw [if_pos hc]
      show (if _ then unescaped true (c :: _) else _) = _
      rw [if_pos (by decide), unescaped, if_neg (by simp)]
      exact congrArg (c :: ·) ih
    · rw [if_neg hc, List.singleton_append, unescaped, if_neg (fun h => hc (.inl h.2)), ih]

/-! ## Reading -/

/-- The name of a kind of constraint and its values, and what follows them. -/
def takeKind? (cs : List Char) : Option ((String × List String) × List Char) := do
  let cs ← takeLiteral? " " cs
  let name := cs.takeWhile (· ≠ '=')
  let cs ← takeLiteral? "=" (cs.dropWhile (· ≠ '='))
  let (values, cs) ← takeTexts? cs
  return ((.ofList name, values), cs)

/-- The constraints of which the kinds that are present are listed by name. -/
def ofKinds (kinds : List (String × List String)) : Constraints where
  prevTokens := kinds.lookup "prev_tokens"
  nextTokens := kinds.lookup "next_tokens"
  prevClasses := kinds.lookup "prev_classes"
  nextClasses := kinds.lookup "next_classes"

/-- The constraints that a label shows, if it shows nothing else. -/
def readConstraints? (cs : List Char) : Option Constraints :=
  let (kinds, cs) := takeMany takeKind? cs
  if cs = [] then some (ofKinds kinds) else none

/-- A label and what follows its line. -/
def takeLabel? (cs : List Char) : Option (List Char × List Char) := do
  let cs ← takeLiteral? "\"" cs
  let (body, cs) ← takeBody? false cs
  let cs ← takeLiteral? "];\n" cs
  return (body, cs)

/-- A node with its label, behind its number. -/
def takeNode? (id : NodeId) (cs : List Char) : Option (Statement × List Char) :=
  match takeLiteral? " [shape=circle, label=" cs with
  | some cs => do
    let (_, cs) ← takeLabel? cs
    return (node id none, cs)
  | none => do
    let cs ← takeLiteral? " [shape=doublecircle, label=" cs
    let (body, cs) ← takeLabel? cs
    let body ← takeLiteral? (toString id ++ "\\n") body
    return (node id (some (.ofList (unescaped false body))), cs)

/-- An edge with its label, behind the numbers of its ends. -/
def takeEdge? (parent child : NodeId) (cs : List Char) : Option (Statement × List Char) :=
  match takeLiteral? " [label=" cs with
  | some cs => do
    let (body, cs) ← takeLabel? cs
    let (token, shown) ← takeQuoted? (unescaped false body)
    return (edge parent child (some token) (← readConstraints? shown), cs)
  | none => do
    let cs ← takeLiteral? " [style=dashed, label=" cs
    let (body, cs) ← takeLabel? cs
    let shown := unescaped false body
    -- the space before the first kind was left out
    let constraints ← readConstraints? (if shown = [] then [] else ' ' :: shown)
    return (edge parent child none constraints, cs)

/-- The statement that a text begins with, and what follows it. -/
def take? (cs : List Char) : Option (Statement × List Char) := do
  let cs ← takeLiteral? "  n" cs
  let (id, cs) ← takeNumber? cs
  match takeLiteral? " -> n" cs with
  | none => takeNode? (.ofNat id) cs
  | some cs =>
    let (child, cs) ← takeNumber? cs
    takeEdge? (.ofNat id) (.ofNat child) cs

/-- The statements of a diagram. -/
def read? (diagram : String) : Option (List Statement) := do
  let cs ← takeLiteral? "digraph automaton \x7b\n  rankdir=LR;\n" diagram.toList
  let (statements, cs) := takeMany take? cs
  if cs = "\x7d\n".toList then return statements else none

theorem ofKinds_kinds (c : Constraints) : ofKinds c.kinds = c := by
  obtain ⟨prevTokens, nextTokens, prevClasses, nextClasses⟩ := c
  cases prevTokens <;> cases nextTokens <;> cases prevClasses <;> cases nextClasses <;> rfl

/-- The name of a kind begins with a letter and has no sign of equality in it. -/
theorem name_of_mem_kinds {c : Constraints} {kind : String × List String} (h : kind ∈ c.kinds) :
    '=' ∉ kind.1.toList ∧ ∃ d ds, kind.1.toList = d :: ds ∧ d ≠ ' ' := by
  have hname : kind.1 = "prev_tokens" ∨ kind.1 = "next_tokens" ∨ kind.1 = "prev_classes" ∨
      kind.1 = "next_classes" := by
    simp only [Constraints.kinds, List.mem_append, Option.mem_toList, Option.map_eq_some_iff] at h
    rcases h with ((⟨_, _, rfl⟩ | ⟨_, _, rfl⟩) | ⟨_, _, rfl⟩) | ⟨_, _, rfl⟩ <;> simp
  rcases hname with hname | hname | hname | hname <;> rw [hname] <;>
    exact ⟨by decide, _, _, rfl, by decide⟩

theorem toList_kindText (kind : String × List String) :
    (kindText kind).toList =
      " ".toList ++ (kind.1.toList ++ ("=".toList ++ (quotedList kind.2).toList)) := by
  simp only [kindText, String.toList_append, List.append_assoc]

theorem takeKind?_kindText {kind : String × List String} (h : '=' ∉ kind.1.toList)
    (rest : List Char) : takeKind? ((kindText kind).toList ++ rest) = some (kind, rest) := by
  have hpass : ∀ c ∈ kind.1.toList, decide (c ≠ '=') = true := by
    intro c hc
    apply decide_eq_true
    rintro rfl
    exact h hc
  have hname (cs : List Char) :
      (kind.1.toList ++ ("=".toList ++ cs)).takeWhile (· ≠ '=') = kind.1.toList := by
    rw [List.takeWhile_append_of_pos hpass]
    exact List.append_nil _
  have hvalues (cs : List Char) :
      (kind.1.toList ++ ("=".toList ++ cs)).dropWhile (· ≠ '=') = "=".toList ++ cs := by
    rw [List.dropWhile_append_of_pos hpass]
    rfl
  rw [takeKind?, toList_kindText]
  simp only [List.append_assoc, takeLiteral?_append, hname, hvalues, takeTexts?_quotedList,
    Option.bind_eq_bind, Option.bind_some, Option.pure_def, String.ofList_toList]

theorem readConstraints?_kinds (c : Constraints) :
    readConstraints? (String.join (c.kinds.map kindText)).toList = some c := by
  have hkinds : takeMany takeKind? (c.kinds.flatMap (fun kind => (kindText kind).toList) ++ []) =
      (c.kinds, []) := by
    apply takeMany_flatMap
    · intro kind _
      rw [toList_kindText]
      simp
    · intro kind hkind rest
      exact takeKind?_kindText (name_of_mem_kinds hkind).1 rest
    · rfl
  rw [List.append_nil] at hkinds
  rw [readConstraints?, String.toList_join, List.flatMap_map, hkinds]
  exact (if_pos rfl).trans (congrArg some (ofKinds_kinds c))

/-- The space that was left out before the first kind is known from what is left. -/
theorem respaced_kinds (c : Constraints) :
    let shown := (String.join (c.kinds.map kindText)).toList.dropWhile (· = ' ')
    (if shown = [] then [] else ' ' :: shown) = (String.join (c.kinds.map kindText)).toList := by
  intro shown
  cases hkinds : c.kinds with
  | nil =>
    have hshown : shown = [] := by
      show (String.join (c.kinds.map kindText)).toList.dropWhile _ = _
      rw [hkinds]
      rfl
    rw [if_pos hshown]
    rfl
  | cons kind kinds =>
    obtain ⟨-, d, ds, hname, hd⟩ := name_of_mem_kinds (hkinds ▸ List.mem_cons_self)
    obtain ⟨cs, htext⟩ : ∃ cs,
        (String.join ((kind :: kinds).map kindText)).toList = ' ' :: d :: cs := by
      refine ⟨ds ++ ("=".toList ++ (quotedList kind.2).toList) ++
        (String.join (kinds.map kindText)).toList, ?_⟩
      rw [List.map_cons, String.join_cons, String.toList_append, toList_kindText, hname]
      simp
    have hshown : shown = d :: cs := by
      show (String.join (c.kinds.map kindText)).toList.dropWhile _ = _
      rw [hkinds, htext, List.dropWhile_cons_of_pos (by simp),
        List.dropWhile_cons_of_neg (by simpa)]
    rw [if_neg (by rw [hshown]; exact List.cons_ne_nil d cs), hshown, htext]

theorem takeLabel?_label (s : Statement) (rest : List Char) :
    takeLabel? ("\"".toList ++ (s.label.toList ++ ("\"];\n".toList ++ rest))) =
      some (s.label.toList, rest) := by
  have hbody : takeBody? false (s.label.toList ++ ("\"];\n".toList ++ rest)) =
      some (s.label.toList, "];\n".toList ++ rest) :=
    s.sealed_label.takeBody?_append ("];\n".toList ++ rest)
  rw [takeLabel?, takeLiteral?_append]
  simp only [Option.bind_eq_bind, Option.bind_some, hbody, takeLiteral?_append, Option.pure_def]

theorem takeNode?_text (id : NodeId) (production : Option String) (rest : List Char) :
    ∃ cs, (node id production).text.toList ++ rest =
        "  n".toList ++ ((toString id.toNat).toList ++ (" [".toList ++ cs)) ∧
      takeNode? id (" [".toList ++ cs) = some (node id production, rest) := by
  have hlabel := takeLabel?_label (node id production) rest
  cases production with
  | none =>
    refine ⟨"shape=circle, label=".toList ++ ("\"".toList ++
      ((node id none).label.toList ++ ("\"];\n".toList ++ rest))), ?_, ?_⟩
    · simp only [text, lead, String.toList_append, List.append_assoc]
      rfl
    · show takeNode? id (" [shape=circle, label=".toList ++ _) = _
      rw [takeNode?, takeLiteral?_append]
      simp only [hlabel, Option.bind_eq_bind, Option.bind_some, Option.pure_def]
  | some production =>
    refine ⟨"shape=doublecircle, label=".toList ++ ("\"".toList ++
      ((node id (some production)).label.toList ++ ("\"];\n".toList ++ rest))), ?_, ?_⟩
    · simp only [text, lead, String.toList_append, List.append_assoc]
      rfl
    · show takeNode? id (" [shape=doublecircle, label=".toList ++ _) = _
      have hcircle (cs : List Char) : takeLiteral? " [shape=circle, label="
          (" [shape=doublecircle, label=".toList ++ cs) = none := rfl
      have hproduction : takeLiteral? (toString id ++ "\\n")
          (node id (some production)).label.toList =
            some (Grammar.dotEscaped production).toList := by
        rw [label, String.toList_append]
        exact takeLiteral?_append _ _
      rw [takeNode?, hcircle]
      simp only [takeLiteral?_append, hlabel, hproduction, unescaped_dotEscaped,
        Option.bind_eq_bind, Option.bind_some, Option.pure_def, String.ofList_toList]

theorem takeEdge?_text (parent child : NodeId) (token : Option String) (constraints : Constraints)
    (rest : List Char) :
    ∃ cs, (edge parent child token constraints).text.toList ++ rest =
        "  n".toList ++ ((toString parent.toNat).toList ++ (" -> n".toList ++
          ((toString child.toNat).toList ++ (" [".toList ++ cs)))) ∧
      takeEdge? parent child (" [".toList ++ cs) =
        some (edge parent child token constraints, rest) := by
  have hlabel := takeLabel?_label (edge parent child token constraints) rest
  cases token with
  | some token =>
    refine ⟨"label=".toList ++ ("\"".toList ++
      ((edge parent child (some token) constraints).label.toList ++ ("\"];\n".toList ++ rest))),
      ?_, ?_⟩
    · simp only [text, lead, String.toList_append, List.append_assoc]
      rfl
    · show takeEdge? parent child (" [label=".toList ++ _) = _
      have hshown : unescaped false (edge parent child (some token) constraints).label.toList =
          (quoted token).toList ++ (String.join (constraints.kinds.map kindText)).toList := by
        rw [label, unescaped_dotEscaped, String.toList_append]
      rw [takeEdge?, takeLiteral?_append]
      simp only [hlabel, hshown, takeQuoted?_quoted, readConstraints?_kinds, Option.bind_eq_bind,
        Option.bind_some, Option.pure_def]
  | none =>
    refine ⟨"style=dashed, label=".toList ++ ("\"".toList ++
      ((edge parent child none constraints).label.toList ++ ("\"];\n".toList ++ rest))), ?_, ?_⟩
    · simp only [text, lead, String.toList_append, List.append_assoc]
      rfl
    · show takeEdge? parent child (" [style=dashed, label=".toList ++ _) = _
      have hkeyed (cs : List Char) : takeLiteral? " [label="
          (" [style=dashed, label=".toList ++ cs) = none := rfl
      have hshown : unescaped false (edge parent child none constraints).label.toList =
          (String.join (constraints.kinds.map kindText)).toList.dropWhile (· = ' ') := by
        rw [label, unescaped_dotEscaped, String.toList_ofList]
      have hspaced := respaced_kinds constraints
      dsimp only at hspaced
      rw [takeEdge?, hkeyed]
      simp only [takeLiteral?_append, hlabel, hshown, hspaced, readConstraints?_kinds,
        Option.bind_eq_bind, Option.bind_some, Option.pure_def]

/-- What the line of a statement says is read off it, and where the line ends is known. -/
theorem take?_text (s : Statement) (rest : List Char) :
    take? (s.text.toList ++ rest) = some (s, rest) := by
  have hnumber (id : NodeId) (word : String) (cs : List Char)
      (h : ∀ c ∈ (word.toList ++ cs).head?, Number.Digit.ofChar? c = none) :
      takeNumber? ((toString id.toNat).toList ++ (word.toList ++ cs)) =
        some (id.toNat, word.toList ++ cs) :=
    takeNumber?_toString id.toNat h
  cases s with
  | node id production =>
    obtain ⟨cs, htext, htake⟩ := takeNode?_text id production rest
    have hedge : takeLiteral? " -> n" (" [".toList ++ cs) = none := rfl
    rw [take?, htext, takeLiteral?_append]
    simp only [Option.bind_eq_bind, Option.bind_some, hnumber id " [" cs (by simp; decide), hedge,
      UInt64.ofNat_toNat]
    exact htake
  | edge parent child token constraints =>
    obtain ⟨cs, htext, htake⟩ := takeEdge?_text parent child token constraints rest
    rw [take?, htext, takeLiteral?_append]
    simp only [Option.bind_eq_bind, Option.bind_some, hnumber parent " -> n" _ (by simp; decide),
      takeLiteral?_append, hnumber child " [" cs (by simp; decide), UInt64.ofNat_toNat]
    exact htake

example : text (edge 0 1 none ⟨none, some ["\"", "\n"], none, none⟩) =
    "  n0 -> n1 [style=dashed, label=\"next_tokens=[\\\"\\\\\\\"\\\", \\\"\\\\n\\\"]\"];\n" := by
  decide

/-- The statements of a diagram are read off it. -/
theorem read?_diagram (g : Grammar) (showConstraints : Bool) :
    read? (g.diagram showConstraints) = some (g.statements showConstraints) := by
  have hstatements : takeMany take?
      ((g.statements showConstraints).flatMap (fun s => s.text.toList) ++ "\x7d\n".toList) =
        (g.statements showConstraints, "\x7d\n".toList) := by
    apply takeMany_flatMap
    · intro s _ h
      have htake := s.take?_text []
      rw [h] at htake
      cases htake
    · intro s _
      exact s.take?_text
    · rfl
  rw [read?, g.diagram_eq, String.toList_append, String.toList_append, List.append_assoc,
    takeLiteral?_append, String.toList_join, List.flatMap_map]
  simp only [Option.bind_eq_bind, Option.bind_some, hstatements, if_true, Option.pure_def]

end Statement

end Translit
