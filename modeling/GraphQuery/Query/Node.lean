import GraphQuery.Query.Display
import GraphQuery.Query.Term

/-!
# Nodes

A `Node` is what an expression is rendered by. Nodes are put together from nodes; the renderer of a
node calls the renderers of its operands, and nothing is rendered before a statement is compiled.
`Term.node` is the node of a term.
-/

namespace GraphQuery

open DisplayContext

/-- A renderer. What it writes is a single token or has brackets of its own if the node is atomic; any
other node is put in parentheses when it is an operand. -/
structure Node where
  render : Rendering String
  atomic : Bool

namespace Node

/-- A node that stands as it is. -/
def token (render : Rendering String) : Node := ⟨render, true⟩

/-- An application of an operator. -/
def compound (render : Rendering String) : Node := ⟨render, false⟩

/-- Render for use as an operand. -/
def renderOperand (n : Node) : Rendering String := do
  let text ← n.render
  return if n.atomic then text else "(" ++ text ++ ")"

/-- A raw value: a new variable each time it is rendered. -/
def bound (v : Json) : Node := token (bind v)

/-- A field or an item of a node. -/
def get (base : Node) (segment : String) : Node :=
  token do return joinPath (← base.renderOperand) segment

/-- An application. The operands are rendered one after the other, and then put into one text. -/
def apply (form : Form) (receiver : Node) (arguments : List Node) : Node :=
  match form with
  | .between symbol => compound do
    let left ← receiver.renderOperand
    let right ← arguments.mapM renderOperand
    return left ++ " " ++ symbol ++ " " ++ (" " ++ symbol ++ " ").intercalate right
  | .before symbol => token do
    return symbol ++ (← receiver.renderOperand)
  | .call path => token do
    let first ← receiver.render
    let rest ← arguments.mapM render
    return path ++ "(" ++ ", ".intercalate (first :: rest) ++ ")"
  | .callSeparated path => token do
    let separator ← (arguments.take 1).mapM render
    let first ← receiver.render
    let rest ← (arguments.drop 1).mapM render
    return path ++ "(" ++ ", ".intercalate (separator ++ first :: rest) ++ ")"

/-- An entry of an object literal. -/
def renderEntry (entry : String × Node) : Rendering String := do
  return Json.quote entry.1 ++ ": " ++ (← entry.2.render)

/-- An object literal; the braces of an empty one touch. -/
def object (entries : List (String × Node)) : Node := token do
  if entries.isEmpty then return "\x7b\x7d"
  let fields ← entries.mapM renderEntry
  return "\x7b " ++ ", ".intercalate fields ++ " \x7d"

def array (items : List Node) : Node := token do
  let texts ← items.mapM render
  return "[" ++ ", ".intercalate texts ++ "]"

/-- A statement as a sub-query, inside its scope. -/
def query (scope : ScopeId) (statement : Rendering String) : Node := token do
  return "(" ++ (← within scope statement) ++ ")"

end Node

namespace Term

mutual

/-- The node of a term. -/
def node : Term → Node
  | record scope => .token (DisplayContext.record scope)
  | input => .token (pure "$input")
  | fieldPath path => .token (pure (Name.idiom path))
  | value v => .bound v
  | get base key => .get (node base) key.segment
  | apply op receiver arguments => .apply op.form (node receiver) (nodeEach arguments)
  | object entries => .object (nodeEntries entries)
  | array items => .array (nodeEach items)
  | query scope layout => .query scope (renderLayout layout)

def nodeEach : List Term → List Node
  | [] => []
  | t :: rest => node t :: nodeEach rest

def nodeEntries : List (String × Term) → List (String × Node)
  | [] => []
  | (key, t) :: rest => (key, node t) :: nodeEntries rest

/-- Render a part of a statement. -/
def renderPart : Part → Rendering String
  | .text s => pure s
  | .value v => bind v
  | .term t => (node t).render
  | .operand t => (node t).renderOperand

/-- Render the parts of a statement one after the other. -/
def renderLayout : List Part → Rendering String
  | [] => pure ""
  | part :: rest => do
    let text ← renderPart part
    let others ← renderLayout rest
    return text ++ others

end

end Term

end GraphQuery
