import GraphQuery.Proofs.Construction.Congruence
import GraphQuery.Proofs.Query.Rendering

/-!
# Nodes and pieces

The node of a term writes the pieces of the term. A renderer calls those of its operands first and
puts their texts together afterwards; it does both in the same order, and this is what is shown here
for each way of making terms. Only a path looks at the text of its base: the record is left out in
front of a field, so nothing else may have the record as its text.
-/

namespace GraphQuery

/-! ## Paths -/

theorem joinPath_of_ne {base : String} (other : base ≠ Scopes.this) (segment : String) :
    joinPath base segment = base ++ segment := by
  unfold joinPath
  rw [beq_eq_false_iff_ne.mpr other]

namespace Piece

/-- The text of the pieces is the current record only if they are this one text. -/
def ThisAlone (ps : List Piece) : Prop :=
  ∀ n, (Compiled.numberFrom n ps).text = Scopes.this → ps = [.text Scopes.this]

variable {ps : List Piece} {c : Char}

theorem text_single (n : Nat) (content : String) :
    (Compiled.numberFrom n [.text content]).text = content := by
  simp [Compiled.numberFrom, Compiled.textsFrom]

theorem thisAlone_text (content : String) : ThisAlone [.text content] := by
  intro n same
  rw [text_single] at same
  rw [same]

/-- The characters of a text among pieces are in their text. -/
theorem mem_toList_numberFrom {s : String} (member : .text s ∈ ps) (mark : c ∈ s.toList) (n : Nat) :
    c ∈ (Compiled.numberFrom n ps).text.toList := by
  obtain ⟨before, after, rfl⟩ := List.append_of_mem member
  rw [Compiled.numberFrom_append, String.toList_append]
  refine List.mem_append_right _ ?_
  rw [Compiled.numberFrom, Compiled.textsFrom, String.join_cons, String.toList_append]
  exact List.mem_append_left _ mark

/-- What has another character in its text is not the record. -/
theorem thisAlone_of_text {s : String} (member : .text s ∈ ps) (mark : c ∈ s.toList)
    (other : c ∉ Scopes.this.toList) : ThisAlone ps := by
  intro n same
  have there := mem_toList_numberFrom member mark n
  rw [same] at there
  exact absurd there other

theorem thisAlone_value (v : Json) : ThisAlone [.value v] := by
  intro n same
  have mark : '_' ∈ (Compiled.numberFrom n [.value v]).text.toList := by
    simp [Compiled.numberFrom, Compiled.textsFrom, placeholder, variableName]
  rw [same] at mark
  exact absurd mark (by decide)

/-- A segment is written behind the text of its base. -/
theorem text_join {ps : List Piece} (alone : ThisAlone ps) (segment : String) (n : Nat) :
    (Compiled.numberFrom n (join ps segment)).text =
      joinPath (Compiled.numberFrom n ps).text segment := by
  unfold join
  split
  · rw [text_single, text_single]
  · next several =>
      have other : (Compiled.numberFrom n ps).text ≠ Scopes.this := by
        intro same
        exact several _ (alone n same)
      rw [joinPath_of_ne other, Compiled.numberFrom_append, text_single]

end Piece

/-- A segment has no values. -/
theorem Compiled.valuesFrom_join (n : Nat) (ps : List Piece) (segment : String) :
    valuesFrom n (Piece.join ps segment) = valuesFrom n ps := by
  unfold Piece.join
  split
  · rfl
  · rw [valuesFrom_append, valuesFrom, valuesFrom, List.append_nil]

namespace Writes

variable {scopes : Scopes} {r : Rendering String} {ps : List Piece}

theorem join (writes : Writes scopes r ps) (alone : Piece.ThisAlone ps) (segment : String) :
    Writes scopes (do return joinPath (← r) segment) (Piece.join ps segment) := by
  intro d numbered place
  have base := writes d numbered place
  show (joinPath (r.run d).1 segment, (r.run d).2) = _
  rw [base, Piece.text_join alone, Compiled.valuesFrom_join]

end Writes

/-! ## Nodes in the order of writing -/

namespace Node

variable (n receiver : Node) (arguments : List Node)

open Rendering

theorem renderOperand_of_atomic {n : Node} (atomic : n.atomic = true) :
    n.renderOperand = n.render := by
  simp [renderOperand, atomic]

theorem renderOperand_of_compound {n : Node} (compound : n.atomic = false) :
    n.renderOperand = append (pure "(") (append n.render (pure ")")) := by
  simp [renderOperand, compound, append, String.append_assoc]

theorem render_between (token : String) :
    (apply (.between token) receiver arguments).render =
      append receiver.renderOperand (append (pure (" " ++ token ++ " "))
        (joined (" " ++ token ++ " ") renderOperand arguments)) := by
  simp [apply, compound, append, joined, String.append_assoc]

theorem render_before (token : String) :
    (apply (.before token) receiver arguments).render =
      append (pure token) receiver.renderOperand := by
  simp [apply, Node.token, append]

theorem render_call (path : String) :
    (apply (.call path) receiver arguments).render =
      append (pure (path ++ "(")) (append (joined ", " render (receiver :: arguments)) (pure ")")) := by
  simp [apply, token, append, joined, String.append_assoc]

/-- The separator is rendered before the receiver, and is written there. -/
theorem render_callSeparated (path : String) :
    (apply (.callSeparated path) receiver arguments).render =
      append (pure (path ++ "(")) (append
        (joined ", " render (arguments.take 1 ++ receiver :: arguments.drop 1)) (pure ")")) := by
  simp [apply, token, append, joined, List.mapM_append, String.append_assoc]

theorem renderEntry_eq (entry : String × Node) :
    renderEntry entry = append (pure (Json.quote entry.1 ++ ": ")) entry.2.render := by
  simp [renderEntry, append]

theorem render_object {entries : List (String × Node)} (filled : entries ≠ []) :
    (object entries).render =
      append (pure "\x7b ") (append (joined ", " renderEntry entries) (pure " \x7d")) := by
  have nonempty : entries.isEmpty = false := List.isEmpty_eq_false_iff.mpr filled
  simp [object, token, nonempty, append, joined, String.append_assoc]

theorem render_array (items : List Node) :
    (array items).render = append (pure "[") (append (joined ", " render items) (pure "]")) := by
  simp [array, token, append, joined, String.append_assoc]

theorem render_query (scope : ScopeId) (statement : Rendering String) :
    (query scope statement).render =
      append (pure "(") (append (DisplayContext.within scope statement) (pure ")")) := by
  simp [query, token, append, String.append_assoc]

end Node

/-! ## Terms -/

namespace Term

@[simp] theorem nodeEach_eq_map (ts : List Term) : nodeEach ts = ts.map node := by
  induction ts with
  | nil => rfl
  | cons t rest ih => rw [nodeEach, ih, List.map_cons]

@[simp] theorem nodeEntries_eq_map (entries : List (String × Term)) :
    nodeEntries entries = entries.map fun entry => (entry.1, entry.2.node) := by
  induction entries with
  | nil => rfl
  | cons entry rest ih => rw [nodeEntries, ih, List.map_cons]

theorem atomic_node (t : Term) : t.node.atomic = t.isAtomic := by
  cases t with
  | apply op receiver arguments =>
      rw [node, isAtomic]
      cases op.form <;> rfl
  | _ => rfl

/-- At every place the node of a term writes the pieces of the term. In front of a field they are
left out only if they are the record. -/
structure Rendered (t : Term) : Prop where
  writes : ∀ scopes, Writes scopes t.node.render (t.pieces scopes)
  alone : ∀ scopes, Piece.ThisAlone (t.operandPieces scopes)

namespace Rendered

variable {t : Term} {ts : List Term}

/-- A term whose operands stand without parentheses. -/
theorem of_atomic (atomic : t.isAtomic = true)
    (writes : ∀ scopes, Writes scopes t.node.render (t.pieces scopes))
    (alone : ∀ scopes, Piece.ThisAlone (t.pieces scopes)) : t.Rendered := by
  refine ⟨writes, ?_⟩
  intro scopes
  unfold operandPieces enclose
  rw [if_pos atomic]
  exact alone scopes

theorem operand (rendered : t.Rendered) (scopes : Scopes) :
    Writes scopes t.node.renderOperand (t.operandPieces scopes) := by
  unfold operandPieces enclose
  split
  · next atomic =>
      rw [Node.renderOperand_of_atomic (t.atomic_node.trans atomic)]
      exact rendered.writes scopes
  · next compound =>
      rw [Node.renderOperand_of_compound (t.atomic_node.trans (Bool.eq_false_iff.mpr compound))]
      exact (rendered.writes scopes).between "(" ")"

theorem each (rendered : ∀ t ∈ ts, t.Rendered) (scopes : Scopes) :
    List.Forall₂ (fun n group => Writes scopes n.render group) (ts.map node)
      (ts.map (pieces scopes)) := by
  rw [List.forall₂_map_left_iff, List.forall₂_map_right_iff, List.forall₂_same]
  intro t member
  exact (rendered t member).writes scopes

theorem eachOperand (rendered : ∀ t ∈ ts, t.Rendered) (scopes : Scopes) :
    List.Forall₂ (fun n group => Writes scopes n.renderOperand group) (ts.map node)
      (ts.map (operandPieces scopes)) := by
  rw [List.forall₂_map_left_iff, List.forall₂_map_right_iff, List.forall₂_same]
  intro t member
  exact (rendered t member).operand scopes

theorem record (scope : ScopeId) : (Term.record scope).Rendered := by
  refine of_atomic rfl ?_ fun scopes => Piece.thisAlone_text _
  intro scopes d numbered place
  have written : Writes scopes (pure (scopes.record scope)) _ := .text _
  have written := written d numbered place
  rw [← place] at written ⊢
  exact written

theorem input : Term.input.Rendered :=
  of_atomic rfl (fun _ => .text _) fun _ => Piece.thisAlone_text _

theorem fieldPath (path : String) : (Term.fieldPath path).Rendered :=
  of_atomic rfl (fun _ => .text _) fun _ => Piece.thisAlone_text _

theorem value (v : Json) : (Term.value v).Rendered :=
  of_atomic rfl (fun _ => .value v) fun _ => Piece.thisAlone_value v

/-- A segment starts with a dot or a bracket, so no path is written like the record. -/
theorem get (key : Key) (base : t.Rendered) : (Term.get t key).Rendered := by
  refine of_atomic rfl (fun scopes => (base.operand scopes).join (base.alone scopes) key.segment) ?_
  intro scopes
  rw [pieces]
  unfold Piece.join
  split
  · exact Piece.thisAlone_text _
  · have last : Piece.text key.segment ∈ enclose t (pieces scopes t) ++ [.text key.segment] := by simp
    cases key with
    | field name => exact Piece.thisAlone_of_text (c := '.') last (by simp [Key.segment]) (by decide)
    | index i => exact Piece.thisAlone_of_text (c := '[') last (by simp [Key.segment]) (by decide)
    | present i => exact Piece.thisAlone_of_text (c := '[') last (by simp [Key.segment]) (by decide)

/-- The four ways of writing an application. -/
theorem apply {op : Operation} (known : op ∈ Operation.all) (receiver : t.Rendered)
    (arguments : ∀ t ∈ ts, t.Rendered) : (Term.apply op t ts).Rendered := by
  have separated (scopes : Scopes) :=
    Writes.joined ", " (.cons (receiver.writes scopes) (each arguments scopes))
  cases form : op.form with
  | between token =>
      -- Parentheses keep an operator from being taken for the record.
      refine ⟨?_, ?_⟩
      · intro scopes
        rw [node, pieces, nodeEach_eq_map, piecesEach_eq_map, form, Node.render_between, application,
          zipWith_enclose]
        exact (receiver.operand scopes).append
          (.cons _ (.joined _ (eachOperand arguments scopes)))
      · intro scopes
        have compound : (Term.apply op t ts).isAtomic = false := by
          rw [isAtomic, form]
        unfold operandPieces enclose
        rw [if_neg (by rw [compound]; decide)]
        exact Piece.thisAlone_of_text (s := "(") (c := '(') List.mem_cons_self (by decide) (by decide)
  | before token =>
      refine of_atomic (by rw [isAtomic, form]) ?_ ?_
      · intro scopes
        rw [node, pieces, nodeEach_eq_map, piecesEach_eq_map, form, Node.render_before, application]
        exact .cons token (receiver.operand scopes)
      · intro scopes
        rw [pieces, form, application]
        exact Piece.thisAlone_of_text List.mem_cons_self (Operation.exclamation_of_before known form)
          (by decide)
  | call path =>
      refine of_atomic (by rw [isAtomic, form]) ?_ ?_
      · intro scopes
        rw [node, pieces, nodeEach_eq_map, piecesEach_eq_map, form, Node.render_call, application]
        exact .cons _ ((separated scopes).append (.text ")"))
      · intro scopes
        rw [pieces, form, application]
        exact Piece.thisAlone_of_text (c := '(') List.mem_cons_self (by simp) (by decide)
  | callSeparated path =>
      refine of_atomic (by rw [isAtomic, form]) ?_ ?_
      · intro scopes
        have parts := List.rel_append (List.forall₂_take 1 (each arguments scopes))
          (.cons (receiver.writes scopes) (List.forall₂_drop 1 (each arguments scopes)))
        rw [node, pieces, nodeEach_eq_map, piecesEach_eq_map, form, Node.render_callSeparated, application]
        exact .cons _ ((Writes.joined ", " parts).append (.text ")"))
      · intro scopes
        rw [pieces, form, application]
        exact Piece.thisAlone_of_text (c := '(') List.mem_cons_self (by simp) (by decide)

theorem object {entries : List (String × Term)} (rendered : ∀ entry ∈ entries, entry.2.Rendered) :
    (Term.object entries).Rendered := by
  refine of_atomic rfl ?_ ?_
  · intro scopes
    rw [node, pieces, nodeEntries_eq_map, piecesEntries_eq_map]
    cases entries with
    | nil => exact .text "\x7b\x7d"
    | cons first rest =>
        have each : List.Forall₂ (fun n group => Writes scopes (Node.renderEntry n) group)
            ((first :: rest).map fun entry => (entry.1, entry.2.node))
            ((first :: rest).map fun entry =>
              .text (Json.quote entry.1 ++ ": ") :: entry.2.pieces scopes) := by
          rw [List.forall₂_map_left_iff, List.forall₂_map_right_iff, List.forall₂_same]
          intro entry member
          rw [Node.renderEntry_eq]
          exact .cons _ ((rendered entry member).writes scopes)
        rw [Node.render_object (by simp)]
        exact (Writes.joined ", " each).between "\x7b " " \x7d"
  · intro scopes
    rw [pieces]
    unfold objectLiteral
    split
    · exact Piece.thisAlone_text _
    · exact Piece.thisAlone_of_text (s := "\x7b ") (c := '\x7b') List.mem_cons_self (by decide)
        (by decide)

theorem array (rendered : ∀ t ∈ ts, t.Rendered) : (Term.array ts).Rendered := by
  refine of_atomic rfl ?_ ?_
  · intro scopes
    rw [node, pieces, nodeEach_eq_map, piecesEach_eq_map, Node.render_array]
    exact (Writes.joined ", " (each rendered scopes)).between "[" "]"
  · intro scopes
    rw [pieces]
    exact Piece.thisAlone_of_text (s := "[") (c := '[') List.mem_cons_self (by decide) (by decide)

end Rendered

end Term

/-! ## Expressions and layouts -/

/-- An expression on its own is compiled to its pieces. -/
theorem Expr.compile_eq {e : Expr} (rendered : e.term.Rendered) :
    e.compile = .ofPieces (e.term.pieces (Scopes.outermost.enter e.scope)) :=
  (rendered.writes _).within.compiled

/-- A part of a statement whose term is written as its pieces. -/
def Part.Rendered : Part → Prop
  | .text _ => True
  | .value _ => True
  | .term t => t.Rendered
  | .operand t => t.Rendered

namespace Layout

theorem writes {layout : Layout} (rendered : ∀ part ∈ layout, part.Rendered) (scopes : Scopes) :
    Writes scopes layout.render (layout.pieces scopes) := by
  induction layout with
  | nil => exact .empty
  | cons part rest ih =>
      have others := ih fun other member => rendered other (List.mem_cons_of_mem part member)
      have first : Writes scopes (Term.renderPart part) (Term.piecesPart scopes part) := by
        have here := rendered part List.mem_cons_self
        cases part with
        | text content => exact .text content
        | value v => exact .value v
        | term t => exact here.writes scopes
        | operand t => exact here.operand scopes
      exact first.append others

end Layout

/-- A sub-query is written inside its scope, between parentheses. -/
theorem Term.Rendered.query {layout : Layout} (rendered : ∀ part ∈ layout, part.Rendered)
    (scope : ScopeId) : (Term.query scope layout).Rendered := by
  refine .of_atomic rfl ?_ ?_
  · intro scopes
    rw [node, Node.render_query]
    exact (Layout.writes rendered (scopes.enter scope)).within.between "(" ")"
  · intro scopes
    rw [pieces]
    exact Piece.thisAlone_of_text (s := "(") (c := '(') List.mem_cons_self (by decide) (by decide)

end GraphQuery
