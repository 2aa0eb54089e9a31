import GraphQuery.Proofs.Construction.Congruence
import GraphQuery.Proofs.Query.Legible

/-!
# Statements that can be read

The terms and statements that come from calls are legible at every place: what their text is read as
is what they are made of. Every clause starts with a space, so it may stand behind anything, and
every keyword, operator and name is plain.
-/

namespace GraphQuery

open Reading

/-- The pieces of a term are legible at every place. -/
def Term.Legible (t : Term) : Prop := ∀ scopes, Reading.Legible (t.pieces scopes)

/-- The pieces of a layout are legible at every place. -/
def Layout.Legible (layout : Layout) : Prop := ∀ scopes, Reading.Legible (layout.pieces scopes)

/-- A legible layout that may stand behind anything. -/
structure Layout.Clause (layout : Layout) : Prop where
  legible : layout.Legible
  opens : ∀ scopes, Opens (layout.pieces scopes)

/-- A space. -/
theorem plain_space : PlainText " " := .of_quiet rfl

theorem Term.Legible.operand {t : Term} (legible : t.Legible) (scopes : Scopes) :
    Reading.Legible (t.operandPieces scopes) := by
  unfold Term.operandPieces Term.enclose
  split
  · exact legible scopes
  · exact (legible scopes).parenthesized

namespace Layout.Legible

variable {first second : Layout}

theorem nil : Layout.Legible [] := fun _ => .nil

theorem text {content : String} (plain : PlainText content) : Layout.Legible [.text content] :=
  fun _ => .text plain

theorem value (v : Json) : Layout.Legible [.value v] := fun _ => .value v

theorem term {t : Term} (legible : t.Legible) : Layout.Legible [.term t] := by
  intro scopes
  have written := legible scopes
  rwa [← List.append_nil (t.pieces scopes)] at written

theorem operand {t : Term} (legible : t.Legible) : Layout.Legible [.operand t] := by
  intro scopes
  have written := legible.operand scopes
  rwa [← List.append_nil (t.operandPieces scopes)] at written

/-- Behind plain text any layout may stand. -/
theorem cons {content : String} (plain : PlainText content) (legible : Layout.Legible second) :
    Layout.Legible (.text content :: second) :=
  fun scopes => .cons plain (legible scopes)

theorem append (legible : Layout.Legible first) (clause : Layout.Clause second) :
    Layout.Legible (first ++ second) := by
  intro scopes
  rw [Layout.pieces_append]
  exact (legible scopes).append (clause.legible scopes) (clause.opens scopes)

/-- Layouts separated by commas. -/
theorem commas {groups : List Layout} (legible : ∀ group ∈ groups, Layout.Legible group) :
    Layout.Legible (Layout.separated ", " groups) := by
  intro scopes
  rw [Layout.pieces_separated]
  refine .commas ?_
  intro pieces member
  obtain ⟨group, found, rfl⟩ := List.mem_map.mp member
  exact legible group found scopes

theorem textIf {content : String} (plain : PlainText content) (condition : Bool)
    (legible : Layout.Legible second) :
    Layout.Legible (Layout.textIf condition content ++ second) := by
  cases condition with
  | false => exact legible
  | true => exact cons plain legible

end Layout.Legible

namespace Layout.Clause

open Layout.Legible

variable {first second : Layout}

theorem nil : Layout.Clause [] := ⟨.nil, fun _ => .nil⟩

theorem append (clause : Layout.Clause first) (clause' : Layout.Clause second) :
    Layout.Clause (first ++ second) := by
  refine ⟨clause.legible.append clause', ?_⟩
  intro scopes
  rw [Layout.pieces_append]
  exact (clause.opens scopes).append (clause'.opens scopes)

/-- A clause starts with no character of a word. -/
theorem marked {keyword : String} {c : Char} (head : keyword.toList.head? = some c)
    (noWord : Name.isWordChar c = false) (plain : PlainText keyword)
    (legible : Layout.Legible second) :
    Layout.Clause (.text keyword :: second) := by
  refine ⟨.cons plain legible, ?_⟩
  intro scopes
  exact Opens.text head noWord (Layout.pieces scopes second)

/-- Most clauses start with a space. -/
theorem spaced {keyword : String} (space : keyword.toList.head? = some ' ')
    (plain : PlainText keyword) (legible : Layout.Legible second) :
    Layout.Clause (.text keyword :: second) :=
  marked space rfl plain legible

/-- A closing parenthesis. -/
theorem closing : Layout.Clause [.text ")"] :=
  marked (show ")".toList.head? = some ')' from rfl) rfl (.of_quiet rfl) .nil

theorem textIf {content : String} (space : content.toList.head? = some ' ')
    (plain : PlainText content) (condition : Bool) :
    Layout.Clause (Layout.textIf condition content) := by
  cases condition with
  | false => exact nil
  | true => exact spaced space plain .nil

theorem paths {keyword : String} (space : keyword.toList.head? = some ' ')
    (plain : PlainText keyword) (names : List String) :
    Layout.Clause (Layout.paths keyword names) := by
  unfold Layout.paths
  split
  · exact nil
  · refine spaced ?_ (plain.append (.idioms names)) .nil
    rw [String.toList_append, List.head?_append, space]
    rfl

theorem limits (timeout : Option Duration) (parallel : Bool) :
    Layout.Clause (Layout.limits timeout parallel) := by
  have last : Layout.Clause (Layout.textIf parallel " PARALLEL") :=
    textIf rfl (.of_quiet rfl) parallel
  cases timeout with
  | none => exact last
  | some span =>
      refine (spaced ?_ ?_ .nil).append last
      · simp
      · exact PlainText.append (.of_quiet rfl) (.duration span)

end Layout.Clause

section Clauses

open Layout.Clause

/-- Only the expressions of the first statement are said to be legible. -/
abbrev Expr.Legible : Expr → Expr → Prop := Termwise fun t _ => t.Legible

theorem RecordRef.layout_legible (ref : RecordRef) : (Target.record ref).layout.Legible := by
  have id : Layout.Legible [.value ref.id, .text ")"] :=
    (Layout.Legible.value ref.id).append closing
  have comma : Layout.Clause [.text ", ", .value ref.id, .text ")"] :=
    marked (show ", ".toList.head? = some ',' from rfl) rfl (.of_quiet rfl) id
  have table := (Layout.Legible.value (.string ref.table)).append comma
  exact .cons (.of_quiet rfl) table

theorem Target.Related.legible {a b : Target} (alike : Target.Related Expr.Legible a b) :
    a.layout.Legible := by
  cases alike with
  | table name => exact .text (.ident name)
  | record ref other => exact ref.layout_legible
  | expr legible => exact .operand legible

theorem Target.Related.endpoint_legible {a b : Target} (alike : Target.Related Expr.Legible a b) :
    a.endpointLayout.Legible := by
  have target := alike.legible
  cases alike with
  | table name => exact target
  | record ref other => exact (Layout.Legible.cons (.of_quiet rfl) target).append closing
  | expr legible => exact target

theorem ReturnMode.Related.clause {m n : ReturnMode}
    (alike : ReturnMode.Related Expr.Legible m n) : Layout.Clause m.layout := by
  cases alike with
  | value legible => exact spaced rfl (.of_quiet rfl) (.term legible)
  | _ => exact spaced rfl (.of_quiet rfl) .nil

theorem Trailer.Related.clause {t u : Trailer} (alike : Trailer.Related Expr.Legible t u) :
    Layout.Clause t.layout := by
  obtain ⟨m, timeout, parallel⟩ := t
  obtain ⟨n, _, _⟩ := u
  obtain ⟨mode, _, _⟩ := alike
  refine append ?_ (limits timeout parallel)
  cases mode with
  | none => exact nil
  | some mode => exact mode.clause

theorem Layout.condition_clause {c d : Option Expr} (alike : Option.Rel Expr.Legible c d) :
    Layout.Clause (Layout.condition c) := by
  cases alike with
  | none => exact nil
  | some legible => exact spaced rfl (.of_quiet rfl) (.term legible)

theorem Assignment.Related.legible {a b : Assignment}
    (alike : Assignment.Related Expr.Legible a b) : a.layout.Legible := by
  cases alike with
  | mk field op legible =>
      have token : PlainText op.token := by
        cases op <;> exact .of_quiet rfl
      have left := ((PlainText.idiom field).append plain_space).append token
      exact .cons (left.append plain_space) (.term legible)

theorem Assignment.layouts_legible {as bs : List Assignment}
    (alike : List.Forall₂ (Assignment.Related Expr.Legible) as bs) :
    (Assignment.layouts as).Legible := by
  refine .commas ?_
  intro layout member
  obtain ⟨a, found, rfl⟩ := List.mem_map.mp member
  exact forall_mem_of_forall₂ alike (fun _ _ alike => alike.legible) a found

theorem Payload.Related.legible {p q : Payload} (alike : Payload.Related Expr.Legible p q) :
    p.layout.Legible := by
  cases alike with
  | set assignments => exact .cons (.of_quiet rfl) (Assignment.layouts_legible assignments)
  | _ => exact .cons (.of_quiet rfl) (.value _)

theorem PayloadSlot.clause {p q : PayloadSlot}
    (alike : Option.Rel (Payload.Related Expr.Legible) p q) : Layout.Clause p.layout := by
  cases alike with
  | none => exact nil
  | some payload => exact spaced rfl (.of_quiet rfl) payload.legible

theorem Projection.Related.legible {p q : Projection}
    (alike : Projection.Related Expr.Legible p q) : (Select.projectionLayout p).Legible := by
  cases alike with
  | all => exact .text (.of_quiet rfl)
  | fields paths => exact .text (.idioms paths)
  | value legible => exact .cons (.of_quiet rfl) (.term legible)

theorem Order.Related.legible {o p : Order} (alike : Order.Related Expr.Legible o p) :
    o.layout.Legible := by
  cases alike with
  | mk direction collate numeric legible =>
      have last : Layout.Clause [.text (" " ++ direction.token)] := by
        cases direction <;> exact spaced rfl (.of_quiet rfl) .nil
      have collates : Layout.Clause (Layout.textIf collate " COLLATE") :=
        textIf rfl (.of_quiet rfl) collate
      have numerals : Layout.Clause (Layout.textIf numeric " NUMERIC") :=
        textIf rfl (.of_quiet rfl) numeric
      exact (Layout.Legible.term legible).append ((collates.append numerals).append last)

theorem Select.order_clause {os ps : List Order}
    (alike : List.Forall₂ (Order.Related Expr.Legible) os ps) :
    Layout.Clause (Select.orderLayout os) := by
  unfold Select.orderLayout
  split
  · exact nil
  · refine spaced rfl (.of_quiet rfl) (.commas ?_)
    intro layout member
    obtain ⟨o, found, rfl⟩ := List.mem_map.mp member
    exact forall_mem_of_forall₂ alike (fun _ _ alike => alike.legible) o found

theorem Select.bound_clause {keyword : String} (space : keyword.toList.head? = some ' ')
    (plain : PlainText keyword) (n : Option Nat) :
    Layout.Clause (Select.boundLayout keyword n) := by
  cases n with
  | none => exact nil
  | some n => exact spaced space plain (.value _)

theorem Group.clause (g : Group) : Layout.Clause g.layout := by
  cases g with
  | all => exact spaced rfl (.of_quiet rfl) .nil
  | «by» paths =>
      refine spaced ?_ (PlainText.append (.of_quiet rfl) (.idioms paths)) .nil
      simp

theorem InsertData.row_legible (row : List Json) : (InsertData.rowLayout row).Legible := by
  have cells : ∀ cell ∈ row.map fun v => [Part.value v], Layout.Legible cell := by
    intro cell member
    obtain ⟨v, _, made⟩ := List.mem_map.mp member
    rw [← made]
    exact .value v
  exact (Layout.Legible.cons (.of_quiet rfl) (.commas cells)).append closing

theorem InsertData.legible (data : InsertData) : data.layout.Legible := by
  match data with
  | .empty => exact .value _
  | .documents [] => exact .value _
  | .documents [_] => exact .value _
  | .documents (_ :: _ :: _) => exact .value _
  | .rows fields lines =>
      have opening : PlainText "(" := .of_quiet rfl
      have behind : PlainText ") VALUES " := .of_quiet rfl
      refine .cons ((opening.append (.idioms fields)).append behind) (.commas ?_)
      intro line member
      obtain ⟨row, _, rfl⟩ := List.mem_map.mp member
      exact row_legible row

theorem Insert.onDuplicate_clause {as bs : List Assignment}
    (alike : List.Forall₂ (Assignment.Related Expr.Legible) as bs) :
    Layout.Clause (Insert.onDuplicateLayout as) := by
  unfold Insert.onDuplicateLayout
  split
  · exact nil
  · exact spaced rfl (.of_quiet rfl) (Assignment.layouts_legible alike)

end Clauses

section Statements

variable {rename : ScopeId → ScopeId}

theorem Select.Related.legible {s t : Select} (alike : Select.Related Expr.Legible rename s t) :
    s.layout.Legible := by
  have source : Layout.Clause (.text " FROM " :: Layout.onlyTarget s.only s.target.layout) :=
    .spaced rfl (.of_quiet rfl)
      (.textIf (.of_quiet rfl) s.only alike.target.legible)
  unfold Select.layout
  refine .append ?_ (.limits s.timeout s.parallel)
  refine .append ?_ (.paths rfl (.of_quiet rfl) s.fetch)
  refine .append ?_ (Select.bound_clause rfl (.of_quiet rfl) s.start)
  refine .append ?_ (Select.bound_clause rfl (.of_quiet rfl) s.limit)
  refine .append ?_ (Select.order_clause alike.order)
  refine .append ?_ ?group
  case group =>
      cases s.group with
      | none => exact .nil
      | some g => exact g.clause
  refine .append ?_ (.paths rfl (.of_quiet rfl) s.split)
  refine .append ?_ (Layout.condition_clause alike.condition)
  exact .append (.cons (.of_quiet rfl) alike.projection.legible) source

theorem Create.Related.legible {s t : Create} (alike : Create.Related Expr.Legible rename s t) :
    s.layout.Legible := by
  unfold Create.layout
  refine .append ?_ alike.trailer.clause
  refine .append ?_ (PayloadSlot.clause alike.payload)
  exact .cons (.of_quiet rfl)
    (.textIf (.of_quiet rfl) s.only alike.target.legible)

theorem Update.Related.legible {s t : Update} (alike : Update.Related Expr.Legible rename s t) :
    s.layout.Legible := by
  have keyword : PlainText s.keyword := by
    unfold Update.keyword
    split <;> exact .of_quiet rfl
  unfold Update.layout
  refine .append ?_ alike.trailer.clause
  refine .append ?_ (Layout.condition_clause alike.condition)
  refine .append ?_ (PayloadSlot.clause alike.payload)
  exact .cons (keyword.append plain_space)
    (.textIf (.of_quiet rfl) s.only alike.target.legible)

theorem Delete.Related.legible {s t : Delete} (alike : Delete.Related Expr.Legible rename s t) :
    s.layout.Legible := by
  unfold Delete.layout
  refine .append ?_ alike.trailer.clause
  refine .append ?_ (Layout.condition_clause alike.condition)
  exact .cons (.of_quiet rfl)
    (.textIf (.of_quiet rfl) s.only alike.target.legible)

theorem Insert.Related.legible {s t : Insert} (alike : Insert.Related Expr.Legible rename s t) :
    s.layout.Legible := by
  have into : PlainText ("INTO " ++ Name.ident s.table ++ " ") := by
    have keyword : PlainText "INTO " := .of_quiet rfl
    exact (keyword.append (.ident s.table)).append plain_space
  unfold Insert.layout
  refine .append ?_ alike.trailer.clause
  refine .append ?_ (Insert.onDuplicate_clause alike.onDuplicate)
  rw [List.append_assoc, List.cons_append]
  refine .cons (.of_quiet rfl) ?_
  refine .textIf (.of_quiet rfl) s.relation ?_
  refine .textIf (.of_quiet rfl) s.ignore ?_
  exact .cons into (InsertData.legible s.data)

theorem Relate.Related.legible {s t : Relate} (alike : Relate.Related Expr.Legible rename s t) :
    s.layout.Legible := by
  have arrow : PlainText ("->" ++ Name.ident s.edge ++ "->") := by
    have dash : PlainText "->" := .of_quiet rfl
    exact (dash.append (.ident s.edge)).append dash
  have target : Layout.Clause
      (.text ("->" ++ Name.ident s.edge ++ "->") :: s.target.endpointLayout) :=
    .marked (show _ = some '-' by simp) rfl arrow alike.target.endpoint_legible
  unfold Relate.layout
  refine .append ?_ alike.trailer.clause
  refine .append ?_ (PayloadSlot.clause alike.payload)
  refine .append ?_ target
  exact .cons (.of_quiet rfl)
    (.textIf (.of_quiet rfl) s.only alike.source.endpoint_legible)

/-- Whatever its kind, a statement with legible terms has a legible layout. -/
theorem Statement.Related.legible {s t : Statement}
    (alike : Statement.Related Expr.Legible rename s t) : s.layout.Legible := by
  cases alike with
  | select parts => exact parts.legible
  | create parts => exact parts.legible
  | update parts => exact parts.legible
  | delete parts => exact parts.legible
  | insert parts => exact parts.legible
  | relate parts => exact parts.legible

end Statements

theorem Operation.plain_text {op : Operation} (known : op ∈ Operation.all) :
    PlainText op.form.text := by
  have quiet : ∀ op ∈ Operation.all, op.form.text.toList.all isQuiet = true := by
    decide +kernel
  exact .of_quiet (quiet op known)

namespace Term.Legible

variable {t : Term} {ts : List Term}

theorem each (legible : ∀ t ∈ ts, t.Legible) (scopes : Scopes) :
    ∀ group ∈ ts.map (Term.pieces scopes), Reading.Legible group := by
  intro group member
  obtain ⟨t, found, rfl⟩ := List.mem_map.mp member
  exact legible t found scopes

/-- The four ways of writing an application, with a plain token or path. -/
theorem application {form : Form} (plain : PlainText form.text) (receiver : t.Legible)
    (arguments : ∀ t ∈ ts, t.Legible) (scopes : Scopes) :
    Reading.Legible
      (Term.application form t (t.pieces scopes) ts (ts.map (Term.pieces scopes))) := by
  have written := receiver scopes
  cases form with
  | between token =>
      have spaced : PlainText (" " ++ token ++ " ") :=
        (plain_space.append plain).append plain_space
      have opens : ∀ ps, Opens (.text (" " ++ token ++ " ") :: ps) :=
        Opens.text (show _ = some ' ' by simp) rfl
      have operands : ∀ group ∈ ts.map (Term.operandPieces scopes), Reading.Legible group := by
        intro group member
        obtain ⟨t, found, rfl⟩ := List.mem_map.mp member
        exact (arguments t found).operand scopes
      rw [Term.application, Term.zipWith_enclose]
      exact (receiver.operand scopes).append
        (.cons spaced (Reading.Legible.separated spaced opens operands)) (opens _)
  | before token => exact .cons plain (receiver.operand scopes)
  | call path =>
      refine Reading.Legible.call plain ?_
      intro group member
      rcases List.mem_cons.mp member with rfl | member
      · exact written
      · exact each arguments scopes group member
  | callSeparated path =>
      refine Reading.Legible.call plain ?_
      intro group member
      rcases List.mem_append.mp member with member | member
      · exact each arguments scopes group (List.mem_of_mem_take member)
      · rcases List.mem_cons.mp member with rfl | member
        · exact written
        · exact each arguments scopes group (List.mem_of_mem_drop member)

theorem object {es : List (String × Term)} (legible : ∀ e ∈ es, e.2.Legible) :
    (Term.object es).Legible := by
  intro scopes
  have entries : ∀ group ∈ es.map fun e => Piece.text (Json.quote e.1 ++ ": ") :: e.2.pieces scopes,
      Reading.Legible group := by
    intro group member
    obtain ⟨e, found, made⟩ := List.mem_map.mp member
    rw [← made]
    have colon : PlainText ": " := .of_quiet rfl
    exact .cons ((PlainText.quote e.1).append colon) (legible e found scopes)
  rw [Term.pieces, piecesEntries_eq_map]
  unfold Term.objectLiteral
  split
  · exact .text (.of_quiet rfl)
  · refine (Reading.Legible.commas entries).between (.of_quiet rfl) (.of_quiet rfl) ?_
    exact Opens.text rfl rfl []

theorem array {ts : List Term} (legible : ∀ t ∈ ts, t.Legible) : (Term.array ts).Legible := by
  intro scopes
  rw [Term.pieces, piecesEach_eq_map]
  refine (Reading.Legible.commas (each legible scopes)).between (.of_quiet rfl) (.of_quiet rfl) ?_
  exact Opens.text rfl rfl []

/-- A sub-query is written in parentheses, inside its own scope. -/
theorem query {layout : Layout} (legible : layout.Legible) (scope : ScopeId) :
    (Term.query scope layout).Legible :=
  fun scopes => (legible (scopes.enter scope)).parenthesized

/-- Being legible is a congruence; what the second terms are does not matter. -/
theorem congruence {rename : ScopeId → ScopeId} :
    Congruence rename fun t _ => t.Legible where
  record scope := by
    intro scopes
    have known : scopes.record scope = "$this" ∨ scopes.record scope = "$parent" := by
      unfold Scopes.record
      split
      · exact Or.inl rfl
      · exact Or.inr rfl
    rw [Term.pieces]
    rcases known with this | parent
    · rw [this]
      exact .parameter (show "$this".toList = '$' :: "this".toList from rfl) (by decide) (by decide)
    · rw [parent]
      exact .parameter (show "$parent".toList = '$' :: "parent".toList from rfl) (by decide)
        (by decide)
  input := fun _ =>
    .parameter (show "$input".toList = '$' :: "input".toList from rfl) (by decide) (by decide)
  fieldPath path := fun _ => .text (.idiom path)
  value v _ := fun _ => .value v
  get key legible := fun scopes => (legible.operand scopes).join key
  apply known receiver arguments := by
    intro scopes
    rw [Term.pieces, piecesEach_eq_map]
    exact application (Operation.plain_text known) receiver
      (forall_mem_of_forall₂ arguments fun _ _ legible => legible) scopes
  object entries := object (forall_mem_of_forall₂ entries fun _ _ entry => entry.2)
  array items := array (forall_mem_of_forall₂ items fun _ _ legible => legible)
  query alike := query alike.legible _

end Term.Legible

end GraphQuery
