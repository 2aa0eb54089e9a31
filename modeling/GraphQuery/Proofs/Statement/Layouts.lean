import GraphQuery.Proofs.Construction.Congruence
import GraphQuery.Proofs.Query.Alike

/-!
# Layouts of related statements

Statements whose terms are related in every clause have layouts that are related part by part. So being
written alike is a congruence of terms: a sub-query is written by the layout of its statement.
-/

namespace GraphQuery

variable {rename : ScopeId → ScopeId} {R : Term → Term → Prop}

/-- Expressions whose terms are alike. -/
abbrev Expr.Alike (rename : ScopeId → ScopeId) : Expr → Expr → Prop :=
  Termwise (Term.Alike rename)

namespace Layout.Related

theorem append {a b a' b' : Layout} (first : Layout.Related R a b)
    (second : Layout.Related R a' b') : Layout.Related R (a ++ a') (b ++ b') :=
  List.rel_append first second

theorem single (content : String) : Layout.Related R [.text content] [.text content] :=
  .cons (.text content) .nil

theorem separated (separator : String) {groups groups' : List Layout}
    (alike : List.Forall₂ (Layout.Related R) groups groups') :
    Layout.Related R (Layout.separated separator groups)
      (Layout.separated separator groups') := by
  induction alike with
  | nil => exact .nil
  | cons head tail ih =>
      cases tail with
      | nil => exact head
      | cons next more => exact append head (.cons (.text separator) ih)

/-- Text that the two statements agree on. -/
theorem textIf (condition : Bool) (content : String) :
    Layout.Related R (Layout.textIf condition content) (Layout.textIf condition content) := by
  cases condition with
  | false => exact .nil
  | true => exact single content

theorem paths (keyword : String) (names : List String) :
    Layout.Related R (Layout.paths keyword names) (Layout.paths keyword names) := by
  unfold Layout.paths
  split
  · exact .nil
  · exact single _

theorem limits (timeout : Option Duration) (parallel : Bool) :
    Layout.Related R (Layout.limits timeout parallel) (Layout.limits timeout parallel) := by
  cases timeout with
  | none => exact textIf parallel _
  | some span => exact append (single _) (textIf parallel _)

theorem onlyTarget (only : Bool) {a b : Layout} (alike : Layout.Related R a b) :
    Layout.Related R (Layout.onlyTarget only a) (Layout.onlyTarget only b) :=
  append (textIf only _) alike

theorem condition {c d : Option Expr} (alike : Option.Rel (Termwise R) c d) :
    Layout.Related R (Layout.condition c) (Layout.condition d) := by
  cases alike with
  | none => exact .nil
  | some alike => exact .cons (.text _) (.cons (.term alike) .nil)

/-- A layout that is alike part by part is written by alike pieces. -/
theorem pieces {a b : Layout} (alike : Layout.Related (Term.Alike rename) a b) (scopes : Scopes) :
    PiecesAlike (a.pieces scopes) (b.pieces (scopes.rename rename)) := by
  induction alike with
  | nil => exact .nil
  | cons head tail ih =>
      rw [Layout.pieces_cons, Layout.pieces_cons]
      refine PiecesAlike.append ?_ ih
      cases head with
      | text content => exact .single content
      | value v w => exact .cons (.value v w) .nil
      | term alike => exact alike.pieces scopes
      | operand alike => exact alike.operand scopes

end Layout.Related

section Clauses

open Layout.Related

theorem Target.Related.layout {a b : Target} (alike : Target.Related (Termwise R) a b) :
    Layout.Related R a.layout b.layout := by
  cases alike with
  | table name => exact single _
  | record ref other =>
      exact .cons (.text _) (.cons (.value _ _) (.cons (.text _) (.cons (.value _ _) (single _))))
  | expr alike => exact .cons (.operand alike) .nil

theorem Target.Related.endpointLayout {a b : Target}
    (alike : Target.Related (Termwise R) a b) :
    Layout.Related R a.endpointLayout b.endpointLayout := by
  have target := alike.layout
  cases alike with
  | table name => exact target
  | record ref other => exact append (.cons (.text _) target) (single _)
  | expr alike => exact target

theorem ReturnMode.Related.layout {m n : ReturnMode}
    (alike : ReturnMode.Related (Termwise R) m n) :
    Layout.Related R m.layout n.layout := by
  cases alike with
  | value alike => exact .cons (.text _) (.cons (.term alike) .nil)
  | _ => exact single _

theorem Trailer.Related.layout {t u : Trailer}
    (alike : Trailer.Related (Termwise R) t u) :
    Layout.Related R t.layout u.layout := by
  obtain ⟨m, timeout, parallel⟩ := t
  obtain ⟨n, timeout', parallel'⟩ := u
  obtain ⟨mode, rfl, rfl⟩ := alike
  refine append ?_ (limits timeout parallel)
  cases mode with
  | none => exact .nil
  | some mode => exact mode.layout

theorem Assignment.Related.layout {a b : Assignment}
    (alike : Assignment.Related (Termwise R) a b) :
    Layout.Related R a.layout b.layout := by
  cases alike with
  | mk field op alike => exact .cons (.text _) (.cons (.term alike) .nil)

theorem Assignment.Related.layouts {as bs : List Assignment}
    (alike : List.Forall₂ (Assignment.Related (Termwise R)) as bs) :
    Layout.Related R (Assignment.layouts as) (Assignment.layouts bs) := by
  refine Layout.Related.separated ", " (List.rel_map ?_ alike)
  intro a b alike
  exact alike.layout

theorem PayloadSlot.layout_related {p q : PayloadSlot}
    (alike : Option.Rel (Payload.Related (Termwise R)) p q) :
    Layout.Related R p.layout q.layout := by
  cases alike with
  | none => exact .nil
  | some payload =>
      refine .cons (.text _) ?_
      cases payload with
      | set assignments => exact .cons (.text _) (Assignment.Related.layouts assignments)
      | _ => exact .cons (.text _) (.cons (.value _ _) .nil)

theorem Projection.Related.layout {p q : Projection}
    (alike : Projection.Related (Termwise R) p q) :
    Layout.Related R (Select.projectionLayout p) (Select.projectionLayout q) := by
  cases alike with
  | value alike => exact .cons (.text _) (.cons (.term alike) .nil)
  | _ => exact single _

theorem Order.Related.layout {o p : Order} (alike : Order.Related (Termwise R) o p) :
    Layout.Related R o.layout p.layout := by
  cases alike with
  | mk direction collate numeric alike =>
      refine .cons (.term alike) ?_
      exact append (append (textIf collate _) (textIf numeric _)) (single _)

theorem Select.orderLayout_related {os ps : List Order}
    (alike : List.Forall₂ (Order.Related (Termwise R)) os ps) :
    Layout.Related R (Select.orderLayout os) (Select.orderLayout ps) := by
  have criteria :
      List.Forall₂ (Layout.Related R) (os.map Order.layout) (ps.map Order.layout) := by
    refine List.rel_map ?_ alike
    intro o p alike
    exact alike.layout
  cases alike with
  | nil => exact .nil
  | cons head tail => exact .cons (.text _) (Layout.Related.separated ", " criteria)

theorem Select.boundLayout_related (keyword : String) {m n : Option Nat}
    (present : m.isSome = n.isSome) :
    Layout.Related R (Select.boundLayout keyword m) (Select.boundLayout keyword n) := by
  cases m <;> cases n <;> simp at present
  · exact .nil
  · exact .cons (.text _) (.cons (.value _ _) .nil)

/-- Rows of one length are written alike, whatever their values. -/
theorem InsertData.rowLayout_related {v w : List Json} (lengths : v.length = w.length) :
    Layout.Related R (InsertData.rowLayout v) (InsertData.rowLayout w) := by
  have cells : List.Forall₂ (Layout.Related R) (v.map fun x => [.value x])
      (w.map fun x => [.value x]) := by
    rw [List.forall₂_map_left_iff, List.forall₂_map_right_iff, List.forall₂_iff_get]
    refine ⟨lengths, ?_⟩
    intro i _ _
    exact .cons (.value _ _) .nil
  exact append (.cons (.text _) (Layout.Related.separated ", " cells)) (single _)

theorem InsertData.Related.layout {d e : InsertData} (alike : InsertData.Related d e) :
    Layout.Related R d.layout e.layout := by
  cases alike with
  | empty => exact .cons (.value _ _) .nil
  | rows fields lines =>
      refine .cons (.text _) (Layout.Related.separated ", " (List.rel_map ?_ lines))
      intro v w lengths
      exact rowLayout_related lengths
  | documents vs ws =>
      -- However many documents there are, they are one value.
      have one : ∀ documents : List Json,
          ∃ v, (InsertData.documents documents).layout = [.value v] := by
        intro documents
        match documents with
        | [] => exact ⟨_, rfl⟩
        | [_] => exact ⟨_, rfl⟩
        | _ :: _ :: _ => exact ⟨_, rfl⟩
      obtain ⟨v, left⟩ := one vs
      obtain ⟨w, right⟩ := one ws
      rw [left, right]
      exact .cons (.value v w) .nil

theorem Insert.onDuplicateLayout_related {as bs : List Assignment}
    (alike : List.Forall₂ (Assignment.Related (Termwise R)) as bs) :
    Layout.Related R (Insert.onDuplicateLayout as) (Insert.onDuplicateLayout bs) := by
  have assignments := Assignment.Related.layouts alike
  cases alike with
  | nil => exact .nil
  | cons head tail => exact .cons (.text _) assignments

end Clauses

section Statements

open Layout.Related

/-! The clauses are taken off from the last to the first. -/

theorem Select.Related.layout {s t : Select}
    (alike : Select.Related (Termwise R) rename s t) :
    Layout.Related R s.layout t.layout := by
  unfold Select.layout
  rw [alike.only, alike.split, alike.group, alike.fetch, alike.timeout, alike.parallel]
  refine append ?_ (limits t.timeout t.parallel)
  refine append ?_ (paths _ t.fetch)
  refine append ?_ (Select.boundLayout_related _ alike.start)
  refine append ?_ (Select.boundLayout_related _ alike.limit)
  refine append ?_ (Select.orderLayout_related alike.order)
  refine append ?_ ?group
  case group =>
      cases t.group with
      | none => exact .nil
      | some g => cases g <;> exact single _
  refine append ?_ (paths _ t.split)
  refine append ?_ (Layout.Related.condition alike.condition)
  exact append (.cons (.text _) alike.projection.layout)
    (.cons (.text _) (onlyTarget t.only alike.target.layout))

theorem Create.Related.layout {s t : Create}
    (alike : Create.Related (Termwise R) rename s t) :
    Layout.Related R s.layout t.layout := by
  unfold Create.layout
  rw [alike.only]
  refine append ?_ alike.trailer.layout
  refine append ?_ (PayloadSlot.layout_related alike.payload)
  exact .cons (.text _) (onlyTarget t.only alike.target.layout)

theorem Update.Related.layout {s t : Update}
    (alike : Update.Related (Termwise R) rename s t) :
    Layout.Related R s.layout t.layout := by
  unfold Update.layout Update.keyword
  rw [alike.only, alike.upsert]
  refine append ?_ alike.trailer.layout
  refine append ?_ (Layout.Related.condition alike.condition)
  refine append ?_ (PayloadSlot.layout_related alike.payload)
  exact .cons (.text _) (onlyTarget t.only alike.target.layout)

theorem Delete.Related.layout {s t : Delete}
    (alike : Delete.Related (Termwise R) rename s t) :
    Layout.Related R s.layout t.layout := by
  unfold Delete.layout
  rw [alike.only]
  refine append ?_ alike.trailer.layout
  refine append ?_ (Layout.Related.condition alike.condition)
  exact .cons (.text _) (onlyTarget t.only alike.target.layout)

theorem Insert.Related.layout {s t : Insert}
    (alike : Insert.Related (Termwise R) rename s t) :
    Layout.Related R s.layout t.layout := by
  unfold Insert.layout
  rw [alike.table, alike.relation, alike.ignore]
  refine append ?_ alike.trailer.layout
  refine append ?_ (Insert.onDuplicateLayout_related alike.onDuplicate)
  refine append ?_ (.cons (.text _) alike.data.layout)
  exact append (.cons (.text _) (textIf t.relation _)) (textIf t.ignore _)

theorem Relate.Related.layout {s t : Relate}
    (alike : Relate.Related (Termwise R) rename s t) :
    Layout.Related R s.layout t.layout := by
  unfold Relate.layout
  rw [alike.only, alike.edge]
  refine append ?_ alike.trailer.layout
  refine append ?_ (PayloadSlot.layout_related alike.payload)
  refine append ?_ (.cons (.text _) alike.target.endpointLayout)
  exact append (.cons (.text _) (textIf t.only _)) alike.source.endpointLayout

/-- Whatever the kind, statements with related parts have related layouts. -/
theorem Statement.Related.layout {s t : Statement}
    (alike : Statement.Related (Termwise R) rename s t) :
    Layout.Related R s.layout t.layout := by
  cases alike with
  | select parts => exact parts.layout
  | create parts => exact parts.layout
  | update parts => exact parts.layout
  | delete parts => exact parts.layout
  | insert parts => exact parts.layout
  | relate parts => exact parts.layout

end Statements

namespace Term.Alike

/-- A sub-query is written inside its own scope, whose place is renamed with it. -/
theorem query {scope : ScopeId} {a b : Layout} (alike : Layout.Related (Term.Alike rename) a b) :
    Term.Alike rename (.query scope a) (.query (rename scope) b) := by
  refine ⟨rfl, ?_⟩
  intro scopes
  exact (alike.pieces (scopes.enter scope)).between "(" ")"

theorem object {es fs : List (String × Term)}
    (alike : List.Forall₂ (fun a b => a.1 = b.1 ∧ Term.Alike rename a.2 b.2) es fs) :
    Term.Alike rename (.object es) (.object fs) := by
  refine ⟨rfl, ?_⟩
  intro scopes
  rw [Term.pieces, Term.pieces, piecesEntries_eq_map, piecesEntries_eq_map]
  refine PiecesAlike.objectLiteral (List.rel_map ?_ alike)
  intro a b entry
  obtain ⟨key, t⟩ := a
  obtain ⟨key', u⟩ := b
  obtain ⟨rfl, alike⟩ := entry
  exact .cons (.text _) (alike.pieces scopes)

/-- Being written alike is a congruence, provided that distinct scopes stay distinct. -/
theorem congruence (injective : Function.Injective rename) :
    Congruence rename (Term.Alike rename) where
  record scope := by
    refine ⟨rfl, ?_⟩
    intro scopes
    rw [Term.pieces, Term.pieces, Scopes.record_rename injective]
    exact .single _
  input := ⟨rfl, fun _ => .single _⟩
  fieldPath path := ⟨rfl, fun _ => .single _⟩
  value v w := ⟨rfl, fun _ => .cons (.value v w) .nil⟩
  get key base := ⟨rfl, fun scopes => (base.operand scopes).join key.segment⟩
  apply known receiver arguments := by
    refine ⟨rfl, ?_⟩
    intro scopes
    rw [Term.pieces, Term.pieces, piecesEach_eq_map, piecesEach_eq_map]
    exact application _ receiver arguments scopes
  object := object
  array items := by
    refine ⟨rfl, ?_⟩
    intro scopes
    rw [Term.pieces, Term.pieces, piecesEach_eq_map, piecesEach_eq_map]
    exact (PiecesAlike.separated ", " (each items scopes)).between "[" "]"
  query alike := by
    rw [alike.scope_eq]
    exact query alike.layout

end Term.Alike

end GraphQuery
