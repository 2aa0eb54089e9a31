import GraphQuery.Proofs.Query.Nodes
import GraphQuery.Proofs.Query.References
import GraphQuery.Proofs.Statement.SelectedFields

/-!
# Selecting a path and projecting along it

Selecting a dotted path and projecting the record along it write the same text. What a selection puts
at the path is read off the row without following links, what a projection has there is not: the two
agree on settled paths, and part at the first link that has something behind it.
-/

namespace GraphQuery

/-! ## The text of a path -/

namespace Name

theorem head?_ident (name : String) : (ident name).toList.head? ≠ some '$' := by
  rw [ident, String.toList_ofList, token]
  split
  · next bare =>
      -- No bare word starts so.
      intro dollar
      obtain ⟨rest, starts⟩ := List.head?_eq_some_iff.mp dollar
      rw [starts] at bare
      cases bare
  · simp

end Name

/-- Only the record itself is left out in front of a field. -/
theorem joinPath_of_head? {base : String} (token : base.toList.head? ≠ some '$')
    (segment : String) : joinPath base segment = base ++ segment := by
  refine joinPath_of_ne ?_ segment
  rintro rfl
  exact token rfl

namespace Expr

variable (db : Database) {e : Expr} {scopes : Scopes}

theorem scope_getFields (names : List String) : (e.getFields db names).scope = e.scope := by
  induction names generalizing e with
  | nil => rfl
  | cons name rest ih => exact ih

theorem type_getFields (names : List String) :
    (e.getFields db names).type = db.behind e.type names := by
  induction names generalizing e with
  | nil => rfl
  | cons name rest ih => exact ih

/-- Fields of what is one token are written behind it. -/
theorem written_getFields {base : String} (token : base.toList.head? ≠ some '$')
    (whole : e.term.written scopes = ⟨true, [.text base]⟩) (names : List String) :
    (e.getFields db names).term.written scopes =
      ⟨true, [.text (".".intercalate (base :: names.map Name.ident))]⟩ := by
  induction names generalizing e base with
  | nil => exact whole
  | cons name rest ih =>
      have next : (e.get db (.field name)).term.written scopes =
          ⟨true, [.text (base ++ ("." ++ Name.ident name))]⟩ := by
        obtain ⟨atomic, pieces⟩ := Written.mk.inj whole
        rw [← joinPath_of_head? token]
        show (Term.get e.term (.field name)).written scopes = _
        rw [Term.written, Term.pieces, Term.enclose, atomic, if_pos rfl, pieces]
        rfl
      -- What was one token in front still is.
      have further : (base ++ ("." ++ Name.ident name)).toList.head? ≠ some '$' := by
        rw [String.toList_append]
        cases h : base.toList with
        | nil => simp
        | cons c cs => simpa [h] using token
      show ((e.get db (.field name)).getFields db rest).term.written scopes = _
      rw [ih further next, List.map_cons, String.intercalate_cons_cons,
        String.intercalate_cons_append, String.intercalate_cons_append, String.append_assoc]

theorem rendered_getFields (rendered : e.term.Rendered) (names : List String) :
    (e.getFields db names).term.Rendered := by
  induction names generalizing e with
  | nil => exact rendered
  | cons name rest ih => exact ih (rendered.get (.field name))

/-- The record of a statement projected along a path is written as the path. -/
theorem compile_getFields_ofRecord (scope : ScopeId) (row : Descriptor) {names : List String}
    (further : names ≠ []) :
    ((ofRecord scope row).getFields db names).compile =
      ⟨".".intercalate (names.map Name.ident), []⟩ := by
  obtain ⟨name, rest, rfl⟩ := List.exists_cons_of_ne_nil further
  -- The first field stands without the record.
  have first : ((ofRecord scope row).get db (.field name)).term.written (.inside [scope]) =
      ⟨true, [.text (Name.ident name)]⟩ := by
    have field := Term.written_record_field [scope] scope name
    rwa [if_pos (show [scope].head? = some scope from rfl)] at field
  have whole := written_getFields db (Name.head?_ident name) first rest
  have pieces := congrArg Written.pieces whole
  rw [compile_eq (rendered_getFields db (.record scope) (name :: rest)), scope_getFields]
  show Compiled.ofPieces ((((ofRecord scope row).get db (.field name)).getFields db rest).term.written
    (.inside [scope])).pieces = _
  rw [pieces]
  simp [Compiled.ofPieces, Compiled.numberFrom, Compiled.textsFrom, Compiled.valuesFrom]

end Expr

/-! ## The shape at a path -/

namespace Select

/-- Without fetched links a selected path is read off the row. -/
theorem selectedAt_eq (db : Database) {s : Select} (plain : s.fetch = []) (path : String) :
    s.selectedAt db path = s.row.atParts (Name.parts path) := by
  rw [selectedAt, rowType_fields db plain]
  exact atPath_selectedFields s.row [] path [] (fun _ later => absurd later List.not_mem_nil)

theorem projectedAt_type (db : Database) (s : Select) (path : String) :
    (s.projectedAt db path).type = db.behind s.row (Name.parts path) :=
  Expr.type_getFields db (Name.parts path)

/-- Selecting a dotted field of a declared table and projecting the record along the same path write
the same text. The shapes there are equal when the path is settled. Where a link to a declared table
has more of the path behind it, the selection has the absent value in the place of the link, and the
projection what the rest of the path leads to in the linked row. There is nothing else that can
happen to a path of a row without unions. -/
theorem field_until_link {db : Database} {table : String} {d : Declaration}
    (declared : db.declaration? table = some d) (scope : ScopeId) (path : String) :
    ∃ s, Select.of db scope (.table table) = .ok s ∧ s.row = d.recordType ∧
      projectionLayout (s.fields [path]).projection = [.text (s.projectedAt db path).compile.text] ∧
      (db.SettledAlong s.row (Name.parts path) →
        s.selectedAt db path = (s.projectedAt db path).type) ∧
      (∀ front rest linked, db.MeetsLink s.row (Name.parts path) front rest linked → ∀ x,
        (s.selectedAt db path).check x = ((s.row.atParts front).relink .absent).check x ∧
        (s.projectedAt db path).type.check x =
          ((s.row.atParts front).relink (db.behind linked.recordType rest)).check x) ∧
      (s.row.UnionFree → db.SettledAlong s.row (Name.parts path) ∨
        ∃ front rest linked, db.MeetsLink s.row (Name.parts path) front rest linked) := by
  have opened : ∃ s, Select.of db scope (.table table) = .ok s ∧ s.row = d.recordType ∧
      s.fetch = [] := by
    simp only [Select.of, Target.rowType, Database.require, declared]
    exact ⟨_, rfl, rfl, rfl⟩
  obtain ⟨s, opened, row, plain⟩ := opened
  refine ⟨s, opened, row, ?_, ?_, ?_, ?_⟩
  · rw [projectedAt, record, Expr.compile_getFields_ofRecord db s.scope s.row (Name.parts_ne_nil path)]
    show [Part.text (", ".intercalate [Name.idiom path])] = _
    rfl
  · intro settled
    rw [selectedAt_eq db plain, projectedAt_type, settled.behind_eq]
  · intro front rest linked meets x
    obtain ⟨other, link, there⟩ := meets.link
    rw [selectedAt_eq db plain, projectedAt_type, meets.split, Descriptor.atParts_append,
      Database.behind_append, meets.settled.behind_eq]
    exact ⟨Database.check_atParts_of_link link meets.further x,
      Database.check_behind_of_link link there meets.further x⟩
  · intro free
    exact Database.settledAlong_or_meetsLink free (Name.parts path)

end Select

namespace Blog

/-- Posts with a link to their author, and with a place that is an object itself. -/
def post : Declaration :=
  .table ⟨"post", [("author", .record (some "user")), ("place", .object [("city", .string)])]⟩

def user : Declaration := .table ⟨"user", [("name", .string)]⟩

def db : Database := .ofDeclarations [user, post]

theorem declaration_post : db.declaration? "post" = some post := rfl

theorem parts_place : Name.parts "place.city" = ["place", "city"] := by decide

theorem parts_author : Name.parts "author.name" = ["author", "name"] := by decide

/-- The path of the author's name comes to the link first. -/
theorem meetsLink_author :
    db.MeetsLink post.recordType (Name.parts "author.name") ["author"] ["name"] user where
  split := parts_author
  further := by simp
  settled := ⟨Database.settled_object _, trivial⟩
  link := ⟨"user", rfl, rfl⟩

end Blog

/-- The city of a post is described alike in both ways. The name of its author is absent for the
selection and a string for the projection. -/
theorem Select.field_until_link_author :
    Blog.db.declaration? "post" = some Blog.post ∧
      (∃ s, Select.of Blog.db ⟨0⟩ (.table "post") = .ok s ∧
        s.selectedAt Blog.db "place.city" = (s.projectedAt Blog.db "place.city").type) ∧
      ∃ s, Select.of Blog.db ⟨0⟩ (.table "post") = .ok s ∧
        ∀ x, (s.selectedAt Blog.db "author.name").check x = Descriptor.absent.check x ∧
          (s.projectedAt Blog.db "author.name").type.check x = Descriptor.string.check x := by
  refine ⟨Blog.declaration_post, ?_, ?_⟩
  · obtain ⟨s, opened, row, _, agree, _⟩ :=
      Select.field_until_link Blog.declaration_post ⟨0⟩ "place.city"
    refine ⟨s, opened, agree ?_⟩
    rw [row, Blog.parts_place]
    exact ⟨Database.settled_object _, Database.settled_object _, trivial⟩
  · obtain ⟨s, opened, row, _, _, differ, _⟩ :=
      Select.field_until_link Blog.declaration_post ⟨0⟩ "author.name"
    rw [row] at differ
    exact ⟨s, opened, differ ["author"] ["name"] Blog.user Blog.meetsLink_author⟩

/-- So the selection refuses the name of an author, which the projection of the same text accepts. -/
theorem Blog.author_name_refused :
    ∃ s, Select.of db ⟨0⟩ (.table "post") = .ok s ∧
      Select.projectionLayout (s.fields ["author.name"]).projection = [.text "author.name"] ∧
      (s.projectedAt db "author.name").compile.text = "author.name" ∧
      (s.projectedAt db "author.name").type.validate (.string "Ada") = true ∧
      (s.selectedAt db "author.name").validate (.string "Ada") = false := by
  have written : Name.idioms ["author.name"] = "author.name" := by decide
  exact ⟨_, rfl, congrArg (fun text => [Part.text text]) written, by decide, rfl, rfl⟩

end GraphQuery
