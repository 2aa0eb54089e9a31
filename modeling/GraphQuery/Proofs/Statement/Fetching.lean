import GraphQuery.Proofs.Schema.Resolve
import GraphQuery.Proofs.Text.Parts

/-!
# Fetched links in the shape of a row

A fetched name is looked up among the fields of the row as it stands, so a link that is a field of the row
itself is typed as the row it leads to, however often it is fetched. A dotted path names no field of the
row. The link at its end keeps its shape, though the path is written like any other and the rows come
back with what the link leads to.
-/

namespace GraphQuery

namespace Select

open Descriptor

section

variable {db : Database} {fields : List (String × Descriptor)}

/-- Follow the link at the field of a name, if there is one. -/
def followField (db : Database) (fields : List (String × Descriptor)) (name : String) :
    List (String × Descriptor) :=
  match fields.lookup name with
  | some t => Fields.insert fields name (db.resolve t)
  | none => fields

theorem lookup_followField (name other : String) : (followField db fields name).lookup other =
    if other = name then (fields.lookup other).map db.resolve else fields.lookup other := by
  unfold followField
  by_cases same : other = name
  · subst same
    cases found : fields.lookup other with
    | none => simp [found]
    | some t => simp
  · rw [if_neg same]
    cases fields.lookup name with
    | none => rfl
    | some t => exact Fields.lookup_insert_of_ne fields _ same

/-- A link is followed once, however often its name is there. -/
theorem lookup_foldl_followField (fields : List (String × Descriptor)) (names : List String)
    (name : String) : (names.foldl (followField db) fields).lookup name =
      if name ∈ names then (fields.lookup name).map db.resolve else fields.lookup name := by
  induction names generalizing fields with
  | nil => simp
  | cons first rest ih =>
      rw [List.foldl_cons, ih, lookup_followField]
      by_cases here : name = first
      · subst here
        cases fields.lookup name with
        | none => simp
        | some t => simp [db.resolve_resolve t]
      · simp [here]

/-- Of the fields of a row exactly those with fetched names are followed. -/
theorem get_fetched (db : Database) (names : List String) (fields : List (String × Descriptor))
    (name : String) : (fetched db names (.object fields)).get (.field name) =
      if name ∈ names then db.resolve ((object fields).get (.field name))
      else (object fields).get (.field name) := by
  have found : (names.foldl (followField db) fields).lookup name = _ :=
    lookup_foldl_followField fields names name
  show ((names.foldl (followField db) fields).lookup name).getD absent = _
  rw [found, Descriptor.get]
  split
  · cases fields.lookup name <;> rfl
  · rfl

/-- In front of every name of a path but the first an object stands. -/
def ObjectsInFront (t : Descriptor) (names : List String) : Prop :=
  ∀ front rest, names = front ++ rest → front ≠ [] → rest ≠ [] →
    ∃ fields, t.atParts front = .object fields

/-- **Fetched links.** Of all fields of a row, the link at a fetched path without points is typed as the
row it leads to. The link at a dotted path through objects keeps its shape, fetched or not, and so does
every path that neither is fetched nor goes on behind a fetched one. -/
theorem fetched_links (db : Database) {s : Select} {d : Declaration} (row : s.row = d.recordType)
    (all : s.projection = .all) :
    (∀ path ∈ s.fetch, Name.parts path = [path] →
      (s.rowType db).atPath path = db.resolve (s.row.atPath path)) ∧
    (∀ path, Name.parts path ≠ [path] → ObjectsInFront s.row (Name.parts path) →
      (s.rowType db).atPath path = s.row.atPath path) ∧
    ∀ path, (∀ fetched ∈ s.fetch, ¬ Name.parts fetched <+: Name.parts path) →
      (s.rowType db).atPath path = s.row.atPath path := by
  obtain ⟨fields, shape⟩ : ∃ fields, s.row = .object fields := ⟨_, row⟩
  have whole : s.rowType db = fetched db s.fetch (.object fields) := by rw [rowType, all, shape]
  -- Behind its first name a path is read in what stands there.
  have behind : ∀ path name rest, Name.parts path = name :: rest →
      (s.rowType db).atPath path = (if name ∈ s.fetch
        then db.resolve (s.row.get (.field name)) else s.row.get (.field name)).atParts rest := by
    intro path name rest cut
    rw [atPath, cut, whole, shape, ← get_fetched]
    rfl
  refine ⟨?_, ?_, ?_⟩
  · intro path named cut
    rw [behind path path [] cut, if_pos named, atPath, cut]
    rfl
  · intro path dotted objects
    obtain ⟨first, more, cut⟩ := List.exists_cons_of_ne_nil (Name.parts_ne_nil path)
    have further : more ≠ [] := by
      rintro rfl
      exact dotted (Name.eq_of_parts cut ▸ cut)
    obtain ⟨inner, object⟩ := objects [first] more cut (List.cons_ne_nil _ _) further
    change s.row.get (.field first) = .object inner at object
    -- There is no link to follow in front of the rest.
    have same : (if first ∈ s.fetch then db.resolve (s.row.get (.field first))
        else s.row.get (.field first)) = s.row.get (.field first) := by
      rw [object]
      exact ite_self _
    rw [behind path first more cut, same, atPath, cut]
    rfl
  · intro path apart
    obtain ⟨first, more, cut⟩ := List.exists_cons_of_ne_nil (Name.parts_ne_nil path)
    have other : first ∉ s.fetch := by
      intro named
      have single := Name.parts_of_mem_parts (cut ▸ List.mem_cons_self)
      exact apart first named ⟨more, by rw [single, cut]; rfl⟩
    rw [behind path first more cut, if_neg other, atPath, cut]
    rfl

end

end Select

namespace Journal

def user : Declaration := .table ⟨"user", [("name", .string)]⟩

/-- Posts with a link to their author, and one to an editor among other things. -/
def post : Declaration :=
  .table ⟨"post", [("author", .record (some "user")),
    ("meta", .object [("editor", .record (some "user"))])]⟩

def db : Database := .ofDeclarations [user, post]

theorem parts_author : Name.parts "author" = ["author"] := by decide

theorem parts_editor : Name.parts "meta.editor" = ["meta", "editor"] := by decide

/-- In front of the editor stands one object. -/
theorem objectsInFront_editor :
    Select.ObjectsInFront post.recordType (Name.parts "meta.editor") := by
  rw [parts_editor]
  rintro (_ | ⟨first, _ | ⟨second, front⟩⟩) rest split some further
  · exact absurd rfl some
  · obtain ⟨rfl, -⟩ := List.cons.inj split
    exact ⟨_, rfl⟩
  · have behind : [] = front ++ rest := (List.cons.inj (List.cons.inj split).2).2
    exact absurd (List.append_eq_nil_iff.mp behind.symm).2 further

end Journal

/-- When the authors and editors of posts are fetched, the author is typed as a user and the editor as a
link. -/
theorem Select.fetched_links_journal :
    ∃ s, Select.of Journal.db ⟨0⟩ (.table "post") = .ok s ∧ s.row = Journal.post.recordType ∧
      s.projection = .all ∧
      ((s.fetchFields ["author", "meta.editor"]).rowType Journal.db).atPath "author" =
        Journal.user.recordType ∧
      ((s.fetchFields ["author", "meta.editor"]).rowType Journal.db).atPath "meta.editor" =
        .record (some "user") := by
  obtain ⟨s, opened, row, all⟩ : ∃ s, Select.of Journal.db ⟨0⟩ (.table "post") = .ok s ∧
      s.row = Journal.post.recordType ∧ s.projection = .all := ⟨_, rfl, rfl, rfl⟩
  have links := fetched_links Journal.db (s := s.fetchFields ["author", "meta.editor"]) row all
  have objects : ObjectsInFront s.row (Name.parts "meta.editor") :=
    row ▸ Journal.objectsInFront_editor
  refine ⟨s, opened, row, all, ?_, ?_⟩
  · have there : "author" ∈ s.fetch ++ ["author", "meta.editor"] :=
      List.mem_append_right _ List.mem_cons_self
    refine (links.1 "author" there Journal.parts_author).trans ?_
    show Journal.db.resolve (s.row.atPath "author") = _
    rw [row, Descriptor.atPath, Journal.parts_author]
    rfl
  · refine (links.2.1 "meta.editor" (by decide) objects).trans ?_
    show s.row.atPath "meta.editor" = _
    rw [row, Descriptor.atPath, Journal.parts_editor]
    rfl

/-- So the row that a fetched editor comes back as is refused. -/
theorem Journal.editor_refused :
    ∃ s, Select.of db ⟨0⟩ (.table "post") = .ok s ∧
      let fetched := s.fetchFields ["meta.editor"]
      let editor := Json.object [("id", .string "user:ada"), ("name", .string "Ada")]
      Select.ObjectsInFront s.row (Name.parts "meta.editor") ∧
        (db.resolve (s.row.atPath "meta.editor")).validate editor = true ∧
        ((fetched.rowType db).atPath "meta.editor").validate editor = false := by
  refine ⟨_, rfl, objectsInFront_editor, ?_, ?_⟩
  · rw [Descriptor.atPath, parts_editor]
    decide
  · rw [Descriptor.atPath, parts_editor]
    decide

end GraphQuery
