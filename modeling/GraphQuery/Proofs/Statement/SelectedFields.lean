import GraphQuery.Proofs.Descriptor.Placing
import Mathlib.Data.List.Induction

/-!
# Fields selected together

A selection puts its paths into the shape of a row one after the other. A path that was put has what the
row of the table has there, and keeps it while nothing is put behind it that the table does not declare.
Something undeclared is put behind it only when an object is in front, so whether it is depends on the
order of the paths, and on whether the object was selected itself or opened for another path.
-/

namespace GraphQuery

namespace Select

open Descriptor

/-- An insertion sets the entry of the first name. -/
theorem insertPath_cons (fields : List (String × Descriptor)) (name : String) (rest : List String)
    (t : Descriptor) : insertPath fields (name :: rest) t =
      Fields.insert fields name (((fields.lookup name).getD (.object [])).place rest t) := by
  induction rest generalizing fields name with
  | nil => rw [insertPath, place]
  | cons next more ih =>
      rw [insertPath]
      · cases found : fields.lookup name with
        | none => rw [ih, Option.getD_none, place_object]
        | some e =>
            rw [Option.getD_some]
            cases e with
            | object inner => rw [place_object, ← ih]
            | _ => exact (Fields.insert_of_lookup found).symm
      · exact List.cons_ne_nil next more

/-- The last path sets the field of its first name. -/
theorem selectedFields_concat (row : Descriptor) (paths : List String) (path : String) :
    ∃ name rest, Name.parts path = name :: rest ∧ selectedFields row (paths ++ [path]) =
      Fields.insert (selectedFields row paths) name
        ((((selectedFields row paths).lookup name).getD (.object [])).place rest
          (row.atPath path)) := by
  obtain ⟨name, rest, cut⟩ := List.exists_cons_of_ne_nil (Name.parts_ne_nil path)
  refine ⟨name, rest, cut, ?_⟩
  rw [selectedFields, List.foldl_concat, cut, insertPath_cons]
  rfl

/-- The last path is put where the others have been. -/
theorem object_selectedFields_concat (row : Descriptor) (paths : List String) (path : String) :
    object (selectedFields row (paths ++ [path])) =
      (object (selectedFields row paths)).place (Name.parts path) (row.atPath path) := by
  obtain ⟨name, rest, cut, last⟩ := selectedFields_concat row paths path
  rw [last, cut, place_object]

theorem drawn_selectedFields (row : Descriptor) (paths : List String) :
    Drawn row (.object (selectedFields row paths)) := by
  induction paths using List.reverseRecOn with
  | nil => exact .opened row
  | append_singleton paths path ih =>
      rw [object_selectedFields_concat]
      exact ih.place (Name.parts path)

theorem distinct_selectedFields (row : Descriptor) (paths : List String) :
    Fields.Distinct (selectedFields row paths) := by
  induction paths using List.reverseRecOn with
  | nil => exact List.nodup_nil
  | append_singleton paths path ih =>
      obtain ⟨name, rest, -, last⟩ := selectedFields_concat row paths path
      rw [last]
      exact ih.insert name _

/-- The names of the selected fields are the first names of the paths. -/
theorem mem_names_selectedFields (row : Descriptor) (paths : List String) (name : String) :
    name ∈ Fields.names (selectedFields row paths) ↔
      ∃ path ∈ paths, (Name.parts path).head? = some name := by
  induction paths using List.reverseRecOn with
  | nil => simp [selectedFields]
  | append_singleton paths path ih =>
      obtain ⟨first, rest, cut, last⟩ := selectedFields_concat row paths path
      rw [last, Fields.mem_names_insert, ih]
      constructor
      · rintro (rfl | ⟨other, member, starts⟩)
        · exact ⟨path, List.mem_append_right _ List.mem_cons_self, by rw [cut]; rfl⟩
        · exact ⟨other, List.mem_append_left _ member, starts⟩
      · rintro ⟨other, member, starts⟩
        rcases List.mem_append.mp member with earlier | here
        · exact .inr ⟨other, earlier, starts⟩
        · rw [List.mem_singleton.mp here, cut] at starts
          exact .inl (Option.some.inj starts).symm

/-- A path keeps what the row has there while no later path leads out of it. -/
theorem atPath_selectedFields (row : Descriptor) (before : List String) (path : String)
    (after : List String)
    (inside : ∀ later ∈ after, ¬ row.LeadsOut (Name.parts path) (Name.parts later)) :
    (object (selectedFields row (before ++ path :: after))).atPath path = row.atPath path := by
  induction after using List.reverseRecOn with
  | nil =>
      rw [object_selectedFields_concat]
      exact (drawn_selectedFields row before).atParts_place (Name.parts path)
  | append_singleton after last ih =>
      have earlier := ih fun later member => inside later (List.mem_append_left _ member)
      rw [← List.cons_append, ← List.append_assoc, object_selectedFields_concat]
      exact (drawn_selectedFields row (before ++ path :: after)).atParts_place_of_inside earlier
        (inside last (List.mem_append_right _ List.mem_cons_self))

/-- The row of a selection of fields without fetched links. -/
theorem rowType_fields (db : Database) {s : Select} (plain : s.fetch = []) (paths : List String) :
    (s.fields paths).rowType db = .object (selectedFields s.row paths) := by
  show fetched db s.fetch (.object (selectedFields s.row paths)) = _
  rw [plain]
  rfl

/-- **Selected fields.** The fields of the rows have the first names of the paths, each once. A path has
there what the row of the table has, unless a later path leads out of it. One more path changes what was
right at a path just when it goes on behind it to a name that an object of the selection lacks. -/
theorem fields_nest (db : Database) {s : Select} (plain : s.fetch = []) (paths : List String) :
    (∃ fields, (s.fields paths).rowType db = .object fields ∧ Fields.Distinct fields ∧
      ∀ name, name ∈ Fields.names fields ↔
        ∃ path ∈ paths, (Name.parts path).head? = some name) ∧
    (∀ before path after, paths = before ++ path :: after →
      (∀ later ∈ after, ¬ s.row.LeadsOut (Name.parts path) (Name.parts later)) →
      ((s.fields paths).rowType db).atPath path = s.row.atPath path) ∧
    ∀ path more, ((s.fields paths).rowType db).atPath path = s.row.atPath path →
      (((s.fields (paths ++ [more])).rowType db).atPath path = s.row.atPath path ↔
        ¬ ∃ rest, rest ≠ [] ∧ Name.parts more = Name.parts path ++ rest ∧
          ((s.fields paths).rowType db).lacks (Name.parts more) = true) := by
  refine ⟨⟨_, rowType_fields db plain paths, ?_, ?_⟩, ?_, ?_⟩
  · exact distinct_selectedFields s.row paths
  · exact mem_names_selectedFields s.row paths
  · rintro before path after rfl inside
    rw [rowType_fields db plain]
    exact atPath_selectedFields s.row before path after inside
  · intro path more agree
    rw [rowType_fields db plain] at agree ⊢
    rw [rowType_fields db plain, object_selectedFields_concat]
    exact (drawn_selectedFields s.row paths).atParts_place_iff agree

end Select

namespace Directory

/-- People with the first of their names. -/
def person : Declaration := .table ⟨"person", [("name", .object [("first", .string)])]⟩

def db : Database := .ofDeclarations [person]

theorem parts_name : Name.parts "name" = ["name"] := by decide

theorem parts_first : Name.parts "name.first" = ["name", "first"] := by decide

theorem parts_last : Name.parts "name.last" = ["name", "last"] := by decide

/-- A full name. -/
def ada : Json := .object [("first", .string "Ada"), ("last", .string "Lovelace")]

/-- A name has a first name. -/
theorem inside_first : ¬ person.recordType.LeadsOut (Name.parts "name") (Name.parts "name.first") := by
  rw [parts_name, parts_first]
  rintro ⟨rest, -, longer, nothing | missing⟩
  · cases nothing
  · cases longer
    cases missing

end Directory

/-- The name of a person stays what it is when its first name is selected as well, and does not when a
last name is. -/
theorem Select.fields_nest_person :
    ∃ s, Select.of Directory.db ⟨0⟩ (.table "person") = .ok s ∧ s.fetch = [] ∧
      ((s.fields ["name", "name.first"]).rowType Directory.db).atPath "name" =
        s.row.atPath "name" ∧
      ((s.fields ["name", "name.first", "name.last"]).rowType Directory.db).atPath "name" ≠
        s.row.atPath "name" := by
  obtain ⟨s, opened, row, plain⟩ : ∃ s, Select.of Directory.db ⟨0⟩ (.table "person") = .ok s ∧
      s.row = Directory.person.recordType ∧ s.fetch = [] := ⟨_, rfl, rfl, rfl⟩
  have laws := fields_nest Directory.db plain ["name", "name.first"]
  have name := laws.2.1 [] "name" ["name.first"] rfl (by
    intro later member
    rw [List.mem_singleton.mp member, row]
    exact Directory.inside_first)
  refine ⟨s, opened, plain, name, ?_⟩
  intro same
  refine (laws.2.2 "name" "name.last" name).mp same ⟨["last"], List.cons_ne_nil _ _, ?_, ?_⟩
  · rw [Directory.parts_last, Directory.parts_name]
    rfl
  · rw [rowType_fields Directory.db plain, row, Directory.parts_last]
    decide

/-- So the name of a person who has a last name is refused when it is selected first, and accepted when it
is selected second. -/
theorem Directory.last_name_refused :
    ∃ s, Select.of db ⟨0⟩ (.table "person") = .ok s ∧
      ((s.fields ["name", "name.last"]).rowType db).atPath "name" ≠ s.row.atPath "name" ∧
      (((s.fields ["name", "name.last"]).rowType db).atPath "name").validate ada = false ∧
      (((s.fields ["name.last", "name"]).rowType db).atPath "name").validate ada = true ∧
      (s.row.atPath "name").validate ada = true := by
  refine ⟨_, rfl, ?_, by decide, by decide, by decide⟩
  intro same
  exact absurd (congrArg (Descriptor.validate · ada) same) (by decide)

end GraphQuery
