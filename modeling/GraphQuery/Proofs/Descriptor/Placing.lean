import GraphQuery.Proofs.Schema.FieldPath

/-!
# Putting a descriptor at a path

`place` walks down the objects of a descriptor, opens new ones where a name is missing, and stops in
front of anything else. What is read at a path afterwards depends on where the two paths part. A path
that does not begin with the other is not touched, and a path that goes on behind the other is changed
just when it comes to an object that lacks its next name.
-/

namespace GraphQuery.Descriptor

/-- Put a descriptor at a path of nested objects. Where something else is in front, nothing changes. -/
def place (e : Descriptor) (names : List String) (new : Descriptor) : Descriptor :=
  match names with
  | [] => new
  | name :: rest =>
    match e with
    | object fields =>
      object (Fields.insert fields name (place ((fields.lookup name).getD (object [])) rest new))
    | other => other

/-- On the way down the names there is an object without the next one. -/
def lacks (e : Descriptor) (names : List String) : Bool :=
  match names with
  | [] => false
  | name :: rest =>
    match e with
    | object fields =>
      match fields.lookup name with
      | none => true
      | some inner => lacks inner rest
    | _ => false

/-- A longer path leads out of a descriptor: it goes on where there is nothing, or where an object lacks
the next name. -/
def LeadsOut (t : Descriptor) (names longer : List String) : Prop :=
  ∃ rest, rest ≠ [] ∧ longer = names ++ rest ∧
    (t.atParts names = absent ∨ (t.atParts names).lacks rest = true)

variable {t e : Descriptor} {fields : List (String × Descriptor)} {name : String}
  {names rest : List String}

/-! ## One step down -/

theorem atParts_nil (e : Descriptor) : e.atParts [] = e := rfl

theorem atParts_cons (e : Descriptor) (name : String) (rest : List String) :
    e.atParts (name :: rest) = (e.get (.field name)).atParts rest := rfl

theorem get_of_lookup (found : fields.lookup name = some e) :
    (object fields).get (.field name) = e := by
  rw [get, found, Option.getD_some]

theorem get_of_lookup_none (missing : fields.lookup name = none) :
    (object fields).get (.field name) = absent := by
  rw [get, missing, Option.getD_none]

theorem get_insert_self (fields : List (String × Descriptor)) (name : String) (e : Descriptor) :
    (object (Fields.insert fields name e)).get (.field name) = e :=
  get_of_lookup (Fields.lookup_insert_self fields name e)

theorem get_insert_of_ne (fields : List (String × Descriptor)) {name other : String}
    (e : Descriptor) (apart : other ≠ name) :
    (object (Fields.insert fields name e)).get (.field other) =
      (object fields).get (.field other) := by
  rw [get, get, Fields.lookup_insert_of_ne fields e apart]

theorem place_object (fields : List (String × Descriptor)) (name : String) (rest : List String)
    (new : Descriptor) : (object fields).place (name :: rest) new =
      object (Fields.insert fields name
        (((fields.lookup name).getD (object [])).place rest new)) := by
  rw [place]

theorem lacks_of_lookup (found : fields.lookup name = some e) :
    (object fields).lacks (name :: rest) = e.lacks rest := by
  rw [lacks, found]

theorem lacks_of_lookup_none (missing : fields.lookup name = none) :
    (object fields).lacks (name :: rest) = true := by
  rw [lacks, missing]

/-! ## Reading elsewhere -/

/-- Paths of which neither begins with the other do not meet. -/
theorem atParts_place_of_apart {p q : List String} (e new : Descriptor) (left : ¬ p <+: q)
    (right : ¬ q <+: p) : (e.place q new).atParts p = e.atParts p := by
  induction q generalizing e p with
  | nil => exact absurd List.nil_prefix right
  | cons name rest ih =>
      cases e with
      | object fields =>
          cases p with
          | nil => exact absurd List.nil_prefix left
          | cons first more =>
              rw [place_object, atParts_cons, atParts_cons]
              by_cases same : first = name
              · subst same
                rw [List.cons_prefix_cons] at left right
                rw [get_insert_self, ih _ (fun h => left ⟨rfl, h⟩) (fun h => right ⟨rfl, h⟩)]
                cases found : fields.lookup first with
                | some inner => rw [get_of_lookup found, Option.getD_some]
                | none =>
                    -- The object that is opened has nothing at all.
                    have further : more ≠ [] := by
                      rintro rfl
                      exact left ⟨rfl, List.nil_prefix⟩
                    obtain ⟨next, behind, rfl⟩ := List.exists_cons_of_ne_nil further
                    rw [get_of_lookup_none found, Option.getD_none]
                    rfl
              · rw [get_insert_of_ne _ _ same]
      | _ => rfl

/-! ## Reading behind and in front -/

/-- What is read at a path is changed in putting it there again just when there are objects that lack
a name. -/
theorem place_atParts_iff (e : Descriptor) (names : List String) :
    e.place names (e.atParts names) = e ↔ e.lacks names = false := by
  induction names generalizing e with
  | nil => simp [place, lacks, atParts_nil]
  | cons name rest ih =>
      cases e with
      | object fields =>
          rw [place_object, object.injEq, Fields.insert_eq_self_iff]
          cases found : fields.lookup name with
          | some inner =>
              rw [atParts_cons, get_of_lookup found, lacks_of_lookup found, Option.getD_some,
                Option.some.injEq, eq_comm, ih inner]
          | none =>
              rw [lacks_of_lookup_none found]
              exact iff_of_false (fun same => nomatch same) (fun same => nomatch same)
      | _ => exact iff_of_true rfl rfl

/-- An object that is opened for a path is there in front of its last name. -/
theorem atParts_place_opened (front : List String) (further : rest ≠ []) (new : Descriptor) :
    ∃ fields, ((object []).place (front ++ rest) new).atParts front = object fields := by
  obtain ⟨next, behind, rfl⟩ := List.exists_cons_of_ne_nil further
  induction front with
  | nil => exact ⟨_, place_object [] next behind new⟩
  | cons name more ih =>
      rw [List.cons_append, place_object, atParts_cons, get_insert_self]
      exact ih

/-- What is read at the front of a path is kept by putting there what it has behind itself, unless an
object is opened or extended on the way. -/
theorem atParts_place_behind_iff (e : Descriptor) (front : List String) (further : rest ≠ []) :
    (e.place (front ++ rest) ((e.atParts front).atParts rest)).atParts front = e.atParts front ↔
      e.lacks (front ++ rest) = false := by
  induction front generalizing e with
  | nil => exact place_atParts_iff e rest
  | cons name more ih =>
      cases e with
      | object fields =>
          rw [List.cons_append, place_object, atParts_cons, atParts_cons, get_insert_self]
          cases found : fields.lookup name with
          | some inner =>
              rw [get_of_lookup found, lacks_of_lookup found, Option.getD_some]
              exact ih inner
          | none =>
              obtain ⟨opened, shape⟩ := atParts_place_opened more further
                ((absent.atParts more).atParts rest)
              rw [get_of_lookup_none found, lacks_of_lookup_none found, Option.getD_none, shape,
                atParts_absent]
              exact iff_of_false (fun same => nomatch same) (fun same => nomatch same)
      | _ => exact iff_of_true rfl rfl

/-- Where something is read, nothing is missing in front. -/
theorem lacks_atParts (front : List String) (there : e.atParts front ≠ absent)
    (missing : e.lacks (front ++ rest) = true) : (e.atParts front).lacks rest = true := by
  induction front generalizing e with
  | nil => exact missing
  | cons name more ih =>
      cases e with
      | object fields =>
          cases found : fields.lookup name with
          | some inner =>
              rw [atParts_cons, get_of_lookup found] at there ⊢
              rw [List.cons_append, lacks_of_lookup found] at missing
              exact ih there missing
          | none =>
              rw [atParts_cons, get_of_lookup_none found, atParts_absent] at there
              exact absurd rfl there
      | _ => cases missing

/-! ## Trees over the parts of a descriptor -/

/-- A descriptor itself, or an object of whose entries each is made so over the field of its name. -/
inductive Drawn : Descriptor → Descriptor → Prop
  | whole (t : Descriptor) : Drawn t t
  | object {t : Descriptor} {fields : List (String × Descriptor)}
      (entries : ∀ name e, fields.lookup name = some e → Drawn (t.get (.field name)) e) :
      Drawn t (.object fields)

namespace Drawn

theorem opened (t : Descriptor) : Drawn t (.object []) := .object fun _ _ found => nomatch found

theorem entry (drawn : Drawn t (.object fields)) (found : fields.lookup name = some e) :
    Drawn (t.get (.field name)) e := by
  cases drawn with
  | whole => exact get_of_lookup found ▸ .whole e
  | object entries => exact entries name e found

/-- The entry of a name, or the object that is opened for it. -/
theorem entry_or_opened (drawn : Drawn t (.object fields)) (name : String) :
    Drawn (t.get (.field name)) ((fields.lookup name).getD (.object [])) := by
  cases found : fields.lookup name with
  | some e => exact drawn.entry found
  | none => exact opened _

theorem place (drawn : Drawn t e) (names : List String) :
    Drawn t (e.place names (t.atParts names)) := by
  induction names generalizing t e with
  | nil => exact .whole t
  | cons name rest ih =>
      cases e with
      | object fields =>
          rw [place_object]
          refine .object fun key inner found => ?_
          by_cases same : key = name
          · subst same
            rw [Fields.lookup_insert_self] at found
            cases found
            exact ih (drawn.entry_or_opened key)
          · rw [Fields.lookup_insert_of_ne _ _ same] at found
            exact drawn.entry found
      | _ => exact drawn

/-- What is put at a path is read there, also behind what is no object. -/
theorem atParts_place (drawn : Drawn t e) (names : List String) :
    (e.place names (t.atParts names)).atParts names = t.atParts names := by
  induction names generalizing t e with
  | nil => rfl
  | cons name rest ih =>
      cases e with
      | object fields =>
          rw [place_object, atParts_cons, get_insert_self]
          exact ih (drawn.entry_or_opened name)
      | _ =>
          cases drawn
          rfl

/-- **One more path.** What agrees with a descriptor at one path still does when a part of the
descriptor is put at another one, unless that goes on behind the path and lacks a name. -/
theorem atParts_place_iff {p q : List String} (drawn : Drawn t e)
    (agree : e.atParts p = t.atParts p) :
    (e.place q (t.atParts q)).atParts p = t.atParts p ↔
      ¬ ∃ rest, rest ≠ [] ∧ q = p ++ rest ∧ e.lacks q = true := by
  by_cases front : q <+: p
  · -- All of what is read is new.
    obtain ⟨behind, rfl⟩ := front
    refine iff_of_true ?_ ?_
    · rw [atParts_append, drawn.atParts_place, ← atParts_append]
    · rintro ⟨rest, further, longer, -⟩
      have length := congrArg List.length longer
      rw [List.length_append, List.length_append] at length
      have positive := List.length_pos_of_ne_nil further
      omega
  by_cases back : p <+: q
  · obtain ⟨rest, rfl⟩ := back
    have further : rest ≠ [] := by
      rintro rfl
      rw [List.append_nil] at front
      exact front (List.prefix_refl p)
    rw [atParts_append, ← agree, atParts_place_behind_iff e p further, ← Bool.not_eq_true, not_iff_not]
    refine ⟨fun missing => ⟨rest, further, rfl, missing⟩, ?_⟩
    rintro ⟨_, -, -, missing⟩
    exact missing
  · refine iff_of_true ?_ ?_
    · rw [atParts_place_of_apart e _ back front, agree]
    · rintro ⟨rest, -, rfl, -⟩
      exact back (List.prefix_append p rest)

/-- What agrees with a descriptor at a path still does when a part is put at a path that does not lead
out of it. -/
theorem atParts_place_of_inside {p q : List String} (drawn : Drawn t e)
    (agree : e.atParts p = t.atParts p) (inside : ¬ t.LeadsOut p q) :
    (e.place q (t.atParts q)).atParts p = t.atParts p := by
  rw [drawn.atParts_place_iff agree]
  rintro ⟨rest, further, rfl, missing⟩
  refine inside ⟨rest, further, rfl, ?_⟩
  by_cases nothing : t.atParts p = absent
  · exact .inl nothing
  · exact .inr (agree ▸ lacks_atParts p (agree ▸ nothing) missing)

end Drawn

end GraphQuery.Descriptor
