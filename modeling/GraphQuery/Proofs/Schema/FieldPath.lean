import GraphQuery.Proofs.Descriptor.Acceptance
import GraphQuery.Proofs.Descriptor.Projection
import GraphQuery.Statement.FieldPath

/-!
# Reading a field path with and without links

Both ways of reading a path are folds of one step over its names. As long as the path is settled the
two steps are the same. Both steps see through options and lists, so a link inside them is read as it
would be read outside: as a value without fields by the one, as the row it leads to by the other.
-/

namespace GraphQuery

namespace Descriptor

/-! ## Absence -/

/-- A union accepts absence when one of the descriptors does that it is built from. -/
theorem acceptsAbsent_unionOf (ts : List Descriptor) :
    (unionOf ts).acceptsAbsent = true ↔ ∃ t ∈ ts, t.acceptsAbsent = true := by
  simp only [← check_none]
  exact check_unionOf ts none

theorem anyAcceptsAbsent_iff {alts : List Descriptor} :
    anyAcceptsAbsent alts = true ↔ ∃ t ∈ alts, t.acceptsAbsent = true := by
  simp only [← check_none, ← checkAny_none]
  exact checkAny_iff

theorem acceptsAbsent_optional (t : Descriptor) : t.optional.acceptsAbsent = true := by
  unfold optional
  split
  · assumption
  · rfl

/-- Behind what may be absent everything may be absent. -/
theorem acceptsAbsent_get (t : Descriptor) (key : Key) (missing : t.acceptsAbsent = true) :
    (t.get key).acceptsAbsent = true := by
  cases t with
  | absent => rfl
  | option inner => exact acceptsAbsent_optional _
  | union alts =>
      rw [acceptsAbsent, anyAcceptsAbsent_iff] at missing
      obtain ⟨t, member, missing⟩ := missing
      rw [get, acceptsAbsent_unionOf, getEach_eq_map]
      exact ⟨t.get key, List.mem_map_of_mem member, acceptsAbsent_get t key missing⟩
  | _ => cases missing

/-- Nothing stands behind an absent value. -/
theorem atParts_absent (names : List String) : absent.atParts names = absent := by
  induction names with
  | nil => rfl
  | cons name rest ih => exact ih

theorem atParts_append (t : Descriptor) (front rest : List String) :
    t.atParts (front ++ rest) = (t.atParts front).atParts rest := List.foldl_append

/-- Without unions in a shape there are none behind its fields. -/
theorem UnionFree.get_field {t : Descriptor} (free : t.UnionFree) (name : String) :
    (t.get (.field name)).UnionFree := by
  have nothing : absent.UnionFree := fun _ part => nomatch part
  cases t with
  | object fields =>
      rw [get]
      cases declared : fields.lookup name with
      | none => exact nothing
      | some t => exact free.of_occurs (.field (Fields.mem_of_lookup declared) .self)
  | option inner =>
      have inside := UnionFree.get_field (free.of_occurs (.option .self)) name
      rw [get, optional]
      split
      · exact inside
      · intro alts part
        cases part with
        | option part => exact inside alts part
  | list item =>
      have inside := UnionFree.get_field (free.of_occurs (.item .self)) name
      intro alts part
      cases part with
      | item part => exact inside alts part
  | union alts => exact absurd .self (free alts)
  | _ => exact nothing

/-- Without unions the link that is met in a shape is the one it is. -/
theorem link?_of_reachable {t : Descriptor} (free : t.UnionFree) {table : String}
    (part : Reachable (.record (some table)) t) : t.link? = some table := by
  induction part with
  | self => rfl
  | option _ ih => exact ih (free.of_occurs (.option .self))
  | item _ ih => exact ih (free.of_occurs (.item .self))
  | alternative _ _ _ => exact absurd .self (free _)

/-! ## Steps that see through options and lists -/

/-- A step to a field takes options and lists with it, and leads from what may be absent to what may
be absent. -/
structure SeesThrough (step : Descriptor → String → Descriptor) : Prop where
  option : ∀ inner name, step (.option inner) name = (step inner name).optional
  list : ∀ item name, step (.list item) name = .list (step item name)
  absent : ∀ t name, t.acceptsAbsent = true → (step t name).acceptsAbsent = true

variable {step : Descriptor → String → Descriptor}

theorem SeesThrough.foldl_list (through : SeesThrough step) (item : Descriptor)
    (names : List String) : names.foldl step (.list item) = .list (names.foldl step item) := by
  induction names generalizing item with
  | nil => rfl
  | cons name rest ih => rw [List.foldl_cons, through.list, ih, List.foldl_cons]

theorem SeesThrough.foldl_absent (through : SeesThrough step) {t : Descriptor}
    (missing : t.acceptsAbsent = true) (names : List String) :
    (names.foldl step t).acceptsAbsent = true := by
  induction names generalizing t with
  | nil => exact missing
  | cons name rest ih => exact ih (through.absent t name missing)

/-- Present values are not touched by an option in front. -/
theorem SeesThrough.foldl_option (through : SeesThrough step) (inner : Descriptor)
    (names : List String) (v : Json) :
    (names.foldl step (.option inner)).check (some v) = (names.foldl step inner).check (some v) := by
  induction names generalizing inner with
  | nil => rfl
  | cons name rest ih =>
      rw [List.foldl_cons, List.foldl_cons, through.option]
      -- The option is dropped when what is inside may be absent anyway.
      unfold optional
      split
      · rfl
      · exact ih (step inner name)

theorem check_list_congr {t u : Descriptor} (same : ∀ x, t.check x = u.check x)
    (x : Option Json) : (list t).check x = (list u).check x := by
  match x with
  | some (.array xs) => simp only [check, same]
  | some .null | some (.bool _) | some (.number _) | some (.string _) | some (.object _) => rfl
  | none => rfl

/-- A link is read inside options and lists as it is read outside. -/
theorem SeesThrough.check_foldl (through : SeesThrough step) (t : Descriptor) {table : String}
    (link : t.link? = some table) (names : List String) (x : Option Json) :
    (names.foldl step t).check x =
      (t.relink (names.foldl step (.record (some table)))).check x := by
  cases t with
  | record other =>
      obtain rfl : other = some table := link
      rfl
  | option inner =>
      cases x with
      | none =>
          -- An option accepts absence, and so does what stands behind it.
          rw [check_none]
          exact through.foldl_absent rfl names
      | some v =>
          rw [through.foldl_option]
          exact through.check_foldl inner link names (some v)
  | list item =>
      -- The fields of a list are a list, whose items are checked one by one.
      rw [through.foldl_list]
      exact check_list_congr (through.check_foldl item link names) x
  | _ => cases link

theorem seesThrough_get : SeesThrough fun t name => t.get (.field name) where
  option _ _ := rfl
  list _ _ := rfl
  absent t name missing := acceptsAbsent_get t (.field name) missing

end Descriptor

namespace Database

open Descriptor

variable (db : Database)

theorem resolveEach_eq_map (alts : List Descriptor) :
    db.resolveEach alts = alts.map db.resolve := by
  induction alts with
  | nil => rfl
  | cons t rest ih => rw [resolveEach, ih, List.map_cons]

/-- What may be absent may be absent when links are followed. -/
theorem acceptsAbsent_resolve (t : Descriptor) (missing : t.acceptsAbsent = true) :
    (db.resolve t).acceptsAbsent = true := by
  cases t with
  | absent => rfl
  | option inner => rfl
  | union alts =>
      rw [acceptsAbsent, anyAcceptsAbsent_iff] at missing
      obtain ⟨t, member, missing⟩ := missing
      rw [resolve, acceptsAbsent_unionOf, resolveEach_eq_map]
      exact ⟨db.resolve t, List.mem_map_of_mem member, acceptsAbsent_resolve t missing⟩
  | _ => cases missing

theorem seesThrough_resolve : SeesThrough fun t name => (db.resolve t).get (.field name) where
  option _ _ := rfl
  list _ _ := rfl
  absent t _ missing := acceptsAbsent_get _ _ (db.acceptsAbsent_resolve t missing)

theorem behind_append (t : Descriptor) (front rest : List String) :
    db.behind t (front ++ rest) = db.behind (db.behind t front) rest := List.foldl_append

variable {db}

/-! ## Settled paths -/

theorem Settled.of_reachable {s t : Descriptor} (settled : db.Settled t)
    (inside : ∀ {r : Descriptor}, Reachable r s → Reachable r t) : db.Settled s where
  links table part := settled.links table (inside part)
  unions alts part := settled.unions alts (inside part)

/-- Rows are settled, whatever their fields are. -/
theorem settled_object (fields : List (String × Descriptor)) : db.Settled (.object fields) where
  links _ part := nomatch part
  unions _ part := nomatch part

/-- Where a shape is settled there is nothing to replace. -/
theorem Settled.resolve {t : Descriptor} (settled : db.Settled t) : db.resolve t = t := by
  cases t with
  | record table =>
      cases table with
      | none => rfl
      | some table => rw [Database.resolve, settled.links table .self]
  | option inner =>
      have inside : db.Settled inner := settled.of_reachable .option
      rw [Database.resolve, inside.resolve]
  | list item =>
      have inside : db.Settled item := settled.of_reachable .item
      rw [Database.resolve, inside.resolve]
  | union alts =>
      have each : alts.map db.resolve = alts := by
        refine List.map_congr_left (g := id) ?_ |>.trans alts.map_id
        intro t member
        have inside : db.Settled t := settled.of_reachable (.alternative member)
        exact inside.resolve
      rw [Database.resolve, resolveEach_eq_map, each]
      exact settled.unions alts .self
  | _ => rfl
termination_by sizeOf t

/-- Up to the end of a settled path both ways of reading it agree. -/
theorem SettledAlong.behind_eq {t : Descriptor} {names : List String}
    (settled : db.SettledAlong t names) : db.behind t names = t.atParts names := by
  induction names generalizing t with
  | nil => rfl
  | cons name rest ih =>
      obtain ⟨here, further⟩ := settled
      show db.behind ((db.resolve t).get (.field name)) rest = _
      rw [here.resolve]
      exact ih further

/-! ## Links -/

/-- Without unions only a link to a declared table can be replaced. -/
theorem settled_or_link {t : Descriptor} (free : t.UnionFree) :
    db.Settled t ∨ ∃ table linked, t.link? = some table ∧ db.declaration? table = some linked := by
  by_cases link : ∃ table linked, t.link? = some table ∧ db.declaration? table = some linked
  · exact .inr link
  · refine .inl ⟨?_, ?_⟩
    · intro table part
      cases declared : db.declaration? table with
      | none => rfl
      | some linked => exact absurd ⟨table, linked, link?_of_reachable free part, declared⟩ link
    · intro alts part
      exact absurd part.occurs (free alts)

/-- Without unions every path is settled, or settled up to a link. -/
theorem settledAlong_or_meetsLink {t : Descriptor} (free : t.UnionFree) (names : List String) :
    db.SettledAlong t names ∨ ∃ front rest linked, db.MeetsLink t names front rest linked := by
  induction names generalizing t with
  | nil => exact .inl trivial
  | cons name more ih =>
      rcases (settled_or_link free : db.Settled t ∨ _) with here | ⟨table, linked, link⟩
      · rcases ih (free.get_field name) with further | ⟨front, rest, linked, meets⟩
        · exact .inl ⟨here, further⟩
        · -- The link is met one name later.
          refine .inr ⟨name :: front, rest, linked, ?_, meets.further, ?_, meets.link⟩
          · rw [meets.split, List.cons_append]
          · exact ⟨here, meets.settled⟩
      · exact .inr ⟨[], name :: more, linked, rfl, List.cons_ne_nil name more, trivial, table, link⟩

/-- As it is written, a link has no fields. -/
theorem check_atParts_of_link {t : Descriptor} {table : String} (link : t.link? = some table)
    {names : List String} (further : names ≠ []) (x : Option Json) :
    (t.atParts names).check x = (t.relink .absent).check x := by
  obtain ⟨name, rest, rfl⟩ := List.exists_cons_of_ne_nil further
  have outside : (Descriptor.record (some table)).atParts (name :: rest) = .absent :=
    atParts_absent rest
  rw [← outside]
  exact seesThrough_get.check_foldl t link (name :: rest) x

/-- Behind a link that is followed stand the fields of the row it leads to. -/
theorem check_behind_of_link {t : Descriptor} {table : String} {linked : Declaration}
    (link : t.link? = some table) (declared : db.declaration? table = some linked)
    {names : List String} (further : names ≠ []) (x : Option Json) :
    (db.behind t names).check x = (t.relink (db.behind linked.recordType names)).check x := by
  obtain ⟨name, rest, rfl⟩ := List.exists_cons_of_ne_nil further
  have outside : db.behind (.record (some table)) (name :: rest) =
      db.behind linked.recordType (name :: rest) := by
    show db.behind ((db.resolve (.record (some table))).get (.field name)) rest = _
    rw [Database.resolve, declared]
    rfl
  rw [← outside]
  exact db.seesThrough_resolve.check_foldl t link (name :: rest) x

end Database

end GraphQuery
