import GraphQuery.Descriptor.Follow
import GraphQuery.Proofs.Descriptor.Restriction

/-!
# Projections tell the truth about values

The shape behind a key accepts what stands behind the key in a value that was parsed, or its
absence. Parsing is what makes this so: a key that is not declared is gone from the value, and what
is left under a declared key has the declared shape. Options and unions on the way only widen what is
accepted.
-/

namespace GraphQuery.Descriptor

theorem getEach_eq_map (alts : List Descriptor) (key : Key) :
    getEach alts key = alts.map fun t => t.get key := by
  induction alts with
  | nil => rfl
  | cons t rest ih => rw [getEach, ih, List.map_cons]

/-- What the items have behind a key. -/
theorem mem_followEach {xs : List Json} {key : Key} {y : Json} :
    y ∈ Json.followEach xs key ↔ ∃ x ∈ xs, x.follow key = some y := by
  induction xs with
  | nil => simp [Json.followEach]
  | cons x rest ih =>
      rw [Json.followEach]
      cases found : x.follow key with
      | none => simp [ih, found]
      | some z =>
          simp only [List.mem_cons, ih, exists_eq_or_imp, found, Option.some.injEq]
          rw [eq_comm]

/-- Widening a descriptor takes nothing away. -/
theorem check_optional {t : Descriptor} {x : Option Json} (accepted : t.check x = true) :
    t.optional.check x = true := by
  unfold optional
  split
  · exact accepted
  · cases x with
    | none => rfl
    | some v => exact accepted

/-! ## Values without parts -/

/-- A descriptor without parts has nothing behind any key. -/
theorem get_of_acceptsScalar {t : Descriptor} {v : Json} (accepted : t.acceptsScalar v = true)
    (key : Key) : t.get key = .absent := by
  cases t with
  | option | object | list | tuple | union => simp [acceptsScalar] at accepted
  | _ => rfl

/-- No list is a value without parts. -/
theorem acceptsScalar_array (t : Descriptor) (xs : List Json) :
    t.acceptsScalar (.array xs) = false := by
  cases t with
  | literal l => cases l <;> rfl
  | record table => rfl
  | _ => rfl

/-- The only objects that count as values without parts are record references. -/
theorem record_of_acceptsScalar_object {t : Descriptor} {entries : List (String × Json)}
    (accepted : t.acceptsScalar (.object entries) = true) : ∃ table, t = .record table := by
  cases t with
  | record table => exact ⟨table, rfl⟩
  | literal l => cases l <;> cases accepted
  | _ => cases accepted

/-- So nothing stands behind a key that its shape speaks for. -/
theorem follow_of_acceptsScalar {t : Descriptor} {v : Json} {key : Key}
    (accepted : t.acceptsScalar v = true) (covered : t.Covers v key) : v.follow key = none := by
  cases v with
  | array xs =>
      rw [acceptsScalar_array] at accepted
      cases accepted
  | object entries =>
      obtain ⟨table, rfl⟩ := record_of_acceptsScalar_object accepted
      cases key with
      | field name => exact absurd .self (covered.2 table)
      | index i => rfl
      | present i => rfl
  | _ => cases key <;> rfl

/-! ## Shapes with parts -/

theorem Covers.of_reachable {s t : Descriptor} {w : Json} {key : Key} (covered : t.Covers w key)
    (inside : ∀ {r : Descriptor}, Reachable r s → Reachable r t) : s.Covers w key := by
  cases key with
  | field name =>
      exact ⟨fun items part => covered.1 items (inside part),
        fun table part => covered.2 table (inside part)⟩
  | index i => exact covered
  | present i => exact covered

/-- The field of an object: a declared one has its shape, or may be missing, and any other is gone. -/
theorem check_field {fields : List (String × Descriptor)} {kept : List (String × Json)}
    (accepted : (object fields).check (some (.object kept)) = true)
    (names : Fields.names kept ⊆ Fields.names fields) (name : String) :
    ((object fields).get (.field name)).check (kept.lookup name) = true := by
  rw [get]
  cases declared : fields.lookup name with
  | some t =>
      rw [check, checkFields_iff] at accepted
      exact accepted name t (Fields.mem_of_lookup declared)
  | none =>
      have gone : kept.lookup name = none := by
        rw [Fields.lookup_eq_none] at declared ⊢
        exact fun there => declared (names there)
      rw [gone]
      rfl

/-- An item of a list, or its absence where the position may be out of range. -/
theorem check_item {item : Descriptor} {ys : List Json}
    (accepted : (list item).check (some (.array ys)) = true) (i : Nat) :
    (unionOf [item, absent]).check ys[i]? = true := by
  rw [check_unionOf]
  rw [check, List.all_eq_true] at accepted
  cases found : ys[i]? with
  | none => exact ⟨absent, by simp, rfl⟩
  | some y => exact ⟨item, by simp, accepted y (List.mem_of_getElem? found)⟩

/-- The item of a tuple, which has as many as its shape has positions. -/
theorem check_position {items : List Descriptor} {ys : List Json}
    (accepted : (tuple items).check (some (.array ys)) = true) (i : Nat) :
    (items[i]?.getD absent).check ys[i]? = true := by
  rw [check, checkItems_iff] at accepted
  obtain ⟨lengths, each⟩ := accepted
  cases found : ys[i]? with
  | none =>
      have beyond : items[i]? = none := by
        rw [List.getElem?_eq_none_iff] at found ⊢
        omega
      rw [beyond]
      rfl
  | some y =>
      obtain ⟨t, declared⟩ := getElem?_of_length_eq lengths.symm found
      rw [declared]
      exact each i t y declared found

/-! ## The theorem -/

/-- The induction is on how the value was restricted: each shape on the way to the key either has the
key itself or passes it on to a shape that the value has too. -/
theorem Restricted.check_get {t : Descriptor} {v w : Json} {key : Key}
    (restricted : Restricted t v w) (distinct : t.Distinct) (covered : t.Covers w key) :
    (t.get key).check (w.follow key) = true := by
  induction restricted with
  | scalar accepted =>
      rw [get_of_acceptsScalar accepted, follow_of_acceptsScalar accepted covered]
      rfl
  | @option inner v w _ ih =>
      rw [get]
      exact check_optional (ih (distinct.of_occurs (.option .self)) (covered.of_reachable .option))
  | @union alts t v w member _ ih =>
      -- The alternative that the value was parsed by answers for the whole union.
      have accepted := ih (distinct.of_occurs (.alternative member .self))
        (covered.of_reachable (.alternative member))
      rw [get, getEach_eq_map, check_unionOf]
      exact ⟨t.get key, List.mem_map_of_mem member, accepted⟩
  | object names missing present _ =>
      have accepted := (Restricted.object names missing present).check distinct
      cases key with
      | field name =>
          refine check_field accepted ?_ name
          intro name there
          exact ((mem_names_kept names).mp there).1
      | index i => rfl
      | present i => rfl
  | @list item xs ys length each ih =>
      have accepted := (Restricted.list length each).check distinct
      cases key with
      | index i =>
          rw [get, Json.follow]
          exact check_item accepted i
      | present i =>
          have inside : i < ys.length := covered ys rfl
          rw [get, Json.follow, List.getElem?_eq_getElem inside]
          rw [Descriptor.check, List.all_eq_true] at accepted
          exact accepted ys[i] (List.getElem_mem inside)
      | field name =>
          -- Every item of the new list is what one item of the old one has behind the key.
          rw [get, Json.follow, Descriptor.check, List.all_eq_true]
          intro z member
          obtain ⟨y, there, found⟩ := mem_followEach.mp member
          obtain ⟨i, atOutput⟩ := List.mem_iff_getElem?.mp there
          obtain ⟨x, atInput⟩ := getElem?_of_length_eq length atOutput
          have behind : (item.get (.field name)).check (y.follow (.field name)) = true :=
            ih i x y atInput atOutput (distinct.of_occurs (.item .self))
              (covered.of_reachable .item)
          rwa [found] at behind
  | tuple lengths length each _ =>
      have accepted := (Restricted.tuple lengths length each).check distinct
      cases key with
      | field name => exact absurd .self (covered.1 _)
      | index i =>
          rw [get, Json.follow]
          exact check_position accepted i
      | present i =>
          rw [get, Json.follow]
          exact check_position accepted i

/-- What stands behind a key of a value that was parsed, or its absence, has the shape behind the
key, if the shape of the value speaks for the key. -/
theorem get_accepts_follow {t : Descriptor} {v w : Json} {key : Key} (distinct : t.Distinct)
    (parsed : t.parse v = .ok w) (covered : t.Covers w key) :
    (t.get key).check (w.follow key) = true :=
  (restricted_of_parse t parsed).check_get distinct covered

namespace Team

/-- Who belongs to a team. -/
def member : Descriptor := .object [("name", .string), ("age", .option .number)]

/-- A list of members or a single one, if anyone at all. -/
def shape : Descriptor := .option (.union [.list member, member])

theorem reachable {s : Descriptor} (inside : Reachable s shape) :
    s = shape ∨ s = .union [.list member, member] ∨ s = .list member ∨ s = member := by
  cases inside with
  | self => exact .inl rfl
  | option inside =>
      cases inside with
      | self => exact .inr (.inl rfl)
      | alternative there inside =>
          rcases List.mem_cons.mp there with rfl | there
          · cases inside with
            | self => exact .inr (.inr (.inl rfl))
            | item inside =>
                cases inside
                exact .inr (.inr (.inr rfl))
          · cases List.mem_singleton.mp there
            cases inside
            exact .inr (.inr (.inr rfl))

/-- Two members, one of whom has a key that is not declared. -/
def written : Json :=
  .array [.object [("age", .int 1), ("x", .null), ("name", .string "a")],
    .object [("name", .string "b")]]

def kept : Json :=
  .array [.object [("name", .string "a"), ("age", .int 1)], .object [("name", .string "b")]]

theorem parse_written : shape.parse written = .ok kept := rfl

theorem covers_age : shape.Covers kept (.field "age") := by
  refine ⟨?_, ?_⟩
  · intro items inside
    rcases reachable inside with same | same | same | same <;> cases same
  · intro table inside
    rcases reachable inside with same | same | same | same <;> cases same

end Team

/-- The ages of a team are those of its members that have one. -/
theorem get_accepts_follow_age :
    Team.shape.Distinct ∧ Team.shape.parse Team.written = .ok Team.kept ∧
      Team.shape.Covers Team.kept (.field "age") ∧
      (Team.shape.get (.field "age")).check (some (.array [.int 1])) = true :=
  ⟨by decide, Team.parse_written, Team.covers_age,
    get_accepts_follow (by decide) Team.parse_written Team.covers_age⟩

end GraphQuery.Descriptor
