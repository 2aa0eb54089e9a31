import GraphQuery.Descriptor.Failure
import GraphQuery.Proofs.Descriptor.Locate
import GraphQuery.Proofs.Descriptor.Restriction

/-!
# What an error of parsing points at

Parsing stops at the first part that fails and reports that part. So the path of an error leads to a
descriptor and to a value that do not fit, neither of which has parts that could be blamed instead,
and everything that parsing passed on the way there is accepted.
-/

namespace GraphQuery

open Outcome

/-! ## Paths -/

/-- Only a field may be absent, so the path to an absent value inside another one ends with a field. -/
theorem Json.field_of_along_absent {v : Json} {path : List ValueStep}
    (absent : Json.along (some v) path = some none) :
    ∃ front name, path = front ++ [.field name] := by
  induction path generalizing v with
  | nil => cases absent
  | cons step rest ih =>
      rw [along] at absent
      obtain ⟨y, inside, behind⟩ := Option.bind_eq_some_iff.mp absent
      cases y with
      | some w =>
          obtain ⟨front, name, rfl⟩ := ih behind
          exact ⟨step :: front, name, rfl⟩
      | none =>
          -- Nothing leads on from what is absent, and no item of a list is.
          cases rest with
          | cons next rest => cases behind
          | nil =>
              cases v with
              | object entries =>
                  cases step with
                  | field name => exact ⟨[], name, rfl⟩
                  | item i => cases inside
              | array xs =>
                  cases step with
                  | field name => cases inside
                  | item i => simp [part] at inside
              | _ => cases step <;> cases inside

namespace Descriptor

/-- The shape inside options is no option. -/
theorem core_core (t : Descriptor) : t.core.core = t.core := by
  induction t using core.induct with
  | case1 inner ih => exact ih
  | case2 t plain =>
      have same : t.core = t := by
        rw [core]
        exact plain
      rw [same, same]

theorem along_core (t : Descriptor) (path : List ValueStep) : t.core.along path = t.along path := by
  cases path with
  | nil => rw [along, along, core_core]
  | cons step rest => rw [along, along, core_core]

theorem along_option (inner : Descriptor) (path : List ValueStep) :
    (option inner).along path = inner.along path := by
  rw [← along_core, core, along_core]

/-! ## Errors -/

section FailsAt

variable {t u s : Descriptor} {x y : Option Json} {v : Json} {e : TypeError} {step : ValueStep}

/-- An error of a value as a whole. -/
theorem FailsAt.here (plain : t.core = t) (rejected : t.check x = false)
    (deepest : t.takesApart x = false) : FailsAt t x (t.mismatch x) t where
  shape := congrArg some plain
  value := rfl
  tag := rfl
  expected := rfl
  rejected := rejected
  deepest := deepest
  first front step rest split := by
    have empty : [] = front ++ step :: rest := split
    simp at empty

/-- Options are looked through. -/
theorem FailsAt.option (inside : FailsAt t x e s) : FailsAt (.option t) x e s where
  shape := by
    rw [along_option]
    exact inside.shape
  value := inside.value
  tag := inside.tag
  expected := inside.expected
  rejected := inside.rejected
  deepest := inside.deepest
  first front step rest split := by
    rw [along_option]
    exact inside.first front step rest split

/-- An error inside a part, in front of which everything is accepted. -/
theorem FailsAt.under (inside : FailsAt u y e s) (plain : t.core = t)
    (shape : t.part step = some u) (value : v.part step = some y)
    (before : t.acceptsBefore v step = true) : FailsAt t (some v) (e.under step) s := by
  have shapes (path : List ValueStep) : t.along (step :: path) = u.along path := by
    rw [along, plain, shape]
    rfl
  have values (path : List ValueStep) : Json.along (some v) (step :: path) = Json.along y path := by
    rw [Json.along, value]
    rfl
  refine ⟨(shapes e.path).trans inside.shape, (values e.path).trans inside.value, inside.tag,
    inside.expected, inside.rejected, inside.deepest, ?_⟩
  intro front next rest split
  have path : step :: e.path = front ++ next :: rest := split
  cases front with
  | nil =>
      -- The first step is the one into the part.
      obtain ⟨rfl, _⟩ := List.cons.inj path
      exact ⟨t, v, congrArg some plain, rfl, before⟩
  | cons first front =>
      obtain ⟨rfl, behind⟩ := List.cons.inj path
      rw [shapes, values]
      exact inside.first front next rest behind

end FailsAt

/-! ## Lists and objects -/

/-- A traversal stops at the first step that fails. -/
theorem traverseFrom_eq_error {α β ε : Type} {f : Nat → α → Except ε β} {i : Nat} {as : List α}
    {e : ε} (failed : traverseFrom f i as = .error e) :
    ∃ k a, as[k]? = some a ∧ f (i + k) a = .error e ∧
      ∀ j b, j < k → as[j]? = some b → (f (i + j) b).isOk = true := by
  induction as generalizing i with
  | nil => cases failed
  | cons a rest ih =>
      rw [traverseFrom_cons] at failed
      rcases bind_eq_error.mp failed with here | ⟨b, here, behind⟩
      · exact ⟨0, a, rfl, here, by simp⟩
      · obtain ⟨k, c, found, fails, passed⟩ := ih (map_eq_error.mp behind)
        -- Positions of the rest count from the next one on.
        refine ⟨k + 1, c, found, ?_, ?_⟩
        · rw [← fails]
          congr 1
          omega
        · intro j d before found
          cases j with
          | zero =>
              cases found
              rw [Nat.add_zero, here]
              rfl
          | succ j =>
              have step := passed j d (by omega) found
              rwa [show i + (j + 1) = i + 1 + j by omega]

/-- The fields in front of the first of their name. -/
theorem takeWhile_before {before after : List (String × Descriptor)} {name : String}
    {t : Descriptor} (fresh : name ∉ Fields.names before) :
    (before ++ (name, t) :: after).takeWhile (fun field => field.1 != name) = before := by
  induction before with
  | nil => simp
  | cons field rest ih =>
      rw [Fields.names_cons, List.mem_cons, not_or] at fresh
      have other : (field.1 != name) = true := bne_iff_ne.mpr (Ne.symm fresh.1)
      rw [List.cons_append, List.takeWhile_cons, if_pos other, ih fresh.2]

/-! ## Parsing -/

/-- What does not accept absence is no option. -/
theorem core_of_not_acceptsAbsent {t : Descriptor} (required : t.acceptsAbsent = false) :
    t.core = t := by
  cases t with
  | option inner => cases required
  | _ => rfl

/-- A field that is missing and may not be. -/
theorem FailsAt.missing {t : Descriptor} (required : t.acceptsAbsent = false) :
    FailsAt t none (t.mismatch none) t := by
  refine .here (core_of_not_acceptsAbsent required) ?_ ?_
  · rw [check_none, required]
  · cases t <;> rfl

mutual

/-- An error of parsing is where the value first fails. The induction is on the shape: what fails is
the value itself, or the first part that does not parse. -/
theorem failsAt_of_parse (t : Descriptor) (distinct : t.Distinct) {v : Json} {e : TypeError}
    (failed : t.parse v = .error e) : ∃ s, FailsAt t (some v) e s := by
  have rejected : t.check (some v) = false := by
    rw [← isOk_parse, failed]
    rfl
  cases t with
  | option inner =>
      rw [parse] at failed
      obtain ⟨s, inside⟩ := failsAt_of_parse inner (distinct.of_occurs (.option .self)) failed
      exact ⟨s, inside.option⟩
  | union alts =>
      -- The errors of the alternatives are dropped.
      rw [parse] at failed
      split at failed
      · cases failed
      · cases failed
        exact ⟨_, .here rfl rejected rfl⟩
  | object fields =>
      cases v with
      | object entries =>
          rw [parse_object] at failed
          have parts name t (member : (name, t) ∈ fields) : t.Distinct :=
            distinct.of_occurs (.field member .self)
          obtain ⟨before, name, t, after, e', s, rfl, accepted, rfl, inside⟩ :=
            failsAt_of_parseFields fields parts (map_eq_error.mp failed)
          -- A name that occurs once is looked up where parsing found it.
          have fresh : name ∉ Fields.names before := (distinct _ .self).fresh
          refine ⟨s, inside.under rfl ?_ rfl ?_⟩
          · exact Fields.Distinct.lookup (distinct _ .self) (by simp)
          · rw [acceptsBefore, takeWhile_before fresh, check]
            exact accepted
      | _ =>
          simp only [parse, acceptsScalar] at failed
          cases failed
          exact ⟨_, .here rfl rejected rfl⟩
  | list item =>
      cases v with
      | array xs =>
          rw [parse_list] at failed
          obtain ⟨i, x, found, step, passed⟩ := traverseFrom_eq_error (map_eq_error.mp failed)
          -- The items in front were parsed, so they have the shape.
          obtain ⟨e', fails, rfl⟩ := mapError_eq_error.mp step
          obtain ⟨s, inside⟩ := failsAt_of_parse item (distinct.of_occurs (.item .self)) fails
          rw [Nat.zero_add]
          refine ⟨s, inside.under rfl rfl ?_ ?_⟩
          · rw [Json.part, found]
            rfl
          · rw [acceptsBefore, check, List.all_eq_true]
            intro y member
            obtain ⟨j, inFront, rfl⟩ := List.mem_take_iff_getElem.mp member
            have done := passed j _ (by omega) (List.getElem?_eq_getElem (by omega))
            rwa [isOk_mapError, isOk_parse] at done
      | _ =>
          simp only [parse, acceptsScalar] at failed
          cases failed
          exact ⟨_, .here rfl rejected rfl⟩
  | tuple items =>
      cases v with
      | array xs =>
          by_cases lengths : items.length = xs.length
          · rw [parse_tuple lengths] at failed
            have parts t (member : t ∈ items) : t.Distinct :=
              distinct.of_occurs (.position member .self)
            obtain ⟨i, t, x, e', s, shape, found, rfl, inside, accepted⟩ :=
              failsAt_of_parseItems items parts 0 (map_eq_error.mp failed)
            rw [Nat.zero_add]
            refine ⟨s, inside.under rfl shape ?_ ?_⟩
            · rw [Json.part, found]
              rfl
            · rw [acceptsBefore, check]
              exact accepted
          · -- No position counts in a list of another length.
            rw [parse_tuple_of_ne lengths] at failed
            cases failed
            exact ⟨_, .here rfl rejected (beq_eq_false_iff_ne.mpr lengths)⟩
      | _ =>
          simp only [parse, acceptsScalar] at failed
          cases failed
          exact ⟨_, .here rfl rejected rfl⟩
  | _ =>
      simp only [parse] at failed
      split at failed
      · cases failed
      · cases failed
        exact ⟨_, .here rfl rejected rfl⟩
termination_by structural t

/-- Parsing fields stops at the first that is missing or does not parse. -/
theorem failsAt_of_parseFields (fields : List (String × Descriptor))
    (distinct : ∀ name t, (name, t) ∈ fields → t.Distinct) {entries : List (String × Json)}
    {e : TypeError} (failed : parseFields fields entries = .error e) :
    ∃ before name t after e' s, fields = before ++ (name, t) :: after ∧
      checkFields before entries = true ∧ e = e'.under (.field name) ∧
      FailsAt t (entries.lookup name) e' s := by
  match fields with
  | [] => cases failed
  | (key, u) :: rest =>
      rw [Fields.forall_mem_cons] at distinct
      rw [parseFields_cons] at failed
      rcases bind_eq_error.mp failed with here | ⟨slot, here, behind⟩
      · -- The first field is missing, or something inside it fails.
        obtain ⟨e', stopped, rfl⟩ := mapError_eq_error.mp here
        have inside : ∃ s, FailsAt u (entries.lookup key) e' s := by
          cases there : entries.lookup key with
          | none =>
              rw [there, parseSlot] at stopped
              split at stopped
              · cases stopped
              · next required =>
                  cases stopped
                  exact ⟨u, .missing (Bool.eq_false_iff.mpr required)⟩
          | some v =>
              rw [there, parseSlot] at stopped
              exact failsAt_of_parse u distinct.1 (map_eq_error.mp stopped)
        obtain ⟨s, inside⟩ := inside
        exact ⟨[], key, u, rest, e', s, rfl, rfl, rfl, inside⟩
      · have accepted : u.check (entries.lookup key) = true := by
          rw [← isOk_parseSlot, mapError_eq_ok.mp here]
          rfl
        obtain ⟨before, name, t, after, e', s, rfl, passed, rfl, inside⟩ :=
          failsAt_of_parseFields rest distinct.2 (map_eq_error.mp behind)
        refine ⟨(key, u) :: before, name, t, after, e', s, rfl, ?_, rfl, inside⟩
        rw [checkFields, accepted, passed]
        rfl
termination_by structural fields

/-- Parsing positions stops at the first that does not parse. -/
theorem failsAt_of_parseItems (items : List Descriptor) (distinct : ∀ t ∈ items, t.Distinct)
    (position : Nat) {xs : List Json} {e : TypeError}
    (failed : parseItems position items xs = .error e) :
    ∃ i t x e' s, items[i]? = some t ∧ xs[i]? = some x ∧ e = e'.under (.item (position + i)) ∧
      FailsAt t (some x) e' s ∧ checkItems (items.take i) (xs.take i) = true := by
  match items, xs with
  | [], _ => cases failed
  | _ :: _, [] => cases failed
  | t :: rest, x :: xs =>
      rw [List.forall_mem_cons] at distinct
      rw [parseItems_cons] at failed
      rcases bind_eq_error.mp failed with here | ⟨y, here, behind⟩
      · obtain ⟨e', stopped, rfl⟩ := mapError_eq_error.mp here
        obtain ⟨s, inside⟩ := failsAt_of_parse t distinct.1 stopped
        exact ⟨0, t, x, e', s, rfl, rfl, rfl, inside, rfl⟩
      · obtain ⟨i, u, z, e', s, shape, found, rfl, inside, passed⟩ :=
          failsAt_of_parseItems rest distinct.2 (position + 1) (map_eq_error.mp behind)
        refine ⟨i + 1, u, z, e', s, shape, found, ?_, inside, ?_⟩
        · rw [show position + 1 + i = position + (i + 1) by omega]
        · have accepted : t.check (some x) = true := by
            rw [← isOk_parse, mapError_eq_ok.mp here]
            rfl
          rw [List.take_succ_cons, List.take_succ_cons, checkItems, accepted, passed]
          rfl
termination_by structural items

end

/-- Every error of parsing names the first part of the value that fails: the text of its path is that of
steps which lead to a shape and to what does not fit it, and that is absent only as a field. The shape
is reported, and no part of the value could be blamed instead; along the path everything that comes
before is accepted. -/
theorem parse_error_at_first_failure {t : Descriptor} {v : Json} {e : LocatedError}
    (distinct : t.Distinct) (failed : t.parseLocated v = .error e) :
    ∃ path s, e.path = String.join (path.map ValueStep.render) ∧
      t.parse v = .error ⟨e.tag, e.expected, e.value, path⟩ ∧
      FailsAt t (some v) ⟨e.tag, e.expected, e.value, path⟩ s ∧
      (e.value = none → ∃ front name, path = front ++ [.field name]) := by
  rw [parseLocated_eq] at failed
  obtain ⟨error, stopped, rfl⟩ := mapError_eq_error.mp failed
  obtain ⟨s, failure⟩ := failsAt_of_parse t distinct stopped
  refine ⟨error.path, s, String.empty_append, stopped, failure, ?_⟩
  intro absent
  refine Json.field_of_along_absent (v := v) ?_
  rw [failure.value]
  exact congrArg some absent

namespace Orchestra

/-- An orchestra with its sections; a section has a size and names, some of them with a title. -/
def shape : Descriptor :=
  .object [("name", .string),
    ("sections", .option (.list (.tuple [.number, .list (.object [("first", .string),
      ("title", .option .string), ("last", .union [.string, .null])])])))]

/-- The second player of the second section has no last name. -/
def written : Json :=
  .object [("sections", .array [.array [.int 0, .array []],
      .array [.int 2, .array [.object [("last", .null), ("first", .string "a")],
        .object [("first", .string "b")]]]]),
    ("name", .string "o")]

def error : LocatedError where
  tag := .union
  expected := .anyOf ["string", "null"]
  value := none
  path := ".sections[1][1][1].last"

def steps : List ValueStep := [.field "sections", .item 1, .item 1, .item 1, .field "last"]

theorem parse_written :
    shape.parse written = .error ⟨error.tag, error.expected, error.value, steps⟩ := rfl

theorem render_steps : String.join (steps.map ValueStep.render) = error.path := by decide

theorem parseLocated_written : shape.parseLocated written = .error error := by
  rw [parseLocated_eq, parse_written]
  show Except.error (LocatedError.mk _ _ _ ("" ++ String.join (steps.map ValueStep.render))) = _
  rw [render_steps, String.empty_append]

end Orchestra

/-- The last name is missing, behind three players and sections that are as they should be. -/
theorem parse_error_at_last_name :
    Orchestra.shape.Distinct ∧ Orchestra.shape.parseLocated Orchestra.written = .error Orchestra.error ∧
      FailsAt Orchestra.shape (some Orchestra.written)
        ⟨.union, .anyOf ["string", "null"], none, Orchestra.steps⟩ (.union [.string, .null]) ∧
      String.join (Orchestra.steps.map ValueStep.render) = ".sections[1][1][1].last" := by
  obtain ⟨path, s, _, parsed, failure, _⟩ :=
    parse_error_at_first_failure (by decide) Orchestra.parseLocated_written
  obtain rfl : Orchestra.steps = path := by
    have same := Orchestra.parse_written.symm.trans parsed
    injection same with same
    injection same
  cases failure.shape
  exact ⟨by decide, Orchestra.parseLocated_written, failure, Orchestra.render_steps⟩

end Descriptor

end GraphQuery
