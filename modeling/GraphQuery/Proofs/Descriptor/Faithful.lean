import GraphQuery.Proofs.Descriptor.Restriction

/-!
# Parsing is faithful

What parsing returns has the shape that was asked for, and nothing but keys of objects is missing
from it. Where no union has to choose again, parsing once more changes nothing.
-/

namespace GraphQuery.Descriptor

open Outcome

theorem parse_of_acceptsScalar {t : Descriptor} {v : Json} (accepted : t.acceptsScalar v = true) :
    t.parse v = .ok v := by
  cases t with
  | absent | never | option | object | list | tuple | union => simp [acceptsScalar] at accepted
  | _ => simp [parse, accepted]

theorem traverseFrom_self {α ε : Type} {f : Nat → α → Except ε α} (i : Nat) {as : List α}
    (fixed : ∀ i, ∀ a ∈ as, f i a = .ok a) : traverseFrom f i as = .ok as := by
  induction as generalizing i with
  | nil => rfl
  | cons a rest ih =>
      have others := ih (i + 1) fun j b member => fixed j b (List.mem_cons_of_mem a member)
      rw [traverseFrom, fixed i a List.mem_cons_self, others]

theorem parseItems_self {items : List Descriptor} {ys : List Json} (position : Nat)
    (lengths : items.length = ys.length)
    (fixed : ∀ (i : Nat) t y, items[i]? = some t → ys[i]? = some y → t.parse y = .ok y) :
    parseItems position items ys = .ok ys := by
  induction items generalizing ys position with
  | nil =>
      cases ys with
      | nil => rfl
      | cons y ys => cases lengths
  | cons t rest ih =>
      cases ys with
      | nil => cases lengths
      | cons y ys =>
          have others := ih (position + 1) (Nat.succ.inj lengths) fun i u z => fixed (i + 1) u z
          rw [parseItems, fixed 0 t y rfl rfl, others]

/-- Parsing an object by fields that its own keys are taken from, in their order. The induction is
on the fields, and the keys they give are those at the end of the object. -/
theorem parseFields_self {fields : List (String × Descriptor)} {entries kept : List (String × Json)}
    (names : Fields.names kept = (Fields.names fields).filter (Fields.contains entries))
    (part : ∀ name w, (name, w) ∈ kept → entries.lookup name = some w)
    (missing : ∀ name t, (name, t) ∈ fields → entries.lookup name = none →
      t.acceptsAbsent = true)
    (fixed : ∀ name t w, (name, t) ∈ fields → entries.lookup name = some w → t.parse w = .ok w) :
    parseFields fields entries = .ok kept := by
  induction fields generalizing kept with
  | nil =>
      obtain rfl : kept = [] := List.map_eq_nil_iff.mp names
      rfl
  | cons field rest ih =>
      obtain ⟨key, t⟩ := field
      have missing' : ∀ name u, (name, u) ∈ rest → entries.lookup name = none →
          u.acceptsAbsent = true :=
        fun name u member => missing name u (List.mem_cons_of_mem _ member)
      have fixed' : ∀ name u w, (name, u) ∈ rest → entries.lookup name = some w →
          u.parse w = .ok w :=
        fun name u w member => fixed name u w (List.mem_cons_of_mem _ member)
      rw [Fields.names_cons, List.filter_cons] at names
      rw [parseFields]
      cases given : entries.lookup key with
      | none =>
          rw [Fields.contains_of_lookup_none given] at names
          dsimp only
          rw [if_pos (missing key t List.mem_cons_self given)]
          exact ih names part missing' fixed'
      | some w =>
          rw [Fields.contains_of_lookup given, if_pos rfl] at names
          -- So the object goes on with this key and what it has.
          obtain ⟨⟨name, x⟩, kept, rfl, rfl, others⟩ := List.map_eq_cons_iff.mp names
          have here := part name x List.mem_cons_self
          rw [given] at here
          cases here
          have behind := ih others
            (fun name w member => part name w (List.mem_cons_of_mem _ member)) missing' fixed'
          dsimp only
          rw [fixed name t w List.mem_cons_self given]
          dsimp only
          rw [behind]

theorem Restricted.parse_self {t : Descriptor} {v w : Json} (restricted : Restricted t v w)
    (distinct : t.Distinct) (free : t.UnionFree) : t.parse w = .ok w := by
  induction restricted with
  | scalar accepted => exact parse_of_acceptsScalar accepted
  | option _ ih =>
      rw [parse]
      exact ih (distinct.of_occurs (.option .self)) (free.of_occurs (.option .self))
  | union _ _ _ => exact absurd .self (free _)
  | @object fields entries kept names missing _ ih =>
      have declared := distinct fields .self
      have once : Fields.Distinct kept := by
        rw [Fields.Distinct, names]
        exact List.Nodup.filter _ declared
      -- The declared keys that were there are those that are there now.
      have again : Fields.names kept = (Fields.names fields).filter (Fields.contains kept) := by
        conv_lhs => rw [names]
        refine List.filter_congr ?_
        intro name member
        rw [Bool.eq_iff_iff, Fields.contains_iff_mem, Fields.contains_iff_mem,
          mem_names_kept names]
        exact (and_iff_right member).symm
      have done : parseFields fields kept = .ok kept := by
        refine parseFields_self again (fun name w member => once.lookup member) ?_ ?_
        · intro name t member unset
          exact missing name t (declared.lookup member)
            (lookup_of_not_kept names (List.mem_map_of_mem member) unset)
        · intro name t w member result
          obtain ⟨_, v, given⟩ := lookup_of_kept names result
          exact ih name t v w (declared.lookup member) given result
            (distinct.of_occurs (.field member .self)) (free.of_occurs (.field member .self))
      rw [parse, done]
  | @list item xs ys length _ ih =>
      have done : traverseFrom
          (fun i x => (parse item x).mapError (TypeError.under (.item i))) 0 ys = .ok ys := by
        refine traverseFrom_self 0 ?_
        intro position y member
        obtain ⟨i, atOutput⟩ := List.mem_iff_getElem?.mp member
        obtain ⟨x, atInput⟩ := getElem?_of_length_eq length atOutput
        rw [mapError_eq_ok]
        exact ih i x y atInput atOutput (distinct.of_occurs (.item .self))
          (free.of_occurs (.item .self))
      rw [parse, done]
  | @tuple items xs ys lengths length _ ih =>
      have same := lengths.trans length.symm
      have done : parseItems 0 items ys = .ok ys := by
        refine parseItems_self 0 same ?_
        intro i t y atShape atOutput
        obtain ⟨x, atInput⟩ := getElem?_of_length_eq length atOutput
        have position := Occurs.position (List.mem_of_getElem? atShape) .self
        exact ih i t x y atShape atInput atOutput (distinct.of_occurs position)
          (free.of_occurs position)
      rw [parse, if_pos same, done]

/-- What parsing returns has the shape, is the value without some keys of its objects, and has, where
an object's shape met an object, exactly the keys that are declared and present, in the declared
order. Without unions it parses to itself. -/
theorem parse_faithful {t : Descriptor} {v w : Json} (distinct : t.Distinct)
    (parsed : t.parse v = .ok w) :
    t.validate w = true ∧ Json.Restricts w v ∧ Restricted t v w ∧
      (t.UnionFree → t.parse w = .ok w) := by
  have restricted := restricted_of_parse t parsed
  refine ⟨restricted.check distinct, restricted.restricts distinct, restricted, ?_⟩
  intro free
  exact restricted.parse_self distinct free

namespace Post

/-- A post with a field that may be missing and places that are objects themselves. -/
def shape : Descriptor :=
  .object [("title", .string), ("draft", .option .bool), ("places", .list (.object [("x", .number)]))]

theorem distinct_shape : shape.Distinct := by decide

theorem unionFree_shape : shape.UnionFree := by decide

/-- A post whose keys come in another order, some of them undeclared, at both levels. -/
def written : Json :=
  .object [("places", .array [.object [("y", .int 2), ("x", .int 1)]]), ("extra", .null),
    ("title", .string "t")]

/-- What is declared of it. -/
def kept : Json :=
  .object [("title", .string "t"), ("places", .array [.object [("x", .int 1)]])]

theorem parse_written : shape.parse written = .ok kept := rfl

end Post

/-- Undeclared keys are dropped at both levels, the others stand in the declared order. -/
theorem parse_faithful_post :
    Post.shape.parse Post.written = .ok Post.kept ∧ Post.shape.validate Post.kept = true ∧
      Json.Restricts Post.kept Post.written ∧ Restricted Post.shape Post.written Post.kept ∧
      Post.shape.parse Post.kept = .ok Post.kept := by
  obtain ⟨valid, part, restricted, again⟩ :=
    parse_faithful Post.distinct_shape Post.parse_written
  exact ⟨Post.parse_written, valid, part, restricted, again Post.unionFree_shape⟩

end GraphQuery.Descriptor
