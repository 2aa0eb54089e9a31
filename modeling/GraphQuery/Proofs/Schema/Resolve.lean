import GraphQuery.Proofs.Descriptor.Flat
import GraphQuery.Proofs.Schema.FieldPath

/-!
# Following links

Links are followed through options, lists and unions, and the rows they lead to keep their own links. So
what is met behind followed links is what was met in front of them, with rows in the place of links. No
link to follow is left, and since unions are built again from the innermost ones outwards, all that is
left of them is flat: following links again changes nothing. A union leaves out a row that equals
another one, and only that one.
-/

namespace GraphQuery

namespace Descriptor

/-- What is met in a descriptor, and is no union, is met in one of its alternatives. -/
theorem exists_reachable_alternative {s t : Descriptor} (part : Reachable s t)
    (single : s.isSingle = true) : ∃ u ∈ t.alternatives, Reachable s u := by
  cases part with
  | alternative member part => exact ⟨_, member, part⟩
  | self =>
      rw [alternatives_of_isSingle single]
      exact ⟨s, List.mem_singleton_self s, .self⟩
  | option part => exact ⟨_, List.mem_singleton_self _, .option part⟩
  | item part => exact ⟨_, List.mem_singleton_self _, .item part⟩

/-- A union loses nothing that is met in one of its descriptors, or keeps something that equals it. -/
theorem exists_reachable_unionOf {ts : List Descriptor} {s t : Descriptor} (given : t ∈ ts)
    (part : Reachable s t) (single : s.isSingle = true) :
    ∃ r, Reachable r (unionOf ts) ∧ (r = s ∨ r.same s = true) := by
  obtain ⟨u, own, inside⟩ := exists_reachable_alternative part single
  obtain ⟨alts, made, _, kept⟩ := unionOf_eq_collapse ts
  rw [made]
  obtain ⟨v, member, rfl | equal⟩ := kept t given u own
  · exact ⟨s, inside.trans (reachable_of_mem_collapse member), .inl rfl⟩
  · obtain ⟨r, there, same⟩ := reachable_of_same inside equal
    exact ⟨r, there.trans (reachable_of_mem_collapse member), .inr same⟩

end Descriptor

namespace Database

open Descriptor

variable (db : Database) {s t u : Descriptor}

/-- Without a frame only a link to a declared table is replaced, by the row. -/
theorem resolve_of_isFrame (bare : t.isFrame = false) :
    db.resolve t = t ∧ (∀ table, t = .record (some table) → db.declaration? table = none) ∨
      ∃ table d, t = .record (some table) ∧ db.declaration? table = some d ∧
        db.resolve t = d.recordType := by
  cases t with
  | record table =>
      cases table with
      | none =>
          refine .inl ⟨rfl, ?_⟩
          rintro _ ⟨⟩
      | some table =>
          rw [resolve]
          cases declared : db.declaration? table with
          | none =>
              refine .inl ⟨rfl, ?_⟩
              rintro _ ⟨⟩
              exact declared
          | some d => exact .inr ⟨table, d, rfl, declared, rfl⟩
  | option | list | union | never => cases bare
  | _ =>
      refine .inl ⟨rfl, ?_⟩
      rintro _ ⟨⟩

theorem isFrame_resolve (bare : t.isFrame = false) : (db.resolve t).isFrame = false := by
  rcases db.resolve_of_isFrame bare with ⟨stays, _⟩ | ⟨_, d, _, _, row⟩
  · rw [stays]
    exact bare
  · rw [row]
    rfl

/-- What is met behind followed links, frames aside, was met in front of them and is a row now if it was
a link to one. -/
theorem reachable_resolve (t : Descriptor) (part : Reachable s (db.resolve t)) :
    s.isFrame = true ∨ ∃ u, Reachable u t ∧ u.isFrame = false ∧ db.resolve u = s := by
  cases t with
  | option inner =>
      rw [resolve] at part
      cases part with
      | self => exact .inl rfl
      | option part =>
          rcases reachable_resolve inner part with frame | ⟨u, inside, bare, same⟩
          · exact .inl frame
          · exact .inr ⟨u, .option inside, bare, same⟩
  | list item =>
      rw [resolve] at part
      cases part with
      | self => exact .inl rfl
      | item part =>
          rcases reachable_resolve item part with frame | ⟨u, inside, bare, same⟩
          · exact .inl frame
          · exact .inr ⟨u, .item inside, bare, same⟩
  | union alts =>
      rw [resolve, resolveEach_eq_map] at part
      rcases reachable_unionOf part with rfl | ⟨_, _, _, rfl⟩ | ⟨_, made, part⟩
      · exact .inl rfl
      · exact .inl rfl
      · obtain ⟨t, member, rfl⟩ := List.mem_map.mp made
        rcases reachable_resolve t part with frame | ⟨u, inside, bare, same⟩
        · exact .inl frame
        · exact .inr ⟨u, .alternative member inside, bare, same⟩
  | never =>
      cases part
      exact .inl rfl
  | _ => exact .inr ⟨_, .self, rfl, (eq_of_reachable (db.isFrame_resolve rfl) part).symm⟩
termination_by sizeOf t

/-- Nothing is lost that was met in front of the links, unless something is kept that equals it. -/
theorem exists_reachable_resolve (part : Reachable u t) (bare : u.isFrame = false) :
    ∃ s, Reachable s (db.resolve t) ∧ (s = db.resolve u ∨ s.same (db.resolve u) = true) := by
  have single : (db.resolve u).isSingle = true := by
    have still := db.isFrame_resolve bare
    cases same : db.resolve u with
    | union | never =>
        rw [same] at still
        cases still
    | _ => rfl
  induction part with
  | self => exact ⟨_, .self, .inl rfl⟩
  | option _ ih =>
      obtain ⟨s, inside, equal⟩ := ih
      exact ⟨s, .option inside, equal⟩
  | item _ ih =>
      obtain ⟨s, inside, equal⟩ := ih
      exact ⟨s, .item inside, equal⟩
  | alternative member _ ih =>
      obtain ⟨s, inside, equal⟩ := ih
      have choice : s.isSingle = true := by
        rcases equal with rfl | equal
        · exact single
        · exact isSingle_of_same equal single
      rw [resolve, resolveEach_eq_map]
      obtain ⟨r, there, same⟩ :=
        exists_reachable_unionOf (List.mem_map_of_mem member) inside choice
      refine ⟨r, there, ?_⟩
      rcases equal with rfl | equal
      · exact same
      · exact .inr (same_of_eq_or_same same equal)

/-! ## Nothing is left to follow -/

theorem declaration?_of_reachable_resolve {table : String}
    (part : Reachable (.record (some table)) (db.resolve t)) : db.declaration? table = none := by
  rcases db.reachable_resolve t part with frame | ⟨u, _, bare, same⟩
  · cases frame
  · rcases db.resolve_of_isFrame bare with ⟨stays, undeclared⟩ | ⟨_, d, _, _, row⟩
    · exact undeclared table (stays.symm.trans same)
    · -- A row is no link.
      rw [row] at same
      cases same

/-- Whatever the unions of a descriptor were like, those met behind its links are flat. -/
theorem flatOutside_resolve (t : Descriptor) : (db.resolve t).FlatOutside := by
  cases t with
  | option inner =>
      rw [resolve]
      exact (flatOutside_resolve inner).option
  | list item =>
      rw [resolve]
      exact (flatOutside_resolve item).list
  | union alts =>
      rw [resolve, resolveEach_eq_map]
      refine .unionOf ?_
      intro t made
      obtain ⟨u, member, rfl⟩ := List.mem_map.mp made
      exact flatOutside_resolve u
  | never =>
      intro s part
      cases part
      trivial
  | _ => exact flatOutside_of_isFrame (db.isFrame_resolve rfl)
termination_by sizeOf t

theorem settled_resolve (t : Descriptor) : db.Settled (db.resolve t) where
  links _ part := db.declaration?_of_reachable_resolve part
  unions alts part := (db.flatOutside_resolve t (.union alts) part).unionOf

theorem resolve_resolve (t : Descriptor) : db.resolve (db.resolve t) = db.resolve t :=
  (db.settled_resolve t).resolve

/-- Following links again changes nothing, and no link to a declared table is met behind followed links.
The rows that stand there are those of the links that were followed, as they are declared: the links
inside them are links still. Each link that was followed has its row there, or one that equals it. -/
theorem resolve_follows_links (db : Database) (t : Descriptor) :
    db.resolve (db.resolve t) = db.resolve t ∧
      (∀ table, Reachable (.record (some table)) (db.resolve t) → db.declaration? table = none) ∧
      (∀ fields, Reachable (.object fields) (db.resolve t) →
        Reachable (.object fields) t ∨
          ∃ table d, Reachable (.record (some table)) t ∧ db.declaration? table = some d ∧
            .object fields = d.recordType ∧
            ∀ link, Occurs (.record link) d.recordType → Occurs (.record link) (db.resolve t)) ∧
      ∀ table d, Reachable (.record (some table)) t → db.declaration? table = some d →
        ∃ row, Reachable row (db.resolve t) ∧
          (row = d.recordType ∨ row.same d.recordType = true) := by
  refine ⟨db.resolve_resolve t, fun table part => db.declaration?_of_reachable_resolve part, ?_, ?_⟩
  · intro fields part
    rcases db.reachable_resolve t part with frame | ⟨u, inside, bare, same⟩
    · cases frame
    · rcases db.resolve_of_isFrame bare with ⟨stays, _⟩ | ⟨table, d, rfl, declared, row⟩
      · rw [← same, stays]
        exact .inl inside
      · have verbatim : d.recordType = .object fields := row.symm.trans same
        refine .inr ⟨table, d, inside, declared, verbatim.symm, ?_⟩
        intro link inner
        rw [verbatim] at inner
        exact inner.trans part.occurs
  · intro table d part declared
    obtain ⟨row, there, equal⟩ := db.exists_reachable_resolve part rfl
    rw [resolve, declared] at equal
    exact ⟨row, there, equal⟩

/-- Two tables that link to each other and to themselves: the links in their rows are left. -/
example :
    let user := [("friend", Descriptor.record (some "user")), ("post", .record (some "post"))]
    let post := [("author", Descriptor.record (some "user"))]
    (ofDeclarations [.table ⟨"user", user⟩, .table ⟨"post", post⟩]).resolve
        (.option (.union [.record (some "user"), .list (.record (some "post")),
          .union [.record (some "user"), .record (some "page")]])) =
      .option (.union [.object (("id", .record (some "user")) :: user),
        .list (.object (("id", .record (some "post")) :: post)), .record (some "page")]) := rfl

end Database

end GraphQuery
