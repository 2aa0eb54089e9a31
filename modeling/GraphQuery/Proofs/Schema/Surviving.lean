import GraphQuery.Schema.Database
import Mathlib.Data.List.Induction
import Mathlib.Data.List.Nodup

/-!
# Declarations that survive

A declaration is replaced by any later one of its name. What a schema holds of a list of declarations
is the last one of each name, whatever kinds of declarations came before it.
-/

namespace GraphQuery

/-- The declaration is the last one of its name in a list of declarations. -/
def Declaration.Survives (ds : List Declaration) (d : Declaration) : Prop :=
  ∃ before after, ds = before ++ d :: after ∧ ∀ later ∈ after, later.name ≠ d.name

variable {ds : List Declaration} {d e : Declaration}

/-- One more declaration survives, and so do those of other names. -/
theorem Declaration.survives_append_singleton :
    Survives (ds ++ [d]) e ↔ e = d ∨ Survives ds e ∧ e.name ≠ d.name := by
  refine ⟨?_, ?_⟩
  · rintro ⟨before, after, split, last⟩
    -- Either nothing follows the declaration, or what follows ends with the new one.
    rcases List.eq_nil_or_concat after with rfl | ⟨front, b, rfl⟩
    · obtain ⟨_, same⟩ := List.append_inj' split rfl
      exact .inl (List.cons.inj same).1.symm
    · rw [List.concat_eq_append, ← List.cons_append, ← List.append_assoc] at split
      obtain ⟨rfl, same⟩ := List.append_inj' split rfl
      cases same
      rw [List.concat_eq_append] at last
      refine .inr ⟨⟨before, front, rfl, ?_⟩, ?_⟩
      · intro later member
        exact last later (List.mem_append_left _ member)
      · exact (last d (by simp)).symm
  · rintro (rfl | ⟨⟨before, after, rfl, last⟩, other⟩)
    · exact ⟨ds, [], rfl, by simp⟩
    · refine ⟨before, after ++ [d], by simp, ?_⟩
      intro later member
      rcases List.mem_append.mp member with there | new
      · exact last later there
      · rw [List.mem_singleton.mp new]
        exact other.symm

namespace Database

/-- Placing a declaration takes away the one of its name, and only that one. -/
theorem mem_place (distinct : (ds.map Declaration.name).Nodup) :
    e ∈ place ds d ↔ e = d ∨ e ∈ ds ∧ e.name ≠ d.name := by
  induction ds with
  | nil => simp [place]
  | cons old rest ih =>
      rw [List.map_cons, List.nodup_cons] at distinct
      rw [place]
      by_cases same : old.name = d.name
      · -- No declaration behind the old one has its name.
        have others : ∀ f ∈ rest, f.name ≠ d.name := by
          intro f member equal
          exact distinct.1 (same ▸ equal ▸ List.mem_map_of_mem member)
        rw [if_pos same, List.mem_cons, List.mem_cons]
        refine or_congr_right ⟨?_, ?_⟩
        · intro member
          exact ⟨.inr member, others e member⟩
        · rintro ⟨rfl | member, other⟩
          · exact absurd same other
          · exact member
      · rw [if_neg same, List.mem_cons, List.mem_cons, ih distinct.2]
        refine ⟨?_, ?_⟩
        · rintro (rfl | rfl | ⟨member, other⟩)
          · exact .inr ⟨.inl rfl, same⟩
          · exact .inl rfl
          · exact .inr ⟨.inr member, other⟩
        · rintro (rfl | ⟨rfl | member, other⟩)
          · exact .inr (.inl rfl)
          · exact .inl rfl
          · exact .inr (.inr ⟨member, other⟩)

/-- What a schema holds is found by its name. -/
theorem declaration?_of_mem {db : Database} (member : d ∈ db.declarations) :
    db.declaration? d.name = some d := by
  have named : (db.declaration? d.name).isSome = true := by
    rw [declaration?, List.find?_isSome]
    exact ⟨d, member, beq_self_eq_true d.name⟩
  obtain ⟨found, there⟩ := Option.isSome_iff_exists.mp named
  have same : found.name = d.name := by simpa using List.find?_some there
  rw [there, List.inj_on_of_nodup_map db.distinct_names (List.mem_of_find?_eq_some there) member same]

/-- The schema of a list of declarations holds those that survive. -/
theorem mem_declarations (ds : List Declaration) (e : Declaration) :
    e ∈ (ofDeclarations ds).declarations ↔ Declaration.Survives ds e := by
  -- The induction adds declarations at the end, as the schema does.
  induction ds using List.reverseRecOn with
  | nil =>
      refine ⟨fun member => absurd member List.not_mem_nil, ?_⟩
      rintro ⟨before, after, split, _⟩
      simp at split
  | append_singleton ds d ih =>
      have step : (ofDeclarations (ds ++ [d])).declarations =
          place (ofDeclarations ds).declarations d := by
        rw [ofDeclarations, List.foldl_append]
        rfl
      rw [step, mem_place (ofDeclarations ds).distinct_names, ih,
        Declaration.survives_append_singleton]

end Database

end GraphQuery
