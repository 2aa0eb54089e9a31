import GraphQuery.Proofs.Descriptor.Hereditary

/-!
# Shapes without absence

Stripping options and absent alternatives changes nothing for values that are there.
-/

namespace GraphQuery.Descriptor

theorem mem_presentAlternatives {alts : List Descriptor} {u : Descriptor} :
    u ∈ presentAlternatives alts ↔ ∃ t ∈ alts, t.isAbsent = false ∧ t.present = u := by
  induction alts with
  | nil => simp [presentAlternatives]
  | cons t rest ih =>
      rw [presentAlternatives]
      split
      · next gone => simp only [ih, List.mem_cons, exists_eq_or_imp, gone, Bool.true_eq_false,
          false_and, false_or]
      · next stays =>
          have here : t.isAbsent = false := Bool.eq_false_iff.mpr stays
          simp only [ih, List.mem_cons, exists_eq_or_imp, here, true_and]
          rw [eq_comm (a := u)]

theorem check_present (t : Descriptor) (v : Json) : t.present.check (some v) = t.check (some v) := by
  cases t with
  | option inner =>
      rw [present, check]
      exact check_present inner v
  | union alts =>
      rw [present, check, Bool.eq_iff_iff, check_unionOf, checkAny_iff]
      refine ⟨?_, ?_⟩
      · rintro ⟨u, kept, accepted⟩
        obtain ⟨t, member, _, rfl⟩ := mem_presentAlternatives.mp kept
        rw [check_present t v] at accepted
        exact ⟨t, member, accepted⟩
      · rintro ⟨t, member, accepted⟩
        -- Absence accepts no value, so this alternative has stayed.
        have stays : t.isAbsent = false := by
          cases t with
          | absent => cases accepted
          | _ => rfl
        rw [← check_present t v] at accepted
        exact ⟨t.present, mem_presentAlternatives.mpr ⟨t, member, stays, rfl⟩, accepted⟩
  | _ => rfl
termination_by sizeOf t

theorem Hereditary.present {p : Descriptor → Prop} (kept : Hereditary p) (t : Descriptor)
    (own : p t) : p t.present := by
  cases t with
  | option inner =>
      rw [Descriptor.present]
      exact kept.present inner (kept.part own (.option .self))
  | union alts =>
      rw [Descriptor.present]
      refine kept.unionOf ?_
      intro u stays
      obtain ⟨t, member, _, rfl⟩ := mem_presentAlternatives.mp stays
      exact kept.present t (kept.part own (.alternative member .self))
  | _ => exact own
termination_by sizeOf t

theorem Distinct.present {t : Descriptor} (distinct : t.Distinct) : t.present.Distinct :=
  hereditary_distinct.present t distinct

end GraphQuery.Descriptor
