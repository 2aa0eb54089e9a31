import GraphQuery.Proofs.Descriptor.Flat
import GraphQuery.Proofs.Schema.FieldPath

/-!
# Nothing but absence

`Descriptor.optional` lets a value be absent and `Descriptor.present` takes this back; for values that are
there neither makes a difference. `present` looks through options and unions, and what it leaves is flat
and accepts no absence, so that there is nothing in it to look through again. Only absence itself has no
shape to fall back on, as a descriptor or as what an option wraps: it stays.
-/

namespace GraphQuery.Descriptor

variable {t : Descriptor}

theorem check_optional_some (t : Descriptor) (v : Json) :
    t.optional.check (some v) = t.check (some v) := by
  unfold optional
  split
  · rfl
  · rw [check]

/-- What may be absent besides fits when there is nothing that does not fit. -/
theorem check_optional_iff {t : Descriptor} {x : Option Json} :
    t.optional.check x = true ↔ ∀ v, x = some v → t.check (some v) = true := by
  cases x with
  | none =>
      rw [check_none, acceptsAbsent_optional]
      simp
  | some v =>
      rw [check_optional_some]
      simp

theorem acceptsAbsent_present (t : Descriptor) (there : t ≠ absent)
    (bare : ¬ Occurs (option absent) t) : t.present.acceptsAbsent = false := by
  cases t with
  | absent => exact absurd rfl there
  | option inner =>
      have solid : inner ≠ absent := by
        rintro rfl
        exact bare .self
      rw [present]
      exact acceptsAbsent_present inner solid fun part => bare (.option part)
  | union alts =>
      rw [present, Bool.eq_false_iff, ne_eq, acceptsAbsent_unionOf]
      rintro ⟨u, stays, missing⟩
      obtain ⟨t, member, kept, rfl⟩ := mem_presentAlternatives.mp stays
      have solid : t ≠ absent := by
        rintro rfl
        cases kept
      rw [acceptsAbsent_present t solid fun part => bare (.alternative member part)] at missing
      cases missing
  | _ => rfl
termination_by sizeOf t

theorem presentAlternatives_eq_self {alts : List Descriptor}
    (each : ∀ t ∈ alts, t.isAbsent = false ∧ t.present = t) : presentAlternatives alts = alts := by
  induction alts with
  | nil => rfl
  | cons t rest ih =>
      obtain ⟨⟨there, same⟩, others⟩ := List.forall_mem_cons.mp each
      have stays : ¬ t.isAbsent = true := Bool.eq_false_iff.mp there
      rw [presentAlternatives, if_neg stays, same, ih others]

/-- Where nothing may be absent and unions are flat there is nothing to strip. -/
theorem present_eq_self (flat : t.Flat) (solid : t.acceptsAbsent = false) : t.present = t := by
  cases t with
  | option inner => cases solid
  | union alts =>
      have each : ∀ u ∈ alts, u.isAbsent = false ∧ u.present = u := by
        intro u member
        have single := flat.2.2 u member
        have own : ¬ u.acceptsAbsent = true := by
          intro missing
          have whole : (union alts).acceptsAbsent = true := by
            rw [acceptsAbsent, anyAcceptsAbsent_iff]
            exact ⟨u, member, missing⟩
          rw [solid] at whole
          cases whole
        cases u with
        | absent | option => exact absurd rfl own
        | union => cases single
        | _ => exact ⟨rfl, rfl⟩
      rw [present, presentAlternatives_eq_self each]
      exact flat.unionOf
  | _ => rfl

/-- Stripping absence and allowing it change nothing for values that are there. What may be absent accepts
absence. Where absence is neither the whole shape nor what an option in it wraps, what is stripped accepts
no absence, is no option, and is not stripped any further. An option that wraps absence through further
options has one inside that wraps it itself. -/
theorem only_absence_changes (t : Descriptor) :
    (∀ v, t.present.validate v = t.validate v) ∧
      (∀ v, t.optional.validate v = t.validate v) ∧
      t.optional.acceptsAbsent = true ∧
      (t ≠ absent → ¬ Occurs (option absent) t →
        t.present.acceptsAbsent = false ∧ (∀ inner, t.present ≠ option inner) ∧
          t.present.present = t.present) := by
  refine ⟨check_present t, check_optional_some t, acceptsAbsent_optional t, ?_⟩
  intro there bare
  have solid := acceptsAbsent_present t there bare
  refine ⟨solid, ?_, present_eq_self (flat_present t) solid⟩
  intro inner same
  rw [same] at solid
  cases solid

/-- An option that wraps absence itself. -/
def wrapsAbsence : Descriptor → Bool
  | option absent => true
  | _ => false

theorem everywhere_not_wrapsAbsence (t : Descriptor) :
    t.everywhere (fun s => !s.wrapsAbsence) = true ↔ ¬ Occurs (option absent) t := by
  rw [everywhere_iff]
  constructor
  · intro all part
    cases all _ part
  · intro bare s part
    unfold wrapsAbsence
    split
    · exact absurd part bare
    · rfl

instance (t : Descriptor) : Decidable (¬ Occurs (option absent) t) :=
  decidable_of_iff _ t.everywhere_not_wrapsAbsence

namespace Nickname

/-- A text or a number, and many ways to leave it out. -/
def shape : Descriptor :=
  option (union [absent, option (option string), union [union [number, absent], never, string]])

theorem bare : ¬ Occurs (option absent) shape := by decide

end Nickname

/-- One union is left, of what may be there. -/
theorem only_absence_changes_nickname :
    Nickname.shape ≠ absent ∧ ¬ Occurs (option absent) Nickname.shape ∧
      Nickname.shape.present = union [string, number] ∧
      Nickname.shape.present.acceptsAbsent = false ∧
      Nickname.shape.present.present = Nickname.shape.present := by
  have there : Nickname.shape ≠ absent := Descriptor.noConfusion
  obtain ⟨_, _, _, stripped⟩ := only_absence_changes Nickname.shape
  obtain ⟨solid, _, again⟩ := stripped there Nickname.bare
  exact ⟨there, Nickname.bare, rfl, solid, again⟩

end GraphQuery.Descriptor
