import GraphQuery.Text.DurationReading

/-!
# Durations are written exactly

The units are tried from the largest to the smallest, so the first one that divides a duration is the largest
that does; one nanosecond divides every duration, so there is always one.
-/

namespace GraphQuery.Duration

variable {d : Duration} {name : String} {length : Nat}

/-! ## Units -/

theorem mem_units_iff : (name, length) ∈ units ↔ unit? name = some length := by
  constructor
  · intro member
    simp only [units, List.mem_cons, Prod.mk.injEq, List.not_mem_nil, or_false] at member
    rcases member with ⟨rfl, rfl⟩ | ⟨rfl, rfl⟩ | ⟨rfl, rfl⟩ | ⟨rfl, rfl⟩ | ⟨rfl, rfl⟩ | ⟨rfl, rfl⟩ <;> rfl
  · intro known
    unfold unit? at known
    split at known <;> cases known <;> decide

theorem units_descend : units.Pairwise fun unit other => other.2 ≤ unit.2 := by decide

/-- No unit starts with a digit. -/
theorem takeWhile_unit (known : unit? name = some length) : name.toList.takeWhile Char.isDigit = [] := by
  have each : ∀ unit ∈ units, unit.1.toList.takeWhile Char.isDigit = [] := by decide
  exact each _ (mem_units_iff.mpr known)

theorem dropWhile_unit (known : unit? name = some length) :
    name.toList.dropWhile Char.isDigit = name.toList := by
  have each : ∀ unit ∈ units, unit.1.toList.dropWhile Char.isDigit = unit.1.toList := by decide
  exact each _ (mem_units_iff.mpr known)

/-- The unit that a duration is written in. -/
theorem exists_largest_unit (d : Duration) :
    ∃ name length, units.find? (fun unit => d.nanoseconds % unit.2 == 0) = some (name, length) ∧
      unit? name = some length ∧ length ∣ d.nanoseconds ∧
      ∀ other longer, unit? other = some longer → longer ∣ d.nanoseconds → longer ≤ length := by
  cases found : units.find? fun unit => d.nanoseconds % unit.2 == 0 with
  | none =>
      -- One nanosecond divides every duration.
      have never := List.find?_eq_none.mp found ("ns", 1) (by decide)
      simp [Nat.mod_one] at never
  | some unit =>
      obtain ⟨divides, before, after, split, skipped⟩ := List.find?_eq_some_iff_append.mp found
      refine ⟨unit.1, unit.2, rfl, mem_units_iff.mp (List.mem_of_find?_eq_some found),
        Nat.dvd_of_mod_eq_zero (by simpa using divides), ?_⟩
      intro other longer known dividesToo
      have member : (other, longer) ∈ before ++ unit :: after := split ▸ mem_units_iff.mpr known
      have descend : (before ++ unit :: after).Pairwise fun unit other => other.2 ≤ unit.2 :=
        split ▸ units_descend
      rcases List.mem_append.mp member with front | behind
      · have passed := skipped _ front
        simp [Nat.mod_eq_zero_of_dvd dividesToo] at passed
      · rcases List.mem_cons.mp behind with rfl | behind
        · exact Nat.le_refl _
        · exact (List.pairwise_cons.mp (List.pairwise_append.mp descend).2.1).1 _ behind

/-! ## Reading -/

/-- A count and a unit are read back. -/
theorem readParts?_append (count : Nat) (known : unit? name = some length) :
    readParts? (toString count ++ name) = some (count, length) := by
  have digits : ∀ c ∈ Nat.toDigits 10 count, c.isDigit = true := fun _ member =>
    Nat.isDigit_of_mem_toDigits (by decide) (by decide) member
  have text : (toString count ++ name).toList = Nat.toDigits 10 count ++ name.toList := by
    rw [String.toList_append, Text.toList_toString]
  rw [readParts?, text, List.takeWhile_append_of_pos digits, List.dropWhile_append_of_pos digits,
    takeWhile_unit known, dropWhile_unit known, List.append_nil, if_neg Nat.toDigits_ne_nil,
    String.ofList_toList, known, Text.spelled_toDigits]
  rfl

/-- A duration is written as a count of a unit, and of the largest one unless it is no time at all. -/
theorem exists_render (d : Duration) :
    ∃ count name length, d.render = toString count ++ name ∧ unit? name = some length ∧
      count * length = d.nanoseconds ∧
      (d.nanoseconds ≠ 0 →
        ∀ other longer, unit? other = some longer → longer ∣ d.nanoseconds → longer ≤ length) := by
  by_cases none : d.nanoseconds = 0
  · refine ⟨0, "ms", 1000 * 1000, ?_, rfl, ?_, fun lasts => absurd none lasts⟩
    · rw [render, if_pos none]
      rfl
    · rw [none]
  · obtain ⟨name, length, found, known, divides, largest⟩ := exists_largest_unit d
    refine ⟨d.nanoseconds / length, name, length, ?_, known, Nat.div_mul_cancel divides, fun _ => largest⟩
    rw [render, if_neg none, found]

/-- **Durations are written exactly, and in the largest whole unit.** The text of a duration is read as a count
and a unit that together give its nanoseconds; the unit is the largest one that divides them, unless there are
none. So durations that are written alike are the same, also when they are given in seconds and nanoseconds. -/
theorem written_exactly :
    (∀ d : Duration, ∃ count length, readParts? d.render = some (count, length) ∧
      count * length = d.nanoseconds ∧
      (d.nanoseconds ≠ 0 →
        ∀ other longer, unit? other = some longer → longer ∣ d.nanoseconds → longer ≤ length)) ∧
    Function.Injective render ∧
    Function.Injective fun parts : Nat × Fin 1000000000 => (ofParts parts.1 parts.2).render := by
  have reads (d : Duration) : ∃ count length, readParts? d.render = some (count, length) ∧
      count * length = d.nanoseconds ∧
      (d.nanoseconds ≠ 0 →
        ∀ other longer, unit? other = some longer → longer ∣ d.nanoseconds → longer ≤ length) := by
    obtain ⟨count, name, length, text, known, exact, largest⟩ := exists_render d
    exact ⟨count, length, text ▸ readParts?_append count known, exact, largest⟩
  have injective : Function.Injective render := by
    intro d e same
    obtain ⟨count, length, first, exact, _⟩ := reads d
    obtain ⟨count', length', second, exact', _⟩ := reads e
    rw [same, second] at first
    cases first
    show Duration.mk d.nanoseconds = .mk e.nanoseconds
    rw [← exact, ← exact']
  refine ⟨reads, injective, ?_⟩
  rintro ⟨seconds, nanoseconds⟩ ⟨seconds', nanoseconds'⟩ same
  have total := congrArg Duration.nanoseconds (injective same)
  simp only [ofParts] at total
  rw [Prod.mk.injEq, Fin.ext_iff]
  omega

/-- Two hours are written in hours, and one nanosecond more than the most of 64-bit seconds and nanoseconds is
written otherwise than they are. -/
theorem written_exactly_hours :
    (ofParts 7200 0).render = "2h" ∧ (ofParts 7200 0).nanoseconds ≠ 0 ∧
      (∃ count length, readParts? "2h" = some (count, length) ∧ count * length = 7200000000000 ∧
        3600000000000 ≤ length) ∧
      (ofParts 18446744073709551615 999999999).render ≠ (ofParts 18446744073709551616 0).render := by
  obtain ⟨reads, _, injective⟩ := written_exactly
  have text : (ofParts 7200 0).render = "2h" := by decide +kernel
  have lasts : (ofParts 7200 0).nanoseconds ≠ 0 := by decide
  obtain ⟨count, length, read, exact, largest⟩ := reads (ofParts 7200 0)
  rw [text] at read
  refine ⟨text, lasts, ⟨count, length, read, exact, ?_⟩, ?_⟩
  · exact largest lasts "h" 3600000000000 rfl (by decide)
  · intro same
    have equal := @injective (18446744073709551615, 999999999) (18446744073709551616, 0) same
    exact absurd equal (by decide)

end GraphQuery.Duration
