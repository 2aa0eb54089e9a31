import GraphQuery.Fields

/-!
# Looking up fields

Look-up finds the first entry of a name. A name is found exactly when it occurs, and when no name
occurs twice every entry is the one that is found.
-/

namespace GraphQuery.Fields

variable {α : Type} {fields : List (String × α)} {name other : String} {a b : α}

@[simp] theorem names_nil : names ([] : List (String × α)) = [] := rfl

@[simp] theorem names_cons (entry : String × α) (rest : List (String × α)) :
    names (entry :: rest) = entry.1 :: names rest := rfl

theorem lookup_cons_of_ne (rest : List (String × α)) (h : other ≠ name) :
    ((name, a) :: rest).lookup other = rest.lookup other := by
  have unequal : (other == name) = false := by simpa using h
  rw [List.lookup_cons, unequal]

/-- An entry is found at once, or behind one of another name. -/
theorem lookup_cons_eq_some {rest : List (String × α)} :
    ((name, b) :: rest).lookup other = some a ↔
      other = name ∧ b = a ∨ other ≠ name ∧ rest.lookup other = some a := by
  by_cases same : other = name
  · subst same
    simp
  · rw [lookup_cons_of_ne rest same]
    simp [same]

theorem mem_of_lookup (found : fields.lookup name = some a) : (name, a) ∈ fields := by
  obtain ⟨before, after, rfl, _⟩ := List.lookup_eq_some_iff.mp found
  simp

theorem lookup_eq_none : fields.lookup name = none ↔ name ∉ names fields := by
  rw [List.lookup_eq_none_iff, names, List.mem_map]
  refine ⟨?_, ?_⟩
  · rintro different ⟨entry, member, rfl⟩
    simpa using different entry member
  · intro missing entry member
    have unequal : name ≠ entry.1 := fun same => missing ⟨entry, member, same.symm⟩
    simpa using unequal

theorem lookup_of_mem_names (member : name ∈ names fields) : ∃ a, fields.lookup name = some a := by
  cases found : fields.lookup name with
  | none => exact absurd member (lookup_eq_none.mp found)
  | some a => exact ⟨a, rfl⟩

theorem contains_iff_mem : contains fields name = true ↔ name ∈ names fields := by
  simp [contains, names]

theorem contains_of_lookup (found : fields.lookup name = some a) :
    contains fields name = true :=
  contains_iff_mem.mpr (List.mem_map_of_mem (mem_of_lookup found))

theorem contains_of_lookup_none (missing : fields.lookup name = none) :
    contains fields name = false := by
  have absent := lookup_eq_none.mp missing
  rw [← contains_iff_mem] at absent
  simpa using absent

/-- Every entry is found when no name occurs twice. -/
theorem Distinct.lookup (distinct : Distinct fields) (member : (name, a) ∈ fields) :
    fields.lookup name = some a := by
  induction fields with
  | nil => cases member
  | cons entry rest ih =>
      obtain ⟨key, b⟩ := entry
      have fresh : key ∉ names rest := (List.nodup_cons.mp distinct).1
      rcases List.mem_cons.mp member with same | behind
      · cases same
        exact List.lookup_cons_self
      · have unequal : name ≠ key := by
          rintro rfl
          exact fresh (List.mem_map_of_mem behind)
        rw [lookup_cons_of_ne rest unequal]
        exact ih (List.nodup_cons.mp distinct).2 behind

/-- In front of an entry there is none of its name when no name occurs twice. -/
theorem Distinct.fresh {before after : List (String × α)}
    (distinct : Distinct (before ++ (name, a) :: after)) : name ∉ names before := by
  rw [Distinct, names, List.map_append, List.nodup_append] at distinct
  obtain ⟨-, -, apart⟩ := distinct
  intro there
  exact apart name there name List.mem_cons_self rfl

/-- Only the entry of the name that is set is new. -/
theorem mem_insert (member : (other, b) ∈ insert fields name a) :
    (other, b) ∈ fields ∨ other = name ∧ b = a := by
  induction fields with
  | nil =>
      cases List.mem_singleton.mp member
      exact .inr ⟨rfl, rfl⟩
  | cons entry rest ih =>
      obtain ⟨key, old⟩ := entry
      rw [insert] at member
      split at member
      · next same =>
          rcases List.mem_cons.mp member with new | there
          · cases new
            exact .inr ⟨same, rfl⟩
          · exact .inl (List.mem_cons_of_mem _ there)
      · rcases List.mem_cons.mp member with same | there
        · exact .inl (List.mem_cons.mpr (.inl same))
        · exact (ih there).imp_left (List.mem_cons_of_mem _)

theorem mem_names_insert :
    other ∈ names (insert fields name a) ↔ other = name ∨ other ∈ names fields := by
  rw [names_insert]
  split
  · next there =>
      refine ⟨.inr, ?_⟩
      rintro (rfl | old)
      · exact there
      · exact old
  · rw [List.mem_append, List.mem_singleton, or_comm]

theorem insert_of_lookup (found : fields.lookup name = some a) : insert fields name a = fields := by
  induction fields with
  | nil => cases found
  | cons entry rest ih =>
      obtain ⟨key, old⟩ := entry
      rw [insert]
      split
      · next same =>
          subst same
          rw [List.lookup_cons_self] at found
          cases found
          rfl
      · next other =>
          rw [lookup_cons_of_ne rest (Ne.symm other)] at found
          rw [ih found]

/-- Only to set what is there already changes nothing. -/
theorem insert_eq_self_iff : insert fields name a = fields ↔ fields.lookup name = some a := by
  refine ⟨?_, insert_of_lookup⟩
  intro same
  rw [← same, lookup_insert_self]

/-- A new name goes to the end. -/
theorem insert_of_fresh (fresh : name ∉ names fields) :
    insert fields name a = fields ++ [(name, a)] := by
  induction fields with
  | nil => rfl
  | cons entry rest ih =>
      rw [names_cons, List.mem_cons, not_or] at fresh
      rw [insert, if_neg (Ne.symm fresh.1), ih fresh.2, List.cons_append]

/-- Look-up in the entries of some names. -/
theorem lookup_filter (keep : String → Bool) :
    (fields.filter fun entry => keep entry.1).lookup name =
      if keep name then fields.lookup name else none := by
  induction fields with
  | nil => simp
  | cons entry rest ih =>
      obtain ⟨key, old⟩ := entry
      by_cases same : name = key
      · subst same
        cases kept : keep name <;> simp [kept, ih]
      · rw [lookup_cons_of_ne rest same, ← ih, List.filter_cons]
        split
        · rw [lookup_cons_of_ne _ same]
        · rfl

theorem lookup_map {β : Type} (f : α → β) :
    (fields.map fun (key, a) => (key, f a)).lookup name = (fields.lookup name).map f := by
  induction fields with
  | nil => rfl
  | cons entry rest ih =>
      obtain ⟨key, old⟩ := entry
      rw [List.map_cons]
      by_cases same : name = key
      · subst same
        rw [List.lookup_cons_self, List.lookup_cons_self, Option.map_some]
      · rw [lookup_cons_of_ne rest same, lookup_cons_of_ne _ same, ih]

/-! ## One dictionary behind another -/

section Extend

variable {more : List (String × α)}

theorem Distinct.extend (distinct : Distinct fields) (more : List (String × α)) :
    Distinct (Fields.extend fields more) := by
  induction more generalizing fields with
  | nil => exact distinct
  | cons entry rest ih => exact ih (distinct.insert entry.1 entry.2)

theorem mem_names_extend :
    name ∈ names (extend fields more) ↔ name ∈ names fields ∨ name ∈ names more := by
  induction more generalizing fields with
  | nil => simp [extend]
  | cons entry rest ih =>
      rw [names_cons, List.mem_cons, or_left_comm, ← or_assoc, ← mem_names_insert (a := entry.2)]
      exact ih

/-- A name that is not set again keeps its entry. -/
theorem lookup_extend_of_none (missing : more.lookup name = none) :
    (extend fields more).lookup name = fields.lookup name := by
  induction more generalizing fields with
  | nil => rfl
  | cons entry rest ih =>
      rw [lookup_eq_none, names_cons, List.mem_cons, not_or] at missing
      have behind : (extend (insert fields entry.1 entry.2) rest).lookup name =
          (insert fields entry.1 entry.2).lookup name := ih (lookup_eq_none.mpr missing.2)
      rw [lookup_insert_of_ne fields entry.2 missing.1] at behind
      exact behind

/-- The later dictionary wins. -/
theorem lookup_extend_of_some (distinct : Distinct more) (found : more.lookup name = some a) :
    (extend fields more).lookup name = some a := by
  induction more generalizing fields with
  | nil => cases found
  | cons entry rest ih =>
      obtain ⟨key, b⟩ := entry
      obtain ⟨fresh, others⟩ := List.nodup_cons.mp distinct
      rcases lookup_cons_eq_some.mp found with ⟨rfl, rfl⟩ | ⟨_, behind⟩
      · -- Nothing behind the entry sets the name again.
        have kept : (extend (insert fields name b) rest).lookup name =
            (insert fields name b).lookup name := lookup_extend_of_none (lookup_eq_none.mpr fresh)
        rw [lookup_insert_self] at kept
        exact kept
      · exact ih others behind

/-- Every entry comes from one of the two. -/
theorem mem_extend (member : (name, a) ∈ extend fields more) :
    (name, a) ∈ fields ∨ (name, a) ∈ more := by
  induction more generalizing fields with
  | nil => exact .inl member
  | cons entry rest ih =>
      rcases ih member with before | behind
      · rcases mem_insert before with there | ⟨rfl, rfl⟩
        · exact .inl there
        · exact .inr List.mem_cons_self
      · exact .inr (List.mem_cons_of_mem _ behind)

end Extend

/-! ## Dictionaries of things with a property -/

/-- A dictionary whose entries all have a property. -/
def DictionaryOf (p : α → Prop) (fields : List (String × α)) : Prop :=
  Distinct fields ∧ ∀ name a, (name, a) ∈ fields → p a

theorem DictionaryOf.nil {p : α → Prop} : DictionaryOf p [] :=
  ⟨List.nodup_nil, fun _ _ member => absurd member List.not_mem_nil⟩

theorem DictionaryOf.insert {p : α → Prop} (dictionary : DictionaryOf p fields) (name : String)
    (new : p a) : DictionaryOf p (Fields.insert fields name a) := by
  refine ⟨dictionary.1.insert name a, ?_⟩
  intro other b member
  rcases mem_insert member with old | ⟨_, rfl⟩
  · exact dictionary.2 other b old
  · exact new

end GraphQuery.Fields
