/-!
# Fields in order

An ordered dictionary is a list of named entries; look-up is `List.lookup`, which finds the first
entry of a name. `Fields.insert` keeps the place of a name that is already there and replaces its
entry, so a dictionary built by `insert` alone has no name twice.
-/

namespace GraphQuery.Fields

variable {α : Type}

/-- Names in order. -/
def names (fields : List (String × α)) : List String := fields.map Prod.fst

/-- The name occurs. -/
def contains (fields : List (String × α)) (name : String) : Bool :=
  fields.any fun entry => entry.1 == name

/-- Set an entry: in place when the name occurs, else at the end. -/
def insert : List (String × α) → String → α → List (String × α)
  | [], name, value => [(name, value)]
  | (key, old) :: rest, name, value =>
    if key = name then (key, value) :: rest else (key, old) :: insert rest name value

/-- Insert the entries of the second list one after the other. -/
def extend (fields more : List (String × α)) : List (String × α) :=
  more.foldl (fun acc entry => insert acc entry.1 entry.2) fields

/-- A dictionary from entries of which later ones replace earlier ones of the same name. -/
def ofEntries (entries : List (String × α)) : List (String × α) := extend [] entries

/-- No name occurs twice. -/
def Distinct (fields : List (String × α)) : Prop := (names fields).Nodup

/-- What holds of all entries holds of the first one and of those behind it. -/
theorem forall_mem_cons {rest : List (String × α)} {key : String} {first : α}
    {p : String → α → Prop} :
    (∀ name a, (name, a) ∈ (key, first) :: rest → p name a) ↔
      p key first ∧ ∀ name a, (name, a) ∈ rest → p name a := by
  refine ⟨?_, ?_⟩
  · intro all
    exact ⟨all key first List.mem_cons_self,
      fun name a member => all name a (List.mem_cons_of_mem _ member)⟩
  · rintro ⟨here, others⟩ name a member
    rcases List.mem_cons.mp member with same | behind
    · cases same
      exact here
    · exact others name a behind

@[simp] theorem lookup_insert_self (fields : List (String × α)) (name : String) (value : α) :
    (insert fields name value).lookup name = some value := by
  induction fields with
  | nil => simp [insert]
  | cons entry rest ih =>
    obtain ⟨key, old⟩ := entry
    by_cases h : key = name
    · simp [insert, h]
    · have h' : (name == key) = false := by simpa using fun e => h e.symm
      simp [insert, h, List.lookup_cons, h', ih]

theorem lookup_insert_of_ne (fields : List (String × α)) {name other : String} (value : α)
    (h : other ≠ name) : (insert fields name value).lookup other = fields.lookup other := by
  induction fields with
  | nil =>
    have h' : (other == name) = false := by simpa using h
    simp [insert, List.lookup_cons, h']
  | cons entry rest ih =>
    obtain ⟨key, old⟩ := entry
    by_cases hk : key = name
    · subst hk
      have h' : (other == key) = false := by simpa using h
      simp [insert, List.lookup_cons, h']
    · by_cases ho : other = key
      · simp [insert, hk, ho]
      · have h' : (other == key) = false := by simpa using ho
        simp [insert, hk, List.lookup_cons, h', ih]

theorem names_insert (fields : List (String × α)) (name : String) (value : α) :
    names (insert fields name value) =
      if name ∈ names fields then names fields else names fields ++ [name] := by
  induction fields with
  | nil => simp [insert, names]
  | cons entry rest ih =>
    obtain ⟨key, old⟩ := entry
    by_cases h : key = name
    · simp [insert, names, h]
    · have h' : ¬ name = key := fun e => h e.symm
      simp only [names, List.map_cons, insert, if_neg h, List.mem_cons, h', false_or] at ih ⊢
      rw [ih]
      split <;> simp_all

theorem Distinct.insert {fields : List (String × α)} (h : Distinct fields) (name : String)
    (value : α) : Distinct (Fields.insert fields name value) := by
  unfold Distinct at *
  rw [names_insert]
  split
  · exact h
  · next hn =>
    rw [List.nodup_append]
    refine ⟨h, by simp, ?_⟩
    intro a ha b hb
    simp only [List.mem_singleton] at hb
    subst hb
    exact fun e => hn (e ▸ ha)

end GraphQuery.Fields
