import GraphQuery.Proofs.Descriptor.Acceptance
import GraphQuery.Proofs.Descriptor.Union

/-!
# What a union parses to

A union parses a value as the first of its alternatives does that accepts it. An alternative that
`Descriptor.unionOf` leaves out equals one in front of it, which accepts what it accepts. So the first
descriptor that accepts a value is never left out.
-/

namespace GraphQuery.Descriptor

variable {v : Json}

theorem parseFirst_cons (t : Descriptor) (rest : List Descriptor) (v : Json) :
    parseFirst (t :: rest) v = ((t.parse v).toOption).or (parseFirst rest v) := by
  rw [parseFirst]
  cases t.parse v <;> rfl

theorem parseFirst_append (as bs : List Descriptor) (v : Json) :
    parseFirst (as ++ bs) v = (parseFirst as v).or (parseFirst bs v) := by
  induction as with
  | nil => rfl
  | cons t rest ih => rw [List.cons_append, parseFirst_cons, parseFirst_cons, ih, Option.or_assoc]

theorem parseFirst_single (t : Descriptor) (v : Json) :
    parseFirst [t] v = (t.parse v).toOption := by
  rw [parseFirst_cons, parseFirst, Option.or_none]

theorem toOption_parse_union (alts : List Descriptor) (v : Json) :
    ((union alts).parse v).toOption = parseFirst alts v := by
  rw [parse]
  cases parseFirst alts v <;> rfl

/-- What a descriptor adds to a union parses as the descriptor does. -/
theorem parseFirst_alternatives (t : Descriptor) (v : Json) :
    parseFirst t.alternatives v = (t.parse v).toOption := by
  cases t with
  | union alts => exact (toOption_parse_union alts v).symm
  | never => rfl
  | _ => exact parseFirst_single _ v

theorem parseFirst_flatMap_alternatives (ts : List Descriptor) (v : Json) :
    parseFirst (ts.flatMap alternatives) v = parseFirst ts v := by
  induction ts with
  | nil => rfl
  | cons t rest ih =>
      rw [List.flatMap_cons, parseFirst_append, parseFirst_alternatives, ih, parseFirst_cons]

/-- If none of the alternatives accepts a value, no descriptor does that equals one of them. -/
theorem toOption_parse_of_same {alts : List Descriptor} {u t : Descriptor} (member : u ∈ alts)
    (equal : u.same t = true) (none : parseFirst alts v = none) : (t.parse v).toOption = .none := by
  cases parsed : t.parse v with
  | error e => rfl
  | ok w =>
      have accepted : t.check (some v) = true := by
        rw [← isOk_parse, parsed]
        rfl
      have found : (parseFirst alts v).isSome = true := by
        rw [isSome_parseFirst, checkAny_iff]
        exact ⟨u, member, check_of_same u t equal _ accepted⟩
      rw [none] at found
      cases found

theorem parseFirst_addAlternative (alts : List Descriptor) (t : Descriptor) (v : Json) :
    parseFirst (addAlternative alts t) v = (parseFirst alts v).or (t.parse v).toOption := by
  unfold addAlternative
  split
  · next there =>
      obtain ⟨u, member, equal⟩ := List.any_eq_true.mp there
      cases found : parseFirst alts v with
      | some w => rfl
      | none => rw [toOption_parse_of_same member equal found, Option.or_none]
  · rw [parseFirst_append, parseFirst_single]

theorem parseFirst_foldl_addAlternative (alts ts : List Descriptor) (v : Json) :
    parseFirst (ts.foldl addAlternative alts) v = (parseFirst alts v).or (parseFirst ts v) := by
  induction ts generalizing alts with
  | nil => exact Option.or_none.symm
  | cons t rest ih =>
      rw [List.foldl_cons, ih, parseFirst_addAlternative, Option.or_assoc, ← parseFirst_cons]

theorem toOption_parse_collapse (alts : List Descriptor) (v : Json) :
    ((collapse alts).parse v).toOption = parseFirst alts v := by
  match alts with
  | [] => rfl
  | [t] => exact (parseFirst_single t v).symm
  | t :: u :: rest => exact toOption_parse_union (t :: u :: rest) v

/-- A union parses as the first of the descriptors that accepts the value. -/
theorem toOption_parse_unionOf (ts : List Descriptor) (v : Json) :
    ((unionOf ts).parse v).toOption = parseFirst ts v := by
  rw [unionOf, toOption_parse_collapse, parseFirst_foldl_addAlternative,
    parseFirst_flatMap_alternatives]
  rfl

end GraphQuery.Descriptor
