import GraphQuery.Proofs.Json.StringLiteral
import GraphQuery.Proofs.Query.Legible
import GraphQuery.Proofs.Text.NameReading
import GraphQuery.Query.Composition
import GraphQuery.Query.TermReading
import Mathlib.Data.List.Nodup

/-!
# Tokens of terms are read back

What a term is written with tells it apart from what stands behind it: a name or a parameter ends where
no word goes on (`Apart`), an operand where no path goes on (`Stops`) and a term where no operation goes
on (`Ends`). Of the operations there are, what is written for one never starts what is written for
another. So no text is read in two ways.
-/

namespace GraphQuery

namespace Operation

/-- No two operations are calls of one function. -/
theorem callPath?_injective {op other : Operation} (known : op ∈ all) (known' : other ∈ all)
    {path : String} (calls : op.callPath? = some path) (calls' : other.callPath? = some path) :
    op = other := by
  have distinct : ((all.filter fun op => op.callPath?.isSome).map callPath?).Nodup := by
    decide +kernel
  refine List.inj_on_of_nodup_map distinct ?_ ?_ (calls.trans calls'.symm)
  · exact List.mem_filter.mpr ⟨known, by rw [calls]; rfl⟩
  · exact List.mem_filter.mpr ⟨known', by rw [calls']; rfl⟩

/-- What is written for one operation between its operands does not start like that for another. -/
theorem infixText?_apart : ∀ op ∈ all, ∀ other ∈ all, ∀ text ∈ op.infixText?,
    ∀ text' ∈ other.infixText?, text.toList.isPrefixOf text'.toList = true → op = other := by
  decide +kernel

theorem arity_of_infixText? : ∀ op ∈ all, op.infixText?.isSome = true → op.arity = .exactly 1 := by
  decide +kernel

/-- Only two operations are written in front of their operand. -/
theorem of_form_before : ∀ op ∈ all, (match op.form with
    | .before _ => true
    | _ => false) = true → op = not ∨ op = truthy := by
  decide +kernel

theorem arity_of_form_callSeparated : ∀ op ∈ all, (match op.form with
    | .callSeparated _ => true
    | _ => false) = true → op.arity = .atLeast 1 := by
  decide +kernel

end Operation

namespace TermReading

open Reading

theorem isPathChar_of_callPath : ∀ op ∈ Operation.all, ∀ path ∈ op.callPath?,
    path.toList.all isPathChar = true ∧ path.toList ≠ [] := by
  decide +kernel

theorem infix?_token {op : Operation} (known : op ∈ Operation.all) {text : String}
    (between : op.infixText? = some text) (rest : List Char) :
    infix? (text.toList ++ rest) = some (op, rest) := by
  have hit : (op.infixText?.bind fun text' =>
      if text'.toList.isPrefixOf (text.toList ++ rest) then
        some (op, (text.toList ++ rest).drop text'.toList.length) else none) = some (op, rest) := by
    simp [between]
  have some : (infix? (text.toList ++ rest)).isSome = true :=
    List.findSome?_isSome_iff.mpr ⟨op, known, by rw [hit]; rfl⟩
  obtain ⟨result, found⟩ := Option.isSome_iff_exists.mp some
  obtain ⟨other, known', hit'⟩ := List.exists_of_findSome?_eq_some found
  obtain ⟨text', between', read⟩ := Option.bind_eq_some_iff.mp hit'
  split at read
  · next starts =>
      -- Both texts start what is read, so one of them starts the other.
      have same : op = other := by
        have starts' : text.toList <+: text.toList ++ rest := List.prefix_append _ _
        rcases List.prefix_or_prefix_of_prefix starts' (List.isPrefixOf_iff_prefix.mp starts) with
          first | second
        · exact Operation.infixText?_apart op known other known' text between text' between'
            (List.isPrefixOf_iff_prefix.mpr first)
        · exact (Operation.infixText?_apart other known' op known text' between' text between
            (List.isPrefixOf_iff_prefix.mpr second)).symm
      cases same
      rw [found, ← hit', hit]
  · cases read

theorem infix?_eq_none {cs : List Char}
    (other : ∀ op ∈ Operation.all, ∀ text ∈ op.infixText?, ¬ text.toList <+: cs) :
    infix? cs = none := by
  unfold infix?
  rw [List.findSome?_eq_none_iff]
  intro op known
  rw [Option.bind_eq_none_iff]
  intro text between
  rw [if_neg]
  intro starts
  exact other op known text between (List.isPrefixOf_iff_prefix.mp starts)

theorem call?_path {op : Operation} (known : op ∈ Operation.all) {path : String}
    (calls : op.callPath? = some path) (rest : List Char) :
    call? ((path ++ "(").toList ++ rest) = some (op, rest) := by
  obtain ⟨isPath, _⟩ := isPathChar_of_callPath op known path calls
  rw [List.all_eq_true] at isPath
  have text : (path ++ "(").toList ++ rest = path.toList ++ '(' :: rest := by simp
  have closed : isPathChar '(' = false := by decide
  have before : (path.toList ++ '(' :: rest).takeWhile isPathChar = path.toList := by
    rw [List.takeWhile_append_of_pos isPath, List.takeWhile_cons, closed]
    simp
  have behind : (path.toList ++ '(' :: rest).dropWhile isPathChar = '(' :: rest := by
    rw [List.dropWhile_append_of_pos isPath, List.dropWhile_cons, closed]
    rfl
  have found : Operation.all.find? (fun other => other.callPath? == some path) = some op := by
    have some : (Operation.all.find? fun other => other.callPath? == some path).isSome = true := by
      rw [List.find?_isSome]
      exact ⟨op, known, by simp [calls]⟩
    obtain ⟨other, found⟩ := Option.isSome_iff_exists.mp some
    have calls' : other.callPath? = Option.some path := by simpa using List.find?_some found
    have known' := List.mem_of_find?_eq_some found
    rw [found, Operation.callPath?_injective known' known calls' calls]
  rw [text, call?, behind, before, String.ofList_toList, found]
  rfl

/-- The text does not go on with a word, with the path of a function or with a call. -/
def Apart (cs : List Char) : Prop := ∀ c ∈ cs.head?, isPathChar c = false ∧ c ≠ '('

/-- Nor does it go on with the path behind a term. -/
def Stops (cs : List Char) : Prop := Apart cs ∧ ∀ c ∈ cs.head?, c ≠ '.' ∧ c ≠ '['

theorem Apart.delimited {cs : List Char} (apart : Apart cs) : Delimited cs := by
  intro c head
  have noPath := (apart c head).1
  rw [isPathChar, Bool.or_eq_false_iff] at noPath
  exact noPath.1

theorem Apart.cons {c : Char} (noPath : isPathChar c = false) (noCall : c ≠ '(')
    (rest : List Char) : Apart (c :: rest) := by
  rintro d ⟨⟩
  exact ⟨noPath, noCall⟩

theorem Stops.cons {c : Char} (noPath : isPathChar c = false)
    (noSegment : c ≠ '(' ∧ c ≠ '.' ∧ c ≠ '[') (rest : List Char) : Stops (c :: rest) := by
  refine ⟨.cons noPath noSegment.1 rest, ?_⟩
  rintro d ⟨⟩
  exact noSegment.2

/-- What is written between operands starts with a space, but not like the end of an object. -/
theorem infixText?_spaced : ∀ op ∈ Operation.all, ∀ text ∈ op.infixText?,
    (match text.toList with
      | ' ' :: c :: _ => c != '\x7d'
      | _ => false) = true := by
  decide +kernel

/-- Nor does the text go on with an operation. -/
structure Ends (cs : List Char) : Prop where
  stops : Stops cs
  noInfix : infix? cs = none

theorem Ends.cons {c : Char} (noPath : isPathChar c = false)
    (noSegment : c ≠ '(' ∧ c ≠ '.' ∧ c ≠ '[') (noSpace : c ≠ ' ') (rest : List Char) :
    Ends (c :: rest) := by
  refine ⟨.cons noPath noSegment rest, infix?_eq_none ?_⟩
  intro op known text between starts
  have spaced := infixText?_spaced op known text between
  split at spaced
  · next spelled =>
      rw [spelled, List.cons_prefix_cons] at starts
      exact noSpace starts.1.symm
  · cases spaced

theorem Ends.comma (rest : List Char) : Ends (',' :: rest) :=
  .cons (by decide) (by decide) (by decide) rest

/-- The end of an object. -/
theorem Ends.brace (rest : List Char) : Ends (' ' :: '\x7d' :: rest) := by
  refine ⟨.cons (by decide) (by decide) _, infix?_eq_none ?_⟩
  intro op known text between starts
  have spaced := infixText?_spaced op known text between
  split at spaced
  · next spelled =>
      rw [spelled, List.cons_prefix_cons, List.cons_prefix_cons] at starts
      rw [starts.2.1] at spaced
      cases spaced
  · cases spaced

theorem Ends.nil : Ends [] := by
  refine ⟨⟨by simp [Apart], by simp⟩, infix?_eq_none ?_⟩
  intro op known text between starts
  have spaced := infixText?_spaced op known text between
  rw [List.prefix_nil.mp starts] at spaced
  cases spaced

/-- A name is no call. -/
theorem call?_ident (name : String) {rest : List Char} (apart : Apart rest) :
    call? ((Name.ident name).toList ++ rest) = none := by
  -- Behind the characters of a path no parenthesis stands.
  suffices ∀ behind, ((Name.ident name).toList ++ rest).dropWhile isPathChar ≠ '(' :: behind by
    unfold call?
    split
    · next behind opens => exact absurd opens (this behind)
    · rfl
  intro behind
  rw [Name.ident, String.toList_ofList, Name.token]
  split
  · next bare =>
      have isPath : ∀ c ∈ name.toList, isPathChar c = true := by
        intro c member
        rw [isPathChar, Name.isWordChar_of_isBareWord bare c member]
        rfl
      rw [List.dropWhile_append_of_pos isPath]
      cases rest with
      | nil => simp
      | cons c rest =>
          obtain ⟨noPath, noCall⟩ := apart c rfl
          rw [List.dropWhile_cons, noPath]
          intro opens
          exact noCall (List.cons.inj opens).1
  · rw [List.cons_append, List.cons_append, List.dropWhile_cons,
      show isPathChar '\x60' = false by decide]
    intro opens
    exact absurd (List.cons.inj opens).1 (by decide)

/-! ## One token and the path behind it -/

theorem startsToken_ident (name : String) (rest : List Char) :
    StartsToken ((Name.ident name).toList ++ rest) := by
  intro c head
  rw [Name.ident, String.toList_ofList, Name.token] at head
  split at head
  · next bare =>
      left
      cases spelled : name.toList with
      | nil =>
          rw [spelled] at bare
          cases bare
      | cons first more =>
          rw [spelled] at head bare
          cases head
          rw [isPathChar, Name.isWordChar_of_isBareWord bare c List.mem_cons_self]
          rfl
  · cases head
    exact Or.inr rfl

/-- A field of the record, in which the record is left out. -/
theorem OperandAt.ident (name : String) {rest further : List Char} {t : Term} (apart : Apart rest)
    (path : PathAt (.get (.record ⟨0⟩) (.field name)) rest t further) :
    OperandAt ((Name.ident name).toList ++ rest) t further :=
  .field (startsToken_ident name rest) (call?_ident name apart)
    (Name.read?_ident name apart.delimited) path

theorem OperandAt.call_path {op : Operation} (known : op ∈ Operation.all) {path : String}
    (calls : op.callPath? = some path) {text rest further : List Char} {terms : List Term} {t u : Term}
    (items : ItemsAt ')' text terms rest) (made : applied op terms = some t)
    (behind : PathAt t rest u further) : OperandAt ((path ++ "(").toList ++ text) u further := by
  obtain ⟨isPath, some⟩ := isPathChar_of_callPath op known path calls
  obtain ⟨first, more, spelled⟩ := List.exists_cons_of_ne_nil some
  refine .call ?_ (call?_path known calls text) items made behind
  intro c head
  rw [String.toList_append, spelled] at head
  cases head
  exact Or.inl (List.all_eq_true.mp isPath first (spelled ▸ List.mem_cons_self))

theorem position?_digits (i : Nat) (rest : List Char) :
    position? ((toString i).toList ++ ']' :: rest) = some (i, rest) := by
  have digits : ∀ c ∈ Nat.toDigits 10 i, c.isDigit = true := by
    intro c member
    exact Nat.isDigit_of_mem_toDigits (by omega) (by omega) member
  rw [Nat.toString_eq_ofList_toDigits, String.toList_ofList, position?,
    List.dropWhile_append_of_pos digits, List.takeWhile_append_of_pos digits, List.dropWhile_cons,
    List.takeWhile_cons, show Char.isDigit ']' = false by decide]
  simp [Nat.ofDigitChars_ten_toDigits]

theorem toList_position (i : Nat) (rest : List Char) :
    ("[" ++ toString i ++ "]").toList ++ rest = '[' :: ((toString i).toList ++ ']' :: rest) := by
  simp

theorem toList_field (name : String) (rest : List Char) :
    (Key.field name).segment.toList ++ rest = '.' :: ((Name.ident name).toList ++ rest) := by
  simp [Key.segment]

/-- The segment of a key is read as the key. -/
theorem PathAt.segment {t u : Term} (key : Key) {rest further : List Char}
    (delimited : Delimited rest) (behind : PathAt (.get t key.skeleton) rest u further) :
    PathAt t (key.segment.toList ++ rest) u further := by
  have position : ∀ i : Nat, PathAt (.get t (.index i)) rest u further →
      PathAt t (("[" ++ toString i ++ "]").toList ++ rest) u further := by
    intro i behind
    rw [toList_position]
    exact .index (position?_digits i rest) behind
  cases key with
  | field name =>
      rw [toList_field]
      exact .field (Name.read?_ident name delimited) behind
  | index i => exact position i behind
  | present i => exact position i behind

/-- The segment of a key starts apart from what it stands behind. -/
theorem apart_segment (key : Key) (rest : List Char) : Apart (key.segment.toList ++ rest) := by
  have position : ∀ i : Nat, Apart (("[" ++ toString i ++ "]").toList ++ rest) := by
    intro i
    rw [toList_position]
    exact .cons (by decide) (by decide) _
  cases key with
  | field name =>
      rw [toList_field]
      exact .cons (by decide) (by decide) _
  | index i => exact position i
  | present i => exact position i

/-! ## Entries -/

theorem toList_key (key : String) (cs : List Char) :
    (Json.quote key ++ ": ").toList ++ cs =
      '"' :: (key.toList.flatMap Json.escape ++ '"' :: ':' :: ' ' :: cs) := by
  simp [Json.quote]

theorem EntriesAt.last_key (key : String) {cs rest : List Char} {t : Term}
    (term : TermAt cs t (' ' :: '\x7d' :: rest)) :
    EntriesAt ((Json.quote key ++ ": ").toList ++ cs) [(key, t)] rest := by
  rw [toList_key]
  exact .last (StringLiteral.read_escaped key _) term

theorem EntriesAt.more_key (key : String) {cs behind rest : List Char} {t : Term}
    {entries : List (String × Term)} (term : TermAt cs t (',' :: ' ' :: behind))
    (others : EntriesAt behind entries rest) :
    EntriesAt ((Json.quote key ++ ": ").toList ++ cs) ((key, t) :: entries) rest := by
  rw [toList_key]
  exact .more (StringLiteral.read_escaped key _) term others

/-! ## No text is read in two ways -/

theorem PathAt.unique {t u : Term} {cs rest : List Char} (path : PathAt t cs u rest) {u' : Term}
    {rest' : List Char} (path' : PathAt t cs u' rest') : u' = u ∧ rest' = rest := by
  induction path with
  | field name _ ih =>
      cases path' with
      | field name' path' =>
          cases name.symm.trans name'
          exact ih path'
      | stop apart => exact absurd rfl (apart _ rfl).1
  | index position _ ih =>
      cases path' with
      | index position' path' =>
          cases position.symm.trans position'
          exact ih path'
      | stop apart => exact absurd rfl (apart _ rfl).2
  | stop apart =>
      cases path' with
      | field => exact absurd rfl (apart _ rfl).1
      | index => exact absurd rfl (apart _ rfl).2
      | stop => exact ⟨rfl, rfl⟩

theorem not_startsToken {c : Char} {cs : List Char} (noPath : isPathChar c = false)
    (noQuote : c ≠ '\x60') : ¬ StartsToken (c :: cs) := by
  intro token
  rcases token c rfl with path | quote
  · rw [noPath] at path
    cases path
  · exact noQuote quote

/-- No term starts with a closing bracket. -/
theorem not_itemsAt_bracket {closing : Char} {cs rest : List Char} {items : List Term} :
    ¬ ItemsAt closing (']' :: cs) items rest := by
  have noToken : ¬ StartsToken (']' :: cs) := not_startsToken (by decide) (by decide)
  have noOperand : ∀ t rest, ¬ OperandAt (']' :: cs) t rest := by
    intro t rest operand
    cases operand with
    | call token | field token => exact noToken token
  have noTerm : ∀ t rest, ¬ TermAt (']' :: cs) t rest := by
    intro t rest term
    cases term with
    | operand operand | between operand => exact noOperand _ _ operand
  intro list
  cases list with
  | more term => exact noTerm _ _ term
  | last _ term => exact noTerm _ _ term

mutual

theorem TermAt.unique {t : Term} {cs rest : List Char} : TermAt cs t rest →
    ∀ {t' : Term} {rest' : List Char}, TermAt cs t' rest' → t' = t ∧ rest' = rest
  | .operand operand alone, _, _, term' => by
      cases term' with
      | operand operand' _ => exact operand.unique operand'
      | between operand' token' _ =>
          obtain ⟨rfl, rfl⟩ := operand.unique operand'
          cases alone.symm.trans token'
  | .between left token right, _, _, term' => by
      cases term' with
      | operand operand' alone =>
          obtain ⟨rfl, rfl⟩ := left.unique operand'
          cases token.symm.trans alone
      | between left' token' right' =>
          obtain ⟨rfl, rfl⟩ := left.unique left'
          cases token.symm.trans token'
          obtain ⟨rfl, rfl⟩ := right.unique right'
          exact ⟨rfl, rfl⟩
termination_by structural term => term

theorem OperandAt.unique {t : Term} {cs rest : List Char} : OperandAt cs t rest →
    ∀ {t' : Term} {rest' : List Char}, OperandAt cs t' rest' → t' = t ∧ rest' = rest
  | .before operand, _, _, operand' => by
      cases operand' with
      | before operand' =>
          obtain ⟨rfl, rfl⟩ := operand.unique operand'
          exact ⟨rfl, rfl⟩
      | call token | field token => exact absurd token (not_startsToken (by decide) (by decide))
  | .parameter path, _, _, operand' => by
      cases operand' with
      | parameter path' => exact path.unique path'
      | call token | field token => exact absurd token (not_startsToken (by decide) (by decide))
  | .enclosed term path, _, _, operand' => by
      cases operand' with
      | enclosed term' path' =>
          obtain ⟨rfl, same⟩ := term.unique term'
          cases same
          exact path.unique path'
      | call token | field token => exact absurd token (not_startsToken (by decide) (by decide))
  | .noItems path, _, _, operand' => by
      cases operand' with
      | noItems path' => exact path.unique path'
      | items items' => exact absurd items' not_itemsAt_bracket
      | call token | field token => exact absurd token (not_startsToken (by decide) (by decide))
  | .items items path, _, _, operand' => by
      cases operand' with
      | noItems => exact absurd items not_itemsAt_bracket
      | items items' path' =>
          obtain ⟨rfl, rfl⟩ := items.unique items'
          exact path.unique path'
      | call token | field token => exact absurd token (not_startsToken (by decide) (by decide))
  | .noEntries path, _, _, operand' => by
      cases operand' with
      | noEntries path' => exact path.unique path'
      | call token | field token => exact absurd token (not_startsToken (by decide) (by decide))
  | .entries entries path, _, _, operand' => by
      cases operand' with
      | entries entries' path' =>
          obtain ⟨rfl, rfl⟩ := entries.unique entries'
          exact path.unique path'
      | call token | field token => exact absurd token (not_startsToken (by decide) (by decide))
  | .call token named items made path, _, _, operand' => by
      cases operand' with
      | call _ named' items' made' path' =>
          cases named.symm.trans named'
          obtain ⟨rfl, rfl⟩ := items.unique items'
          cases made.symm.trans made'
          exact path.unique path'
      | field _ noCall => cases named.symm.trans noCall
      | _ => exact absurd token (not_startsToken (by decide) (by decide))
  | .field token noCall name path, _, _, operand' => by
      cases operand' with
      | call _ named => cases noCall.symm.trans named
      | field _ _ name' path' =>
          cases name.symm.trans name'
          exact path.unique path'
      | _ => exact absurd token (not_startsToken (by decide) (by decide))
termination_by structural operand => operand

theorem ItemsAt.unique {closing : Char} {ts : List Term} {cs rest : List Char} :
    ItemsAt closing cs ts rest → ∀ {ts' : List Term} {rest' : List Char},
      ItemsAt closing cs ts' rest' → ts' = ts ∧ rest' = rest
  | .more term others, _, _, items' => by
      cases items' with
      | more term' others' =>
          obtain ⟨rfl, same⟩ := term.unique term'
          cases same
          obtain ⟨rfl, rfl⟩ := others.unique others'
          exact ⟨rfl, rfl⟩
      | last noComma term' =>
          obtain ⟨_, same⟩ := term.unique term'
          exact absurd (List.cons.inj same).1 noComma
  | .last noComma term, _, _, items' => by
      cases items' with
      | more term' _ =>
          obtain ⟨_, same⟩ := term.unique term'
          exact absurd (List.cons.inj same).1.symm noComma
      | last _ term' =>
          obtain ⟨rfl, same⟩ := term.unique term'
          cases same
          exact ⟨rfl, rfl⟩
termination_by structural items => items

theorem EntriesAt.unique {entries : List (String × Term)} {cs rest : List Char} :
    EntriesAt cs entries rest → ∀ {entries' : List (String × Term)} {rest' : List Char},
      EntriesAt cs entries' rest' → entries' = entries ∧ rest' = rest
  | .more key term others, _, _, entries' => by
      cases entries' with
      | more key' term' others' =>
          cases key.symm.trans key'
          obtain ⟨rfl, same⟩ := term.unique term'
          cases same
          obtain ⟨rfl, rfl⟩ := others.unique others'
          exact ⟨rfl, rfl⟩
      | last key' term' =>
          cases key.symm.trans key'
          obtain ⟨_, same⟩ := term.unique term'
          cases same
  | .last key term, _, _, entries' => by
      cases entries' with
      | more key' term' _ =>
          cases key.symm.trans key'
          obtain ⟨_, same⟩ := term.unique term'
          cases same
      | last key' term' =>
          cases key.symm.trans key'
          obtain ⟨rfl, same⟩ := term.unique term'
          cases same
          exact ⟨rfl, rfl⟩
termination_by structural entries => entries

end

end TermReading

end GraphQuery
