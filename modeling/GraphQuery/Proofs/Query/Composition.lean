import GraphQuery.Proofs.Query.Nodes
import GraphQuery.Proofs.Query.TermReading

/-!
# Operations survive in the text

The text of an expression of one statement is read as the skeleton of its term, whatever stands behind
it that does not go on with the term. So expressions that are written alike have the same skeleton:
the parentheses around operands are all that is needed to tell where an operation ends.
-/

namespace GraphQuery

namespace Term

/-- Terms whose only record is that of one scope, and in which no statement stands. -/
inductive Local (scope : ScopeId) : Term → Prop
  | record : Local scope (.record scope)
  | value (v : Json) : Local scope (.value v)
  | get {base : Term} (key : Key) : Local scope base → base.isPrefixed = false →
    Local scope (.get base key)
  | apply {op : Operation} {receiver : Term} {arguments : List Term} : op ∈ Operation.all →
    op.arity.accepts arguments.length = true → Local scope receiver →
    (∀ t ∈ arguments, Local scope t) → Local scope (.apply op receiver arguments)
  | object {entries : List (String × Term)} : (∀ entry ∈ entries, Local scope entry.2) →
    Local scope (.object entries)
  | array {items : List Term} : (∀ t ∈ items, Local scope t) → Local scope (.array items)

@[simp] theorem skeletonEach_eq_map (ts : List Term) : skeletonEach ts = ts.map skeleton := by
  induction ts with
  | nil => rfl
  | cons t rest ih => rw [skeletonEach, ih, List.map_cons]

@[simp] theorem skeletonEntries_eq_map (entries : List (String × Term)) :
    skeletonEntries entries = entries.map fun entry => (entry.1, entry.2.skeleton) := by
  induction entries with
  | nil => rfl
  | cons entry rest ih => rw [skeletonEntries, ih, List.map_cons]

theorem skeleton_apply {op : Operation} (other : op ≠ .truthy) (receiver : Term)
    (arguments : List Term) : (apply op receiver arguments).skeleton =
      .apply op receiver.skeleton (arguments.map skeleton) := by
  rw [skeleton, if_neg other, skeletonEach_eq_map]

end Term

namespace TermReading

open Reading

variable {place : Scopes}

/-- The text of a term is read as its skeleton: as an operand before the path behind it, unless it is
an operation in front of its operand; as an operand where no path follows; and as a term where no
operation follows either. -/
structure Reads (place : Scopes) (t : Term) : Prop where
  base : t.isPrefixed = false → ∀ n rest u further, Apart rest → PathAt t.skeleton rest u further →
    OperandAt (chars n (t.operandPieces place) ++ rest) u further
  operand : ∀ n rest, Stops rest →
    OperandAt (chars n (t.operandPieces place) ++ rest) t.skeleton rest
  term : ∀ n rest, Ends rest → TermAt (chars n (t.pieces place) ++ rest) t.skeleton rest

theorem operandPieces_of_isAtomic {t : Term} (atomic : t.isAtomic = true) :
    t.operandPieces place = t.pieces place := by
  rw [Term.operandPieces, Term.enclose, if_pos atomic]

theorem OperandAt.this {rest further : List Char} {t : Term} (apart : Apart rest)
    (path : PathAt (.record ⟨0⟩) rest t further) :
    OperandAt (Scopes.this.toList ++ rest) t further := by
  have word : ∀ c ∈ "this".toList, Name.isWordChar c = true := List.all_eq_true.mp (by decide)
  have text : Scopes.this.toList = '$' :: "this".toList := by decide
  rw [text, List.cons_append]
  refine .parameter ?_
  rw [TermReading.parameter, Name.takeWhile_word word apart.delimited,
    Name.dropWhile_word word apart.delimited, if_pos rfl]
  exact path

/-- A segment is written behind its base, unless it is a field of what is written as the record. -/
theorem chars_join (n : Nat) (base : List Piece) (key : Key) :
    chars n (Piece.join base key.segment) = chars n base ++ key.segment.toList ∨
      chars n base = Scopes.this.toList ∧ ∃ name, key = .field name ∧
        chars n (Piece.join base key.segment) = (Name.ident name).toList := by
  unfold Piece.join
  split
  · next content =>
      rw [chars_single, chars_single]
      unfold joinPath
      split
      · next field this dotted =>
          right
          refine ⟨by rw [beq_iff_eq.mp this], ?_⟩
          rw [String.toList_ofList]
          cases key with
          | field name =>
              have text := toList_field name []
              rw [List.append_nil, List.append_nil, dotted] at text
              exact ⟨name, rfl, (List.cons.inj text).2⟩
          | index i => exact absurd dotted (by simp [Key.segment])
          | present i => exact absurd dotted (by simp [Key.segment])
      · left
        rw [String.toList_append]
  · left
    rw [chars_append, chars_single]

namespace Reads

/-- A term that is read before the path behind it. -/
theorem of_base {t : Term} (atomic : t.isAtomic = true)
    (base : ∀ n rest u further, Apart rest → PathAt t.skeleton rest u further →
      OperandAt (chars n (t.pieces place) ++ rest) u further) :
    Reads place t := by
  have operand : ∀ n rest, Stops rest → OperandAt (chars n (t.pieces place) ++ rest) t.skeleton rest :=
    fun n rest stops => base n rest _ _ stops.1 (.stop stops.2)
  rw [← operandPieces_of_isAtomic atomic] at base operand
  refine ⟨fun _ => base, operand, ?_⟩
  intro n rest ends
  rw [← operandPieces_of_isAtomic atomic]
  exact .operand (operand n rest ends.stops) ends.noInfix

/-- A term in front of whose operand the operation stands. -/
theorem of_operand {t : Term} (atomic : t.isAtomic = true) (noBase : t.isPrefixed = true)
    (operand : ∀ n rest, Stops rest → OperandAt (chars n (t.pieces place) ++ rest) t.skeleton rest) :
    Reads place t := by
  rw [← operandPieces_of_isAtomic atomic] at operand
  refine ⟨?_, operand, ?_⟩
  · intro free
    rw [noBase] at free
    cases free
  · intro n rest ends
    rw [← operandPieces_of_isAtomic atomic]
    exact .operand (operand n rest ends.stops) ends.noInfix

/-- A term that needs parentheses as an operand. -/
theorem of_term {t : Term} (compound : t.isAtomic = false)
    (term : ∀ n rest, Ends rest → TermAt (chars n (t.pieces place) ++ rest) t.skeleton rest) :
    Reads place t := by
  have base : ∀ n rest u further, PathAt t.skeleton rest u further →
      OperandAt (chars n (t.operandPieces place) ++ rest) u further := by
    intro n rest u further path
    have text : chars n (t.operandPieces place) ++ rest =
        '(' :: (chars n (t.pieces place) ++ ')' :: rest) := by
      rw [Term.operandPieces, Term.enclose, compound, if_neg Bool.false_ne_true, Piece.between,
        List.cons_append, chars_text, chars_append, chars_single]
      simp
    rw [text]
    exact .enclosed (term n _ (.cons (by decide) (by decide) (by decide) rest)) path
  refine ⟨fun _ n rest u further _ path => base n rest u further path, ?_, term⟩
  intro n rest stops
  exact base n rest _ _ (.stop stops.2)

/-! ## Tokens -/

theorem record {scope : ScopeId} (inside : place.current = some scope) :
    Reads place (.record scope) := by
  refine of_base rfl ?_
  intro n rest u further apart path
  rw [Term.pieces, Scopes.record, if_pos inside, chars_single]
  exact .this apart path

theorem value (v : Json) : Reads place (.value v) := by
  refine of_base rfl ?_
  intro n rest u further apart path
  have word : ∀ c ∈ (variableName n).toList, Name.isWordChar c = true :=
    fun _ => isWordChar_of_mem_variableName
  have other : (variableName n).toList ≠ "this".toList := by
    rw [toList_variableName]
    intro same
    exact absurd (List.cons.inj same).1 (by decide)
  have text : chars n ((Term.value v).pieces place) = '$' :: (variableName n).toList := by
    rw [Term.pieces, chars_value]
    exact List.append_nil _
  rw [text, List.cons_append]
  refine .parameter ?_
  rw [parameter, Name.takeWhile_word word apart.delimited, Name.dropWhile_word word apart.delimited,
    if_neg other]
  exact path

/-! ## Paths and operations -/

theorem get {base : Term} (key : Key) (reads : Reads place base)
    (noPrefix : base.isPrefixed = false) : Reads place (.get base key) := by
  refine of_base rfl ?_
  intro n rest u further apart path
  show OperandAt (chars n (Piece.join (base.operandPieces place) key.segment) ++ rest) u further
  rw [Term.skeleton] at path
  rcases chars_join n (base.operandPieces place) key with behind | ⟨this, name, rfl, alone⟩
  · rw [behind, List.append_assoc]
    exact reads.base noPrefix n _ _ _ (apart_segment key rest) (.segment key apart.delimited path)
  · -- What is written as the record is read as the record.
    have isRecord : base.skeleton = .record ⟨0⟩ := by
      have asWritten := reads.operand n [] Ends.nil.stops
      rw [this] at asWritten
      exact (OperandAt.unique (.this Ends.nil.stops.1 (.stop Ends.nil.stops.2)) asWritten).1
    rw [alone]
    rw [isRecord] at path
    exact .ident name apart path

/-- An operation between its operands. -/
theorem between {op : Operation} {receiver argument : Term} {token : String}
    (known : op ∈ Operation.all) (form : op.form = .between token)
    (reads : Reads place receiver) (reads' : Reads place argument) :
    Reads place (.apply op receiver [argument]) := by
  have infixText : op.infixText? = some (" " ++ token ++ " ") := by
    rw [Operation.infixText?, form]
  have compound : (Term.apply op receiver [argument]).isAtomic = false := by
    rw [Term.isAtomic, form]
  have other : op ≠ .truthy := by
    rintro rfl
    cases form
  refine of_term compound ?_
  intro n rest ends
  have text : (Term.apply op receiver [argument]).pieces place =
      receiver.operandPieces place ++ .text (" " ++ token ++ " ") :: argument.operandPieces place := by
    rw [Term.pieces, form]
    rfl
  have spaced : Stops ((" " ++ token ++ " ").toList ++
      (chars (n + (Piece.values (receiver.operandPieces place)).length)
        (argument.operandPieces place) ++ rest)) := by
    rw [String.append_assoc, String.toList_append]
    exact .cons (by decide) (by decide) _
  rw [text, chars_append, chars_text, List.append_assoc, List.append_assoc,
    Term.skeleton_apply other]
  exact .between (reads.operand _ _ spaced) (infix?_token known infixText _)
    (reads'.operand _ _ ends.stops)

/-- An operation in front of its operand. -/
theorem before {op : Operation} {receiver : Term} {token : String} (known : op ∈ Operation.all)
    (form : op.form = .before token) (reads : Reads place receiver) :
    Reads place (.apply op receiver []) := by
  rcases Operation.of_form_before op known (by rw [form]) with rfl | rfl
  · refine of_operand rfl rfl ?_
    intro n rest stops
    show OperandAt (chars n (.text "!" :: receiver.operandPieces place) ++ rest) _ rest
    rw [chars_text, Term.skeleton_apply (by decide)]
    exact .before (reads.operand n rest stops)
  · refine of_operand rfl rfl ?_
    intro n rest stops
    have skeleton : (Term.apply .truthy receiver []).skeleton =
        .apply .not (.apply .not receiver.skeleton []) [] := by
      rw [Term.skeleton, if_pos rfl]
    show OperandAt (chars n (.text "!!" :: receiver.operandPieces place) ++ rest) _ rest
    rw [chars_text, skeleton]
    exact .before (.before (reads.operand n rest stops))

/-! ## Lists of terms -/

theorem chars_separated_cons (n : Nat) (group next : List Piece) (rest : List (List Piece)) :
    ∃ m, chars n (Piece.separated ", " (group :: next :: rest)) =
      chars n group ++ ',' :: ' ' :: chars m (Piece.separated ", " (next :: rest)) := by
  refine ⟨n + (Piece.values group).length, ?_⟩
  show chars n (group ++ .text ", " :: Piece.separated ", " (next :: rest)) = _
  rw [chars_append, chars_text]
  rfl

/-- Terms between commas. -/
theorem items {closing : Char} (closes : closing = ')' ∨ closing = ']') {ts : List Term}
    (some : ts ≠ []) (reads : ∀ t ∈ ts, Reads place t) (n : Nat) (rest : List Char) :
    ItemsAt closing
      (chars n (Piece.separated ", " (ts.map (Term.pieces place))) ++ closing :: rest)
      (ts.map Term.skeleton) rest := by
  have ends : Ends (closing :: rest) := by
    rcases closes with rfl | rfl <;> exact .cons (by decide) (by decide) (by decide) rest
  have noComma : closing ≠ ',' := by
    rcases closes with rfl | rfl <;> decide
  induction ts generalizing n with
  | nil => exact absurd rfl some
  | cons t ts ih =>
      have first := (reads t List.mem_cons_self).term n
      have others : ∀ u ∈ ts, Reads place u := fun u member => reads u (List.mem_cons_of_mem t member)
      cases ts with
      | nil => exact .last noComma (first _ ends)
      | cons u us =>
          obtain ⟨m, text⟩ := chars_separated_cons n (t.pieces place) (u.pieces place)
            (us.map (Term.pieces place))
          have behind := ih (List.cons_ne_nil u us) others m
          rw [List.map_cons, List.map_cons, text, List.append_assoc]
          exact .more (first _ (.comma _)) behind

/-- Entries between commas, up to the end of the object. -/
theorem entries {entries : List (String × Term)} (some : entries ≠ [])
    (reads : ∀ entry ∈ entries, Reads place entry.2) (n : Nat) (rest : List Char) :
    EntriesAt
      (chars n (Piece.separated ", " (Term.piecesEntries place entries)) ++ ' ' :: '\x7d' :: rest)
      (entries.map fun entry => (entry.1, entry.2.skeleton)) rest := by
  induction entries generalizing n with
  | nil => exact absurd rfl some
  | cons entry more ih =>
      obtain ⟨key, t⟩ := entry
      have first := (reads (key, t) List.mem_cons_self).term n
      have others : ∀ entry ∈ more, Reads place entry.2 :=
        fun entry member => reads entry (List.mem_cons_of_mem _ member)
      cases more with
      | nil =>
          show EntriesAt (chars n (.text (Json.quote key ++ ": ") :: t.pieces place) ++ _) _ rest
          rw [chars_text, List.append_assoc]
          exact .last_key key (first _ (.brace rest))
      | cons next more =>
          obtain ⟨m, text⟩ := chars_separated_cons n (.text (Json.quote key ++ ": ") :: t.pieces place)
            (.text (Json.quote next.1 ++ ": ") :: next.2.pieces place)
            (Term.piecesEntries place more)
          have behind := ih (List.cons_ne_nil next more) others m
          rw [Term.piecesEntries, Term.piecesEntries, text, chars_text, List.append_assoc,
            List.append_assoc]
          exact .more_key key (first _ (.comma _)) behind

theorem array {items : List Term} (reads : ∀ t ∈ items, Reads place t) :
    Reads place (.array items) := by
  refine of_base rfl ?_
  intro n rest u further _ path
  have text : chars n ((Term.array items).pieces place) ++ rest =
      '[' :: (chars n (Piece.separated ", " (items.map (Term.pieces place))) ++ ']' :: rest) := by
    rw [Term.pieces, Term.piecesEach_eq_map, Piece.between, List.cons_append, chars_text, chars_append,
      chars_single]
    simp
  rw [text]
  rw [Term.skeleton, Term.skeletonEach_eq_map] at path
  by_cases empty : items = []
  · subst empty
    exact .noItems path
  · exact .items (Reads.items (.inr rfl) empty reads n rest) path

theorem object {entries : List (String × Term)} (reads : ∀ entry ∈ entries, Reads place entry.2) :
    Reads place (.object entries) := by
  refine of_base rfl ?_
  intro n rest u further _ path
  rw [Term.skeleton, Term.skeletonEntries_eq_map] at path
  by_cases empty : entries = []
  · subst empty
    show OperandAt (chars n [.text "\x7b\x7d"] ++ rest) u further
    rw [chars_single]
    exact .noEntries path
  · have text : chars n ((Term.object entries).pieces place) ++ rest =
        '\x7b' :: ' ' :: (chars n (Piece.separated ", " (Term.piecesEntries place entries)) ++
          ' ' :: '\x7d' :: rest) := by
      have some : (Term.piecesEntries place entries).isEmpty = false := by simpa using empty
      rw [Term.pieces, Term.objectLiteral, some, if_neg Bool.false_ne_true, Piece.between,
        List.cons_append, chars_text, chars_append, chars_single]
      simp
    rw [text]
    exact .entries (Reads.entries empty reads n rest) path

/-- A call of a function, given its arguments as they are written. -/
theorem call {op : Operation} {path : String} {t : Term} (terms : List Term)
    (known : op ∈ Operation.all) (calls : op.callPath? = some path) (atomic : t.isAtomic = true)
    (written : t.pieces place = .text (path ++ "(") ::
      Piece.separated ", " (terms.map (Term.pieces place)) ++ [.text ")"])
    (made : applied op (terms.map Term.skeleton) = some t.skeleton)
    (reads : ∀ u ∈ terms, Reads place u) : Reads place t := by
  refine of_base atomic ?_
  intro n rest u further _ behind
  have nonempty : terms ≠ [] := by
    rintro rfl
    cases made
  have text : chars n (t.pieces place) ++ rest = (path ++ "(").toList ++
      (chars n (Piece.separated ", " (terms.map (Term.pieces place))) ++ ')' :: rest) := by
    rw [written, List.cons_append, chars_text, chars_append, chars_single]
    simp
  rw [text]
  exact .call_path known calls (Reads.items (.inl rfl) nonempty reads n rest) made behind

/-- An operation that is there, with as many arguments as it takes. -/
theorem apply {op : Operation} {receiver : Term} {arguments : List Term}
    (known : op ∈ Operation.all) (fits : op.arity.accepts arguments.length = true)
    (reads : Reads place receiver) (reads' : ∀ t ∈ arguments, Reads place t) :
    Reads place (.apply op receiver arguments) := by
  cases form : op.form with
  | between token =>
      have arity := Operation.arity_of_infixText? op known (by rw [Operation.infixText?, form]; rfl)
      rw [arity, Arity.accepts, beq_iff_eq, List.length_eq_one_iff] at fits
      obtain ⟨argument, rfl⟩ := fits
      exact .between known form reads (reads' argument List.mem_cons_self)
  | before token =>
      have none : arguments = [] := by
        rcases Operation.of_form_before op known (by rw [form]) with rfl | rfl <;>
          exact List.length_eq_zero_iff.mp (beq_iff_eq.mp fits)
      rw [none]
      exact .before known form reads
  | call path =>
      have other : op ≠ .truthy := by
        rintro rfl
        cases form
      refine .call (receiver :: arguments) known (by rw [Operation.callPath?, form])
        (by rw [Term.isAtomic, form]) ?_ ?_ ?_
      · rw [Term.pieces, form, Term.piecesEach_eq_map]
        rfl
      · simp [Term.skeleton_apply other, applied, form]
      · intro u member
        rcases List.mem_cons.mp member with rfl | member
        · exact reads
        · exact reads' u member
  | callSeparated path =>
      have other : op ≠ .truthy := by
        rintro rfl
        cases form
      have arity := Operation.arity_of_form_callSeparated op known (by rw [form])
      rw [arity, Arity.accepts, decide_eq_true_iff] at fits
      obtain ⟨first, more, rfl⟩ := List.exists_cons_of_length_pos fits
      refine .call (first :: receiver :: more) known (by rw [Operation.callPath?, form])
        (by rw [Term.isAtomic, form]) ?_ ?_ ?_
      · rw [Term.pieces, form, Term.piecesEach_eq_map]
        rfl
      · simp [Term.skeleton_apply other, applied, form]
      · intro u member
        rcases List.mem_cons.mp member with rfl | member
        · exact reads' u List.mem_cons_self
        · rcases List.mem_cons.mp member with rfl | member
          · exact reads
          · exact reads' u (List.mem_cons_of_mem first member)

end Reads

/-- The text of a term of one scope is read as the skeleton of the term. -/
theorem reads_of_local {scope : ScopeId} (inside : place.current = some scope) {t : Term}
    (isLocal : t.Local scope) : Reads place t := by
  induction isLocal with
  | record => exact .record inside
  | value v => exact .value v
  | get key _ noPrefix ih => exact ih.get key noPrefix
  | apply known fits _ _ ih ih' => exact .apply known fits ih ih'
  | object _ ih => exact .object ih
  | array _ ih => exact .array ih

end TermReading

theorem Term.Local.rendered {scope : ScopeId} {t : Term} (isLocal : t.Local scope) : t.Rendered := by
  induction isLocal with
  | record => exact .record scope
  | value v => exact .value v
  | get key _ _ ih => exact ih.get key
  | apply known _ _ _ ih ih' => exact .apply known ih ih'
  | object _ ih => exact .object ih
  | array _ ih => exact .array ih

/-- The expression belongs to a scope, and so does every record in it. -/
structure Expr.Local (scope : ScopeId) (e : Expr) : Prop where
  own : e.scope = scope
  inside : e.term.Local scope

mutual

/-- A shape of expressions of one scope is lowered to such an expression. -/
theorem Shape.local_lower {scope : ScopeId} : {shape : Shape} →
    (∀ e, shape.Leaf e → e.Local scope) → (shape.lower scope).Local scope
  | .expr e, leaves => leaves e .expr
  | .value v, _ => ⟨rfl, .value v⟩
  | .object entries, leaves => by
      refine ⟨rfl, .object ?_⟩
      intro entry member
      obtain ⟨⟨key, e⟩, lowered, rfl⟩ := List.mem_map.mp member
      exact (local_lowerEntries (fun e s key member leaf => leaves e (.entry member leaf)) (key, e)
        lowered).inside
  | .array items, leaves => by
      refine ⟨rfl, .array ?_⟩
      intro t member
      obtain ⟨e, lowered, rfl⟩ := List.mem_map.mp member
      exact (local_lowerItems (fun e s member leaf => leaves e (.item member leaf)) e lowered).inside

theorem Shape.local_lowerEntries {scope : ScopeId} : {entries : List (String × Shape)} →
    (∀ e s key, (key, s) ∈ entries → s.Leaf e → e.Local scope) →
    ∀ entry ∈ lowerEntries scope entries, entry.2.Local scope
  | [], _, _, member => by cases member
  | (key, s) :: rest, leaves, entry, member => by
      rcases List.mem_cons.mp member with rfl | member
      · exact local_lower fun e leaf => leaves e s key List.mem_cons_self leaf
      · exact local_lowerEntries
          (fun e s key member leaf => leaves e s key (List.mem_cons_of_mem _ member) leaf) entry member

theorem Shape.local_lowerItems {scope : ScopeId} : {items : List Shape} →
    (∀ e s, s ∈ items → s.Leaf e → e.Local scope) →
    ∀ e ∈ lowerItems scope items, e.Local scope
  | [], _, _, member => by cases member
  | s :: rest, leaves, e, member => by
      rcases List.mem_cons.mp member with rfl | member
      · exact local_lower fun e leaf => leaves e s List.mem_cons_self leaf
      · exact local_lowerItems
          (fun e s member leaf => leaves e s (List.mem_cons_of_mem _ member) leaf) e member

end

namespace Expr

variable {scope : ScopeId} {e f : Expr}

/-- A successful call applies one of the operations there are to as many arguments as it takes. -/
theorem apply_of_call {result : Expr} {name : String} {arguments : List Operand}
    (called : e.call name arguments = .ok result) : ∃ op ∈ Operation.all,
      op.arity.accepts arguments.length = true ∧ result = e.apply op arguments := by
  unfold call at called
  split at called
  · cases called
  · next op found =>
      split at called
      · next fits =>
          cases called
          exact ⟨op, Descriptor.method?_mem_all found, fits, rfl⟩
      · cases called

theorem Local.apply {op : Operation} {arguments : List Operand} (known : op ∈ Operation.all)
    (fits : op.arity.accepts arguments.length = true) (receiver : e.Local scope)
    (each : ∀ a ∈ arguments, (e.lift a).Local scope) : (e.apply op arguments).Local scope := by
  refine ⟨receiver.own, .apply known ?_ receiver.inside ?_⟩
  · rwa [List.length_map]
  · intro t member
    obtain ⟨a, found, rfl⟩ := List.mem_map.mp member
    exact (each a found).inside

theorem Composed.isLocal {db : Database} (composed : Composed db scope e) : e.Local scope := by
  induction composed with
  | record row => exact ⟨rfl, .record⟩
  | value v => exact ⟨rfl, .value v⟩
  | get key _ noPrefix ih => exact ⟨ih.own, .get key ih.inside noPrefix⟩
  | operator known fits _ _ ih ih' =>
      exact .apply (List.mem_append_left _ known) fits ih ih'
  | method called _ _ ih ih' =>
      obtain ⟨op, known, fits, rfl⟩ := apply_of_call called
      exact .apply known fits ih ih'
  | cast type _ ih => exact ⟨ih.own, ih.inside⟩
  | literal _ ih => exact Shape.local_lower ih

/-- The text of an expression on its own is read as the skeleton of its term. -/
theorem Local.termAt_text (isLocal : e.Local scope) :
    TermReading.TermAt e.compile.text.toList e.term.skeleton [] := by
  have place : (Scopes.outermost.enter e.scope).current = some scope := by
    rw [isLocal.own]
    rfl
  have read := (TermReading.reads_of_local place isLocal.inside).term 0 [] .nil
  rw [List.append_nil] at read
  rw [compile_eq isLocal.inside.rendered]
  exact read

/-- **Equal texts have equal operations.** Expressions of one statement that are written alike apply
the same operations to the same operands in the same places. -/
theorem skeleton_of_text {db db' : Database} {scope' : ScopeId} (composed : e.Composed db scope)
    (composed' : f.Composed db' scope') (same : e.compile.text = f.compile.text) :
    e.term.skeleton = f.term.skeleton := by
  have read := composed.isLocal.termAt_text
  have read' := composed'.isLocal.termAt_text
  rw [same] at read
  exact (read'.unique read).1

end Expr

namespace Shelf

def row : Descriptor := .object [("tags", .list .string), ("name", .string)]

/-- A tag is as given, and there is a name. -/
def condition (scope : ScopeId) (tag : Key) (v : Json) (given : Expr → Expr) : Expr :=
  ((((Expr.ofRecord scope row).get .empty (.field "tags")).get .empty tag).apply .eq
    [.value v]).apply .and [.expr (given ((Expr.ofRecord scope row).get .empty (.field "name")))]

theorem composed_condition (scope : ScopeId) (tag : Key) (v : Json) (given : Expr → Expr)
    (composed : ∀ e : Expr, e.Composed .empty scope → (given e).Composed .empty scope) :
    (condition scope tag v given).Composed .empty scope := by
  have field : ∀ name, ((Expr.ofRecord scope row).get .empty (.field name)).Composed .empty scope :=
    fun name => .get (.field name) (.record row) rfl
  refine .operator (by decide) rfl (.operator (by decide) rfl (.get tag (field "tags") rfl) ?_) ?_
  · intro a member
    rw [List.mem_singleton.mp member]
    exact .value v
  · intro a member
    rw [List.mem_singleton.mp member]
    exact composed _ (field "name")

def asTruth (e : Expr) : Expr := e.apply .truthy []

def twiceNegated (e : Expr) : Expr := (e.apply .not []).apply .not []

end Shelf

/-- Values, positions known to be in range and double negations do not show; all else does. -/
theorem Shelf.skeleton_of_text_condition :
    (condition ⟨0⟩ (.index 0) (.string "new") asTruth).Composed .empty ⟨0⟩ ∧
      (condition ⟨1⟩ (.present 0) .null twiceNegated).Composed .empty ⟨1⟩ ∧
      (condition ⟨0⟩ (.index 0) (.string "new") asTruth).compile.text =
        "(tags[0] = $_v0) AND !!name" ∧
      (condition ⟨0⟩ (.index 0) (.string "new") asTruth).compile.text =
        (condition ⟨1⟩ (.present 0) .null twiceNegated).compile.text ∧
      (condition ⟨0⟩ (.index 0) (.string "new") asTruth).term.skeleton =
        (condition ⟨1⟩ (.present 0) .null twiceNegated).term.skeleton := by
  have none : ∀ e : Expr, ∀ a ∈ ([] : List Operand), (e.lift a).Composed .empty ⟨0⟩ := by simp
  have none' : ∀ e : Expr, ∀ a ∈ ([] : List Operand), (e.lift a).Composed .empty ⟨1⟩ := by simp
  have first := composed_condition ⟨0⟩ (.index 0) (.string "new") asTruth
    fun e composed => .operator (by decide) rfl composed (none e)
  have second := composed_condition ⟨1⟩ (.present 0) .null twiceNegated
    fun e composed => .operator (by decide) rfl (.operator (by decide) rfl composed (none' e)) (none' _)
  have same : (condition ⟨0⟩ (.index 0) (.string "new") asTruth).compile.text =
      (condition ⟨1⟩ (.present 0) .null twiceNegated).compile.text := by decide
  exact ⟨first, second, by decide, same, Expr.skeleton_of_text first second same⟩

end GraphQuery
