import GraphQuery.Proofs.Json.Faults
import GraphQuery.Proofs.Json.TrailingBlank.Tokens

/-!
# A blank behind a JSON text

A reader of a value stops in front of a blank that stands at the very end of the text, or it has met a fault
before; so the blank is left over, and the text is one JSON value with it when it is one without it.
-/

namespace GraphQuery

variable {b : Char} {cs : List Char}

namespace Source

/-- What is read of a value and of the same text with a blank behind it: there is a fault in both, or the same
is read and the blank is left as well. The faults may differ, and so may what was read in front of them. -/
inductive FoundAgrees (b : Char) (n : Nat) : Found → Found → Prop
  | faulty {r r' : Found} : r.1.Faulty → r'.1.Faulty → FoundAgrees b n r r'
  | value (s : Source) {rest : List Char} : rest.length < n →
      FoundAgrees b n (s, some rest) (s, some (rest ++ [b]))

theorem FoundAgrees.faulty_or_value {n : Nat} {r r' : Found} (agrees : FoundAgrees b n r r') :
    r.1.Faulty ∧ r'.1.Faulty ∨
      ∃ s rest, rest.length < n ∧ r = (s, some rest) ∧ r' = (s, some (rest ++ [b])) := by
  cases agrees with
  | faulty first second => exact .inl ⟨first, second⟩
  | value s short => exact .inr ⟨s, _, short, rfl, rfl⟩

theorem FoundAgrees.mono {n m : Nat} {r r' : Found} (agrees : FoundAgrees b n r r') (le : n ≤ m) :
    FoundAgrees b m r r' := by
  cases agrees with
  | faulty first second => exact .faulty first second
  | value s short => exact .value s (Nat.lt_of_lt_of_le short le)

theorem FoundAgrees.ite {n : Nat} {r r' s s' : Found} {p : Prop} [Decidable p]
    (here : FoundAgrees b n r r') (there : FoundAgrees b n s s') :
    FoundAgrees b n (if p then r else s) (if p then r' else s') := by
  split
  · exact here
  · exact there

theorem found_agrees {α : Type} {n : Nat} (make : α → Source) {r r' : Except Fault (α × List Char)}
    (agrees : Agrees b n r r') : FoundAgrees b n (found make r) (found make r') := by
  cases agrees with
  | fault f g => exact .faulty rfl rfl
  | value a short => exact .value (make a) short

theorem literal_agrees (blank : isJsonBlank b = true) (cs : List Char) :
    FoundAgrees b cs.length (found .string (StringLiteral.read cs))
      (found .string (StringLiteral.read (cs ++ [b]))) :=
  found_agrees .string (StringLiteral.readFrom_agrees blank [] cs)

theorem readNumber_agrees (blank : isJsonBlank b = true) (cs : List Char) :
    FoundAgrees b cs.length (readNumber cs) (readNumber (cs ++ [b])) := by
  have agrees := Numeral.read_agrees blank cs
  unfold readNumber
  generalize Numeral.read cs = r, Numeral.read (cs ++ [b]) = r' at agrees
  cases agrees with
  | fault f g => exact .faulty rfl rfl
  | value n short =>
      dsimp only
      cases n.value? with
      | none => exact .faulty rfl rfl
      | some v => exact .value (.number v) short

/-! ### Containers -/

section Containers

variable {items items' : List Source} {entries entries' : List (SourceEntry Source)}
  {close close' : Option Fault} {ending ending' : ObjectEnd} {rest rest' : Option (List Char)} {n : Nat}

theorem FoundAgrees.item (s : Source)
    (agrees : FoundAgrees b n (.array items close, rest) (.array items' close', rest')) :
    FoundAgrees b n (.array (s :: items) close, rest) (.array (s :: items') close', rest') := by
  cases agrees with
  | faulty first second =>
      rw [faulty_array_iff] at first second
      refine .faulty (faulty_array_iff.mpr ?_) (faulty_array_iff.mpr ?_)
      · exact first.imp_left fun ⟨t, member, bad⟩ => ⟨t, List.mem_cons_of_mem s member, bad⟩
      · exact second.imp_left fun ⟨t, member, bad⟩ => ⟨t, List.mem_cons_of_mem s member, bad⟩
  | value s short => exact .value _ short

theorem FoundAgrees.entry (entry : SourceEntry Source)
    (agrees : FoundAgrees b n (.object entries ending, rest) (.object entries' ending', rest')) :
    FoundAgrees b n (.object (entry :: entries) ending, rest)
      (.object (entry :: entries') ending', rest') := by
  cases agrees with
  | faulty first second =>
      rw [faulty_object_iff] at first second
      refine .faulty (faulty_object_iff.mpr ?_) (faulty_object_iff.mpr ?_)
      · exact first.imp_left fun ⟨t, member, bad⟩ => ⟨t, List.mem_cons_of_mem entry member, bad⟩
      · exact second.imp_left fun ⟨t, member, bad⟩ => ⟨t, List.mem_cons_of_mem entry member, bad⟩
  | value s short => exact .value _ short

end Containers

/-- The items from the head of a text on. -/
def readItemThen (fuel depth : Nat) (cs : List Char) : List Source × Option Fault × Option (List Char) :=
  match readValue fuel depth cs with
  | (v, none) => ([v], none, none)
  | (v, some rest) =>
    let (items, close, rest) := readItems fuel depth false rest
    (v :: items, close, rest)

/-- The entries behind the colon of a key. -/
def readFieldThen (fuel depth : Nat) (key : String) (text : List Char) :
    List (SourceEntry Source) × ObjectEnd × Option (List Char) :=
  let (v, rest) := readValue fuel depth text
  let passed : Except Fault (List Char) := match rest with
    | some rest => .ok rest
    | none => skipValue text
  match passed with
  | .error f => ([⟨key, v, some f⟩], .closed, none)
  | .ok rest =>
    let (entries, close, rest) := readEntries fuel depth false rest
    (⟨key, v, none⟩ :: entries, close, rest)

/-- The entries behind the quote that opens a key. -/
def readEntryThen (fuel depth : Nat) (cs : List Char) :
    List (SourceEntry Source) × ObjectEnd × Option (List Char) :=
  match StringLiteral.read cs with
  | .error f => ([], .atKey f, none)
  | .ok (key, rest) =>
    match dropBlanks rest with
    | [] => ([], .afterKey key .endInObject, none)
    | ':' :: text => readFieldThen fuel depth key text
    | _ => ([], .afterKey key .expectedColon, none)

theorem readItems_succ (fuel depth : Nat) (first : Bool) (cs : List Char) :
    readItems (fuel + 1) depth first cs = match dropBlanks cs with
      | [] => ([], some .endInList, none)
      | c :: rest =>
        if c = ']' then ([], none, some rest)
        else if first then readItemThen fuel depth (c :: rest)
        else if c = ',' then
          match dropBlanks rest with
          | [] => ([], some .endInValue, none)
          | ']' :: _ => ([], some .trailingComma, none)
          | rest => readItemThen fuel depth rest
        else ([], some .expectedCommaOrBracket, none) := by
  rw [readItems]
  rfl

theorem readEntries_succ (fuel depth : Nat) (first : Bool) (cs : List Char) :
    readEntries (fuel + 1) depth first cs = match dropBlanks cs with
      | [] => ([], .atKey .endInObject, none)
      | c :: rest =>
        if c = '\x7d' then ([], .closed, some rest)
        else if first then
          if c = '"' then readEntryThen fuel depth rest else ([], .atKey .keyNotString, none)
        else if c = ',' then
          match dropBlanks rest with
          | [] => ([], .atKey .endInValue, none)
          | '"' :: rest => readEntryThen fuel depth rest
          | '\x7d' :: _ => ([], .atKey .trailingComma, none)
          | _ => ([], .atKey .keyNotString, none)
        else ([], .atKey .expectedCommaOrBrace, none) := by
  rw [readEntries]
  rfl

/-- The list that was found. -/
def asArray (r : List Source × Option Fault × Option (List Char)) : Found := (.array r.1 r.2.1, r.2.2)

/-- The object that was found. -/
def asObject (r : List (SourceEntry Source) × ObjectEnd × Option (List Char)) : Found :=
  (.object r.1 r.2.1, r.2.2)

/-- With enough calls left, the readers do not mind a blank behind the text. Twice the length bounds the calls,
so the longer text needs two more of them. -/
structure ReadsAgree (b : Char) (fuel : Nat) : Prop where
  value : ∀ (depth : Nat) {fuel' : Nat} {cs : List Char},
    2 * cs.length + 1 ≤ fuel → 2 * cs.length + 3 ≤ fuel' →
      FoundAgrees b cs.length (readValue fuel depth cs) (readValue fuel' depth (cs ++ [b]))
  items : ∀ (depth : Nat) (first : Bool) {fuel' : Nat} {cs : List Char},
    2 * cs.length + 2 ≤ fuel → 2 * cs.length + 4 ≤ fuel' →
      FoundAgrees b cs.length (asArray (readItems fuel depth first cs))
        (asArray (readItems fuel' depth first (cs ++ [b])))
  entries : ∀ (depth : Nat) (first : Bool) {fuel' : Nat} {cs : List Char},
    2 * cs.length + 2 ≤ fuel → 2 * cs.length + 4 ≤ fuel' →
      FoundAgrees b cs.length (asObject (readEntries fuel depth first cs))
        (asObject (readEntries fuel' depth first (cs ++ [b])))

section Step

variable {fuel fuel' n : Nat}

theorem readValue_agrees (blank : isJsonBlank b = true) (agree : ReadsAgree b fuel) (depth : Nat)
    (enough : 2 * cs.length ≤ fuel) (enough' : 2 * cs.length + 2 ≤ fuel') :
    FoundAgrees b cs.length (readValue (fuel + 1) depth cs) (readValue (fuel' + 1) depth (cs ++ [b])) := by
  cases found : dropBlanks cs with
  | nil =>
      rw [readValue, readValue, found, dropBlanks_append_nil blank found]
      exact .faulty rfl rfl
  | cons c rest =>
      have short := length_of_dropBlanks found
      have word (value : Source) {letters : List Char}
          (solid : letters.all (fun l => !isJsonBlank l) = true) :
          FoundAgrees b cs.length (word value letters rest) (word value letters (rest ++ [b])) :=
        (found_agrees _ (readLetters_agrees blank solid rest)).mono short
      rw [readValue, readValue, found, dropBlanks_append_cons found]
      dsimp only
      refine .ite (word .null (by decide)) ?_
      refine .ite (word (.bool true) (by decide)) ?_
      refine .ite (word (.bool false) (by decide)) ?_
      refine .ite ((readNumber_agrees blank (c :: rest)).mono short) ?_
      refine .ite ((literal_agrees blank rest).mono (Nat.le_of_lt short)) ?_
      refine .ite (.ite (.faulty rfl rfl) ?array) (.ite (.ite (.faulty rfl rfl) ?object) (.faulty rfl rfl))
      case array => exact (agree.items (depth - 1) true (by omega) (by omega)).mono (Nat.le_of_lt short)
      case object => exact (agree.entries (depth - 1) true (by omega) (by omega)).mono (Nat.le_of_lt short)

theorem faulty_readItemThen {depth : Nat} (bad : (readValue fuel depth cs).1.Faulty) :
    (asArray (readItemThen fuel depth cs)).1.Faulty := by
  unfold readItemThen
  generalize readValue fuel depth cs = r at bad
  rcases r with ⟨v, _ | rest⟩ <;> exact faulty_array_iff.mpr (.inl ⟨v, List.mem_cons_self, bad⟩)

theorem readItemThen_agrees (agree : ReadsAgree b fuel) (depth : Nat) (within : cs.length ≤ n)
    (enough : 2 * n + 1 ≤ fuel) (enough' : 2 * n + 3 ≤ fuel') :
    FoundAgrees b n (asArray (readItemThen fuel depth cs))
      (asArray (readItemThen fuel' depth (cs ++ [b]))) := by
  have agrees : FoundAgrees b cs.length (readValue fuel depth cs) (readValue fuel' depth (cs ++ [b])) :=
    agree.value depth (by omega) (by omega)
  rcases agrees.faulty_or_value with ⟨bad, bad'⟩ | ⟨v, rest, short, read, read'⟩
  · exact .faulty (faulty_readItemThen bad) (faulty_readItemThen bad')
  · rw [readItemThen, readItemThen, read, read']
    exact ((agree.items depth false (by omega) (by omega)).item v).mono (by omega)

theorem readItems_agrees (blank : isJsonBlank b = true) (agree : ReadsAgree b fuel) (depth : Nat)
    (first : Bool) (enough : 2 * cs.length + 1 ≤ fuel) (enough' : 2 * cs.length + 3 ≤ fuel') :
    FoundAgrees b cs.length (asArray (readItems (fuel + 1) depth first cs))
      (asArray (readItems (fuel' + 1) depth first (cs ++ [b]))) := by
  rw [readItems_succ, readItems_succ]
  cases found : dropBlanks cs with
  | nil =>
      rw [dropBlanks_append_nil blank found]
      exact .faulty rfl rfl
  | cons c rest =>
      have short := length_of_dropBlanks found
      rw [dropBlanks_append_cons found]
      dsimp only
      split_ifs
      · exact .value _ short
      · exact readItemThen_agrees agree depth short enough enough'
      · cases next : dropBlanks rest with
        | nil =>
            rw [dropBlanks_append_nil blank next]
            exact .faulty rfl rfl
        | cons d more =>
            have shorter := length_of_dropBlanks next
            rw [dropBlanks_append_cons next]
            by_cases bracket : d = ']'
            · subst bracket
              exact .faulty rfl rfl
            · have within : (d :: more).length ≤ cs.length := Nat.le_trans shorter (Nat.le_of_lt short)
              simpa [bracket] using readItemThen_agrees agree depth within enough enough'
      · exact .faulty rfl rfl

theorem faulty_readFieldThen {depth : Nat} (key : String) (bad : (readValue fuel depth cs).1.Faulty) :
    (asObject (readFieldThen fuel depth key cs)).1.Faulty := by
  unfold readFieldThen
  generalize readValue fuel depth cs = r at bad
  dsimp only
  split <;> exact faulty_object_iff.mpr (.inl ⟨_, List.mem_cons_self, bad⟩)

theorem readFieldThen_agrees (agree : ReadsAgree b fuel) (depth : Nat) (key : String)
    (within : cs.length ≤ n) (enough : 2 * n + 1 ≤ fuel) (enough' : 2 * n + 3 ≤ fuel') :
    FoundAgrees b n (asObject (readFieldThen fuel depth key cs))
      (asObject (readFieldThen fuel' depth key (cs ++ [b]))) := by
  have agrees : FoundAgrees b cs.length (readValue fuel depth cs) (readValue fuel' depth (cs ++ [b])) :=
    agree.value depth (by omega) (by omega)
  rcases agrees.faulty_or_value with ⟨bad, bad'⟩ | ⟨v, rest, short, read, read'⟩
  · exact .faulty (faulty_readFieldThen key bad) (faulty_readFieldThen key bad')
  · rw [readFieldThen, readFieldThen, read, read']
    exact ((agree.entries depth false (by omega) (by omega)).entry ⟨key, v, none⟩).mono (by omega)

theorem readEntryThen_agrees (blank : isJsonBlank b = true) (agree : ReadsAgree b fuel) (depth : Nat)
    (within : cs.length ≤ n) (enough : 2 * n + 1 ≤ fuel) (enough' : 2 * n + 3 ≤ fuel') :
    FoundAgrees b n (asObject (readEntryThen fuel depth cs))
      (asObject (readEntryThen fuel' depth (cs ++ [b]))) := by
  have literal := StringLiteral.readFrom_agrees blank [] cs
  unfold readEntryThen StringLiteral.read
  generalize StringLiteral.readFrom [] cs = r, StringLiteral.readFrom [] (cs ++ [b]) = r' at literal
  cases literal with
  | fault f g => exact .faulty rfl rfl
  | @value key rest short =>
      dsimp only
      cases found : dropBlanks rest with
      | nil =>
          rw [dropBlanks_append_nil blank found]
          exact .faulty rfl rfl
      | cons c text =>
          have shorter := length_of_dropBlanks found
          rw [dropBlanks_append_cons found]
          by_cases colon : c = ':'
          · subst colon
            exact readFieldThen_agrees agree depth key (by omega) enough enough'
          · simp only [List.cons.injEq, colon, false_and, imp_false, not_false_eq_true, implies_true]
            exact .faulty rfl rfl

theorem readEntries_agrees (blank : isJsonBlank b = true) (agree : ReadsAgree b fuel) (depth : Nat)
    (first : Bool) (enough : 2 * cs.length + 1 ≤ fuel) (enough' : 2 * cs.length + 3 ≤ fuel') :
    FoundAgrees b cs.length (asObject (readEntries (fuel + 1) depth first cs))
      (asObject (readEntries (fuel' + 1) depth first (cs ++ [b]))) := by
  rw [readEntries_succ, readEntries_succ]
  cases found : dropBlanks cs with
  | nil =>
      rw [dropBlanks_append_nil blank found]
      exact .faulty rfl rfl
  | cons c rest =>
      have short := length_of_dropBlanks found
      rw [dropBlanks_append_cons found]
      dsimp only
      split_ifs
      · exact .value _ short
      · exact readEntryThen_agrees blank agree depth (Nat.le_of_lt short) enough enough'
      · exact .faulty rfl rfl
      · cases next : dropBlanks rest with
        | nil =>
            rw [dropBlanks_append_nil blank next]
            exact .faulty rfl rfl
        | cons d more =>
            have shorter := length_of_dropBlanks next
            rw [dropBlanks_append_cons next]
            by_cases quote : d = '"'
            · subst quote
              exact readEntryThen_agrees blank agree depth (by omega) enough enough'
            · by_cases brace : d = '\x7d'
              · subst brace
                exact .faulty rfl rfl
              · simp only [List.cons.injEq, quote, brace, false_and, imp_false, not_false_eq_true,
                  implies_true]
                exact .faulty rfl rfl
      · exact .faulty rfl rfl

end Step

theorem reads_agree (blank : isJsonBlank b = true) (fuel : Nat) : ReadsAgree b fuel := by
  induction fuel with
  | zero => exact ⟨by omega, by omega, by omega⟩
  | succ fuel ih =>
      refine ⟨?_, ?_, ?_⟩
      · rintro depth (_ | fuel') cs enough enough'
        · omega
        · exact readValue_agrees blank ih depth (by omega) (by omega)
      · rintro depth first (_ | fuel') cs enough enough'
        · omega
        · exact readItems_agrees blank ih depth first (by omega) (by omega)
      · rintro depth first (_ | fuel') cs enough enough'
        · omega
        · exact readEntries_agrees blank ih depth first (by omega) (by omega)

theorem read_agrees (blank : isJsonBlank b = true) (cs : List Char) :
    FoundAgrees b cs.length (read (String.ofList cs)) (read (String.ofList (cs ++ [b]))) := by
  have agree := reads_agree blank (2 * cs.length + 2)
  rw [read, read, String.toList_ofList, String.toList_ofList]
  exact agree.value nestingLimit (by omega) (by rw [List.length_append, List.length_singleton]; omega)

end Source

/-- A blank behind a text makes it neither one JSON value nor none. -/
theorem Json.parse_append_blank (blank : isJsonBlank b = true) (cs : List Char) (v : Json) :
    Json.parse (String.ofList (cs ++ [b])) = .ok v ↔ Json.parse (String.ofList cs) = .ok v := by
  have faulty (text : String) (bad : (Source.read text).1.Faulty) : Json.parse text ≠ .ok v := by
    rw [Source.Faulty] at bad
    unfold Json.parse
    dsimp only
    cases read : (Source.read text).1.toJson with
    | error e =>
        intro parsed
        cases parsed
    | ok w =>
        rw [read] at bad
        cases bad
  rcases (Source.read_agrees blank cs).faulty_or_value with ⟨bad, bad'⟩ | ⟨s, rest, short, read, read'⟩
  · exact iff_of_false (faulty _ bad') (faulty _ bad)
  · have behind : (dropBlanks (rest ++ [b])).isEmpty = (dropBlanks rest).isEmpty := by
      cases found : dropBlanks rest with
      | nil => rw [dropBlanks_append_nil blank found]
      | cons c more => rw [dropBlanks_append_cons found]; rfl
    unfold Json.parse
    rw [read, read']
    simp only [Option.getD_some, behind]

end GraphQuery
