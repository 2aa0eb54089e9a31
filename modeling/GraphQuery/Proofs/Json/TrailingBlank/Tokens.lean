import GraphQuery.Json.Skip
import Mathlib.Data.List.TakeWhile

/-!
# Tokens in front of a blank at the end

No word, number or string literal takes a blank that stands at the very end of the text: it ends in front of
it, or it was at fault without it as well.
-/

namespace GraphQuery

variable {b : Char} {cs : List Char}

/-- What is read of a text and of the same text with a blank behind it: both are at fault, or the same is read
and the blank is left as well. Less than `n` characters are left. -/
inductive Agrees (b : Char) (n : Nat) {α : Type} :
    Except Fault (α × List Char) → Except Fault (α × List Char) → Prop
  | fault (f g : Fault) : Agrees b n (.error f) (.error g)
  | value (a : α) {rest : List Char} : rest.length < n → Agrees b n (.ok (a, rest)) (.ok (a, rest ++ [b]))

namespace Agrees

variable {α β : Type} {n m : Nat} {r r' : Except Fault (α × List Char)}

theorem mono (agrees : Agrees b n r r') (le : n ≤ m) : Agrees b m r r' := by
  cases agrees with
  | fault f g => exact .fault f g
  | value a short => exact .value a (Nat.lt_of_lt_of_le short le)

theorem bind {f f' : α × List Char → Except Fault (β × List Char)} (first : Agrees b n r r')
    (second : ∀ a rest, rest.length < n → Agrees b m (f (a, rest)) (f' (a, rest ++ [b]))) :
    Agrees b m (r >>= f) (r' >>= f') := by
  cases first with
  | fault f g => exact .fault f g
  | value a short => exact second a _ short

end Agrees

/-- Both are at fault, or both give the same and a condition holds. -/
def AgreesIf {α : Type} (p : Prop) (r r' : Except Fault α) : Prop :=
  p ∧ r' = r ∨ ∃ f g, r = .error f ∧ r' = .error g

namespace AgreesIf

variable {α : Type} {p : Prop} {r r' : Except Fault α}

theorem ok (agrees : AgreesIf p r r') {a : α} (given : r = .ok a) : p ∧ r' = .ok a := by
  rcases agrees with ⟨holds, same⟩ | ⟨f, g, faulty, _⟩
  · exact ⟨holds, same.trans given⟩
  · rw [given] at faulty
    cases faulty

theorem error (agrees : AgreesIf p r r') {f : Fault} (faulty : r = .error f) : ∃ g, r' = .error g := by
  rcases agrees with ⟨_, same⟩ | ⟨_, g, _, faulty'⟩
  · exact ⟨f, same.trans faulty⟩
  · exact ⟨g, faulty'⟩

end AgreesIf

/-! ## Blanks -/

theorem isJsonBlank_cases (blank : isJsonBlank b = true) : b = ' ' ∨ b = '\n' ∨ b = '\t' ∨ b = '\r' := by
  simpa [isJsonBlank, or_assoc] using blank

theorem dropBlanks_append_nil (blank : isJsonBlank b = true) (empty : dropBlanks cs = []) :
    dropBlanks (cs ++ [b]) = [] := by
  have all : ∀ c ∈ cs, isJsonBlank c = true := List.dropWhile_eq_nil_iff.mp empty
  refine List.dropWhile_eq_nil_iff.mpr ?_
  simpa [or_imp, forall_and, blank] using all

theorem dropBlanks_append_cons {c : Char} {rest : List Char} (found : dropBlanks cs = c :: rest) :
    dropBlanks (cs ++ [b]) = c :: (rest ++ [b]) := by
  rw [dropBlanks] at found ⊢
  rw [List.dropWhile_append, found]
  rfl

theorem length_of_dropBlanks {c : Char} {rest : List Char} (found : dropBlanks cs = c :: rest) :
    rest.length < cs.length := by
  have shorter := (List.dropWhile_suffix isJsonBlank (l := cs)).length_le
  rw [dropBlanks] at found
  rw [found] at shorter
  exact shorter

/-- The letters of a word hold no blank. -/
theorem readLetters_agrees (blank : isJsonBlank b = true) {letters : List Char}
    (solid : letters.all (fun l => !isJsonBlank l) = true) (cs : List Char) :
    Agrees b (cs.length + 1) ((readLetters letters cs).map fun rest => ((), rest))
      ((readLetters letters (cs ++ [b])).map fun rest => ((), rest)) := by
  induction letters generalizing cs with
  | nil => exact .value () (Nat.lt_succ_self _)
  | cons l letters ih =>
      rw [List.all_cons, Bool.and_eq_true] at solid
      cases cs with
      | nil =>
          have other : b ≠ l := by
            rintro rfl
            rw [blank] at solid
            exact absurd solid.1 (by decide)
          rw [List.nil_append, readLetters, readLetters, if_neg other]
          exact .fault _ _
      | cons c rest =>
          rw [List.cons_append, readLetters, readLetters]
          split
          · exact (ih solid.2 rest).mono (Nat.le_succ _)
          · exact .fault _ _

/-! ## Numbers -/

namespace Numeral

theorem not_isDigit_of_isJsonBlank (blank : isJsonBlank b = true) : b.isDigit = false := by
  rcases isJsonBlank_cases blank with rfl | rfl | rfl | rfl <;> rfl

/-- Digits end in front of a blank. -/
theorem spanDigits_append (blank : isJsonBlank b = true) (cs : List Char) :
    spanDigits (cs ++ [b]) = ((spanDigits cs).1, (spanDigits cs).2 ++ [b]) := by
  have noDigit := not_isDigit_of_isJsonBlank blank
  unfold spanDigits
  induction cs with
  | nil => simp [noDigit]
  | cons c rest ih =>
      rw [Prod.mk.injEq] at ih ⊢
      rw [List.cons_append]
      cases digit : c.isDigit with
      | true =>
          rw [List.takeWhile_cons_of_pos digit, List.takeWhile_cons_of_pos digit,
            List.dropWhile_cons_of_pos digit, List.dropWhile_cons_of_pos digit, List.map_cons, List.map_cons]
          exact ⟨congrArg _ ih.1, ih.2⟩
      | false => simp [digit]

theorem length_of_spanDigits {d : Nat} {ds : List Nat} {rest : List Char}
    (found : spanDigits cs = (d :: ds, rest)) : rest.length < cs.length := by
  obtain ⟨digits, behind⟩ := Prod.mk.inj found
  have whole := congrArg List.length (List.takeWhile_append_dropWhile (p := Char.isDigit) (l := cs))
  have some := congrArg List.length digits
  rw [List.length_append, behind] at whole
  rw [List.length_map, List.length_cons] at some
  omega

/-- A text that does not begin with a character does not do so with a blank behind it. -/
theorem append_ne_cons {c : Char} (blank : isJsonBlank b = true) (solid : isJsonBlank c = false)
    (other : ∀ rest, cs ≠ c :: rest) (rest : List Char) : cs ++ [b] ≠ c :: rest := by
  cases cs with
  | nil =>
      rintro same
      cases same
      rw [blank] at solid
      cases solid
  | cons d ds =>
      rintro same
      cases same
      exact other ds rfl

theorem readWhole_agrees (blank : isJsonBlank b = true) (cs : List Char) :
    Agrees b cs.length (readWhole cs) (readWhole (cs ++ [b])) := by
  by_cases zero : ∃ rest, cs = '0' :: rest
  · obtain ⟨rest, rfl⟩ := zero
    have head : ((rest ++ [b]).head?.map Char.isDigit).getD false =
        (rest.head?.map Char.isDigit).getD false := by
      cases rest with
      | nil => simp [not_isDigit_of_isJsonBlank blank]
      | cons c rest => rfl
    rw [List.cons_append, readWhole, readWhole, head]
    split
    · exact .fault _ _
    · exact .value [0] (Nat.lt_succ_self _)
  · have other := not_exists.mp zero
    rw [readWhole, readWhole, spanDigits_append blank]
    · cases found : spanDigits cs with
      | mk ds rest =>
          cases ds with
          | nil => exact .fault _ _
          | cons d ds => exact .value (d :: ds) (length_of_spanDigits found)
    · exact append_ne_cons blank (by decide) other
    · exact other

theorem readFraction_agrees (blank : isJsonBlank b = true) (cs : List Char) :
    Agrees b (cs.length + 1) (readFraction cs) (readFraction (cs ++ [b])) := by
  by_cases point : ∃ rest, cs = '.' :: rest
  · obtain ⟨rest, rfl⟩ := point
    rw [List.cons_append, readFraction, readFraction, spanDigits_append blank]
    cases found : spanDigits rest with
    | mk ds behind =>
        cases ds with
        | nil => exact .fault _ _
        | cons d ds =>
            have shorter := length_of_spanDigits found
            exact .value (some (d :: ds)) (by rw [List.length_cons]; omega)
  · have other := not_exists.mp point
    rw [readFraction, readFraction]
    · exact .value none (Nat.lt_succ_self _)
    · exact append_ne_cons blank (by decide) other
    · exact other

theorem readSign_append (blank : isJsonBlank b = true) (cs : List Char) :
    readSign (cs ++ [b]) = ((readSign cs).1, (readSign cs).2 ++ [b]) := by
  cases cs with
  | nil => rcases isJsonBlank_cases blank with rfl | rfl | rfl | rfl <;> rfl
  | cons c rest =>
      by_cases plus : c = '+'
      · subst plus
        rfl
      · by_cases minus : c = '-'
        · subst minus
          rfl
        · simp [readSign, plus, minus]

theorem length_of_readSign (cs : List Char) : (readSign cs).2.length ≤ cs.length := by
  unfold readSign
  split <;> simp

theorem readExponent_agrees (blank : isJsonBlank b = true) (cs : List Char) :
    Agrees b (cs.length + 1) (readExponent cs) (readExponent (cs ++ [b])) := by
  cases cs with
  | nil =>
      have noExponent : readExponent [b] = .ok (none, [b]) := by
        rcases isJsonBlank_cases blank with rfl | rfl | rfl | rfl <;> rfl
      rw [List.nil_append, noExponent]
      exact .value none (Nat.lt_succ_self _)
  | cons c rest =>
      rw [List.cons_append, readExponent, readExponent, readSign_append blank]
      split
      · have signed := length_of_readSign rest
        dsimp only
        rw [spanDigits_append blank]
        cases found : spanDigits (readSign rest).2 with
        | mk ds behind =>
            cases ds with
            | nil => exact .fault _ _
            | cons d ds =>
                have shorter := length_of_spanDigits found
                exact .value (some (_, d :: ds)) (by rw [List.length_cons]; omega)
      · exact .value none (Nat.lt_succ_self _)

/-- A number behind its sign. -/
def readUnsigned (negative : Bool) (cs : List Char) : Except Fault (Numeral × List Char) := do
  let (whole, cs) ← readWhole cs
  let (fraction, cs) ← readFraction cs
  let (exponent, cs) ← readExponent cs
  return (⟨negative, whole, fraction, exponent⟩, cs)

theorem read_of_unsigned (unsigned : ∀ rest, cs ≠ '-' :: rest) : read cs = readUnsigned false cs := by
  unfold read
  split
  next negative rest sign =>
    split at sign
    · exact absurd rfl (unsigned _)
    · cases sign
      rfl

theorem readUnsigned_agrees (blank : isJsonBlank b = true) (negative : Bool) (cs : List Char) :
    Agrees b cs.length (readUnsigned negative cs) (readUnsigned negative (cs ++ [b])) := by
  refine (readWhole_agrees blank cs).bind fun whole rest short => ?_
  refine (readFraction_agrees blank rest).bind fun fraction rest' short' => ?_
  refine (readExponent_agrees blank rest').bind fun exponent rest'' short'' => ?_
  exact .value _ (by omega)

theorem read_agrees (blank : isJsonBlank b = true) (cs : List Char) :
    Agrees b cs.length (read cs) (read (cs ++ [b])) := by
  by_cases minus : ∃ rest, cs = '-' :: rest
  · obtain ⟨rest, rfl⟩ := minus
    exact (readUnsigned_agrees blank true rest).mono (Nat.le_succ _)
  · have unsigned := not_exists.mp minus
    rw [read_of_unsigned unsigned, read_of_unsigned (append_ne_cons blank (by decide) unsigned)]
    exact readUnsigned_agrees blank false cs

end Numeral

/-! ## String literals -/

namespace StringLiteral

theorem hexValue?_of_isJsonBlank (blank : isJsonBlank b = true) : hexValue? b = none := by
  rcases isJsonBlank_cases blank with rfl | rfl | rfl | rfl <;> decide

theorem length_of_mapM_hexValue? {ds : List Nat} (read : cs.mapM hexValue? = some ds) :
    ds.length = cs.length := by
  induction cs generalizing ds with
  | nil =>
      cases read
      rfl
  | cons c rest ih =>
      rw [List.mapM_cons] at read
      obtain ⟨d, _, read⟩ := Option.bind_eq_some_iff.mp read
      obtain ⟨others, behind, read⟩ := Option.bind_eq_some_iff.mp read
      cases read
      rw [List.length_cons, ih behind, List.length_cons]

theorem mapM_hexValue?_of_mem {c : Char} (member : c ∈ cs) (noHex : hexValue? c = none) :
    cs.mapM hexValue? = none := by
  induction cs with
  | nil => cases member
  | cons d rest ih =>
      rw [List.mapM_cons]
      rcases List.mem_cons.mp member with rfl | behind
      · rw [noHex]
        rfl
      · rw [ih behind]
        cases hexValue? d <;> rfl

/-- What are not four digits is no unit. -/
theorem unit_eq_error (others : ∀ ds, (cs.take 4).mapM hexValue? = some ds → ds.length ≠ 4) :
    ∃ f, unit cs = .error f := by
  unfold unit
  split
  · next read => exact absurd rfl (others _ read)
  · split <;> exact ⟨_, rfl⟩

/-- Four digits are there in front of the blank, or they are missing with it as well. -/
theorem unit_append (blank : isJsonBlank b = true) (cs : List Char) :
    AgreesIf (4 ≤ cs.length) (unit cs) (unit (cs ++ [b])) := by
  by_cases there : 4 ≤ cs.length
  · refine .inl ⟨there, ?_⟩
    unfold unit
    rw [List.take_append_of_le_length there]
  · have fewer : (cs.take 4).length ≠ 4 := by
      rw [List.length_take]
      omega
    obtain ⟨f, short⟩ := unit_eq_error fun ds read => length_of_mapM_hexValue? read ▸ fewer
    have member : b ∈ (cs ++ [b]).take 4 := by
      rw [List.take_of_length_le (by rw [List.length_append, List.length_singleton]; omega)]
      simp
    obtain ⟨g, blanked⟩ := unit_eq_error fun ds read => by
      rw [mapM_hexValue?_of_mem member (hexValue?_of_isJsonBlank blank)] at read
      cases read
    exact .inr ⟨f, g, short, blanked⟩

theorem trailing_eq_error (others : ∀ rest, cs ≠ '\\' :: 'u' :: rest) : ∃ f, trailing cs = .error f := by
  unfold trailing
  split
  · exact ⟨_, rfl⟩
  · exact ⟨_, rfl⟩
  · exact absurd rfl (others _)
  · exact ⟨_, rfl⟩

/-- A blank does not complete the beginning of an escape by number. -/
theorem append_ne_escape (blank : isJsonBlank b = true) (others : ∀ rest, cs ≠ '\\' :: 'u' :: rest)
    (rest : List Char) : cs ++ [b] ≠ '\\' :: 'u' :: rest := by
  have noLetter : b ≠ 'u' := by
    rintro rfl
    cases blank
  match cs with
  | [] => simp
  | [c] => simp [noLetter]
  | c :: d :: more =>
      rintro same
      cases same
      exact others more rfl

theorem trailing_append (blank : isJsonBlank b = true) (cs : List Char) :
    AgreesIf (6 ≤ cs.length) (trailing cs) (trailing (cs ++ [b])) := by
  by_cases escape : ∃ rest, cs = '\\' :: 'u' :: rest
  · obtain ⟨rest, rfl⟩ := escape
    rw [List.cons_append, List.cons_append, trailing, trailing]
    rcases unit_append blank rest with ⟨long, same⟩ | ⟨f, g, short, blanked⟩
    · rw [same]
      exact .inl ⟨by simp only [List.length_cons]; omega, rfl⟩
    · rw [short, blanked]
      exact .inr ⟨f, g, rfl, rfl⟩
  · have others := not_exists.mp escape
    obtain ⟨f, short⟩ := trailing_eq_error others
    obtain ⟨g, blanked⟩ := trailing_eq_error (append_ne_escape blank others)
    exact .inr ⟨f, g, short, blanked⟩

/-- An escape is closed by the text or goes on in it. -/
theorem ne_escape {c : Char} {rest : List Char} (alone : c = '\\' → rest = [] → False)
    (escaped : ∀ d more, c = '\\' → rest = d :: more → False) : c ≠ '\\' := by
  intro escapes
  cases rest with
  | nil => exact alone escapes rfl
  | cons d more => exact escaped d more escapes rfl

theorem readFrom_plain {c : Char} {acc rest : List Char} (noQuote : c ≠ '"') (noEscape : c ≠ '\\') :
    readFrom acc (c :: rest) =
      if c.toNat < 32 then .error .controlCharacter else readFrom (c :: acc) rest := by
  rw [readFrom]
  · exact noQuote
  · exact fun escapes _ => noEscape escapes
  · exact fun _ escapes _ => noEscape escapes
  · exact fun _ _ escapes _ => noEscape escapes

/-- A blank does not close a literal. -/
theorem readFrom_blank (blank : isJsonBlank b = true) (acc : List Char) :
    ∃ f, readFrom acc [b] = .error f := by
  have plain : b ≠ '"' ∧ b ≠ '\\' := by
    rcases isJsonBlank_cases blank with rfl | rfl | rfl | rfl <;> decide
  rw [readFrom_plain plain.1 plain.2, readFrom]
  split <;> exact ⟨_, rfl⟩

theorem readFrom_agrees (blank : isJsonBlank b = true) (acc cs : List Char) :
    Agrees b cs.length (readFrom acc cs) (readFrom acc (cs ++ [b])) := by
  fun_induction readFrom acc cs with
  | case1 acc =>
      obtain ⟨f, faulty⟩ := readFrom_blank blank acc
      rw [List.nil_append, faulty]
      exact .fault _ _
  | case2 acc rest =>
      rw [List.cons_append, readFrom]
      exact .value _ (Nat.lt_succ_self _)
  | case3 acc =>
      rcases isJsonBlank_cases blank with rfl | rfl | rfl | rfl
      all_goals
        rw [List.singleton_append, readFrom]
        · exact .fault _ _
        · decide
  | case4 acc rest f faulty =>
      obtain ⟨g, faulty⟩ := (unit_append blank rest).error faulty
      rw [List.cons_append, List.cons_append, readFrom, faulty]
      exact .fault _ _
  | case5 acc rest u read trails =>
      rw [List.cons_append, List.cons_append, readFrom, ((unit_append blank rest).ok read).2]
      dsimp only
      rw [if_pos trails]
      exact .fault _ _
  | case6 acc rest u read leads pairs f faulty =>
      obtain ⟨long, read⟩ := (unit_append blank rest).ok read
      obtain ⟨g, faulty⟩ := (trailing_append blank (rest.drop 4)).error faulty
      rw [List.cons_append, List.cons_append, readFrom, read]
      dsimp only
      rw [if_neg leads, if_pos pairs, List.drop_append_of_le_length long, faulty]
      exact .fault _ _
  | case7 acc rest u read leads pairs t second ih =>
      obtain ⟨long, read⟩ := (unit_append blank rest).ok read
      obtain ⟨longer, second⟩ := (trailing_append blank (rest.drop 4)).ok second
      rw [List.length_drop] at longer
      rw [List.cons_append, List.cons_append, readFrom, read]
      dsimp only
      rw [if_neg leads, if_pos pairs, List.drop_append_of_le_length long, second]
      dsimp only
      rw [List.drop_append_of_le_length (by omega)]
      exact ih.mono (by simp only [List.length_drop, List.length_cons]; omega)
  | case8 acc rest u read leads alone ih =>
      obtain ⟨long, read⟩ := (unit_append blank rest).ok read
      rw [List.cons_append, List.cons_append, readFrom, read]
      dsimp only
      rw [if_neg leads, if_neg alone, List.drop_append_of_le_length long]
      exact ih.mono (by simp only [List.length_drop, List.length_cons]; omega)
  | case9 acc c rest noNumber d stands ih =>
      rw [List.cons_append, List.cons_append, readFrom, stands]
      · exact ih.mono (by simp only [List.length_cons]; omega)
      · exact noNumber
  | case10 acc c rest noNumber none =>
      rw [List.cons_append, List.cons_append, readFrom, none]
      · exact .fault _ _
      · exact noNumber
  | case11 acc c rest noQuote alone numbered escaped control =>
      have noEscape := ne_escape alone escaped
      rw [List.cons_append, readFrom_plain noQuote noEscape, if_pos control]
      exact .fault _ _
  | case12 acc c rest noQuote alone numbered escaped printed ih =>
      have noEscape := ne_escape alone escaped
      rw [List.cons_append, readFrom_plain noQuote noEscape, if_neg printed]
      exact ih.mono (Nat.le_succ _)

end StringLiteral

end GraphQuery
