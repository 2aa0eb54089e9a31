import GraphQuery.Json.StringLiteral
import GraphQuery.Json.Text

/-!
# String literals are read back

Reading decodes what `Json.quote` writes: every escape stands for the character it was written for,
and what stands behind the closing quote is left. No escape closes the literal that it stands in.
-/

namespace GraphQuery.Json

/-- Text in a literal that does not close it. -/
inductive Unclosed : List Char → Prop
  | nil : Unclosed []
  | plain {c : Char} {cs : List Char} : c ≠ '"' → c ≠ '\\' → Unclosed cs → Unclosed (c :: cs)
  | escape (c : Char) {cs : List Char} : Unclosed cs → Unclosed ('\\' :: c :: cs)

theorem Unclosed.hexDigit (n : Nat) {cs : List Char} (unclosed : Unclosed cs) :
    Unclosed (Json.hexDigit n :: cs) := by
  have digits : ∀ m, m < 16 →
      (Nat.toDigits 16 m).headD '0' ≠ '"' ∧ (Nat.toDigits 16 m).headD '0' ≠ '\\' := by decide
  have digit := digits (n % 16) (Nat.mod_lt n (by omega))
  exact .plain digit.1 digit.2 unclosed

theorem unclosed_escape (c : Char) {cs : List Char} (unclosed : Unclosed cs) :
    Unclosed (escape c ++ cs) := by
  fun_cases escape c with
  | case8 =>
      -- A control character is escaped by its number.
      have digits := (unclosed.hexDigit c.toNat).hexDigit (c.toNat / 16)
      exact .escape 'u' (.plain (by decide) (by decide) (.plain (by decide) (by decide) digits))
  | case9 noQuote noEscape => exact .plain noQuote noEscape unclosed
  | _ => exact .escape _ unclosed

theorem unclosed_escaped (s : List Char) : Unclosed (s.flatMap escape) := by
  induction s with
  | nil => exact .nil
  | cons c s ih => exact unclosed_escape c ih

end GraphQuery.Json

namespace GraphQuery.StringLiteral

/-- A digit is read as its value. -/
theorem hexValue?_hexDigit (n : Nat) : hexValue? (Json.hexDigit n) = some (n % 16) := by
  have digits : ∀ m, m < 16 → hexValue? ((Nat.toDigits 16 m).headD '0') = some m := by decide
  exact digits (n % 16) (Nat.mod_lt n (by omega))

/-- Two digits spell a number below 256. -/
theorem unit_hexDigits {n : Nat} (small : n < 256) (rest : List Char) :
    unit ('0' :: '0' :: Json.hexDigit (n / 16) :: Json.hexDigit n :: rest) = .ok n := by
  have zero : hexValue? '0' = some 0 := by decide
  have read : (['0', '0', Json.hexDigit (n / 16), Json.hexDigit n]).mapM hexValue? =
      some [0, 0, n / 16 % 16, n % 16] := by
    simp [zero, hexValue?_hexDigit]
  have value : ((0 * 16 + 0) * 16 + n / 16 % 16) * 16 + n % 16 = n := by omega
  unfold unit
  rw [show List.take 4 ('0' :: '0' :: Json.hexDigit (n / 16) :: Json.hexDigit n :: rest) =
    ['0', '0', Json.hexDigit (n / 16), Json.hexDigit n] from rfl, read]
  exact congrArg Except.ok value

/-- An escape is read as the character it was written for. -/
theorem readFrom_escape (c : Char) (acc rest : List Char) :
    readFrom acc (Json.escape c ++ rest) = readFrom (c :: acc) rest := by
  -- An escape by a letter that stands for the character.
  have letter : ∀ l d, c = d → l ≠ 'u' → simpleEscape? l = some d →
      readFrom acc (['\\', l] ++ rest) = readFrom (c :: acc) rest := by
    intro l d same noNumber stands
    rw [List.cons_append, List.singleton_append, readFrom, stands, same]
    exact noNumber
  have numbered : ∀ n, c.toNat = n → c = Char.ofNat n := by
    intro n number
    rw [← number, Char.ofNat_toNat]
  fun_cases Json.escape c with
  | case1 quote => exact letter '"' _ quote (by decide) (by decide)
  | case2 _ backslash => exact letter '\\' _ backslash (by decide) (by decide)
  | case3 _ _ lineFeed => exact letter 'n' _ lineFeed (by decide) (by decide)
  | case4 _ _ _ carriageReturn => exact letter 'r' _ carriageReturn (by decide) (by decide)
  | case5 _ _ _ _ tab => exact letter 't' _ tab (by decide) (by decide)
  | case6 _ _ _ _ _ backspace =>
      exact letter 'b' _ (numbered 8 backspace) (by decide) (by decide)
  | case7 _ _ _ _ _ _ formFeed =>
      exact letter 'f' _ (numbered 12 formFeed) (by decide) (by decide)
  | case8 _ _ _ _ _ _ _ control =>
      have spelled := unit_hexDigits (show c.toNat < 256 by omega) rest
      have noTrailing : isTrailing c.toNat = false := by
        unfold isTrailing
        simp only [Bool.and_eq_false_iff, decide_eq_false_iff_not]
        omega
      have noLeading : isLeading c.toNat = false := by
        unfold isLeading
        simp only [Bool.and_eq_false_iff, decide_eq_false_iff_not]
        omega
      show readFrom acc ('\\' :: 'u' :: '0' :: '0' :: Json.hexDigit (c.toNat / 16) ::
        Json.hexDigit c.toNat :: rest) = _
      rw [readFrom, spelled]
      show (if isTrailing c.toNat then _ else _) = _
      rw [noTrailing, noLeading, Char.ofNat_toNat]
      rfl
  | case9 noQuote noEscape _ _ _ _ _ printed =>
      rw [List.singleton_append, readFrom, if_neg printed]
      · exact noQuote
      · exact fun escapes _ => noEscape escapes
      · exact fun _ escapes _ => noEscape escapes
      · exact fun _ _ escapes _ => noEscape escapes

/-- A literal is read to its closing quote. -/
theorem readFrom_escaped (s acc rest : List Char) :
    readFrom acc (s.flatMap Json.escape ++ '"' :: rest) =
      .ok (String.ofList (acc.reverse ++ s), rest) := by
  induction s generalizing acc with
  | nil => rw [List.flatMap_nil, List.nil_append, readFrom, List.append_nil]
  | cons c s ih =>
      rw [List.flatMap_cons, List.append_assoc, readFrom_escape, ih, List.reverse_cons,
        List.append_assoc]
      rfl

/-- A string is read back from its literal, and what stands behind it is left. -/
theorem read_escaped (s : String) (rest : List Char) :
    read (s.toList.flatMap Json.escape ++ '"' :: rest) = .ok (s, rest) := by
  rw [read, readFrom_escaped, List.reverse_nil, List.nil_append, String.ofList_toList]

end GraphQuery.StringLiteral
