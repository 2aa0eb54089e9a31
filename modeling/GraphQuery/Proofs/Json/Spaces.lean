import GraphQuery.Json.Spaces
import GraphQuery.Proofs.Json.StringLiteral
import Mathlib.Data.List.Forall2

/-!
# Compact text has no spaces to leave out

Text that is written token by token is read token by token, so leaving out spaces can be looked at piece by
piece. Compact text comes through as it is.
-/

namespace GraphQuery.Json

/-- The first characters are left as the second ones, whatever stands behind them. -/
def Squeezes (cs ds : List Char) : Prop :=
  ∀ rest, squeeze .outside (cs ++ rest) = ds ++ squeeze .outside rest

/-- A character that is no space and opens no literal. -/
def isSolid (c : Char) : Bool := c != ' ' && c != '"'

/-- Text of characters that come through as they are. -/
abbrev Solid (cs : List Char) : Prop := ∀ c ∈ cs, isSolid c = true

theorem solid_of_all {cs : List Char} (all : cs.all isSolid = true) : Solid cs := List.all_eq_true.mp all

namespace Squeezes

variable {as bs cs ds : List Char}

theorem nil : Squeezes [] [] := fun _ => rfl

theorem append (first : Squeezes as bs) (second : Squeezes cs ds) : Squeezes (as ++ cs) (bs ++ ds) := by
  intro rest
  rw [List.append_assoc, first, second, List.append_assoc]

theorem space : Squeezes [' '] [] := fun _ => rfl

theorem of_solid {cs : List Char} (solid : Solid cs) : Squeezes cs cs := by
  induction cs with
  | nil => exact nil
  | cons c cs ih =>
      have others := ih fun d member => solid d (List.mem_cons_of_mem c member)
      have here := solid c List.mem_cons_self
      simp only [isSolid, Bool.and_eq_true, bne_iff_ne, ne_eq] at here
      intro rest
      rw [List.cons_append, squeeze, if_neg fun both => here.1 both.2, TextPlace.behind, if_neg here.2, others,
        List.cons_append]

theorem single {c : Char} (solid : isSolid c = true) : Squeezes [c] [c] :=
  of_solid (List.forall_mem_singleton.mpr solid)

theorem before_space {c : Char} (solid : isSolid c = true) : Squeezes [c, ' '] [c] :=
  (single solid).append space

theorem behind_space {c : Char} (solid : isSolid c = true) : Squeezes [' ', c] [c] :=
  space.append (single solid)

/-- A literal is left as it is. -/
theorem quote (s : String) : Squeezes (Json.quote s).toList (Json.quote s).toList := by
  have inside {cs : List Char} (unclosed : Unclosed cs) (rest : List Char) :
      squeeze .literal (cs ++ rest) = cs ++ squeeze .literal rest := by
    induction unclosed with
    | nil => rfl
    | plain noQuote noEscape _ ih =>
        rw [List.cons_append, squeeze, if_neg nofun, TextPlace.behind, if_neg noEscape, if_neg noQuote, ih,
          List.cons_append]
    | escape c _ ih =>
        rw [List.cons_append, List.cons_append, squeeze, if_neg nofun]
        show _ :: squeeze .escaped (c :: _) = _
        rw [squeeze, if_neg nofun]
        show _ :: c :: squeeze .literal _ = _
        rw [ih]
        rfl
  intro rest
  rw [Json.quote, String.toList_ofList, List.cons_append, List.cons_append, List.append_assoc]
  show '"' :: squeeze .literal (_ ++ '"' :: rest) = _
  rw [inside (unclosed_escaped s.toList)]
  show '"' :: (_ ++ '"' :: squeeze .outside rest) = _
  rw [List.cons_append, List.append_assoc]
  rfl

theorem intercalate {separator separator' : List Char} (between : Squeezes separator separator')
    {texts texts' : List (List Char)} (each : List.Forall₂ Squeezes texts texts') :
    Squeezes (separator.intercalate texts) (separator'.intercalate texts') := by
  induction each with
  | nil => exact nil
  | cons here behind ih =>
      cases behind with
      | nil => simpa [List.intercalate] using here
      | cons next more =>
          rw [List.intercalate_cons_cons, List.intercalate_cons_cons]
          exact (here.append between).append ih

end Squeezes

/-! ## Numbers -/

theorem isSolid_of_isDigit {c : Char} (digit : c.isDigit = true) : isSolid c = true := by
  have space : c ≠ ' ' := by
    rintro rfl
    exact absurd digit (by decide)
  have quote : c ≠ '"' := by
    rintro rfl
    exact absurd digit (by decide)
  simp [isSolid, space, quote]

theorem solid_toDigits (n : Nat) : Solid (Nat.toDigits 10 n) := fun _ member =>
  isSolid_of_isDigit (Nat.isDigit_of_mem_toDigits (by omega) (by omega) member)

section Doubles

variable {digits : List Char}

theorem solid_writeInFull (solid : Solid digits) (leading : Int) :
    Solid (Decimal.writeInFull digits leading) := by
  have zeros (n : Nat) : Solid (List.replicate n '0') := by
    intro c member
    rw [List.eq_of_mem_replicate member]
    decide
  have point : isSolid '.' = true := by decide
  have zero : isSolid '0' = true := by decide
  unfold Decimal.writeInFull
  split
  · exact List.forall_mem_cons.mpr ⟨zero, List.forall_mem_cons.mpr ⟨point,
      List.forall_mem_append.mpr ⟨zeros _, solid⟩⟩⟩
  · dsimp only
    split
    · refine List.forall_mem_append.mpr ⟨List.forall_mem_append.mpr ⟨solid, zeros _⟩, ?_⟩
      simp [point, zero]
    · refine List.forall_mem_append.mpr ⟨?_, List.forall_mem_cons.mpr ⟨point, ?_⟩⟩
      · exact fun c member => solid c (List.mem_of_mem_take member)
      · exact fun c member => solid c (List.mem_of_mem_drop member)

theorem solid_writeScientific (solid : Solid digits) (leading : Int) :
    Solid (Decimal.writeScientific digits leading) := by
  have sign : isSolid (if leading < 0 then '-' else '+') = true := by
    split <;> decide
  refine List.forall_mem_append.mpr ⟨?_, List.forall_mem_cons.mpr ⟨by decide,
    List.forall_mem_cons.mpr ⟨sign, solid_toDigits _⟩⟩⟩
  split
  · exact solid
  · exact solid
  · obtain ⟨first, others⟩ := List.forall_mem_cons.mp solid
    exact List.forall_mem_cons.mpr ⟨first, List.forall_mem_cons.mpr ⟨by decide, others⟩⟩

end Doubles

theorem solid_text (n : Number) : Solid n.text.toList := by
  cases n with
  | int i =>
      rw [Number.text, String.toList_append, String.toList_ofList]
      refine List.forall_mem_append.mpr ⟨?_, solid_toDigits _⟩
      split <;> exact solid_of_all rfl
  | float x =>
      rw [Number.text, Decimal.Layout.write, String.toList_ofList]
      refine List.forall_mem_append.mpr ⟨?_, ?_⟩
      · split <;> exact solid_of_all rfl
      · split
        · exact solid_writeInFull (solid_toDigits _) _
        · exact solid_writeScientific (solid_toDigits _) _

/-! ## Values -/

theorem compactItems_eq_map (items : List Json) : compactItems items = items.map compact := by
  induction items with
  | nil => rfl
  | cons v rest ih => rw [compactItems, ih, List.map_cons]

theorem compactFields_eq_map (fields : List (String × Json)) :
    compactFields fields = fields.map fun field => quote field.1 ++ ":" ++ field.2.compact := by
  induction fields with
  | nil => rfl
  | cons field rest ih => rw [compactFields, ih, List.map_cons]

/-- The compact text of an entry of an object. -/
def entryText (field : String × Json) : List Char :=
  (quote field.1).toList ++ [':'] ++ field.2.compact.toList

theorem toList_compact_array (items : List Json) :
    (array items).compact.toList = ['['] ++ [','].intercalate (items.map (·.compact.toList)) ++ [']'] := by
  rw [compact, compactItems_eq_map, String.toList_append, String.toList_append, String.toList_intercalate,
    List.map_map]
  rfl

theorem toList_compact_object (fields : List (String × Json)) :
    (object fields).compact.toList = ['\x7b'] ++ [','].intercalate (fields.map entryText) ++ ['\x7d'] := by
  have entry : (String.toList ∘ fun field : String × Json => quote field.1 ++ ":" ++ field.2.compact) =
      entryText := by
    funext field
    rw [Function.comp_apply, String.toList_append, String.toList_append]
    rfl
  rw [compact, compactFields_eq_map, String.toList_append, String.toList_append, String.toList_intercalate,
    List.map_map, entry]
  rfl

namespace Squeezes

/-- An array is left as its compact text if its items are, whatever is left as the comma between them. -/
theorem array {separator : List Char} (comma : Squeezes separator [',']) {written : List (List Char)}
    {items : List Json} (each : List.Forall₂ (fun cs v => Squeezes cs v.compact.toList) written items) :
    Squeezes (['['] ++ separator.intercalate written ++ [']']) (Json.array items).compact.toList := by
  rw [toList_compact_array]
  have inside := comma.intercalate (List.forall₂_map_right_iff.mpr each)
  exact ((single (by decide)).append inside).append (single (by decide))

/-- An object is left as its compact text if its entries are. -/
theorem object {opening closing separator : List Char} (opens : Squeezes opening ['\x7b'])
    (closes : Squeezes closing ['\x7d']) (comma : Squeezes separator [',']) {written : List (List Char)}
    {fields : List (String × Json)}
    (each : List.Forall₂ (fun cs field => Squeezes cs (entryText field)) written fields) :
    Squeezes (opening ++ separator.intercalate written ++ closing) (Json.object fields).compact.toList := by
  rw [toList_compact_object]
  exact (opens.append (comma.intercalate (List.forall₂_map_right_iff.mpr each))).append closes

end Squeezes

/-- Compact text is left as it is. -/
theorem squeezes_compact (v : Json) : Squeezes v.compact.toList v.compact.toList := by
  have comma : Squeezes [','] [','] := .single (by decide)
  induction v using Json.induction with
  | null => exact .of_solid (solid_of_all rfl)
  | bool b => cases b <;> exact .of_solid (solid_of_all rfl)
  | number n => exact .of_solid (solid_text n)
  | string s => exact .quote s
  | array items ih =>
      have written := Squeezes.array comma (List.forall₂_map_left_iff.mpr (List.forall₂_same.mpr ih))
      rwa [← toList_compact_array] at written
  | object fields ih =>
      have entry : ∀ field ∈ fields, Squeezes (entryText field) (entryText field) := fun (name, v) member =>
        ((Squeezes.quote name).append (.single (by decide))).append (ih name v member)
      have written := Squeezes.object (.single (by decide)) (.single (by decide)) comma
        (List.forall₂_map_left_iff.mpr (List.forall₂_same.mpr entry))
      rwa [← toList_compact_object] at written

/-- Leaving out spaces gives a text that is made so piece by piece. -/
theorem Squeezes.withoutSpaces {cs : List Char} {text : String} (squeezes : Squeezes cs text.toList) :
    withoutSpaces (String.ofList cs) = text := by
  have all := squeezes []
  rw [List.append_nil, squeeze, List.append_nil] at all
  rw [Json.withoutSpaces, String.toList_ofList, all, String.ofList_toList]

end GraphQuery.Json
