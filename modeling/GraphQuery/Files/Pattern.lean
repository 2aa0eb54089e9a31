import GraphQuery.Text.Split

/-!
# Path patterns

A pattern is a path whose names may hold wildcards: `?` for one character, `*` for any run of them,
`[…]` for one of a set and `[!…]` for one outside it. A name `**` stands for any number of folders.
Braces are characters like others.
-/

namespace GraphQuery

/-- Why a text is no pattern. -/
inductive PatternFault
  | badSet
  | tooManyStars
  | lonelyDeep
  deriving DecidableEq, Repr

def PatternFault.message : PatternFault → String
  | badSet => "invalid range pattern"
  | tooManyStars => "wildcards are either regular `*` or recursive `**`"
  | lonelyDeep => "recursive wildcards must form a single path component"

/-- A text is no pattern; positions count characters from zero. -/
structure PatternError where
  position : Nat
  fault : PatternFault
  deriving DecidableEq, Repr

def PatternError.message (e : PatternError) : String :=
  "Pattern syntax error near position " ++ toString e.position ++ ": " ++ e.fault.message

/-- A part of a name in a pattern. -/
inductive Wildcard
  | char (c : Char)
  | anyChar
  | anyRun
  /-- A character in one of the ranges. -/
  | oneOf (ranges : List (Char × Char))
  /-- A character in none of the ranges. -/
  | noneOf (ranges : List (Char × Char))
  /-- Any number of folders. -/
  | deep

namespace Wildcard

/-- A text before and behind the first closing bracket. -/
def untilBracket : List Char → Option (List Char × List Char)
  | [] => none
  | c :: rest =>
    if c = ']' then some ([], rest) else (untilBracket rest).map fun (a, b) => (c :: a, b)

theorem length_of_untilBracket {cs inside rest : List Char}
    (h : untilBracket cs = some (inside, rest)) : rest.length < cs.length := by
  induction cs generalizing inside with
  | nil => simp [untilBracket] at h
  | cons c cs ih =>
    rw [untilBracket] at h
    split at h
    · simp only [Option.some.injEq, Prod.mk.injEq] at h
      simp [← h.2]
    · simp only [Option.map_eq_some_iff, Prod.mk.injEq] at h
      obtain ⟨⟨a, b⟩, hb, -, rfl⟩ := h
      have : b.length < cs.length := ih hb
      simp only [List.length_cons]
      omega

/-- The ranges of a set: `a-z`, or a character that stands for itself. -/
def ranges : List Char → List (Char × Char)
  | a :: '-' :: b :: rest => (a, b) :: ranges rest
  | a :: rest => (a, a) :: ranges rest
  | [] => []

/-- The set behind an opening bracket, which holds at least one character, and what follows it. -/
def set? : List Char → Option (Wildcard × List Char)
  | '!' :: c :: rest => (untilBracket rest).map fun (a, b) => (noneOf (ranges (c :: a)), b)
  | '!' :: [] => none
  | c :: rest => (untilBracket rest).map fun (a, b) => (oneOf (ranges (c :: a)), b)
  | [] => none

theorem length_of_set? {cs rest : List Char} {w : Wildcard} (h : set? cs = some (w, rest)) :
    rest.length < cs.length := by
  fun_cases set? cs with
  | case1 c more =>
    simp only [set?, Option.map_eq_some_iff, Prod.mk.injEq] at h
    obtain ⟨⟨a, b⟩, hb, -, rfl⟩ := h
    have : b.length < more.length := length_of_untilBracket hb
    simp only [List.length_cons]
    omega
  | case2 => simp [set?] at h
  | case3 c more h₁ h₂ =>
    rw [set?] at h
    · simp only [Option.map_eq_some_iff, Prod.mk.injEq] at h
      obtain ⟨⟨a, b⟩, hb, -, rfl⟩ := h
      have : b.length < more.length := length_of_untilBracket hb
      simp only [List.length_cons]
      omega
    · exact h₁
    · exact h₂
  | case4 => simp [set?] at h

/-- The wildcards of a text that starts at a position. `**` must follow a slash or the start of the
text, and go on with a slash or end it. -/
def read (position : Nat) (afterSlash : Bool) : List Char → Except PatternError (List Wildcard)
  | [] => .ok []
  | '?' :: rest => (read (position + 1) false rest).map (anyChar :: ·)
  | '*' :: '*' :: '*' :: _ => .error ⟨position + 2, .tooManyStars⟩
  | '*' :: '*' :: rest =>
    if !afterSlash then .error ⟨position - 1, .lonelyDeep⟩
    else match rest with
      | [] => .ok [deep]
      | '/' :: rest => (read (position + 3) true rest).map (deep :: ·)
      | _ => .error ⟨position + 2, .lonelyDeep⟩
  | '*' :: rest => (read (position + 1) false rest).map (anyRun :: ·)
  | '[' :: rest =>
    match h : set? rest with
    | none => .error ⟨position, .badSet⟩
    | some (set, more) =>
      have := length_of_set? h
      (read (position + 1 + (rest.length - more.length)) false more).map (set :: ·)
  | c :: rest => (read (position + 1) (c = '/') rest).map (char c :: ·)
termination_by cs => cs.length

/-- The text of wildcards that are all plain characters. -/
def plain? : List Wildcard → Option (List Char)
  | [] => some []
  | char c :: rest => (plain? rest).map (c :: ·)
  | _ => none

def inRanges (ranges : List (Char × Char)) (c : Char) : Bool :=
  ranges.any fun (least, greatest) => decide (least ≤ c) && decide (c ≤ greatest)

/-- A character fits a wildcard for one character. -/
def fitsChar : Wildcard → Char → Bool
  | char d, c => c == d
  | anyChar, _ => true
  | oneOf ranges, c => inRanges ranges c
  | noneOf ranges, c => !inRanges ranges c
  | anyRun, _ => false
  | deep, _ => false

/-- For each end of a name, the whole of it first: one more character, which fits the wildcard, and
behind it an end of which `below` says that it fits. -/
def charFits (w : Wildcard) : List Char → List Bool → List Bool
  | c :: cs, _ :: below => (w.fitsChar c && below.headD false) :: charFits w cs below
  | _, _ => [false]

/-- For each end of a name: that end, or a shorter one, is one of which `below` says that it fits. -/
def anyShorterFits : List Bool → List Bool
  | [] => []
  | b :: below =>
    let shorter := anyShorterFits below
    (b || shorter.headD false) :: shorter

/-- For each end of a name, the whole of it first, whether it fits wildcards. One pass over the name
for each wildcard is enough, so a name that nearly fits many runs takes no longer than others. -/
def endsThatFit (ws : List Wildcard) (cs : List Char) : List Bool :=
  match ws with
  | [] => cs.map (fun _ => false) ++ [true]
  | anyRun :: rest => anyShorterFits (endsThatFit rest cs)
  | deep :: rest => anyShorterFits (endsThatFit rest cs)
  | w :: rest => charFits w cs (endsThatFit rest cs)

/-- A name fits wildcards. -/
def fits (ws : List Wildcard) (cs : List Char) : Bool := (endsThatFit ws cs).headD false

end Wildcard

/-- One name of a pattern. -/
inductive PatternName
  /-- A name without wildcards. -/
  | exactly (name : String)
  | shaped (wildcards : List Wildcard)
  /-- Any number of folders. -/
  | anyFolders

def PatternName.ofWildcards (ws : List Wildcard) : PatternName :=
  match ws, Wildcard.plain? ws with
  | [.deep], _ => anyFolders
  | _, some cs => exactly (String.ofList cs)
  | ws, none => shaped ws

/-- A file name fits a name of a pattern. -/
def PatternName.fits : PatternName → String → Bool
  | exactly expected, name => expected == name
  | shaped ws, name => Wildcard.fits ws name.toList
  | anyFolders, _ => true

/-- A pattern for paths. -/
structure FilePattern where
  fromRoot : Bool
  names : List PatternName
  /-- Only folders fit. -/
  foldersOnly : Bool

namespace FilePattern

/-- The text is meant as a pattern. -/
def isMeant (text : String) : Bool :=
  text.toList.any fun c => c == '*' || c == '?' || c == '[' || c == '\x7b'

/-- Of names for any number of folders that follow each other one is enough. -/
def collapse : List PatternName → List PatternName
  | .anyFolders :: rest => match collapse rest with
    | .anyFolders :: rest => .anyFolders :: rest
    | rest => .anyFolders :: rest
  | name :: rest => name :: collapse rest
  | [] => []

/-- Names between slashes; a slash at the end ends the last one. -/
def pieces (cs : List Char) : List (List Char) :=
  let all := Text.pieces '/' cs
  if all.getLast? == some [] then all.dropLast else all

/-- Read a pattern: the text as a whole first, for its faults, and then name by name. -/
def read (text : String) : Except PatternError FilePattern := do
  let cs := text.toList
  let _ ← Wildcard.read 0 true cs
  let fromRoot := cs.head? == some '/'
  let names ← (pieces (if fromRoot then cs.tail else cs)).mapM (Wildcard.read 0 true)
  return ⟨fromRoot, collapse (names.map PatternName.ofWildcards), cs.getLast? == some '/'⟩

end FilePattern

end GraphQuery
