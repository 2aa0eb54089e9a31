import GraphQuery.Json.Fault

/-!
# String literals in JSON text

`StringLiteral.read` decodes the characters up to the closing quote; `StringLiteral.skip` only finds
the closing quote, so it does not mind surrogates that stand alone.
-/

namespace GraphQuery.StringLiteral

/-- The value of a hexadecimal digit. -/
def hexValue? (c : Char) : Option Nat :=
  if '0' ≤ c ∧ c ≤ '9' then some (c.toNat - '0'.toNat)
  else if 'a' ≤ c ∧ c ≤ 'f' then some (c.toNat - 'a'.toNat + 10)
  else if 'A' ≤ c ∧ c ≤ 'F' then some (c.toNat - 'A'.toNat + 10)
  else none

/-- The 16-bit unit that four hexadecimal digits at the head of a text spell. The text has ended
when fewer than four bytes are left. -/
def unit (cs : List Char) : Except Fault Nat :=
  match (cs.take 4).mapM hexValue? with
  | some [a, b, c, d] => .ok (((a * 16 + b) * 16 + c) * 16 + d)
  | _ =>
    if (String.ofList (cs.take 4)).utf8ByteSize < 4 then .error .endInString
    else .error .invalidEscape

/-- The character that a simple escape stands for. -/
def simpleEscape? (c : Char) : Option Char :=
  if c = '"' ∨ c = '\\' ∨ c = '/' then some c
  else if c = 'b' then some (Char.ofNat 8)
  else if c = 'f' then some (Char.ofNat 12)
  else if c = 'n' then some '\n'
  else if c = 'r' then some '\r'
  else if c = 't' then some '\t'
  else none

def isTrailing (u : Nat) : Bool := decide (0xDC00 ≤ u) && decide (u ≤ 0xDFFF)

def isLeading (u : Nat) : Bool := decide (0xD800 ≤ u) && decide (u ≤ 0xDBFF)

/-- The character of a leading and a trailing surrogate. -/
def pair (leading trailing : Nat) : Char :=
  Char.ofNat ((leading - 0xD800) * 0x400 + (trailing - 0xDC00) + 0x10000)

/-- The trailing surrogate that has to follow a leading one. -/
def trailing (cs : List Char) : Except Fault Nat :=
  match cs with
  | [] => .error .endInString
  | ['\\'] => .error .endInString
  | '\\' :: 'u' :: rest => do
    let u ← unit rest
    if isTrailing u then return u else throw .loneSurrogate
  | _ => .error .endOfHexEscape

/-- Decode a literal whose opening quote has been read; `acc` holds the characters so far, the last
one first. -/
def readFrom (acc : List Char) : List Char → Except Fault (String × List Char)
  | [] => .error .endInString
  | '"' :: rest => .ok (String.ofList acc.reverse, rest)
  | ['\\'] => .error .endInString
  | '\\' :: 'u' :: rest =>
    match unit rest with
    | .error f => .error f
    | .ok u =>
      if isTrailing u then .error .loneSurrogate
      else if isLeading u then
        match trailing (rest.drop 4) with
        | .error f => .error f
        | .ok t => readFrom (pair u t :: acc) (rest.drop 10)
      else readFrom (Char.ofNat u :: acc) (rest.drop 4)
  | '\\' :: c :: rest =>
    match simpleEscape? c with
    | some c => readFrom (c :: acc) rest
    | none => .error .invalidEscape
  | c :: rest => if c.toNat < 32 then .error .controlCharacter else readFrom (c :: acc) rest
termination_by cs => cs.length
decreasing_by all_goals simp_wf <;> grind

/-- The text of a literal whose opening quote has been read. -/
def read (cs : List Char) : Except Fault (String × List Char) := readFrom [] cs

/-- What follows a literal whose opening quote has been read. -/
def skip : List Char → Except Fault (List Char)
  | [] => .error .endInString
  | '"' :: rest => .ok rest
  | ['\\'] => .error .endInString
  | '\\' :: 'u' :: rest =>
    match unit rest with
    | .error f => .error f
    | .ok _ => skip (rest.drop 4)
  | '\\' :: c :: rest =>
    match simpleEscape? c with
    | some _ => skip rest
    | none => .error .invalidEscape
  | c :: rest => if c.toNat < 32 then .error .controlCharacter else skip rest
termination_by cs => cs.length
decreasing_by all_goals simp_wf <;> grind

end GraphQuery.StringLiteral
