import ClusterRelay.Json.Range
import ClusterRelay.Json.Value
import ClusterRelay.Text.Numeral

/-!
# Tokens of JSON

A JSON text is first cut into tokens. Blanks between tokens are spaces, tabs, line feeds and
carriage returns. A string ends at its closing quote and holds no control characters; its escapes
have to be well formed, but a surrogate that an escape names may lack its partner, and then the
string denotes nothing. A number has no leading zero and no plus sign, and digits on both sides of
its point.
-/

namespace ClusterRelay.Json

/-- The tokens of JSON. -/
inductive Token where
  | leftBracket
  | rightBracket
  | leftBrace
  | rightBrace
  | comma
  | colon
  /-- `null`, `true`, `false` or a number. -/
  | scalar (v : Value)
  /-- A string, with the text that it denotes if it denotes one. -/
  | string (s : Option String)

namespace Token

/-- The characters that may stand between tokens. -/
def isSpace (c : Char) : Bool :=
  c = ' ' || c = '\t' || c = '\n' || c = '\r'

/-! ## Strings -/

/-- One piece of a string: a character, or a surrogate named by an escape. -/
inductive Piece where
  | char (c : Char)
  | surrogate (code : Nat)

/-- The piece that four hexadecimal digits name. -/
def hexPiece? (a b c d : Char) : Option Piece := do
  let a ← Text.hexValue? a
  let b ← Text.hexValue? b
  let c ← Text.hexValue? c
  let d ← Text.hexValue? d
  let code := ((a * 16 + b) * 16 + c) * 16 + d
  if 0xD800 ≤ code ∧ code ≤ 0xDFFF then some (.surrogate code) else some (.char (Char.ofNat code))

/-- The piece that one letter after a backslash names. -/
def letterPiece? : Char → Option Piece
  | '"' => some (.char '"')
  | '\\' => some (.char '\\')
  | '/' => some (.char '/')
  | 'b' => some (.char '\x08')
  | 'f' => some (.char '\x0c')
  | 'n' => some (.char '\n')
  | 'r' => some (.char '\r')
  | 't' => some (.char '\t')
  | _ => none

/-- The pieces of a string after its opening quote, and what follows its closing quote. -/
def pieces : List Char → Option (List Piece × List Char)
  | [] => none
  | '"' :: rest => some ([], rest)
  | '\\' :: 'u' :: a :: b :: c :: d :: rest => do
    let piece ← hexPiece? a b c d
    let (others, rest) ← pieces rest
    some (piece :: others, rest)
  | '\\' :: c :: rest => do
    let piece ← letterPiece? c
    let (others, rest) ← pieces rest
    some (piece :: others, rest)
  | c :: rest =>
    if c.toNat < 0x20 ∨ c = '\\' then none
    else do
      let (others, rest) ← pieces rest
      some (.char c :: others, rest)

/-- The character that a high and a low surrogate name together. -/
def paired (high low : Nat) : Char :=
  Char.ofNat (0x10000 + (high - 0xD800) * 0x400 + (low - 0xDC00))

/-- The text that the pieces of a string denote, if every surrogate has its partner. -/
def join : List Piece → Option (List Char)
  | [] => some []
  | .char c :: rest => (join rest).map (c :: ·)
  | .surrogate high :: .surrogate low :: rest =>
    if high < 0xDC00 ∧ 0xDC00 ≤ low then (join rest).map (paired high low :: ·) else none
  | .surrogate _ :: _ => none

/-! ## Numbers -/

def digitRun (cs : List Char) : List Char × List Char :=
  (cs.takeWhile Char.isDigit, cs.dropWhile Char.isDigit)

/-- Digits before the point: at least one, and no zero before another. -/
def whole? (cs : List Char) : Option (List Char × List Char) :=
  match digitRun cs with
  | ([], _) => none
  | ('0' :: _ :: _, _) => none
  | found => some found

/-- Point and digits, if there is a point. -/
def fraction? : List Char → Option (List Char × List Char)
  | '.' :: cs =>
    match digitRun cs with
    | ([], _) => none
    | found => some found
  | cs => some ([], cs)

/-- Digits of an exponent, at least one. -/
def exponentDigits? (negative : Bool) (cs : List Char) : Option (Option Int × List Char) :=
  match digitRun cs with
  | ([], _) => none
  | (digits, rest) =>
    let n : Int := Text.ofDigits digits
    some (some (if negative then -n else n), rest)

/-- An exponent, if there is one. -/
def exponent? : List Char → Option (Option Int × List Char)
  | e :: cs =>
    if e = 'e' ∨ e = 'E' then
      match cs with
      | '+' :: cs => exponentDigits? false cs
      | '-' :: cs => exponentDigits? true cs
      | cs => exponentDigits? false cs
    else some (none, e :: cs)
  | [] => some (none, [])

/-- The value of a number with these digits. -/
def numberValue (negative : Bool) (whole fraction : List Char) (exponent : Option Int) : Value :=
  let magnitude := Magnitude.ofDigits (whole.map Text.digitValue) (fraction.map Text.digitValue)
    (exponent.getD 0)
  if magnitude.overflows then .meaningless
  else if negative ∨ fraction ≠ [] ∨ exponent.isSome then .otherNumber
  else .number (Text.ofDigits whole)

/-- A number at the head of a text, without its sign. -/
def unsignedNumber? (negative : Bool) (cs : List Char) : Option (Value × List Char) := do
  let (whole, cs) ← whole? cs
  let (fraction, cs) ← fraction? cs
  let (exponent, cs) ← exponent? cs
  some (numberValue negative whole fraction exponent, cs)

/-- A number at the head of a text. -/
def number? : List Char → Option (Value × List Char)
  | '-' :: cs => unsignedNumber? true cs
  | cs => unsignedNumber? false cs

/-! ## All tokens -/

/-- The token at the head of a text that does not begin with a blank, and the rest of the text. -/
def first? : List Char → Option (Token × List Char)
  | '[' :: cs => some (.leftBracket, cs)
  | ']' :: cs => some (.rightBracket, cs)
  | '{' :: cs => some (.leftBrace, cs)
  | '}' :: cs => some (.rightBrace, cs)
  | ',' :: cs => some (.comma, cs)
  | ':' :: cs => some (.colon, cs)
  | 'n' :: 'u' :: 'l' :: 'l' :: cs => some (.scalar .null, cs)
  | 't' :: 'r' :: 'u' :: 'e' :: cs => some (.scalar (.bool true), cs)
  | 'f' :: 'a' :: 'l' :: 's' :: 'e' :: cs => some (.scalar (.bool false), cs)
  | '"' :: cs =>
    (pieces cs).map fun (found, rest) => (.string ((join found).map String.ofList), rest)
  | cs => (number? cs).map fun (v, rest) => (.scalar v, rest)

/-! ## Every token is shorter than the text it was cut from -/

theorem length_pieces {cs : List Char} {ps : List Piece} {rest : List Char}
    (h : pieces cs = some (ps, rest)) : rest.length < cs.length := by
  fun_induction pieces cs generalizing ps rest with
  | case1 => simp at h
  | case2 => simp at h; simp [h.2]
  | case3 a b c d cs ih =>
    simp only [Option.bind_eq_bind, Option.bind_eq_some_iff] at h
    obtain ⟨_, _, ⟨_, _⟩, hr, h⟩ := h
    have := ih hr
    simp at h
    simp only [List.length_cons]
    grind
  | case4 c cs _ ih =>
    simp only [Option.bind_eq_bind, Option.bind_eq_some_iff] at h
    obtain ⟨_, _, ⟨_, _⟩, hr, h⟩ := h
    have := ih hr
    simp at h
    simp only [List.length_cons]
    grind
  | case5 => simp at h
  | case6 c cs _ _ _ _ ih =>
    simp only [Option.bind_eq_bind, Option.bind_eq_some_iff] at h
    obtain ⟨⟨_, _⟩, hr, h⟩ := h
    have := ih hr
    simp at h
    simp only [List.length_cons]
    grind

theorem length_dropWhile_le (p : Char → Bool) (cs : List Char) :
    (cs.dropWhile p).length ≤ cs.length :=
  (List.dropWhile_sublist p).length_le

theorem length_dropWhile_lt {p : Char → Bool} {cs : List Char} (h : cs.takeWhile p ≠ []) :
    (cs.dropWhile p).length < cs.length := by
  have := congrArg List.length (List.takeWhile_append_dropWhile (p := p) (l := cs))
  have := List.length_pos_iff.2 h
  simp only [List.length_append] at *
  omega

theorem length_whole? {cs ds rest : List Char} (h : whole? cs = some (ds, rest)) :
    rest.length < cs.length := by
  unfold whole? digitRun at h
  split at h
  · simp at h
  · simp at h
  · next hne _ =>
    simp only [Option.some.injEq, Prod.mk.injEq] at h
    rw [← h.2]
    exact length_dropWhile_lt fun hnil => hne (cs.dropWhile Char.isDigit) (by rw [hnil])

theorem length_fraction? {cs ds rest : List Char} (h : fraction? cs = some (ds, rest)) :
    rest.length ≤ cs.length := by
  unfold fraction? digitRun at h
  split at h
  · split at h
    · simp at h
    · simp only [Option.some.injEq, Prod.mk.injEq] at h
      rw [← h.2]
      exact Nat.le_succ_of_le (length_dropWhile_le _ _)
  · simp only [Option.some.injEq, Prod.mk.injEq] at h
    simp [h.2]

theorem length_exponentDigits? {n : Bool} {cs : List Char} {e : Option Int} {rest : List Char}
    (h : exponentDigits? n cs = some (e, rest)) : rest.length ≤ cs.length := by
  unfold exponentDigits? digitRun at h
  split at h
  · simp at h
  · next hd =>
    simp only [Prod.mk.injEq] at hd
    simp only [Option.some.injEq, Prod.mk.injEq] at h
    rw [← h.2, ← hd.2]
    exact length_dropWhile_le _ _

theorem length_exponent? {cs : List Char} {e : Option Int} {rest : List Char}
    (h : exponent? cs = some (e, rest)) : rest.length ≤ cs.length := by
  unfold exponent? at h
  split at h
  · split at h
    · split at h
      all_goals have := length_exponentDigits? h; grind
    · simp only [Option.some.injEq, Prod.mk.injEq] at h
      simp [← h.2]
  · simp at h
    simp [h.2]

theorem length_number? {cs : List Char} {v : Value} {rest : List Char}
    (h : number? cs = some (v, rest)) : rest.length < cs.length := by
  have key : ∀ n cs, unsignedNumber? n cs = some (v, rest) → rest.length < cs.length := by
    intro n cs h
    simp only [unsignedNumber?, Option.bind_eq_bind, Option.bind_eq_some_iff] at h
    obtain ⟨⟨_, _⟩, hw, ⟨_, _⟩, hf, ⟨_, _⟩, he, h⟩ := h
    have := length_whole? hw
    have := length_fraction? hf
    have := length_exponent? he
    simp at h
    grind
  unfold number? at h
  split at h
  · exact Nat.lt_succ_of_lt (key _ _ h)
  · exact key _ _ h

theorem length_first? {cs : List Char} {t : Token} {rest : List Char}
    (h : first? cs = some (t, rest)) : rest.length < cs.length := by
  unfold first? at h
  split at h
  case h_10 =>
    simp only [Option.map_eq_some_iff] at h
    obtain ⟨⟨_, _⟩, hp, h⟩ := h
    have := length_pieces hp
    simp at h
    grind
  case h_11 =>
    simp only [Option.map_eq_some_iff] at h
    obtain ⟨⟨_, _⟩, hp, h⟩ := h
    have := length_number? hp
    simp at h
    grind
  all_goals
    simp only [Option.some.injEq, Prod.mk.injEq] at h
    simp only [← h.2, List.length_cons]
    omega

def ofChars (cs : List Char) : Option (List Token) :=
  match _hc : cs.dropWhile isSpace with
  | [] => some []
  | c :: rest =>
    match _hf : first? (c :: rest) with
    | none => none
    | some (t, rest) => (ofChars rest).map (t :: ·)
termination_by cs.length
decreasing_by
  have := length_first? _hf
  have := _hc ▸ length_dropWhile_le isSpace cs
  omega

end Token

end ClusterRelay.Json
