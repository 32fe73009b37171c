import ClusterRelay.Json.Printer
import ClusterRelay.Json.Token
import ClusterRelay.Proofs.Numerals

/-!
# The tokens of a document

A document is written as characters and read as tokens, and in between there are blanks: the layout
puts them where it likes, and the reader drops them wherever they are. So the tokens of a document
have a definition of their own that knows of no layout, `Document.tokens`, and the main statement is
that the characters of every layout are cut into them.

Each token is found at the head of a text whose rest is not known. Brackets, words and strings end
by themselves. A numeral does not: what follows must not continue it, and that is why the rest is
asked for `EndsNumber` all along. The printer always goes on with a comma, a bracket or a blank.

Only one token can lose something on the way, a number that exceeds every double. The numbers of
`Document.Fits` have sixty-four bits and come back exactly.
-/

namespace ClusterRelay

namespace Json

/-! ## The range of numbers -/

theorem le_foldl_digits (cs : List Char) (n : Nat) :
    n ≤ cs.foldl (fun n c => 10 * n + Text.digitValue c) n := by
  induction cs generalizing n with
  | nil => exact Nat.le_refl n
  | cons c cs ih =>
      have hrest := ih (10 * n + Text.digitValue c)
      rw [List.foldl_cons]
      omega

/-- As long as they fit sixty-four bits, the digits make up the number that they denote. -/
theorem foldl_wholeDigit {cs : List Char} {n : Nat} {e : Int}
    (hfits : cs.foldl (fun n c => 10 * n + Text.digitValue c) n ≤ maxSignificand) :
    (cs.map Text.digitValue).foldl Magnitude.wholeDigit ⟨n, e, false⟩ =
      ⟨cs.foldl (fun n c => 10 * n + Text.digitValue c) n, e, false⟩ := by
  induction cs generalizing n with
  | nil => rfl
  | cons c cs ih =>
      have hnow := le_foldl_digits cs (10 * n + Text.digitValue c)
      rw [List.foldl_cons] at hfits
      have hstep : Magnitude.wholeDigit ⟨n, e, false⟩ (Text.digitValue c) =
          ⟨10 * n + Text.digitValue c, e, false⟩ := by
        have hroom : ¬ n * 10 + Text.digitValue c > maxSignificand := by omega
        simp only [Magnitude.wholeDigit, hroom, decide_false, Bool.or_false, Bool.false_eq_true,
          if_false, Nat.mul_comm]
      rw [List.map_cons, List.foldl_cons, List.foldl_cons, hstep]
      exact ih hfits

theorem roundToDouble_le (n : Nat) : roundToDouble n ≤ 2 * n := by
  simp only [roundToDouble]
  split
  · omega
  · next hbits =>
      have hn : n ≠ 0 := by
        rintro rfl
        exact hbits (by decide)
      have hunit : 1 <<< (n.log2 + 1 - 53) ≤ n := by
        rw [Nat.one_shiftLeft]
        have hlog := Nat.log2_self_le hn
        have hpow : 2 ^ (n.log2 + 1 - 53) ≤ 2 ^ n.log2 :=
          Nat.pow_le_pow_right (by omega) (by omega)
        omega
      repeat' split
      all_goals omega

theorem overflows_of_le {n : Nat} (hn : n ≤ maxSignificand) :
    Magnitude.overflows ⟨n, 0, false⟩ = false := by
  have hround := roundToDouble_le n
  have hone : roundToDouble (Nat.pow 10 0) = 1 := by decide
  have hbound : 2 * maxSignificand < overflowBound := by decide
  show (if n = 0 then false else if 308 < 0 then true
    else decide (overflowBound ≤ roundToDouble n * roundToDouble (Nat.pow 10 0))) = false
  rw [hone]
  split
  · rfl
  · rw [if_neg (by omega), decide_eq_false_iff_not]
    omega

/-! ## One token -/

/-- What comes does not continue a numeral. -/
def EndsNumber (rest : List Char) : Prop :=
  ∀ c ∈ rest.head?, c.isDigit = false ∧ c ≠ '.' ∧ c ≠ 'e' ∧ c ≠ 'E'

namespace Token

variable {rest : List Char}

theorem digitRun_append {ds : List Char} (hds : ∀ c ∈ ds, c.isDigit = true)
    (hrest : EndsNumber rest) : digitRun (ds ++ rest) = (ds, rest) := by
  have hstop : rest.takeWhile Char.isDigit = [] ∧ rest.dropWhile Char.isDigit = rest := by
    cases rest with
    | nil => exact ⟨rfl, rfl⟩
    | cons c cs =>
        have hc := (hrest c rfl).1
        have hneg : ¬ c.isDigit = true := by simp [hc]
        exact ⟨List.takeWhile_cons_of_neg hneg, List.dropWhile_cons_of_neg hneg⟩
  rw [digitRun, List.takeWhile_append_of_pos hds, List.dropWhile_append_of_pos hds, hstop.1,
    hstop.2, List.append_nil]

theorem whole?_decimal (n : Nat) (hrest : EndsNumber rest) :
    whole? ((Text.decimal n).toList ++ rest) = some ((Text.decimal n).toList, rest) := by
  rw [whole?, digitRun_append (fun c => Text.isDigit_of_mem_decimal) hrest]
  split
  · next heq => exact absurd (congrArg Prod.fst heq) (Text.decimal_ne_nil n)
  · next d ds _ heq =>
      exact absurd (congrArg Prod.fst heq) (Text.decimal_no_leading_zero n d ds)
  · rfl

theorem fraction?_of_ends (hrest : EndsNumber rest) : fraction? rest = some ([], rest) := by
  unfold fraction?
  split
  · exact absurd rfl (hrest '.' rfl).2.1
  · rfl

theorem exponent?_of_ends (hrest : EndsNumber rest) : exponent? rest = some (none, rest) := by
  cases rest with
  | nil => rfl
  | cons c cs =>
      obtain ⟨-, -, he, hE⟩ := hrest c rfl
      simp only [exponent?, he, hE, or_self, if_false]

theorem numberValue_decimal {n : Nat} (hn : n ≤ maxSignificand) :
    numberValue false (Text.decimal n).toList [] none = .number n := by
  have hdigits : (Text.decimal n).toList.foldl (fun n c => 10 * n + Text.digitValue c) 0 = n :=
    Text.ofDigits_decimal n
  have hmagnitude : Magnitude.ofDigits ((Text.decimal n).toList.map Text.digitValue) [] 0 =
      ⟨n, 0, false⟩ := by
    rw [Magnitude.ofDigits, foldl_wholeDigit (by rw [hdigits]; exact hn), hdigits]
    rfl
  simp only [numberValue, List.map_nil, Option.getD_none, hmagnitude, overflows_of_le hn,
    Bool.false_eq_true, if_false, ne_eq, not_true, Option.isSome_none, or_self,
    Text.ofDigits_decimal]

theorem unsignedNumber?_decimal {n : Nat} (hn : n ≤ maxSignificand) (hrest : EndsNumber rest) :
    unsignedNumber? false ((Text.decimal n).toList ++ rest) = some (.number n, rest) := by
  simp only [unsignedNumber?, whole?_decimal n hrest, fraction?_of_ends hrest,
    exponent?_of_ends hrest, numberValue_decimal hn, Option.bind_eq_bind, Option.bind_some]

/-- A text that begins with a digit begins with a number. -/
theorem first?_of_isDigit {c : Char} {cs : List Char} (hc : c.isDigit = true) :
    first? (c :: cs) =
      (unsignedNumber? false (c :: cs)).map fun (v, rest) => (.scalar v, rest) := by
  have hne (d : Char) (hd : d.isDigit = false) : c ≠ d := by
    rintro rfl
    rw [hd] at hc
    cases hc
  unfold first?
  split
  case h_11 =>
    unfold number?
    split
    · next heq => exact absurd (List.cons.inj heq).1 (hne '-' (by decide))
    · rfl
  all_goals
    next heq => exact absurd (List.cons.inj heq).1 (hne _ (by decide))

theorem first?_decimal {n : Nat} (hn : n ≤ maxSignificand) (hrest : EndsNumber rest) :
    first? ((Text.decimal n).toList ++ rest) = some (.scalar (.number n), rest) := by
  have hvalue := unsignedNumber?_decimal hn hrest
  obtain ⟨d, ds, hd⟩ := List.exists_cons_of_ne_nil (Text.decimal_ne_nil n)
  have hdigit : d.isDigit = true := Text.isDigit_of_mem_decimal (n := n) (by rw [hd]; simp)
  rw [hd, List.cons_append] at hvalue ⊢
  rw [first?_of_isDigit hdigit, hvalue]
  rfl

theorem join_map_char (cs : List Char) : join (cs.map Piece.char) = some cs := by
  induction cs with
  | nil => rfl
  | cons c cs ih => rw [List.map_cons, join, ih, Option.map_some]

theorem hexadecimal_control : ∀ n < 0x20, (Text.hexadecimal 4 n).toList =
    ['0', '0', (n / 16).digitChar, (n % 16).digitChar] := by
  decide

theorem hexPiece?_control {n : Nat} (hn : n < 0x20) :
    hexPiece? '0' '0' (n / 16).digitChar (n % 16).digitChar = some (.char (Char.ofNat n)) := by
  have hvalue : ∀ d < 16, Text.hexValue? d.digitChar = some d := by decide
  have hzero : Text.hexValue? '0' = some 0 := by decide
  have hcode : ((0 * 16 + 0) * 16 + n / 16) * 16 + n % 16 = n := by omega
  simp only [hexPiece?, hzero, hvalue (n / 16) (by omega), hvalue (n % 16) (by omega),
    Option.bind_eq_bind, Option.bind_some, hcode]
  rw [if_neg (by omega)]

/-- A character is written in one of three ways: by a letter, by its code, or as it stands. -/
theorem escaped_cases (c : Char) :
    (∃ l, escaped c = ['\\', l] ∧ l ≠ 'u' ∧ letterPiece? l = some (.char c)) ∨
    (c.toNat < 0x20 ∧ escaped c =
      ['\\', 'u', '0', '0', (c.toNat / 16).digitChar, (c.toNat % 16).digitChar]) ∨
    (c ≠ '"' ∧ c ≠ '\\' ∧ 0x20 ≤ c.toNat ∧ escaped c = [c]) := by
  by_cases hletter : c ∈ ['"', '\\', '\x08', '\x0c', '\n', '\r', '\t']
  · refine .inl ?_
    simp only [List.mem_cons, List.not_mem_nil, or_false] at hletter
    rcases hletter with rfl | rfl | rfl | rfl | rfl | rfl | rfl
    all_goals exact ⟨_, rfl, by decide, rfl⟩
  · simp only [List.mem_cons, List.not_mem_nil, or_false, not_or] at hletter
    obtain ⟨hquote, hbackslash, h8, hc, hn, hr, ht⟩ := hletter
    simp only [escaped, hquote, hbackslash, h8, hc, hn, hr, ht, if_false]
    split
    · next hcontrol =>
        rw [hexadecimal_control c.toNat hcontrol]
        exact .inr (.inl ⟨hcontrol, rfl⟩)
    · next hplain => exact .inr (.inr ⟨hquote, hbackslash, by omega, rfl⟩)

/-- What is written for a character is read as that character. -/
theorem pieces_escaped (c : Char) (cs : List Char) :
    pieces (escaped c ++ cs) = (pieces cs).map fun (ps, rest) => (.char c :: ps, rest) := by
  rcases escaped_cases c with ⟨l, hwritten, hl, hpiece⟩ | ⟨hcontrol, hwritten⟩ |
    ⟨hquote, hbackslash, hplain, hwritten⟩
  · rw [hwritten]
    show pieces ('\\' :: l :: cs) = _
    rw [pieces, hpiece]
    · cases pieces cs <;> rfl
    · exact fun _ _ _ _ _ hu => absurd hu hl
  · rw [hwritten]
    show pieces ('\\' :: 'u' :: '0' :: '0' :: _ :: _ :: cs) = _
    rw [pieces, hexPiece?_control hcontrol, Char.ofNat_toNat]
    cases pieces cs <;> rfl
  · rw [hwritten, List.singleton_append, pieces, if_neg (by simp [hbackslash]; omega)]
    · cases pieces cs <;> rfl
    · exact hquote
    · exact fun _ _ _ _ _ hc => absurd hc hbackslash
    · exact fun _ _ hc => absurd hc hbackslash

theorem pieces_flatMap (cs rest : List Char) :
    pieces (cs.flatMap escaped ++ '"' :: rest) = some (cs.map Piece.char, rest) := by
  induction cs with
  | nil => rfl
  | cons c cs ih => rw [List.flatMap_cons, List.append_assoc, pieces_escaped, ih]; rfl

theorem first?_string (s : String) (rest : List Char) :
    first? (Json.string s ++ rest) = some (.string (some s), rest) := by
  have hpieces : pieces (s.toList.flatMap escaped ++ '"' :: rest) =
      some (s.toList.map Piece.char, rest) := pieces_flatMap s.toList rest
  have hcut : Json.string s ++ rest = '"' :: (s.toList.flatMap escaped ++ '"' :: rest) := by
    simp [Json.string]
  rw [hcut]
  show (pieces _).map _ = _
  rw [hpieces, Option.map_some]
  show some (string ((join (s.toList.map Piece.char)).map String.ofList), rest) = _
  rw [join_map_char, Option.map_some, String.ofList_toList]

/-! ## Texts of tokens -/

theorem first?_of_isSpace {c : Char} (hc : isSpace c = true) (cs : List Char) :
    first? (c :: cs) = none := by
  simp only [isSpace, Bool.or_eq_true, decide_eq_true_eq] at hc
  rcases hc with ((rfl | rfl) | rfl) | rfl <;> rfl

/-- Blanks in front do not matter, and then comes a token. -/
theorem ofChars_eq (cs : List Char) : ofChars cs =
    match cs.dropWhile isSpace with
    | [] => some []
    | c :: rest =>
      match first? (c :: rest) with
      | none => none
      | some (t, rest) => (ofChars rest).map (t :: ·) := by
  rw [ofChars]
  split
  · next hnil => rw [hnil]
  · next c rest hcons =>
      rw [hcons]
      split
      · next hnone => simp only [hnone]
      · next t rest' hsome => simp only [hsome]

theorem ofChars_blank {blank : List Char} (hblank : ∀ c ∈ blank, isSpace c = true)
    (cs : List Char) : ofChars (blank ++ cs) = ofChars cs := by
  rw [ofChars_eq, List.dropWhile_append_of_pos hblank, ← ofChars_eq]

theorem ofChars_of_first? {cs : List Char} {t : Token} (h : first? cs = some (t, rest)) :
    ofChars cs = (ofChars rest).map (t :: ·) := by
  cases cs with
  | nil => cases h
  | cons c cs =>
      have hc : ¬ isSpace c = true := fun hspace => by
        rw [first?_of_isSpace hspace] at h
        cases h
      rw [ofChars_eq, List.dropWhile_cons_of_neg hc]
      simp only [h]

end Token

/-- A layout that puts nothing between tokens but blanks. -/
structure Layout.Blank (layout : Layout) : Prop where
  lineBreak : ∀ level, ∀ c ∈ layout.lineBreak level, Token.isSpace c = true
  afterColon : ∀ c ∈ layout.afterColon, Token.isSpace c = true

theorem Layout.blank_compact : Layout.compact.Blank := ⟨nofun, nofun⟩

theorem Layout.blank_tall : Layout.tall.Blank := by
  refine ⟨fun level c hc => ?_, fun c hc => ?_⟩
  · rcases List.mem_cons.mp hc with rfl | hspaces
    · rfl
    · rw [List.eq_of_mem_replicate hspaces]
      rfl
  · rw [List.mem_singleton.mp hc]
    rfl

mutual

/-- The tokens of a document, in no layout in particular. -/
def Document.tokens : Document → List Token
  | .null => [.scalar .null]
  | .bool b => [.scalar (.bool b)]
  | .number n => [.scalar (.number n)]
  | .text s => [.string (some s)]
  | .array [] => [.leftBracket, .rightBracket]
  | .array (d :: ds) => .leftBracket :: (d.tokens ++ Document.itemTokens ds ++ [.rightBracket])
  | .object [] => [.leftBrace, .rightBrace]
  | .object ((name, d) :: ds) =>
    .leftBrace :: .string (some name) :: .colon ::
      (d.tokens ++ Document.memberTokens ds ++ [.rightBrace])

def Document.itemTokens : List Document → List Token
  | [] => []
  | d :: ds => .comma :: (d.tokens ++ Document.itemTokens ds)

def Document.memberTokens : List (String × Document) → List Token
  | [] => []
  | (name, d) :: ds =>
    .comma :: .string (some name) :: .colon :: (d.tokens ++ Document.memberTokens ds)

end

namespace Document

variable (layout : Layout) (level : Nat) (name : String) (d : Document) (ds : List Document)
  (ms : List (String × Document))

theorem chars_array : (array (d :: ds)).chars layout level =
    '[' :: layout.lineBreak (level + 1) ++ d.chars layout (level + 1) ++
      itemChars layout (level + 1) ds ++ layout.lineBreak level ++ [']'] := rfl

theorem chars_object : (object ((name, d) :: ms)).chars layout level =
    '{' :: layout.lineBreak (level + 1) ++ string name ++ ':' :: layout.afterColon ++
      d.chars layout (level + 1) ++ memberChars layout (level + 1) ms ++
      layout.lineBreak level ++ ['}'] := rfl

theorem itemChars_cons : itemChars layout level (d :: ds) =
    ',' :: layout.lineBreak level ++ d.chars layout level ++ itemChars layout level ds := rfl

theorem memberChars_cons : memberChars layout level ((name, d) :: ms) =
    ',' :: layout.lineBreak level ++ string name ++ ':' :: layout.afterColon ++
      d.chars layout level ++ memberChars layout level ms := rfl

theorem tokens_array : (array (d :: ds)).tokens =
    .leftBracket :: (d.tokens ++ itemTokens ds ++ [.rightBracket]) := rfl

theorem tokens_object : (object ((name, d) :: ms)).tokens =
    .leftBrace :: .string (some name) :: .colon ::
      (d.tokens ++ memberTokens ms ++ [.rightBrace]) := rfl

theorem itemTokens_cons : itemTokens (d :: ds) = .comma :: (d.tokens ++ itemTokens ds) := rfl

theorem memberTokens_cons : memberTokens ((name, d) :: ms) =
    .comma :: .string (some name) :: .colon :: (d.tokens ++ memberTokens ms) := rfl

end Document

mutual

/-- All numbers of the document have sixty-four bits. -/
def Document.Fits : Document → Prop
  | .number n => n ≤ maxSignificand
  | .array items => Document.AllFit items
  | .object members => Document.MembersFit members
  | _ => True

def Document.AllFit : List Document → Prop
  | [] => True
  | d :: ds => d.Fits ∧ Document.AllFit ds

def Document.MembersFit : List (String × Document) → Prop
  | [] => True
  | (_, d) :: ds => d.Fits ∧ Document.MembersFit ds

end

/-! ## The characters of a document -/

theorem endsNumber_of_isSpace {c : Char} (hc : Token.isSpace c = true) (cs : List Char) :
    EndsNumber (c :: cs) := by
  rintro d hd
  cases hd
  simp only [Token.isSpace, Bool.or_eq_true, decide_eq_true_eq] at hc
  rcases hc with ((rfl | rfl) | rfl) | rfl <;> decide

theorem EndsNumber.blank_append {blank rest : List Char} (hrest : EndsNumber rest)
    (hblank : ∀ c ∈ blank, Token.isSpace c = true) : EndsNumber (blank ++ rest) := by
  cases blank with
  | nil => exact hrest
  | cons c cs => exact endsNumber_of_isSpace (hblank c List.mem_cons_self) _

/-- Behind an item comes a comma, or what stands behind the items. -/
theorem endsNumber_items (layout : Layout) (level : Nat) (ds : List Document) {rest : List Char}
    (hrest : EndsNumber rest) : EndsNumber (Document.itemChars layout level ds ++ rest) := by
  cases ds with
  | nil => exact hrest
  | cons d ds => intro c hc; cases hc; decide

theorem endsNumber_members (layout : Layout) (level : Nat) (ds : List (String × Document))
    {rest : List Char} (hrest : EndsNumber rest) :
    EndsNumber (Document.memberChars layout level ds ++ rest) := by
  cases ds with
  | nil => exact hrest
  | cons d ds => intro c hc; cases hc; decide

theorem endsNumber_close (c : Char) (hc : c = ']' ∨ c = '}') (rest : List Char) :
    EndsNumber (c :: rest) := by
  intro c' hc'
  cases hc'
  rcases hc with rfl | rfl <;> decide

variable {layout : Layout}

open Token (ofChars ofChars_of_first? ofChars_blank)

mutual

/-- The characters of a document are cut into its tokens, whatever comes behind them. -/
theorem ofChars_chars (hlayout : layout.Blank) (d : Document) (level : Nat) (hfits : d.Fits)
    {rest : List Char} (hrest : EndsNumber rest) :
    ofChars (d.chars layout level ++ rest) = (ofChars rest).map (d.tokens ++ ·) := by
  match d with
  | .null => exact ofChars_of_first? rfl
  | .bool true => exact ofChars_of_first? rfl
  | .bool false => exact ofChars_of_first? rfl
  | .number n => exact ofChars_of_first? (Token.first?_decimal hfits hrest)
  | .text s => exact ofChars_of_first? (Token.first?_string s rest)
  | .array [] =>
      show ofChars ('[' :: ']' :: rest) = _
      rw [ofChars_of_first? (t := .leftBracket) rfl, ofChars_of_first? (t := .rightBracket) rfl,
        Option.map_map]
      rfl
  | .array (d :: ds) =>
      obtain ⟨hd, hds⟩ := hfits
      have hclose := endsNumber_close ']' (.inl rfl) rest
      have hbehind := hclose.blank_append (hlayout.lineBreak level)
      have hfirst := ofChars_chars hlayout d (level + 1) hd
        (endsNumber_items layout (level + 1) ds hbehind)
      have hothers := ofChars_itemChars hlayout ds (level + 1) hds hbehind
      simp only [Document.chars_array, List.cons_append, List.append_assoc, List.nil_append]
      rw [ofChars_of_first? (t := .leftBracket) rfl, ofChars_blank (hlayout.lineBreak _), hfirst,
        hothers, ofChars_blank (hlayout.lineBreak _), ofChars_of_first? (t := .rightBracket) rfl]
      simp [Document.tokens_array, Function.comp_def]
  | .object [] =>
      show ofChars ('{' :: '}' :: rest) = _
      rw [ofChars_of_first? (t := .leftBrace) rfl, ofChars_of_first? (t := .rightBrace) rfl,
        Option.map_map]
      rfl
  | .object ((name, d) :: ds) =>
      obtain ⟨hd, hds⟩ := hfits
      have hclose := endsNumber_close '}' (.inr rfl) rest
      have hbehind := hclose.blank_append (hlayout.lineBreak level)
      have hfirst := ofChars_chars hlayout d (level + 1) hd
        (endsNumber_members layout (level + 1) ds hbehind)
      have hothers := ofChars_memberChars hlayout ds (level + 1) hds hbehind
      simp only [Document.chars_object, List.cons_append, List.append_assoc, List.nil_append]
      rw [ofChars_of_first? (t := .leftBrace) rfl, ofChars_blank (hlayout.lineBreak _),
        ofChars_of_first? (Token.first?_string name _), ofChars_of_first? (t := .colon) rfl,
        ofChars_blank hlayout.afterColon, hfirst, hothers, ofChars_blank (hlayout.lineBreak _),
        ofChars_of_first? (t := .rightBrace) rfl]
      simp [Document.tokens_object, Function.comp_def]

theorem ofChars_itemChars (hlayout : layout.Blank) (ds : List Document) (level : Nat)
    (hfits : Document.AllFit ds) {rest : List Char} (hrest : EndsNumber rest) :
    ofChars (Document.itemChars layout level ds ++ rest) =
      (ofChars rest).map (Document.itemTokens ds ++ ·) := by
  match ds with
  | [] => exact Option.map_id'.symm
  | d :: ds =>
      obtain ⟨hd, hds⟩ := hfits
      have hfirst := ofChars_chars hlayout d level hd (endsNumber_items layout level ds hrest)
      have hothers := ofChars_itemChars hlayout ds level hds hrest
      simp only [Document.itemChars_cons, List.cons_append, List.append_assoc]
      rw [ofChars_of_first? (t := .comma) rfl, ofChars_blank (hlayout.lineBreak _), hfirst,
        hothers]
      simp [Document.itemTokens_cons, Function.comp_def]

theorem ofChars_memberChars (hlayout : layout.Blank) (ds : List (String × Document)) (level : Nat)
    (hfits : Document.MembersFit ds) {rest : List Char} (hrest : EndsNumber rest) :
    ofChars (Document.memberChars layout level ds ++ rest) =
      (ofChars rest).map (Document.memberTokens ds ++ ·) := by
  match ds with
  | [] => exact Option.map_id'.symm
  | (name, d) :: ds =>
      obtain ⟨hd, hds⟩ := hfits
      have hfirst := ofChars_chars hlayout d level hd (endsNumber_members layout level ds hrest)
      have hothers := ofChars_memberChars hlayout ds level hds hrest
      simp only [Document.memberChars_cons, List.cons_append, List.append_assoc]
      rw [ofChars_of_first? (t := .comma) rfl, ofChars_blank (hlayout.lineBreak _),
        ofChars_of_first? (Token.first?_string name _), ofChars_of_first? (t := .colon) rfl,
        ofChars_blank hlayout.afterColon, hfirst, hothers]
      simp [Document.memberTokens_cons, Function.comp_def]

end

end Json

end ClusterRelay
