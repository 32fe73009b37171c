import ClusterRelay.Endpoint
import ClusterRelay.Proofs.Numerals
import Mathlib.Data.List.DropRight

/-!
# Which texts name endpoints

A target text is taken apart from the outside in. Its blanks come off, the first character or the
number of colons decides where the host ends, and what is left behind the host has to be a port.
Seen from the result it is a grammar: five forms of text, `Spelled`, with the endpoint that each of
them names. The forms do not overlap, so a text that has one of them is read as that one and no
other, and a text that has none of them is refused with the text as it was given.

The notation of an endpoint puts a host in brackets if there is a colon in it, and the reader takes
a host out of brackets if there is one in front. So not every host that is written is read back.
`written_reads_back` tells them apart: where there is a colon in the host there must be no closing
bracket, and where there is none the host must not begin with a bracket or a blank.
-/

namespace ClusterRelay

/-! ## Blanks around a text -/

namespace Text

/-- The inner text is what the text leaves when the blanks are taken off its ends. -/
structure Strips (text inner : List Char) : Prop where
  around : ∃ left right, text = left ++ inner ++ right ∧ (∀ c ∈ left, isBlank c = true) ∧
    ∀ c ∈ right, isBlank c = true
  first : ∀ c, inner.head? = some c → isBlank c = false
  last : ∀ c, inner.getLast? = some c → isBlank c = false

/-- Blanks are dropped up to a character that is not blank. -/
theorem dropWhile_blanks {blanks rest : List Char} (hblanks : ∀ c ∈ blanks, isBlank c = true)
    (hrest : ∀ c, rest.head? = some c → isBlank c = false) :
    (blanks ++ rest).dropWhile isBlank = rest := by
  rw [List.dropWhile_append_of_pos hblanks]
  cases rest with
  | nil => rfl
  | cons c rest => rw [List.dropWhile_cons_of_neg (by simp [hrest c rfl])]

theorem head?_dropWhile_blanks {cs : List Char} {c : Char}
    (h : (cs.dropWhile isBlank).head? = some c) : isBlank c = false := by
  have hfirst := List.head?_dropWhile_not isBlank cs
  rw [h] at hfirst
  exact hfirst

theorem strips_trimmed (text : List Char) : Strips text (trimmed text) := by
  have hpieces : text = text.takeWhile isBlank ++ trimmed text ++
      (text.dropWhile isBlank).rtakeWhile isBlank := by
    have hdropped : trimmed text ++ (text.dropWhile isBlank).rtakeWhile isBlank =
        text.dropWhile isBlank := List.rdropWhile_append_rtakeWhile
    rw [List.append_assoc, hdropped, List.takeWhile_append_dropWhile]
  refine ⟨⟨_, _, hpieces, ?_, ?_⟩, ?_, ?_⟩
  · intro c hc
    exact List.mem_takeWhile_imp hc
  · intro c hc
    exact List.mem_rtakeWhile_imp hc
  · intro c hc
    obtain ⟨right, hright⟩ := List.rdropWhile_prefix isBlank (text.dropWhile isBlank)
    have hfirst : (text.dropWhile isBlank).head? = some c := by
      rw [← hright, List.head?_append]
      exact congrArg (Option.or · _) hc
    exact head?_dropWhile_blanks hfirst
  · intro c hc
    rw [trimmed, List.getLast?_reverse] at hc
    exact head?_dropWhile_blanks hc

theorem Strips.trimmed_eq {text inner : List Char} (h : Strips text inner) :
    trimmed text = inner := by
  obtain ⟨⟨left, right, rfl, hleft, hright⟩, hfirst, hlast⟩ := h
  cases inner with
  | nil =>
      have hall : ∀ c ∈ left ++ [] ++ right, isBlank c = true := by
        intro c hc
        rw [List.append_nil] at hc
        exact (List.mem_append.mp hc).elim (hleft c) (hright c)
      rw [trimmed, List.dropWhile_eq_nil_iff.mpr hall]
      rfl
  | cons d ds =>
      have hfront : (left ++ (d :: ds) ++ right).dropWhile isBlank = (d :: ds) ++ right := by
        rw [List.append_assoc]
        apply dropWhile_blanks hleft
        intro c hc
        exact hfirst c hc
      have hback : (right.reverse ++ (d :: ds).reverse).dropWhile isBlank = (d :: ds).reverse := by
        apply dropWhile_blanks
        · intro c hc
          exact hright c (List.mem_reverse.mp hc)
        · intro c hc
          rw [List.head?_reverse] at hc
          exact hlast c hc
      rw [trimmed, hfront, List.reverse_append, hback, List.reverse_reverse]

theorem strips_iff {text inner : List Char} : Strips text inner ↔ trimmed text = inner := by
  constructor
  · exact Strips.trimmed_eq
  · rintro rfl
    exact strips_trimmed text

/-- What is not blank is not taken off. -/
theorem Strips.mem {text inner : List Char} (h : Strips text inner) {c : Char}
    (hc : isBlank c = false) : c ∈ inner ↔ c ∈ text := by
  obtain ⟨⟨left, right, rfl, hleft, hright⟩, -, -⟩ := h
  have hnotin (cs : List Char) (hcs : ∀ c ∈ cs, isBlank c = true) : c ∉ cs := by
    intro hmem
    rw [hcs c hmem] at hc
    cases hc
  simp [hnotin left hleft, hnotin right hright]

end Text

namespace Endpoint

variable {cs text host before after : List Char} {mark : Char} {own : UInt16} {e : Endpoint}

/-! ## The forms of a target text -/

/-- The text of a port: a number from 1 to 65535. -/
def WritesPort (text : List Char) (port : UInt16) : Prop :=
  Text.Numeral text port.toNat ∧ port ≠ 0

/-- The texts that name endpoints, without blanks around them, and the endpoints that they name.
Where a text has no port the own port stands in. -/
inductive Spelled (own : UInt16) : List Char → Endpoint → Prop where
  /-- A host alone. -/
  | host {host : String} (hne : host ≠ "") (hopen : host.toList.head? ≠ some '[')
      (hcolons : host.toList.count ':' = 0) : Spelled own host.toList ⟨host, own⟩
  /-- A host and a port, and no colon but the one between them. -/
  | hostPort {host : String} {text : List Char} {port : UInt16} (hne : host ≠ "")
      (hopen : host.toList.head? ≠ some '[')
      (hcolons : (host.toList ++ ':' :: text).count ':' = 1) (hport : WritesPort text port) :
      Spelled own (host.toList ++ ':' :: text) ⟨host, port⟩
  /-- A host with colons of its own. -/
  | colons {host : String} (hopen : host.toList.head? ≠ some '[')
      (hcolons : 2 ≤ host.toList.count ':') : Spelled own host.toList ⟨host, own⟩
  /-- A host in brackets. -/
  | bracketed {host : String} (hne : host ≠ "") (hclose : ']' ∉ host.toList) :
      Spelled own ('[' :: host.toList ++ [']']) ⟨host, own⟩
  /-- A host in brackets, and a port. -/
  | bracketedPort {host : String} {text : List Char} {port : UInt16} (hne : host ≠ "")
      (hclose : ']' ∉ host.toList) (hport : WritesPort text port) :
      Spelled own ('[' :: host.toList ++ ']' :: ':' :: text) ⟨host, port⟩

/-- The target names the endpoint. -/
def Names (own : UInt16) (target : String) (e : Endpoint) : Prop :=
  ∃ inner, Text.Strips target.toList inner ∧ Spelled own inner e

/-! ## Host and port -/

/-- Where a text has its host and, if there is one, the text of its port. Neither needs to be
sound. -/
inductive Parts : List Char → List Char → Option (List Char) → Prop where
  | whole {text : List Char} (hne : text ≠ []) (hopen : text.head? ≠ some '[')
      (hcolons : text.count ':' ≠ 1) : Parts text text none
  | divided {host port : List Char} (hopen : (host ++ ':' :: port).head? ≠ some '[')
      (hcolons : (host ++ ':' :: port).count ':' = 1) : Parts (host ++ ':' :: port) host (some port)
  | bracketed {host : List Char} (hclose : ']' ∉ host) : Parts ('[' :: host ++ [']']) host none
  | bracketedPort {host port : List Char} (hclose : ']' ∉ host) :
      Parts ('[' :: host ++ ']' :: ':' :: port) host (some port)

theorem splitAt?_append (h : mark ∉ before) :
    splitAt? mark (before ++ mark :: after) = some (before, after) := by
  have hbefore : ∀ c ∈ before, decide (c ≠ mark) = true := by
    intro c hc
    exact decide_eq_true fun heq => h (heq ▸ hc)
  rw [splitAt?, List.dropWhile_append_of_pos hbefore, List.takeWhile_append_of_pos hbefore]
  simp

theorem splitAt?_eq_none_iff : splitAt? mark cs = none ↔ mark ∉ cs := by
  constructor
  · intro h hmem
    obtain ⟨before, after, rfl, hfirst⟩ := List.eq_append_cons_of_mem hmem
    rw [splitAt?_append hfirst] at h
    cases h
  · intro h
    have hall : ∀ c ∈ cs, decide (c ≠ mark) = true := by
      intro c hc
      exact decide_eq_true fun heq => h (heq ▸ hc)
    rw [splitAt?, List.dropWhile_eq_nil_iff.mpr hall]

theorem splitAt?_eq_some_iff :
    splitAt? mark cs = some (before, after) ↔ mark ∉ before ∧ cs = before ++ mark :: after := by
  constructor
  · intro h
    have hmem : mark ∈ cs := by
      by_contra hnot
      rw [splitAt?_eq_none_iff.mpr hnot] at h
      cases h
    obtain ⟨before', after', rfl, hfirst⟩ := List.eq_append_cons_of_mem hmem
    rw [splitAt?_append hfirst] at h
    cases h
    exact ⟨hfirst, rfl⟩
  · rintro ⟨hfirst, rfl⟩
    exact splitAt?_append hfirst

theorem not_mem_of_count_eq_one (h : (before ++ mark :: after).count mark = 1) :
    mark ∉ before ∧ mark ∉ after := by
  rw [List.count_append, List.count_cons_self] at h
  exact ⟨List.count_eq_zero.mp (by omega), List.count_eq_zero.mp (by omega)⟩

/-- A text without a bracket in front is divided at its colon, if it has one and no other. -/
theorem split_of_open (hne : cs ≠ []) (hopen : cs.head? ≠ some '[') :
    split cs = if cs.count ':' = 1 then
      match splitAt? ':' cs with
      | some (host, port) => .ok (host, some port)
      | none => .ok (cs, none)
    else .ok (cs, none) := by
  apply split.eq_3 cs hne
  rintro inner rfl
  exact hopen rfl

theorem split_eq_ok_iff {port? : Option (List Char)} :
    split cs = .ok (host, port?) ↔ Parts cs host port? := by
  constructor
  · intro h
    by_cases hne : cs = []
    · subst hne
      cases h
    by_cases hopen : cs.head? = some '['
    · obtain ⟨inner, rfl⟩ := List.head?_eq_some_iff.mp hopen
      rw [split] at h
      split at h
      · cases h
      · next hparts =>
          obtain ⟨hclose, rfl⟩ := splitAt?_eq_some_iff.mp hparts
          cases h
          exact .bracketed hclose
      · next hparts =>
          obtain ⟨hclose, rfl⟩ := splitAt?_eq_some_iff.mp hparts
          cases h
          exact .bracketedPort hclose
      · cases h
    · rw [split_of_open hne hopen] at h
      split at h
      · next hcolons =>
          split at h
          · next hparts =>
              obtain ⟨-, rfl⟩ := splitAt?_eq_some_iff.mp hparts
              cases h
              exact .divided hopen hcolons
          · next hnone =>
              rw [splitAt?_eq_none_iff, ← List.count_eq_zero] at hnone
              omega
      · next hcolons =>
          cases h
          exact .whole hne hopen hcolons
  · intro h
    cases h with
    | whole hne hopen hcolons => rw [split_of_open hne hopen, if_neg hcolons]
    | divided hopen hcolons =>
        rw [split_of_open (by simp) hopen, if_pos hcolons,
          splitAt?_append (not_mem_of_count_eq_one hcolons).1]
    | bracketed hclose =>
        rw [List.cons_append, split, splitAt?_append hclose]
    | bracketedPort hclose =>
        rw [List.cons_append, split, splitAt?_append hclose]
        rfl

theorem portOf_eq_ok_iff {port : UInt16} : portOf cs = .ok port ↔ WritesPort cs port := by
  constructor
  · intro h
    unfold portOf at h
    split at h
    · cases h
    · cases h
    · next n hzero hn =>
        obtain ⟨hnumeral, hle⟩ := Text.unsigned?_eq_some_iff.mp hn
        cases h
        have hvalue : (UInt16.ofNat n).toNat = n :=
          UInt16.toNat_ofNat_of_lt' (Nat.lt_succ_of_le hle)
        refine ⟨hvalue.symm ▸ hnumeral, ?_⟩
        intro hport
        rw [hport] at hvalue
        exact hzero hvalue.symm
  · rintro ⟨hnumeral, hne⟩
    have hle : port.toNat ≤ 65535 := Nat.le_of_lt_succ port.toNat_lt
    have hzero : port.toNat ≠ 0 := fun hzero => hne (UInt16.toNat_inj.mp hzero)
    rw [portOf, Text.unsigned?_eq_some_iff.mpr ⟨hnumeral, hle⟩]
    split
    · next hnone => cases hnone
    · next hsome => exact absurd (Option.some.inj hsome) hzero
    · next n _ hsome =>
        cases hsome
        rw [UInt16.ofNat_toNat]

/-! ## Reading a target -/

/-- The port that goes with the text of a port, or with none. -/
def Suits (own : UInt16) : Option (List Char) → UInt16 → Prop
  | none, port => port = own
  | some text, port => WritesPort text port

theorem toList_ne_nil {host : String} (h : host ≠ "") : host.toList ≠ [] := by
  simpa using h

/-- The five forms are the parts of a text where the host is not empty and the port is sound. -/
theorem spelled_iff : Spelled own text e ↔
    ∃ port?, Parts text e.host.toList port? ∧ e.host ≠ "" ∧ Suits own port? e.port := by
  constructor
  · intro h
    cases h with
    | host hne hopen hcolons =>
        exact ⟨none, .whole (toList_ne_nil hne) hopen (by omega), hne, rfl⟩
    | @hostPort host port n hne hopen hcolons hport =>
        have hfirst : (host.toList ++ ':' :: port).head? = host.toList.head? :=
          List.head?_append_of_ne_nil _ (toList_ne_nil hne)
        exact ⟨some port, .divided (hfirst ▸ hopen) hcolons, hne, hport⟩
    | @colons host hopen hcolons =>
        have hne : host ≠ "" := by
          rintro rfl
          exact absurd hcolons (by decide)
        exact ⟨none, .whole (toList_ne_nil hne) hopen (by omega), hne, rfl⟩
    | bracketed hne hclose => exact ⟨none, .bracketed hclose, hne, rfl⟩
    | @bracketedPort host port n hne hclose hport =>
        exact ⟨some port, .bracketedPort hclose, hne, hport⟩
  · rintro ⟨port?, hparts, hne, hport⟩
    obtain ⟨host, port⟩ := e
    dsimp only at hparts hne hport
    cases hparts with
    | whole _ hopen hcolons =>
        obtain rfl : port = own := hport
        rcases Nat.lt_or_ge (host.toList.count ':') 2 with hfew | hmany
        · exact .host hne hopen (by omega)
        · exact .colons hopen hmany
    | divided hopen hcolons =>
        rw [List.head?_append_of_ne_nil _ (toList_ne_nil hne)] at hopen
        exact .hostPort hne hopen hcolons hport
    | bracketed hclose =>
        obtain rfl : port = own := hport
        exact .bracketed hne hclose
    | bracketedPort hclose => exact .bracketedPort hne hclose hport

theorem ofChars_eq_ok_iff : ofChars cs own = .ok e ↔ Spelled own (Text.trimmed cs) e := by
  rw [spelled_iff]
  constructor
  · intro h
    unfold ofChars at h
    split at h
    · cases h
    · cases h
    · next host hne hsplit =>
        cases h
        refine ⟨none, ?_, ?_, rfl⟩
        · rw [String.toList_ofList]
          exact split_eq_ok_iff.mp hsplit
        · simpa using hne
    · next host port hne hsplit =>
        split at h
        · cases h
        · next n hport =>
            cases h
            refine ⟨some port, ?_, ?_, portOf_eq_ok_iff.mp hport⟩
            · rw [String.toList_ofList]
              exact split_eq_ok_iff.mp hsplit
            · simpa using hne
  · rintro ⟨port?, hparts, hne, hport⟩
    obtain ⟨host, port⟩ := e
    have hsplit := split_eq_ok_iff.mpr hparts
    obtain ⟨c, rest, hcons⟩ := List.exists_cons_of_ne_nil (toList_ne_nil hne)
    have hhost : String.ofList (c :: rest) = host := by rw [← hcons, String.ofList_toList]
    dsimp only at hsplit hport
    rw [hcons] at hsplit
    rw [ofChars, hsplit]
    cases port? with
    | none =>
        obtain rfl : port = own := hport
        simp only [hhost]
    | some text =>
        simp only [portOf_eq_ok_iff.mpr hport, hhost]

theorem ofTarget_eq_ok_iff {target : String} :
    ofTarget target own = .ok e ↔ Names own target e := by
  have hnames : Names own target e ↔ Spelled own (Text.trimmed target.toList) e := by
    simp [Names, Text.strips_iff]
  rw [hnames, ← ofChars_eq_ok_iff, ofTarget]
  split
  · next hok => simp [hok]
  · next herror => simp [herror]

theorem ofTarget_eq_error_iff {target : String} :
    (∃ flaw : Flaw, ofTarget target own = .error (.target target flaw.message)) ↔
      ∀ e, ofTarget target own ≠ .ok e := by
  unfold ofTarget
  split
  · next endpoint _ => simp
  · next flaw _ => simp

/-- A target names an endpoint just if, without the blanks around it, it has one of the five forms,
and it names the endpoint that goes with the form. Every other target is refused, and the fault
quotes it as it was given. -/
theorem targets_read_exactly (target : String) (own : UInt16) :
    (∀ e, ofTarget target own = .ok e ↔ Names own target e) ∧
    ((∃ flaw : Flaw, ofTarget target own = .error (.target target flaw.message)) ↔
      ∀ e, ¬ Names own target e) := by
  refine ⟨fun e => ofTarget_eq_ok_iff, ?_⟩
  rw [ofTarget_eq_error_iff]
  simp only [Ne, ofTarget_eq_ok_iff]

/-! ## Reading what was written -/

/-- A host can be told apart from what its notation puts around it: a bracket would not end it too
early, and without brackets nothing of it would be taken for a bracket or a blank. -/
def Tellable (host : List Char) : Prop :=
  (':' ∈ host ∧ ']' ∉ host) ∨
    (':' ∉ host ∧ host.head? ≠ some '[' ∧ ∀ c, host.head? = some c → Text.isBlank c = false)

theorem toList_toString (e : Endpoint) : (toString e).toList = e.written :=
  String.toList_ofList

theorem written_of_colon (h : ':' ∈ e.host.toList) : e.written =
    '[' :: e.host.toList ++ ']' :: ':' :: (Text.decimal e.port.toNat).toList :=
  if_pos h

theorem written_of_no_colon (h : ':' ∉ e.host.toList) : e.written =
    e.host.toList ++ ':' :: (Text.decimal e.port.toNat).toList :=
  if_neg h

theorem not_mem_decimal {n : Nat} {c : Char} (h : c.isDigit = false) :
    c ∉ (Text.decimal n).toList := by
  intro hc
  rw [Text.isDigit_of_mem_decimal hc] at h
  cases h

/-- The notation of an endpoint ends with a digit. -/
theorem getLast?_written {c : Char} (h : e.written.getLast? = some c) : Text.isBlank c = false := by
  have hport : ∃ front, e.written = front ++ (Text.decimal e.port.toNat).toList := by
    by_cases hcolon : ':' ∈ e.host.toList
    · exact ⟨'[' :: e.host.toList ++ [']', ':'], by simp [written_of_colon hcolon]⟩
    · exact ⟨e.host.toList ++ [':'], by simp [written_of_no_colon hcolon]⟩
  obtain ⟨front, hfront⟩ := hport
  rw [hfront, List.getLast?_append_of_ne_nil _ (Text.decimal_ne_nil _)] at h
  exact Text.isBlank_of_isDigit (Text.isDigit_of_mem_decimal (List.mem_of_getLast? h))

theorem strips_written (h : ∀ c, e.written.head? = some c → Text.isBlank c = false) :
    Text.Strips e.written e.written :=
  ⟨⟨[], [], by simp, nofun, nofun⟩, h, fun _ => getLast?_written⟩

/-- With a colon in the host the notation has a bracket in front, and is read as it stands. -/
theorem tellable_of_colon {inner : List Char} {port? : Option (List Char)}
    (hcolon : ':' ∈ e.host.toList) (hstrips : Text.Strips e.written inner)
    (hparts : Parts inner e.host.toList port?) :
    Tellable e.host.toList ∧ ∃ text, port? = some text := by
  have hopen : e.written.head? = some '[' := by rw [written_of_colon hcolon]; rfl
  have hwhole : inner = e.written := by
    have hself := strips_written (e := e) (by rw [hopen]; rintro c ⟨⟩; decide)
    rw [← hstrips.trimmed_eq, hself.trimmed_eq]
  generalize hhost : e.host.toList = host at hparts
  cases hparts with
  | whole _ hbare _ => exact absurd (hwhole ▸ hopen) hbare
  | divided hbare _ => exact absurd (hwhole ▸ hopen) hbare
  | bracketed hclose =>
      rw [written_of_colon hcolon, hhost] at hwhole
      have hlength := congrArg List.length hwhole
      simp at hlength
  | bracketedPort hclose => exact ⟨.inl ⟨hhost ▸ hcolon, hclose⟩, _, rfl⟩

/-- Without one, the only colon is the one before the port, and it cannot be behind a bracket. -/
theorem tellable_of_no_colon {inner : List Char} {port? : Option (List Char)}
    (hcolon : ':' ∉ e.host.toList) (hstrips : Text.Strips e.written inner)
    (hparts : Parts inner e.host.toList port?) (hne : e.host ≠ "") :
    Tellable e.host.toList ∧ ∃ text, port? = some text := by
  have hwritten := written_of_no_colon hcolon
  have hmem : ':' ∈ inner := (hstrips.mem (by decide)).mpr (by simp [hwritten])
  have hcons := toList_ne_nil hne
  generalize e.host.toList = host at *
  cases hparts with
  | whole _ _ _ => exact absurd hmem hcolon
  | divided hbare _ =>
      have hfirst := hstrips.first
      rw [List.head?_append_of_ne_nil _ hcons] at hbare hfirst
      exact ⟨.inr ⟨hcolon, hbare, hfirst⟩, _, rfl⟩
  | bracketed hclose => simp [hcolon] at hmem
  | @bracketedPort _ port hclose =>
      obtain ⟨left, right, haround, -, -⟩ := hstrips.around
      have hsplit : host ++ ':' :: (Text.decimal e.port.toNat).toList =
          (left ++ '[' :: host ++ [']']) ++ ':' :: (port ++ right) := by
        rw [← hwritten, haround]
        simp
      have hhost := ((List.append_cons_inj_of_notMem hcolon (not_mem_decimal rfl)).mp hsplit).1
      have hlength := congrArg List.length hhost
      simp at hlength
      omega

theorem spelled_written (hne : e.host ≠ "") (hport : e.port ≠ 0) (h : Tellable e.host.toList) :
    Text.Strips e.written e.written ∧ Spelled own e.written e := by
  have hwrites : WritesPort (Text.decimal e.port.toNat).toList e.port :=
    ⟨Text.numeral_decimal _, hport⟩
  rcases h with ⟨hcolon, hclose⟩ | ⟨hcolon, hopen, hunblank⟩
  · constructor
    · apply strips_written
      rw [written_of_colon hcolon]
      rintro c ⟨⟩
      decide
    · rw [written_of_colon hcolon]
      exact .bracketedPort hne hclose hwrites
  · constructor
    · apply strips_written
      rw [written_of_no_colon hcolon, List.head?_append_of_ne_nil _ (toList_ne_nil hne)]
      exact hunblank
    · rw [written_of_no_colon hcolon]
      refine .hostPort hne hopen ?_ hwrites
      rw [List.count_append, List.count_cons_self, List.count_eq_zero.mpr hcolon,
        List.count_eq_zero.mpr (not_mem_decimal rfl)]

/-- What was written is read back just if the port is one that may be named and the host can be
told apart in the notation. The own port does not matter. -/
theorem written_reads_back (e : Endpoint) (own : UInt16) :
    ofTarget (toString e) own = .ok e ↔
      e.host ≠ "" ∧ e.port ≠ 0 ∧ Tellable e.host.toList := by
  rw [ofTarget_eq_ok_iff, Names, toList_toString]
  constructor
  · rintro ⟨inner, hstrips, hspelled⟩
    obtain ⟨port?, hparts, hne, hport⟩ := spelled_iff.mp hspelled
    have htold : Tellable e.host.toList ∧ ∃ text, port? = some text := by
      by_cases hcolon : ':' ∈ e.host.toList
      · exact tellable_of_colon hcolon hstrips hparts
      · exact tellable_of_no_colon hcolon hstrips hparts hne
    obtain ⟨htellable, text, rfl⟩ := htold
    exact ⟨hne, hport.2, htellable⟩
  · rintro ⟨hne, hport, htellable⟩
    exact ⟨e.written, spelled_written hne hport htellable⟩

/-- A host in brackets of its own is taken out of them. -/
example : ofTarget (toString (⟨"[h]", 5701⟩ : Endpoint)) 1 = .ok ⟨"h", 5701⟩ := by decide

end Endpoint

end ClusterRelay
