import ClusterRelay.Json.Reader
import ClusterRelay.Proofs.Tokens

/-!
# Documents are read as they were written

The reader is a machine that does not recurse, and a document is a tree. The two meet in
`feedAll_document`: whatever containers are open, the tokens of a document bring the machine to
where its value alone would have brought it. For the items of an array and the members of an object
there is a statement of the same kind, about what is in the innermost container by then.
-/

namespace ClusterRelay.Json

/-! ## The reader -/

namespace Reader

/-- Where an item or the end of the array may come, a document is an item. -/
theorem feedAll_itemOrEnd (d : Document) (frames : List Frame) (ts : List Token) :
    feedAll ⟨frames, .itemOrEnd⟩ (d.tokens ++ ts) = feedAll ⟨frames, .value⟩ (d.tokens ++ ts) := by
  match d with
  | .null | .bool _ | .number _ | .text _ | .array [] | .array (_ :: _) | .object []
  | .object (_ :: _) => rfl

mutual

theorem feedAll_document (d : Document) (frames : List Frame) (ts : List Token) :
    feedAll ⟨frames, .value⟩ (d.tokens ++ ts) = feedAll (accept frames d.toValue) ts := by
  match d with
  | .null | .bool _ | .number _ | .text _ | .array [] | .object [] => rfl
  | .array (d :: ds) =>
      have hopen : feedAll ⟨frames, .value⟩ (Document.tokens (.array (d :: ds)) ++ ts) =
          feedAll ⟨.array [] :: frames, .itemOrEnd⟩
            (d.tokens ++ (Document.itemTokens ds ++ .rightBracket :: ts)) := by
        simp only [Document.tokens_array, List.cons_append, List.append_assoc, List.nil_append]
        rfl
      rw [hopen, feedAll_itemOrEnd, feedAll_document d]
      exact feedAll_items ds [d.toValue] frames ts
  | .object ((name, d) :: ds) =>
      have hopen : feedAll ⟨frames, .value⟩ (Document.tokens (.object ((name, d) :: ds)) ++ ts) =
          feedAll ⟨.object [] true name :: frames, .value⟩
            (d.tokens ++ (Document.memberTokens ds ++ .rightBrace :: ts)) := by
        simp only [Document.tokens_object, List.cons_append, List.append_assoc, List.nil_append]
        rfl
      rw [hopen, feedAll_document d]
      exact feedAll_members ds [(name, d.toValue)] name frames ts

theorem feedAll_items (ds : List Document) (items : List Value) (frames : List Frame)
    (ts : List Token) :
    feedAll ⟨.array items :: frames, .commaOrEnd⟩
        (Document.itemTokens ds ++ .rightBracket :: ts) =
      feedAll (accept frames (.array (items.reverse ++ Document.toValues ds))) ts := by
  match ds with
  | [] =>
      rw [Document.toValues, List.append_nil]
      rfl
  | d :: ds =>
      have hcomma : feedAll ⟨.array items :: frames, .commaOrEnd⟩
          (Document.itemTokens (d :: ds) ++ .rightBracket :: ts) =
          feedAll ⟨.array items :: frames, .value⟩
            (d.tokens ++ (Document.itemTokens ds ++ .rightBracket :: ts)) := by
        simp only [Document.itemTokens_cons, List.cons_append, List.append_assoc]
        rfl
      rw [hcomma, feedAll_document d]
      show feedAll ⟨.array (d.toValue :: items) :: frames, .commaOrEnd⟩ _ = _
      rw [feedAll_items ds, List.reverse_cons, List.append_assoc, Document.toValues]
      rfl

theorem feedAll_members (ds : List (String × Document)) (members : List (String × Value))
    (last : String) (frames : List Frame) (ts : List Token) :
    feedAll ⟨.object members true last :: frames, .commaOrEnd⟩
        (Document.memberTokens ds ++ .rightBrace :: ts) =
      feedAll (accept frames (.object (members.reverse ++ Document.toMembers ds))) ts := by
  match ds with
  | [] =>
      rw [Document.toMembers, List.append_nil]
      rfl
  | (name, d) :: ds =>
      have hcomma : feedAll ⟨.object members true last :: frames, .commaOrEnd⟩
          (Document.memberTokens ((name, d) :: ds) ++ .rightBrace :: ts) =
          feedAll ⟨.object members true name :: frames, .value⟩
            (d.tokens ++ (Document.memberTokens ds ++ .rightBrace :: ts)) := by
        simp only [Document.memberTokens_cons, List.cons_append, List.append_assoc]
        rfl
      rw [hcomma, feedAll_document d]
      show feedAll ⟨.object ((name, d.toValue) :: members) true name :: frames, .commaOrEnd⟩ _ = _
      rw [feedAll_members ds, List.reverse_cons, List.append_assoc, Document.toMembers]
      rfl

end

end Reader

/-- What is written is read, in every layout and with any blanks behind it. -/
theorem Value.ofChars_document {layout : Layout} (hlayout : layout.Blank) {d : Document}
    (hfits : d.Fits) {blank : List Char} (hblank : ∀ c ∈ blank, Token.isSpace c = true) :
    Value.ofChars (d.chars layout 0 ++ blank) = some d.toValue := by
  have hnone : Token.ofChars blank = some [] := by
    rw [← List.append_nil blank, Token.ofChars_blank hblank, Token.ofChars_eq]
    rfl
  have hends : EndsNumber blank := by
    rw [← List.append_nil blank]
    exact EndsNumber.blank_append (fun c hc => by cases hc) hblank
  have htokens : Token.ofChars (d.chars layout 0 ++ blank) = some (d.tokens ++ []) := by
    rw [ofChars_chars hlayout d 0 hfits hends, hnone]
    rfl
  have hread : ({} : Reader).feedAll (d.tokens ++ []) = some ⟨[], .nothing d.toValue⟩ :=
    Reader.feedAll_document d [] []
  simp only [Value.ofChars, htokens, hread, Option.bind_eq_bind, Option.bind_some]
  rfl

theorem Value.ofText_render_append {layout : Layout} (hlayout : layout.Blank) {d : Document}
    (hfits : d.Fits) {blank : String} (hblank : ∀ c ∈ blank.toList, Token.isSpace c = true) :
    Value.ofText (d.render layout ++ blank) = some d.toValue := by
  rw [Value.ofText, Document.render, String.toList_append, String.toList_ofList]
  exact Value.ofChars_document hlayout hfits hblank

theorem Value.ofText_render {layout : Layout} (hlayout : layout.Blank) {d : Document}
    (hfits : d.Fits) : Value.ofText (d.render layout) = some d.toValue := by
  rw [← String.append_empty (s := d.render layout)]
  exact Value.ofText_render_append hlayout hfits nofun

end ClusterRelay.Json
