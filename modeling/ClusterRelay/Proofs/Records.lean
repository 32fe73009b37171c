import ClusterRelay.CommandLine.Forwarding
import ClusterRelay.Proofs.Codec
import ClusterRelay.Proofs.Documents

/-!
# Records come back from their texts

The settings of a node are kept in a file, and its status is printed for whoever watches it. Both
are trees of records, lists and texts, and both have a record whose members stand among those of
another one: the credentials of a link among its settings, its counters among the status of the
link. What is read back is what was written, whatever the texts hold and whatever the numbers are.

A record goes through three layers, and each has its own statement: its members are found by name in
the value of the text (`ofValue_document`), its numbers fit (`fits_document`), and the value of the
text is the document that was printed (`Value.ofText_render`).
-/

namespace ClusterRelay

/-! ## Fields -/

namespace Json

theorem Document.toValues_eq_map (ds : List Document) :
    Document.toValues ds = ds.map Document.toValue := by
  induction ds with
  | nil => rfl
  | cons d ds ih => rw [Document.toValues, ih, List.map_cons]

theorem Document.allFit_map {α : Type} {write : α → Document} (h : ∀ a, (write a).Fits)
    (as : List α) : Document.AllFit (as.map write) := by
  induction as with
  | nil => trivial
  | cons a as ih => exact ⟨h a, ih⟩

theorem Document.allFit_texts (texts : List String) : Document.AllFit (texts.map .text) := by
  apply Document.allFit_map
  intro text
  trivial

theorem Document.fits_uint16 (n : UInt16) : (Document.number n.toNat).Fits := by
  have hn := n.toNat_lt
  show n.toNat ≤ 2 ^ 64 - 1
  omega

theorem Document.fits_uint32 (n : UInt32) : (Document.number n.toNat).Fits := by
  have hn := n.toNat_lt
  show n.toNat ≤ 2 ^ 64 - 1
  omega

theorem Document.fits_uint64 (n : UInt64) : (Document.number n.toNat).Fits := by
  have hn := n.toNat_lt
  show n.toNat ≤ 2 ^ 64 - 1
  omega

namespace Decoder

theorem uint16_number (n : UInt16) : uint16 (.number n.toNat) = some n := by
  rw [uint16, if_pos n.toNat_lt, UInt16.ofNat_toNat]

theorem uint32_number (n : UInt32) : uint32 (.number n.toNat) = some n := by
  rw [uint32, if_pos n.toNat_lt, UInt32.ofNat_toNat]

theorem uint64_number (n : UInt64) : uint64 (.number n.toNat) = some n := by
  rw [uint64, if_pos n.toNat_lt, UInt64.ofNat_toNat]

theorem list_array {α : Type} {decode : Decoder α} {write : α → Document}
    (h : ∀ a, decode (write a).toValue = some a) (as : List α) :
    list decode (.array (Document.toValues (as.map write))) = some as := by
  rw [Document.toValues_eq_map, List.map_map, list]
  induction as with
  | nil => rfl
  | cons a as ih =>
      rw [List.map_cons, List.mapM_cons, ih, Function.comp_apply, h a]
      rfl

theorem list_texts (texts : List String) :
    list text (.array (Document.toValues (texts.map .text))) = some texts :=
  list_array (fun _ => rfl) texts

end Decoder

end Json

open Json (Document Value Members Decoder Layout)

/-! ## Settings -/

theorem Backoff.word_toWord (b : Backoff) : Decoder.word words (.text b.toWord) = some b := by
  cases b <;> rfl

namespace LinkSettings

theorem ofValue_document (depth : Nat) (l : LinkSettings) :
    ofValue depth l.document.toValue = some l := by
  -- The members that are not the link's own are looked at as a whole, and then by its credentials.
  simp [document, Credentials.members, Document.toValue, Document.toMembers, ofValue,
    Members.others, ownNames, Members.required, Members.optional, Members.values,
    Value.membersSound, Value.sound, Decoder.list_texts, l.backoff.word_toWord,
    Decoder.uint32_number, Decoder.uint64_number, Credentials.ofMembers, Decoder.text]

theorem fits_document (l : LinkSettings) : l.document.Fits :=
  ⟨trivial, trivial, trivial, Document.allFit_texts _,
    Document.fits_uint32 _, Document.fits_uint64 _, trivial, trivial⟩

end LinkSettings

namespace NodeSettings

theorem ofValue_document (n : NodeSettings) : ofValue n.document.toValue = some n := by
  have hlinks : linksOfValue (.array (Document.toValues (n.links.map LinkSettings.document))) =
      some n.links := Decoder.list_array (fun l => l.ofValue_document _) n.links
  simp [document, Document.toValue, Document.toMembers, ofValue, Members.required,
    Members.optional, Members.values, hlinks, Decoder.uint16_number, Decoder.uint64_number,
    Decoder.text]

theorem fits_document (n : NodeSettings) : n.document.Fits :=
  ⟨trivial, Document.fits_uint16 _, Document.fits_uint64 _,
    Document.allFit_map LinkSettings.fits_document n.links, trivial⟩

theorem ofText_render {layout : Layout} (hlayout : layout.Blank) (n : NodeSettings) :
    ofText (n.document.render layout) = some n := by
  rw [ofText, Value.ofText_render hlayout n.fits_document]
  exact n.ofValue_document

end NodeSettings

/-- The settings of a node come back from their text in either layout, down to the credentials of
each link, and so they pass the check or fail it as they did before. A node that finds the text in
its settings file starts from these settings, whatever its environment says. -/
theorem settings_survive (n : NodeSettings) :
    NodeSettings.ofText n.document.compact = some n ∧
    NodeSettings.ofText n.document.tall = some n ∧
    (NodeSettings.ofText n.document.compact).map NodeSettings.check = some n.check ∧
    ∀ env hostName, (NodeSettings.load (.file n.document.compact.toUTF8) env hostName).1 = n := by
  have hcompact : NodeSettings.ofText n.document.compact = some n :=
    n.ofText_render Layout.blank_compact
  refine ⟨hcompact, n.ofText_render Layout.blank_tall, ?_, ?_⟩
  · rw [hcompact]
    rfl
  · intro env hostName
    have hfile : NodeSettings.ofSource (.file n.document.compact.toUTF8) = .ok n := by
      simp only [NodeSettings.ofSource, Wire.fromUTF8?_toUTF8, hcompact]
    rw [NodeSettings.load, hfile]

/-! ## Status -/

theorem LinkState.word_toWord (s : LinkState) : Decoder.word words (.text s.toWord) = some s := by
  cases s <;> rfl

section TextOrNull

variable (text : Option String)

theorem nullable_textOrNull :
    Decoder.nullable Decoder.text (textOrNull text).toValue = some text := by
  cases text <;> rfl

theorem sound_textOrNull (depth : Nat) : (textOrNull text).toValue.sound depth = true := by
  cases text <;> rfl

theorem fits_textOrNull : (textOrNull text).Fits := by
  cases text <;> trivial

end TextOrNull

namespace LinkStatus

theorem ofValue_document (depth : Nat) (s : LinkStatus) :
    ofValue depth s.document.toValue = some s := by
  simp [document, Counters.members, Document.toValue, Document.toMembers, ofValue,
    Members.others, ownNames, Members.required, Members.optional, Members.values,
    Value.membersSound, Value.sound, Decoder.list_texts, s.state.word_toWord, sound_textOrNull,
    nullable_textOrNull, Decoder.uint64_number, Counters.ofMembers, Decoder.text, Decoder.bool]

theorem fits_document (s : LinkStatus) : s.document.Fits := by
  have h := Document.fits_uint64
  exact ⟨trivial, trivial, Document.allFit_texts _, h _, h _, h _, h _,
    h _, h _, h _, h _, h _, h _, trivial, fits_textOrNull _, fits_textOrNull _, trivial⟩

end LinkStatus

namespace RelayStatus

theorem ofValue_document (s : RelayStatus) : ofValue s.document.toValue = some s := by
  have hlinks : linksOfValue (.array (Document.toValues (s.links.map LinkStatus.document))) =
      some s.links := Decoder.list_array (fun l => l.ofValue_document _) s.links
  simp [document, Document.toValue, Document.toMembers, ofValue, Members.required,
    Members.values, hlinks, Decoder.uint64_number, Decoder.text, Decoder.bool]

theorem fits_document (s : RelayStatus) : s.document.Fits :=
  ⟨trivial, trivial, Document.fits_uint64 _, Document.allFit_map LinkStatus.fits_document s.links,
    trivial⟩

theorem ofText_render {layout : Layout} (hlayout : layout.Blank) (s : RelayStatus) :
    ofText (s.document.render layout) = some s := by
  rw [ofText, Value.ofText_render hlayout s.fits_document]
  exact s.ofValue_document

end RelayStatus

/-- The status of a node comes back from its text in either layout, down to the counters of each
link. What the forwarding command prints in the end is such a text, and a line feed. -/
theorem status_survives (s : RelayStatus) :
    RelayStatus.ofText s.document.compact = some s ∧
    RelayStatus.ofText s.document.tall = some s ∧
    ∀ r : Relay, RelayStatus.ofText (CommandLine.Forwarding.report r) = some r.status := by
  refine ⟨s.ofText_render Layout.blank_compact, s.ofText_render Layout.blank_tall, ?_⟩
  intro r
  have hread : Value.ofText (CommandLine.Forwarding.report r) = some r.status.document.toValue := by
    apply Value.ofText_render_append Layout.blank_tall r.status.fits_document
    intro c hc
    rw [List.mem_singleton.mp hc]
    rfl
  rw [RelayStatus.ofText, hread]
  exact r.status.ofValue_document

end ClusterRelay
