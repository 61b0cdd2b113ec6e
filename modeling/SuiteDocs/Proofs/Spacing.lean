import Mathlib.Data.List.Nodup
import SuiteDocs.Proofs.Gaps
import SuiteDocs.Proofs.Maps

/-!
Objects with white space and comments between their parts.

The segments between the commas of an object are read without the gaps around them. Inside a field
only white space is taken away: a comment between a key and its colon hides the field, and a comment
between the colon and a string hides that the value is a string.
-/

set_option autoImplicit false

namespace SuiteDocs.Source

open SuiteDocs.Text

/-! ## Passages between commas -/

theorem textOf_commaJoined (parts : List (List Piece)) :
    textOf (commaJoined parts) = List.intercalate [.char ','] (parts.map textOf) := by
  induction parts with
  | nil => rfl
  | cons part rest ih =>
    cases rest with
    | nil => simp [commaJoined]
    | cons next rest =>
      rw [commaJoined, textOf_append, textOf_code, ih]
      simp [List.intercalate_cons_cons]

theorem settled_commaJoined {parts : List (List Piece)} (settled : ∀ part ∈ parts, Settled part) :
    Settled (commaJoined parts) := by
  induction parts with
  | nil => exact settled_nil
  | cons part rest ih =>
    have first := settled part List.mem_cons_self
    have others := ih fun other member => settled other (List.mem_cons_of_mem _ member)
    cases rest with
    | nil => exact first
    | cons next rest =>
      have comma : Settled [.code ','] := settled_code (by decide)
      exact first.append (comma.append others)

/-! ## Fields -/

/-- A field with an identifier for a key and a string for a value, and what stands around and between
them. -/
structure SpacedField where
  beforeKey : Gaps
  key : Text
  afterKey : Gaps
  beforeValue : Gaps
  value : SpelledString
  afterValue : Gaps
  identifier : isIdentifier key = true

namespace SpacedField

/-- The field as it is written. -/
def text (field : SpacedField) : Text :=
  field.beforeKey.text ++ (field.key ++ (field.afterKey.text ++
    .char ':' :: (field.beforeValue.text ++ field.value.text))) ++ field.afterValue.text

/-- Whether no comment stands between the key and the colon. -/
def showsKey (field : SpacedField) : Bool :=
  field.afterKey.isBare

/-- Whether no comment stands between the colon and the value. -/
def showsValue (field : SpacedField) : Bool :=
  field.beforeValue.isBare

/-- The key and the gaps behind it. -/
def name (field : SpacedField) : List Piece :=
  codes field.key ++ field.afterKey.pieces

/-- The field without the gaps around it. -/
def core (field : SpacedField) : List Piece :=
  field.name ++ .code ':' :: (field.beforeValue.pieces ++ [field.value.piece])

theorem mem_codeOf_name (field : SpacedField) :
    ∀ c ∈ codeOf field.name, (isNamePart c || isBlank c) = true := by
  rw [name, codeOf_append, codeOf_codes]
  refine List.forall_mem_append.mpr ⟨fun c inKey => ?_, fun c inGaps => ?_⟩
  · rw [isNamePart_of_isIdentifier field.identifier c inKey, Bool.true_or]
  · rw [isBlank_of_mem_codeOf (fun _ => Gaps.isGap_of_mem_pieces) c inGaps, Bool.or_true]

theorem mem_codeOf_core (field : SpacedField) :
    ∀ c ∈ codeOf field.core, (isNamePart c || isBlank c || c == .char ':') = true := by
  rw [core, codeOf_append, codeOf_code, codeOf_append]
  refine List.forall_mem_append.mpr ⟨fun c inName => ?_, List.forall_mem_cons.mpr ⟨rfl, ?_⟩⟩
  · rw [field.mem_codeOf_name c inName, Bool.true_or]
  · refine List.forall_mem_append.mpr ⟨fun c inGaps => ?_, fun c inValue => by cases inValue⟩
    rw [isBlank_of_mem_codeOf (fun _ => Gaps.isGap_of_mem_pieces) c inGaps, Bool.or_true,
      Bool.true_or]

theorem firm_core (field : SpacedField) : Firm field.core := by
  obtain ⟨⟨first, rest, starts, solid⟩, -⟩ := solid_of_isIdentifier field.identifier
  constructor
  · refine ⟨.code first, codes rest ++ field.afterKey.pieces ++
      .code ':' :: (field.beforeValue.pieces ++ [field.value.piece]), ?_, solid⟩
    rw [core, name, starts]
    rfl
  · refine ⟨field.name ++ .code ':' :: field.beforeValue.pieces, field.value.piece, ?_,
      field.value.isGap_piece⟩
    rw [core, List.append_assoc]
    rfl

theorem wellNested_name (field : SpacedField) : WellNested (codeOf field.name) :=
  wellNested_of_class (fun c => isNamePart c || isBlank c) (by decide) field.mem_codeOf_name

theorem wellNested_core (field : SpacedField) : WellNested (codeOf field.core) :=
  wellNested_of_class (fun c => isNamePart c || isBlank c || c == .char ':') (by decide)
    field.mem_codeOf_core

theorem avoids_colon (field : SpacedField) : Avoids (.char ':') field.name :=
  avoids_of_not_mem fun member => absurd (field.mem_codeOf_name _ member) (by decide)

theorem avoids_comma (field : SpacedField) : Avoids (.char ',') field.core :=
  avoids_of_not_mem fun member => absurd (field.mem_codeOf_core _ member) (by decide)

/-- A field as what stands between two commas. -/
def segment (field : SpacedField) : Segment where
  lead := field.beforeKey.pieces
  core := field.core
  trail := field.afterValue.pieces
  gapsLead := fun _ => Gaps.isGap_of_mem_pieces
  gapsTrail := fun _ => Gaps.isGap_of_mem_pieces
  firm := field.firm_core
  nested := field.wellNested_core
  whole := field.avoids_comma

theorem textOf_name (field : SpacedField) : textOf field.name = field.key ++ field.afterKey.text := by
  rw [name, textOf_append, textOf_codes, Gaps.textOf_pieces]

theorem textOf_segment (field : SpacedField) : textOf field.segment.pieces = field.text := by
  simp [Segment.pieces, segment, core, textOf_name, Gaps.textOf_pieces, text]

theorem settled_segment (field : SpacedField) : Settled field.segment.pieces := by
  have plain : ∀ c ∈ field.key, isPlain c = true := fun c member =>
    isPlain_of_isNamePart (isNamePart_of_isIdentifier field.identifier c member)
  have colon : Settled [.code ':'] := settled_code (by decide)
  have name : Settled field.name := (settled_codes plain).append field.afterKey.settled_pieces
  have value := colon.append (field.beforeValue.settled_pieces.append field.value.settled_piece)
  exact field.beforeKey.settled_pieces.append
    ((name.append value).append field.afterValue.settled_pieces)

/-- The text of the value, as it is read. -/
def valueText (field : SpacedField) : Text :=
  strip (field.beforeValue.text ++ field.value.text)

theorem fieldKey?_name (field : SpacedField) :
    fieldKey? (strip (textOf field.name)) = if field.showsKey then some field.key else none := by
  have solid := solid_of_isIdentifier field.identifier
  rw [textOf_name]
  cases shows : field.showsKey with
  | true =>
    rw [strip_blanks_behind solid (Gaps.isBlank_of_isBare shows)]
    exact if_pos field.identifier
  | false =>
    obtain ⟨blanks, rest, slash, -⟩ := Gaps.exists_slash shows
    have inside : .char '/' ∈ strip (field.key ++ field.afterKey.text) :=
      mem_strip (by decide) (by simp [slash])
    have unnamed : ¬ isIdentifier (strip (field.key ++ field.afterKey.text)) = true :=
      fun identifier => not_mem_of_isIdentifier identifier (by decide) inside
    obtain ⟨⟨first, others, starts, notBlank⟩, -⟩ := solid
    have unquoted : isQuote first = false := by
      have plain := isPlain_of_isNamePart
        (isNamePart_of_isIdentifier field.identifier first (by simp [starts]))
      simp only [isPlain, Bool.and_eq_true, Bool.not_eq_true'] at plain
      exact plain.1
    obtain ⟨more, stripped⟩ := strip_starts isBlank_nil notBlank (others ++ field.afterKey.text)
    rw [fieldKey?, if_neg unnamed, starts, List.cons_append]
    rw [List.nil_append] at stripped
    rw [stripped]
    exact literalValue?_of_starts notBlank unquoted more

theorem literalValue?_valueText (field : SpacedField) :
    literalValue? field.valueText = if field.showsValue then some field.value.contents else none := by
  rw [valueText]
  cases shows : field.showsValue with
  | true =>
    rw [strip_of_solid (Gaps.isBlank_of_isBare shows) field.value.solid_text]
    exact field.value.literalValue?_text
  | false =>
    obtain ⟨blanks, rest, slash, blank⟩ := Gaps.exists_slash shows
    have solid : isBlank '/' = false := by decide
    obtain ⟨more, stripped⟩ := strip_starts blank solid (rest ++ field.value.text)
    rw [slash, List.append_assoc, List.cons_append, stripped]
    exact literalValue?_of_starts solid (by decide) more

/-- A field is read if its key shows. -/
theorem fieldOf?_core (field : SpacedField) {text : Text} {span : Span}
    (covers : Covers text span field.core) :
    fieldOf? text span = if field.showsKey then some (field.key, field.valueText) else none := by
  have segment := covers.slice
  obtain ⟨stands, stops⟩ := covers
  have colon : findTopLevel? text ":" span.start (some span.stop) =
      some (span.start + (textOf field.name).length) := by
    rw [stops]
    exact stands.findTopLevel? (by decide) (by decide) field.wellNested_name field.wellNested_core
      field.avoids_colon List.nil_prefix
  have named : slice text span.start (span.start + (textOf field.name).length) =
      textOf field.name := stands.left.slice
  have value : slice text (span.start + (textOf field.name).length + 1) span.stop =
      field.beforeValue.text ++ field.value.text := by
    have right := stands.right.next.slice
    have count : span.stop = span.start + (textOf field.name).length + 1 +
        (textOf (field.beforeValue.pieces ++ [field.value.piece])).length := by
      rw [stops, core, textOf_append, List.length_append, length_textOf_cons, Piece.length_code]
      omega
    rw [count, right, textOf_append, Gaps.textOf_pieces, SpelledString.textOf_piece, textOf_nil,
      List.append_nil]
  obtain ⟨⟨first, rest, starts, -⟩, -⟩ := solid_of_isIdentifier field.identifier
  have notSpread : ("..." : Text).isPrefixOf (textOf field.core) = false := by
    have notDot : ((.char '.' : Symbol) == first) = false :=
      beq_false_of_ne (ne_of_isNamePart
        (isNamePart_of_isIdentifier field.identifier first (by simp [starts])) (by decide)).symm
    rw [core, name, starts, textOf_append, textOf_append, textOf_codes]
    change ((.char '.' : Symbol) == first && _) = false
    rw [notDot, Bool.false_and]
  have nonempty : field.key.isEmpty = false := by rw [starts]; rfl
  rw [fieldOf?, segment, notSpread, colon]
  simp only [Bool.false_eq_true, if_false, named, fieldKey?_name, value]
  cases field.showsKey <;> simp [nonempty, valueText]

end SpacedField

/-! ## Objects -/

/-- An object of such fields as it is written. -/
def spacedObject (fields : List SpacedField) : Text :=
  .char '\x7b' :: (List.intercalate [.char ','] (fields.map SpacedField.text) ++ [.char '\x7d'])

/-- The pieces as which such an object is scanned. -/
def spacedPieces (fields : List SpacedField) : List Piece :=
  enclosed '\x7b' '\x7d' (commaJoined ((fields.map SpacedField.segment).map Segment.pieces))

theorem textOf_spacedPieces (fields : List SpacedField) :
    textOf (spacedPieces fields) = spacedObject fields := by
  have texts : ((fields.map SpacedField.segment).map Segment.pieces).map textOf =
      fields.map SpacedField.text := by
    rw [List.map_map, List.map_map]
    exact List.map_congr_left fun field _ => field.textOf_segment
  rw [spacedPieces, textOf_enclosed, textOf_commaJoined, texts, spacedObject]

theorem settled_spacedPieces (fields : List SpacedField) : Settled (spacedPieces fields) := by
  have opener : Settled [.code '\x7b'] := settled_code (by decide)
  have closer : Settled [.code '\x7d'] := settled_code (by decide)
  refine opener.append (Settled.append (settled_commaJoined ?_) closer)
  rw [List.map_map, List.forall_mem_map]
  exact fun field _ => field.settled_segment

/-- What an object of such fields says: its keys and the texts of their values. -/
def spacedEntries (fields : List SpacedField) : List (Text × Text) :=
  (fields.filter SpacedField.showsKey).map fun field => (field.key, field.valueText)

/-- Wherever such an object stands, the fields whose keys show are read. -/
theorem objectFields_spaced {fields : List SpacedField} {text : Text} {start : Nat}
    (stands : Stands text start (spacedPieces fields)) :
    objectFields text start = .ok (OrderedMap.ofList (spacedEntries fields)) := by
  have close := stands.matchingClose rfl (wellNested_commaJoined _)
  obtain ⟨spans, split, covered⟩ := splitTopLevel_commaJoined stands.next.left
  have read : spans.filterMap (fieldOf? text) = spacedEntries fields := by
    clear split close stands
    rw [List.forall₂_map_right_iff] at covered
    rw [spacedEntries]
    induction covered with
    | nil => rfl
    | @cons span field spans fields covers _ ih =>
      rw [List.filterMap_cons, field.fieldOf?_core covers, List.filter_cons, ih]
      cases field.showsKey <;> rfl
  rw [objectFields, close, ok_bind, split, ok_bind, read]
  rfl

section Distinct

variable {fields : List SpacedField} (distinct : (fields.map (·.key)).Nodup)

theorem keys_spacedEntries (fields : List SpacedField) :
    (spacedEntries fields).map (·.1) = (fields.filter SpacedField.showsKey).map (·.key) := by
  rw [spacedEntries, List.map_map]
  rfl

include distinct

theorem nodup_keys_spacedEntries : ((spacedEntries fields).map (·.1)).Nodup := by
  rw [keys_spacedEntries]
  exact distinct.sublist (List.filter_sublist.map _)

/-- The string that is read for a key: that of its field, if no comment stands between the key and the
value. -/
theorem literalValue?_get? {field : SpacedField} (member : field ∈ fields) :
    ((⟨spacedEntries fields⟩ : Fields).get? field.key).bind literalValue? =
      if field.showsKey && field.showsValue then some field.value.contents else none := by
  cases shows : field.showsKey with
  | true =>
    have listed : (field.key, field.valueText) ∈ spacedEntries fields :=
      List.mem_map.mpr ⟨field, List.mem_filter.mpr ⟨member, shows⟩, rfl⟩
    have found : (⟨spacedEntries fields⟩ : Fields).get? field.key = some field.valueText :=
      OrderedMap.get?_of_mem (nodup_keys_spacedEntries distinct) listed
    rw [found, Option.bind_some, field.literalValue?_valueText, Bool.true_and]
  | false =>
    cases found : (⟨spacedEntries fields⟩ : Fields).get? field.key with
    | none => rfl
    | some value =>
      obtain ⟨other, listed, same⟩ := List.mem_map.mp (OrderedMap.mem_of_get? found)
      obtain ⟨inFields, shown⟩ := List.mem_filter.mp listed
      have key : other.key = field.key := (Prod.mk.inj same).1
      rw [List.inj_on_of_nodup_map distinct inFields member key, shows] at shown
      cases shown

end Distinct

/-- What layout does to an object with distinct keys: white space and comments change nothing around
the fields and the commas, and white space nothing inside a field either. A field with a comment
between its key and its colon is not read at all, and one with a comment between the colon and the
string is not read as that string. So the object is read as what it says just if neither occurs. -/
theorem object_layout (fields : List SpacedField) (distinct : (fields.map (·.key)).Nodup) :
    ∃ found, objectFields (spacedObject fields) 0 = .ok found ∧
      found.keys = (fields.filter (·.afterKey.isBare)).map (·.key) ∧
      (∀ field ∈ fields, (found.get? field.key).bind literalValue? =
        if field.afterKey.isBare && field.beforeValue.isBare then some field.value.contents
        else none) ∧
      ((found.keys = fields.map (·.key) ∧ ∀ field ∈ fields,
          (found.get? field.key).bind literalValue? = some field.value.contents) ↔
        ∀ field ∈ fields, field.afterKey.isBare = true ∧ field.beforeValue.isBare = true) := by
  have stands := (settled_spacedPieces fields).stands
  rw [textOf_spacedPieces] at stands
  have read := objectFields_spaced stands
  rw [OrderedMap.ofList_of_nodup (nodup_keys_spacedEntries distinct)] at read
  have keys := keys_spacedEntries fields
  have values := fun field (member : field ∈ fields) => literalValue?_get? distinct member
  refine ⟨⟨spacedEntries fields⟩, read, keys, values, ?_⟩
  constructor
  · rintro ⟨-, whole⟩ field member
    have shown := (values field member).symm.trans (whole field member)
    split at shown
    · rename_i bare
      exact Bool.and_eq_true_iff.mp bare
    · cases shown
  · intro bare
    constructor
    · have all : fields.filter SpacedField.showsKey = fields :=
        List.filter_eq_self.mpr fun field member => (bare field member).1
      rw [← keys.trans (congrArg _ all)]
      rfl
    · intro field member
      rw [values field member]
      exact if_pos (Bool.and_eq_true_iff.mpr (bare field member))

theorem isBlank_space : isBlank ' ' = true := by decide

theorem sampleLine_ends : (.char '\n' : Symbol) ∉ (" it's: '\x7d', " : Text) := by decide

theorem sampleBlock_ends : ¬ [.char '*', .char '/'] <:+: ("'\x7d,:" : Text) := by decide

theorem sampleItems_fit : ∀ item ∈ [StringItem.plain 'x', .escaped '\'', .escaped 'n'],
    item.FitsIn .single := by
  intro item member
  simp only [List.mem_cons, List.not_mem_nil, or_false] at member
  rcases member with rfl | rfl | rfl
  · exact ⟨by decide, by decide, .inr (by decide)⟩
  · trivial
  · trivial

theorem sampleKey_isIdentifier : isIdentifier "a" = true ∧ isIdentifier "b" = true := by decide

/-- The string `'x\'\n'`, in which only the first backslash is dropped. -/
def sampleString : SpelledString :=
  ⟨.single, [.plain 'x', .escaped '\'', .escaped 'n'], sampleItems_fit⟩

/-- A field with comments around it, and one with a comment behind its key. -/
def sampleFields : SpacedField × SpacedField :=
  (⟨[.blank ' ' isBlank_space, .line _ sampleLine_ends], "a", [.blank ' ' isBlank_space],
      [.blank ' ' isBlank_space], sampleString, [.block _ sampleBlock_ends],
      sampleKey_isIdentifier.1⟩,
    ⟨[], "b", [.block _ sampleBlock_ends], [], sampleString, [], sampleKey_isIdentifier.2⟩)

theorem object_layout_sample :
    ([sampleFields.1, sampleFields.2].map (·.key)).Nodup ∧
      ∃ found, objectFields (spacedObject [sampleFields.1, sampleFields.2]) 0 = .ok found ∧
        found.keys = ["a"] ∧ (found.get? "a").bind literalValue? = some "x'\\n" := by
  have distinct : ([sampleFields.1, sampleFields.2].map (·.key)).Nodup := by decide
  obtain ⟨found, read, keys, values, -⟩ := object_layout [sampleFields.1, sampleFields.2] distinct
  have first := values sampleFields.1 List.mem_cons_self
  refine ⟨distinct, found, read, keys.trans (by decide), first.trans (by decide)⟩

/-- A comment is layout, but not between a key and its colon. -/
theorem field_lost_of_comment :
    spacedObject [sampleFields.2] = "\x7bb/*'\x7d,:*/:'x\\'\\n'\x7d" ∧
      ([sampleFields.2].map (·.key)).Nodup ∧
      objectFields (spacedObject [sampleFields.2]) 0 = .ok ⟨[]⟩ :=
  ⟨by decide, by decide, by decide +kernel⟩

end SuiteDocs.Source
