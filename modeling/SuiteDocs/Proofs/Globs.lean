import SuiteDocs.Pattern.Glob
import SuiteDocs.Proofs.Names

/-!
What patterns select.

A pattern is read from left to right into elements, and it selects a path of one line just if the path
can be cut into consecutive parts of which each is one that its element stands for.
-/

set_option autoImplicit false

namespace SuiteDocs

namespace Text

theorem bne_of_mem {c d : Symbol} {text : Text} (absent : d ∉ text) (member : c ∈ text) :
    (c != d) = true :=
  bne_iff_ne.mpr fun same => absent (same ▸ member)

/-- A text up to a character, the character, and the rest. -/
theorem takeWhile_append_drop {c : Symbol} {text : Text} (member : c ∈ text) :
    text.takeWhile (· != c) ++ c :: text.drop ((text.takeWhile (· != c)).length + 1) = text := by
  induction text with
  | nil => cases member
  | cons d rest ih =>
    by_cases here : d = c
    · simp [here]
    · have later : c ∈ rest := (List.mem_cons.mp member).resolve_left (Ne.symm here)
      rw [List.takeWhile_cons_of_pos (by simpa using here), List.length_cons, List.drop_succ_cons,
        List.cons_append, ih later]

end Text

namespace Glob

open SuiteDocs.Text

/-! ## Reading a pattern -/

/-- How a pattern is read from left to right: as many stars as there are elements for, options up to
the first closing brace, and every other character for itself. -/
inductive Spells : Text → List Token → Prop where
  | done : Spells [] []
  | directories {rest : Text} {read : List Token} (later : Spells rest read) :
      Spells (.char '*' :: .char '*' :: .char '/' :: rest) (.directories :: read)
  | anyText {rest : Text} {read : List Token} (unslashed : rest.head? ≠ some (.char '/'))
      (later : Spells rest read) : Spells (.char '*' :: .char '*' :: rest) (.anyText :: read)
  | anyName {rest : Text} {read : List Token} (single : rest.head? ≠ some (.char '*'))
      (later : Spells rest read) : Spells (.char '*' :: rest) (.anyName :: read)
  | anyChar {rest : Text} {read : List Token} (later : Spells rest read) :
      Spells (.char '?' :: rest) (.anyChar :: read)
  | options {inner rest : Text} {choices : List Text} {read : List Token}
      (closed : .char '\x7d' ∉ inner) (some : choices ≠ [])
      (joined : List.intercalate [.char ','] choices = inner)
      (whole : ∀ choice ∈ choices, .char ',' ∉ choice) (later : Spells rest read) :
      Spells (.char '\x7b' :: (inner ++ .char '\x7d' :: rest)) (.options choices :: read)
  | brace {rest : Text} {read : List Token} (unclosed : .char '\x7d' ∉ rest)
      (later : Spells rest read) : Spells (.char '\x7b' :: rest) (.char '\x7b' :: read)
  | char {c : Symbol} {rest : Text} {read : List Token}
      (ordinary : c ≠ .char '*' ∧ c ≠ .char '?' ∧ c ≠ .char '\x7b') (later : Spells rest read) :
      Spells (c :: rest) (.char c :: read)

theorem spells_tokens (pattern : Text) : Spells pattern (tokens pattern) := by
  fun_induction tokens pattern with
  | case1 => exact .done
  | case2 rest ih => exact .directories ih
  | case3 rest unslashed ih =>
    refine .anyText (fun slash => ?_) ih
    obtain ⟨more, rfl⟩ := List.head?_eq_some_iff.mp slash
    exact unslashed more rfl
  | case4 rest _ single ih =>
    refine .anyName (fun star => ?_) ih
    obtain ⟨more, rfl⟩ := List.head?_eq_some_iff.mp star
    exact single more rfl
  | case5 rest ih => exact .anyChar ih
  | case6 c rest _ _ _ _ closed inner ih =>
    rw [Bool.and_eq_true_iff, beq_iff_eq, List.contains_iff_mem] at closed
    obtain ⟨rfl, member⟩ := closed
    have within : .char '\x7d' ∉ inner := fun inside => by
      simpa using List.mem_takeWhile_imp inside
    have spelled := Spells.options within (splitOn_ne_nil ',' inner) (intercalate_splitOn ',' inner)
      (fun _ => not_mem_of_mem_splitOn) ih
    rwa [takeWhile_append_drop member] at spelled
  | case7 c rest _ _ notStar notMark unclosed ih =>
    by_cases brace : c = .char '\x7b'
    · obtain rfl := brace
      exact .brace (by simpa using unclosed) ih
    · exact .char ⟨notStar, notMark, brace⟩ ih

theorem tokens_cons {c : Symbol} (notStar : c ≠ .char '*') (notMark : c ≠ .char '?') (rest : Text) :
    tokens (c :: rest) =
      if (c == '\x7b' && rest.contains '\x7d') = true then
        .options (splitOn ',' (rest.takeWhile (· != .char '\x7d'))) ::
          tokens (rest.drop ((rest.takeWhile (· != .char '\x7d')).length + 1))
      else .char c :: tokens rest := by
  rw [tokens]
  · exact fun _ star => absurd star notStar
  · exact fun _ star => absurd star notStar
  · exact notStar
  · exact notMark

theorem tokens_of_spells {pattern : Text} {read : List Token} (spelled : Spells pattern read) :
    tokens pattern = read := by
  induction spelled with
  | done => rw [tokens]
  | directories later ih => rw [tokens, ih]
  | anyText unslashed later ih =>
    rw [tokens, ih]
    rintro rest rfl
    exact unslashed rfl
  | anyName single later ih =>
    rw [tokens, ih]
    · rintro rest rfl
      exact single rfl
    · rintro rest rfl
      exact single rfl
  | anyChar later ih => rw [tokens, ih]
  | @options inner rest choices read closed some joined whole later ih =>
    have taken : (inner ++ .char '\x7d' :: rest).takeWhile (· != .char '\x7d') = inner := by
      rw [List.takeWhile_append_of_pos fun _ => bne_of_mem closed,
        List.takeWhile_cons_of_neg (by simp), List.append_nil]
    have dropped : (inner ++ .char '\x7d' :: rest).drop (inner.length + 1) = rest := by
      rw [List.drop_length_add_append, List.drop_succ_cons, List.drop_zero]
    rw [tokens_cons (by decide) (by decide), if_pos (by simp), taken, dropped, ih, ← joined,
      splitOn_intercalate some whole]
  | brace unclosed later ih =>
    rw [tokens_cons (by decide) (by decide), if_neg (by simpa using unclosed), ih]
  | char ordinary later ih =>
    rw [tokens_cons ordinary.1 ordinary.2.1, if_neg (by simp [ordinary.2.2]), ih]

/-! ## Cutting a path -/

/-- Whether an element of a pattern stands for a text. -/
def Token.Matches : Token → Text → Prop
  | .directories, part => part = [] ∨ ∃ inner, part = inner ++ [.char '/']
  | .anyText, _ => True
  | .anyName, part => .char '/' ∉ part
  | .anyChar, part => ∃ c, c ≠ .char '/' ∧ part = [c]
  | .options choices, part => part ∈ choices
  | .char c, part => part = [c]

theorem afterSome_iff {inClass : Symbol → Bool} {accepts : Text → Bool} {text : Text} :
    afterSome inClass accepts text = true ↔ ∃ part rest, text = part ++ rest ∧
      (∀ c ∈ part, inClass c = true) ∧ accepts rest = true := by
  induction text with
  | nil =>
    constructor
    · intro accepted
      exact ⟨[], [], rfl, by simp, accepted⟩
    · rintro ⟨part, rest, cut, -, accepted⟩
      obtain ⟨rfl, rfl⟩ := List.append_eq_nil_iff.mp cut.symm
      exact accepted
  | cons c text ih =>
    rw [afterSome, Bool.or_eq_true_iff, Bool.and_eq_true_iff, ih]
    constructor
    · rintro (accepted | ⟨inside, part, rest, rfl, others, accepted⟩)
      · exact ⟨[], c :: text, rfl, by simp, accepted⟩
      · exact ⟨c :: part, rest, rfl, List.forall_mem_cons.mpr ⟨inside, others⟩, accepted⟩
    · rintro ⟨part, rest, cut, inside, accepted⟩
      cases part with
      | nil => exact .inl (cut ▸ accepted)
      | cons d part =>
        obtain ⟨rfl, rfl⟩ := List.cons.inj cut
        obtain ⟨first, others⟩ := List.forall_mem_cons.mp inside
        exact .inr ⟨first, part, rest, rfl, others, accepted⟩

theorem afterSlash_iff {accepts : Text → Bool} {text : Text} (oneLine : .char '\n' ∉ text) :
    afterSlash accepts text = true ↔
      ∃ inner rest, text = inner ++ .char '/' :: rest ∧ accepts rest = true := by
  induction text with
  | nil => simp [afterSlash]
  | cons c text ih =>
    obtain ⟨notBreak, later⟩ := not_or.mp (mt List.mem_cons.mpr oneLine)
    have goesOn : (c != .char '\n') = true := by simpa using Ne.symm notBreak
    rw [afterSlash, Bool.or_eq_true_iff, Bool.and_eq_true_iff, goesOn, Bool.true_and, ih later,
      beq_iff_eq]
    constructor
    · rintro (⟨rfl, accepted⟩ | ⟨inner, rest, rfl, accepted⟩)
      · exact ⟨[], text, rfl, accepted⟩
      · exact ⟨c :: inner, rest, rfl, accepted⟩
    · rintro ⟨inner, rest, cut, accepted⟩
      cases inner with
      | nil =>
        obtain ⟨rfl, rfl⟩ := List.cons.inj cut
        exact .inl ⟨rfl, accepted⟩
      | cons d inner =>
        obtain ⟨rfl, rfl⟩ := List.cons.inj cut
        exact .inr ⟨inner, rest, rfl, accepted⟩

/-- An element fits some part of a path, and the elements behind it fit the rest. -/
theorem fits_cons_iff {token : Token} {read : List Token} {text : Text}
    (oneLine : .char '\n' ∉ text) :
    fits (token :: read) text = true ↔
      ∃ part rest, text = part ++ rest ∧ token.Matches part ∧ fits read rest = true := by
  cases token with
  | directories =>
    rw [fits, Bool.or_eq_true_iff, afterSlash_iff oneLine]
    constructor
    · rintro (fitting | ⟨inner, rest, rfl, fitting⟩)
      · exact ⟨[], text, rfl, .inl rfl, fitting⟩
      · exact ⟨inner ++ [.char '/'], rest, by simp, .inr ⟨inner, rfl⟩, fitting⟩
    · rintro ⟨part, rest, rfl, rfl | ⟨inner, rfl⟩, fitting⟩
      · exact .inl fitting
      · exact .inr ⟨inner, rest, by simp, fitting⟩
  | anyText =>
    rw [fits, afterSome_iff]
    constructor
    · rintro ⟨part, rest, cut, -, fitting⟩
      exact ⟨part, rest, cut, trivial, fitting⟩
    · rintro ⟨part, rest, rfl, -, fitting⟩
      have noBreak := mt (List.mem_append_left rest) oneLine
      exact ⟨part, rest, rfl, fun _ => bne_of_mem noBreak, fitting⟩
  | anyName =>
    rw [fits, afterSome_iff]
    constructor
    · rintro ⟨part, rest, cut, inside, fitting⟩
      exact ⟨part, rest, cut, fun slash => by simpa using inside _ slash, fitting⟩
    · rintro ⟨part, rest, cut, inside, fitting⟩
      exact ⟨part, rest, cut, fun _ => bne_of_mem inside, fitting⟩
  | anyChar =>
    constructor
    · intro fitting
      cases text with
      | nil => cases fitting
      | cons c rest =>
        obtain ⟨other, fitting⟩ := Bool.and_eq_true_iff.mp fitting
        exact ⟨[c], rest, rfl, ⟨c, bne_iff_ne.mp other, rfl⟩, fitting⟩
    · rintro ⟨_, rest, rfl, ⟨c, other, rfl⟩, fitting⟩
      exact Bool.and_eq_true_iff.mpr ⟨bne_iff_ne.mpr other, fitting⟩
  | options choices =>
    rw [fits, List.any_eq_true]
    constructor
    · rintro ⟨choice, member, fitting⟩
      obtain ⟨leads, fitting⟩ := Bool.and_eq_true_iff.mp fitting
      obtain ⟨rest, rfl⟩ := List.isPrefixOf_iff_prefix.mp leads
      rw [List.drop_left] at fitting
      exact ⟨choice, rest, rfl, member, fitting⟩
    · rintro ⟨choice, rest, rfl, member, fitting⟩
      refine ⟨choice, member, Bool.and_eq_true_iff.mpr ⟨?_, ?_⟩⟩
      · exact List.isPrefixOf_iff_prefix.mpr (List.prefix_append choice rest)
      · rwa [List.drop_left]
  | char c =>
    constructor
    · intro fitting
      cases text with
      | nil => cases fitting
      | cons d rest =>
        obtain ⟨same, fitting⟩ := Bool.and_eq_true_iff.mp fitting
        exact ⟨[d], rest, rfl, by rw [eq_of_beq same]; rfl, fitting⟩
    · rintro ⟨_, rest, rfl, rfl, fitting⟩
      exact Bool.and_eq_true_iff.mpr ⟨BEq.rfl, fitting⟩

theorem fits_iff {read : List Token} {text : Text} (oneLine : .char '\n' ∉ text) :
    fits read text = true ↔
      ∃ parts, List.Forall₂ Token.Matches read parts ∧ parts.flatten = text := by
  induction read generalizing text with
  | nil =>
    rw [fits, List.isEmpty_iff]
    constructor
    · rintro rfl
      exact ⟨[], .nil, rfl⟩
    · rintro ⟨parts, matching, rfl⟩
      rw [List.forall₂_nil_left_iff.mp matching, List.flatten_nil]
  | cons token read ih =>
    rw [fits_cons_iff oneLine]
    constructor
    · rintro ⟨part, rest, rfl, fitting, later⟩
      obtain ⟨parts, matching, rfl⟩ := (ih (mt (List.mem_append_right part) oneLine)).mp later
      exact ⟨part :: parts, .cons fitting matching, rfl⟩
    · rintro ⟨_, matching, rfl⟩
      obtain ⟨part, parts, fitting, others, rfl⟩ := List.forall₂_cons_left_iff.mp matching
      refine ⟨part, parts.flatten, rfl, fitting, (ih ?_).mpr ⟨parts, others, rfl⟩⟩
      exact mt (List.mem_append_right part) oneLine

theorem clean_iff {pattern shown : Text} : clean pattern = shown ↔
    exchange '\\' '/' pattern = .char '.' :: .char '/' :: shown ∨
      exchange '\\' '/' pattern = shown ∧ ¬ [.char '.', .char '/'] <+: shown := by
  unfold clean
  generalize exchange '\\' '/' pattern = slashed
  split
  next rest =>
    constructor
    · rintro rfl
      exact .inl rfl
    · rintro (dotted | ⟨rfl, bare⟩)
      · cases dotted
        rfl
      · exact absurd ⟨rest, rfl⟩ bare
  next bare =>
    constructor
    · rintro rfl
      refine .inr ⟨rfl, ?_⟩
      rintro ⟨rest, rfl⟩
      exact bare rest rfl
    · rintro (dotted | ⟨same, -⟩)
      · exact absurd dotted (bare shown)
      · exact same

theorem exchange_oneLine {text : Text} (oneLine : .char '\n' ∉ text) :
    .char '\n' ∉ exchange '\\' '/' text := by
  intro member
  obtain ⟨c, inside, same⟩ := List.mem_map.mp member
  split at same
  · cases same
  · exact oneLine (same ▸ inside)

/-- A pattern selects a path of one line just if the path, with slashes for backslashes, can be cut
into consecutive parts that the elements of the pattern stand for in their order. The pattern is read
with slashes for backslashes too, and without one leading `./`. -/
theorem selects_iff_cut {pattern path : Text} (oneLine : .char '\n' ∉ path) :
    selects pattern path = true ↔ ∃ shown read parts,
      (exchange '\\' '/' pattern = .char '.' :: .char '/' :: shown ∨
        exchange '\\' '/' pattern = shown ∧ ¬ [.char '.', .char '/'] <+: shown) ∧
      Spells shown read ∧ List.Forall₂ Token.Matches read parts ∧
      parts.flatten = exchange '\\' '/' path := by
  rw [selects, fits_iff (exchange_oneLine oneLine)]
  constructor
  · rintro ⟨parts, matching, whole⟩
    exact ⟨clean pattern, tokens (clean pattern), parts, clean_iff.mp rfl, spells_tokens _,
      matching, whole⟩
  · rintro ⟨shown, read, parts, cleaned, spelled, matching, whole⟩
    obtain rfl := clean_iff.mpr cleaned
    obtain rfl := tokens_of_spells spelled
    exact ⟨parts, matching, whole⟩

/-- A pattern with every kind of element but two stars without a slash, and a path that it selects. -/
def sampleSelection : Text × Text :=
  (".\\e2e/**/\x7bsign,log\x7d*.spec.?s", "e2e\\auth/web/login.spec.ts")

theorem selects_iff_cut_sample :
    selects sampleSelection.1 sampleSelection.2 = true ∧
      selects sampleSelection.1 "e2e/auth/relogin.spec.ts" = false ∧
      ∃ shown read parts,
        (exchange '\\' '/' sampleSelection.1 = .char '.' :: .char '/' :: shown ∨
          exchange '\\' '/' sampleSelection.1 = shown ∧ ¬ [.char '.', .char '/'] <+: shown) ∧
        Spells shown read ∧ List.Forall₂ Token.Matches read parts ∧
        parts.flatten = exchange '\\' '/' sampleSelection.2 := by
  have selected : selects sampleSelection.1 sampleSelection.2 = true := by decide +kernel
  exact ⟨selected, by decide +kernel, (selects_iff_cut (by decide)).mp selected⟩

end Glob

end SuiteDocs
