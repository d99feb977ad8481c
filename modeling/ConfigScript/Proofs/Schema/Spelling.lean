import Mathlib.Data.List.DropRight
import ConfigScript.Proofs.Schema.TypeText

/-!
# Spellings of configure lambdas

Each style reads back what it spells, for every class name: no blank, parenthesis or angle bracket
can stand in a name, so neither trimming nor cutting takes anything off it. A spelling is therefore
never mistaken for a type, and distinct classes have distinct spellings.
-/

namespace ConfigScript

namespace Text

/-- The code points of the blanks, one by one. -/
def blankPoints : List Nat :=
  blankRanges.flatMap fun range => List.range' range.1 (range.2 + 1 - range.1)

theorem mem_blankPoints {c : Char} (h : isBlank c = true) : c.toNat ∈ blankPoints := by
  obtain ⟨range, hrange, hc⟩ := List.any_eq_true.mp h
  simp only [CharRange.contains, Bool.and_eq_true, decide_eq_true_eq] at hc
  obtain ⟨hfirst, hlast⟩ := hc
  refine List.mem_flatMap.mpr ⟨range, hrange, List.mem_range'_1.mpr ⟨hfirst, ?_⟩⟩
  omega

theorem trimStart_eq_self {cs : List Char} (h : ∀ c ∈ cs.head?, isBlank c = false) :
    trimStart cs = cs := by
  cases cs with
  | nil => rfl
  | cons c cs => exact List.dropWhile_cons_of_neg (by simp [h c rfl])

theorem trimEnd_eq_self {cs : List Char} (h : ∀ c ∈ cs.getLast?, isBlank c = false) :
    trimEnd cs = cs := by
  have hreverse : trimStart cs.reverse = cs.reverse :=
    trimStart_eq_self (by rwa [List.head?_reverse])
  rw [trimEnd, ← trimStart, hreverse, List.reverse_reverse]

/-- A text that neither begins nor ends with a blank is not trimmed. -/
theorem trim_eq_self {cs : List Char} (hfirst : ∀ c ∈ cs.head?, isBlank c = false)
    (hlast : ∀ c ∈ cs.getLast?, isBlank c = false) : trim cs = cs := by
  rw [trim, trimStart_eq_self hfirst, trimEnd_eq_self hlast]

/-- A text of at least one character, with no blank at its ends. -/
structure Solid (cs : List Char) : Prop where
  ne_nil : cs ≠ []
  first : ∀ c ∈ cs.head?, isBlank c = false
  last : ∀ c ∈ cs.getLast?, isBlank c = false

theorem solid_iff {cs : List Char} : Solid cs ↔
    cs ≠ [] ∧ cs.head?.all (!isBlank ·) = true ∧ cs.getLast?.all (!isBlank ·) = true := by
  simp only [Option.all_eq_true, Bool.not_eq_true']
  exact ⟨fun h => ⟨h.ne_nil, h.first, h.last⟩, fun ⟨hne, hfirst, hlast⟩ => ⟨hne, hfirst, hlast⟩⟩

instance (cs : List Char) : Decidable (Solid cs) :=
  decidable_of_iff _ solid_iff.symm

theorem Solid.trim_eq_self {cs : List Char} (h : Solid cs) : trim cs = cs :=
  Text.trim_eq_self h.first h.last

theorem Solid.append {front behind : List Char} (hfront : Solid front) (hbehind : Solid behind)
    (middle : List Char) : Solid (front ++ (middle ++ behind)) where
  ne_nil := by simp [hfront.ne_nil]
  first c hc := by
    rw [List.head?_append_of_ne_nil _ hfront.ne_nil] at hc
    exact hfront.first c hc
  last c hc := by
    rw [← List.append_assoc, List.getLast?_append_of_ne_nil _ hbehind.ne_nil] at hc
    exact hbehind.last c hc

/-- Blanks in front of a text are trimmed whatever follows its first other character. -/
theorem trimStart_append {c : Char} (hc : isBlank c = false) (before after : List Char) :
    trimStart (before ++ c :: after) = trimStart before ++ c :: after := by
  induction before with
  | nil => exact trimStart_eq_self (by simpa using hc)
  | cons first before ih =>
    by_cases hfirst : isBlank first = true
    · simpa [trimStart, hfirst] using ih
    · simp [trimStart, hfirst]

theorem mem_trim {c : Char} (hc : isBlank c = false) {cs : List Char} (h : c ∈ cs) :
    c ∈ trim cs := by
  have hstart : ∀ {cs : List Char}, c ∈ cs → c ∈ trimStart cs := by
    intro cs h
    obtain ⟨before, after, rfl⟩ := List.append_of_mem h
    rw [trimStart_append hc]
    simp
  exact List.mem_reverse.mpr (hstart (List.mem_reverse.mpr (hstart h)))

theorem isBlank_of_head?_trimStart {c : Char} {cs : List Char} (h : c ∈ (trimStart cs).head?) :
    isBlank c = false := by
  have hnot := List.head?_dropWhile_not isBlank cs
  rw [← trimStart, Option.mem_def.mp h] at hnot
  exact hnot

theorem trim_trimStart (cs : List Char) : trim (trimStart cs) = trim cs := by
  rw [trim, trimStart_eq_self fun _ => isBlank_of_head?_trimStart, trim]

theorem isBlank_of_head?_trim {c : Char} {cs : List Char} (h : c ∈ (trim cs).head?) :
    isBlank c = false := by
  obtain ⟨ended, hended⟩ : trim cs <+: trimStart cs := List.rdropWhile_prefix isBlank _
  have hhead : c ∈ (trimStart cs).head? := by
    rw [← hended, List.head?_append, Option.mem_def.mp h]
    rfl
  exact isBlank_of_head?_trimStart hhead

theorem isBlank_of_getLast?_trim {c : Char} {cs : List Char} (h : c ∈ (trim cs).getLast?) :
    isBlank c = false := by
  rw [trim, trimEnd, List.getLast?_reverse] at h
  exact isBlank_of_head?_trimStart h

theorem solid_trim {cs : List Char} (h : trim cs ≠ []) : Solid (trim cs) where
  ne_nil := h
  first _ := isBlank_of_head?_trim
  last _ := isBlank_of_getLast?_trim

theorem trim_trim (cs : List Char) : trim (trim cs) = trim cs :=
  trim_eq_self (fun _ => isBlank_of_head?_trim) fun _ => isBlank_of_getLast?_trim

theorem dropEnd?_eq_some_iff {piece cs rest : List Char} :
    dropEnd? piece cs = some rest ↔ cs = rest ++ piece := by
  simp only [dropEnd?, Option.map_eq_some_iff, dropStart?_eq_some_iff]
  constructor
  · rintro ⟨reversed, hreversed, rfl⟩
    apply List.reverse_injective
    rw [hreversed, List.reverse_append, List.reverse_reverse]
  · rintro rfl
    exact ⟨rest.reverse, List.reverse_append, List.reverse_reverse rest⟩

end Text

theorem continuesIdentifier_of_mem_blankPoints :
    ∀ point ∈ Text.blankPoints, continuesIdentifier (Char.ofNat point) = false := by
  decide +kernel

theorem isBlank_of_continuesIdentifier {c : Char} (h : continuesIdentifier c = true) :
    Text.isBlank c = false := by
  by_contra hblank
  have hpoint := Text.mem_blankPoints (by simpa using hblank)
  have hfalse := continuesIdentifier_of_mem_blankPoints c.toNat hpoint
  rw [Char.ofNat_toNat, h] at hfalse
  cases hfalse

namespace QualifiedName

variable (name : QualifiedName)

theorem isBlank_of_mem {c : Char} (h : c ∈ name.text.toList) : Text.isBlank c = false := by
  cases mem_of_isQualified name.qualified h with
  | inl hdot =>
    subst hdot
    decide
  | inr hcontinues => exact isBlank_of_continuesIdentifier hcontinues

/-- No name holds the mark behind a receiver. -/
theorem mark_notInfix : ¬ ['.', '(', ')'] <:+: name.text.toList := by
  intro h
  have hparenthesis : '(' ∈ name.text.toList := h.subset (by simp)
  exact absurd (mem_of_isQualified name.qualified hparenthesis) (by decide)

theorem toList_ne_nil : name.text.toList ≠ [] := by
  intro h
  have hqualified := name.qualified
  rw [h] at hqualified
  exact absurd hqualified (by decide)

theorem solid_toList : Text.Solid name.text.toList where
  ne_nil := name.toList_ne_nil
  first _ hc := name.isBlank_of_mem (List.mem_of_mem_head? hc)
  last _ hc := name.isBlank_of_mem (List.mem_of_mem_getLast? hc)

end QualifiedName

/-- A text that reads as a type. -/
def TypeRef.Reads (text : String) : Prop :=
  ∃ type, TypeRef.parse text = .ok type

instance (text : String) : Decidable (TypeRef.Reads text) :=
  decidable_of_iff ((TypeRef.parse text).toOption.isSome = true) (by
    rw [Option.isSome_iff_exists]
    exact exists_congr fun type => Fallible.toOption_eq_some)

namespace LambdaStyle

variable {style other : LambdaStyle} {text configured : String}

theorem configuredType?_eq_some_iff_inner? : style.configuredType? text = some configured ↔
    ∃ inner, style.inner? (Text.trim text.toList) = some inner ∧ Text.trim inner ≠ [] ∧
      String.ofList (Text.trim inner) = configured := by
  simp only [configuredType?, Option.bind_eq_bind, Option.bind_eq_some_iff]
  refine exists_congr fun inner => and_congr_right fun _ => ?_
  by_cases hempty : Text.trim inner = []
  · simp [hempty]
  · simp [hempty]

theorem inner?_receiverFunction_eq_some_iff {cs receiver : List Char} :
    inner? .receiverFunction cs = some receiver ↔
      ∃ result unit, Text.cutAt? ['.', '(', ')'] cs = some (receiver, result) ∧
        Text.trim result = ['-', '>'] ++ unit ∧ Text.trim unit = ['U', 'n', 'i', 't'] := by
  simp only [inner?, Option.bind_eq_bind, Option.bind_eq_some_iff, Prod.exists,
    Text.dropStart?_eq_some_iff, Option.ite_none_right_eq_some, Option.some.injEq]
  constructor
  · rintro ⟨before, result, hcut, unit, hresult, hunit, rfl⟩
    exact ⟨result, unit, hcut, hresult, hunit⟩
  · rintro ⟨result, unit, hcut, hresult, hunit⟩
    exact ⟨receiver, result, hcut, unit, hresult, hunit, rfl⟩

theorem inner?_actionInterface_eq_some_iff {cs inner : List Char} :
    inner? .actionInterface cs = some inner ↔
      cs = ['A', 'c', 't', 'i', 'o', 'n', '<'] ++ (inner ++ ['>']) := by
  simp only [inner?, Option.bind_eq_bind, Option.bind_eq_some_iff, Text.dropStart?_eq_some_iff,
    Text.dropEnd?_eq_some_iff]
  constructor
  · rintro ⟨rest, rfl, rfl⟩
    rfl
  · rintro rfl
    exact ⟨_, rfl, rfl⟩

/-- A text in front of `.()` that holds no `.()` itself is cut off whole. -/
theorem cutAt?_receiver {before : List Char} (h : ¬ ['.', '(', ')'] <:+: before)
    (after : List Char) :
    Text.cutAt? ['.', '(', ')'] (before ++ ['.', '(', ')'] ++ after) = some (before, after) := by
  induction before with
  | nil => simp [Text.cutAt?, Text.dropStart?]
  | cons c before ih =>
    rw [List.infix_cons_iff, not_or] at h
    have hnot : Text.dropStart? ['.', '(', ')'] (c :: (before ++ ['.', '(', ')'] ++ after)) =
        none := by
      rw [Option.eq_none_iff_forall_ne_some]
      intro rest hrest
      have hpiece := Text.dropStart?_eq_some_iff.mp hrest
      -- A piece that starts at `c` ends before the piece behind the text, or overlaps it.
      match before with
      | [] => simp at hpiece
      | [_] => simp at hpiece
      | _ :: _ :: before =>
        simp only [List.cons_append, List.cons.injEq, List.nil_append] at hpiece
        obtain ⟨rfl, rfl, rfl, -⟩ := hpiece
        exact h.1 ⟨before, rfl⟩
    simp only [List.cons_append] at hnot ⊢
    simp only [Text.cutAt?, hnot, ih h.2, Option.map_some]

theorem toList_spell_receiverFunction (typeName : String) :
    (spell .receiverFunction typeName).toList =
      typeName.toList ++ ['.', '(', ')'] ++ [' ', '-', '>', ' ', 'U', 'n', 'i', 't'] := by
  simp [spell]

theorem toList_spell_actionInterface (typeName : String) :
    (spell .actionInterface typeName).toList =
      ['A', 'c', 't', 'i', 'o', 'n', '<'] ++ (typeName.toList ++ ['>']) := by
  simp [spell]

theorem solid_actionInterface (inner : List Char) :
    Text.Solid (['A', 'c', 't', 'i', 'o', 'n', '<'] ++ (inner ++ ['>'])) := by
  have hfront : Text.Solid ['A', 'c', 't', 'i', 'o', 'n', '<'] := by decide
  have hbehind : Text.Solid ['>'] := by decide
  exact hfront.append hbehind inner

theorem solid_spell (name : QualifiedName) : Text.Solid (style.spell name.text).toList := by
  cases style with
  | receiverFunction =>
    have hbehind : Text.Solid ['-', '>', ' ', 'U', 'n', 'i', 't'] := by decide
    simpa [spell] using name.solid_toList.append hbehind ['.', '(', ')', ' ']
  | actionInterface =>
    rw [toList_spell_actionInterface]
    exact solid_actionInterface name.text.toList

theorem inner?_spell (name : QualifiedName) :
    style.inner? (style.spell name.text).toList = some name.text.toList := by
  cases style with
  | receiverFunction =>
    refine inner?_receiverFunction_eq_some_iff.mpr
      ⟨[' ', '-', '>', ' ', 'U', 'n', 'i', 't'], [' ', 'U', 'n', 'i', 't'], ?_, by decide, by decide⟩
    rw [toList_spell_receiverFunction, cutAt?_receiver name.mark_notInfix]
  | actionInterface =>
    exact inner?_actionInterface_eq_some_iff.mpr (toList_spell_actionInterface name.text)

/-- A style reads the class back from its spelling. -/
theorem configuredType?_spell (name : QualifiedName) :
    style.configuredType? (style.spell name.text) = some name.text := by
  rw [configuredType?, (solid_spell name).trim_eq_self, inner?_spell]
  simp [name.solid_toList.trim_eq_self, name.toList_ne_nil]

/-- What stands in front of the last parenthesis of a text is one part of it only. -/
theorem eq_of_append_parenthesis {before after front behind : List Char}
    (h : before ++ '(' :: after = front ++ '(' :: behind) (hafter : '(' ∉ after)
    (hbehind : '(' ∉ behind) : before = front := by
  rcases List.append_eq_append_iff.mp h with ⟨between, rfl, hrest⟩ | ⟨between, rfl, hrest⟩
  · cases between with
    | nil => simp
    | cons c between =>
      obtain ⟨-, rfl⟩ := List.cons.inj hrest
      exact absurd (by simp) hafter
  · cases between with
    | nil => simp
    | cons c between =>
      obtain ⟨-, rfl⟩ := List.cons.inj hrest
      exact absurd (by simp) hbehind

/-- Whatever is spelled as a function with receiver, the receiver that is read back is what was
spelled, blanks around it apart. -/
theorem parse_of_configuredType?_spell {typeName : String} {type : TypeRef}
    (h : configuredType? .receiverFunction (spell .receiverFunction typeName) = some configured)
    (hparse : TypeRef.parse configured = .ok type) : TypeRef.parse typeName = .ok type := by
  obtain ⟨before, hinner, -, rfl⟩ := configuredType?_eq_some_iff_inner?.mp h
  obtain ⟨after, unit, hcut, harrow, hunit⟩ := inner?_receiverFunction_eq_some_iff.mp hinner
  have htext : Text.trim (spell .receiverFunction typeName).toList =
      Text.trimStart typeName.toList ++ '.' :: "() -> Unit".toList := by
    rw [toList_spell_receiverFunction, List.append_assoc, List.cons_append, Text.trim,
      Text.trimStart_append (by decide), Text.trimEnd_eq_self]
    · rfl
    · intro c hc
      rw [List.getLast?_append] at hc
      obtain rfl : 't' = c := Option.some.inj hc
      decide
  have hafter : '(' ∉ after := by
    intro hmem
    have htrimmed := Text.mem_trim (by decide) hmem
    rw [harrow] at htrimmed
    have hmem : '(' ∈ Text.trim unit := Text.mem_trim (by decide) (by simpa using htrimmed)
    rw [hunit] at hmem
    exact absurd hmem (by decide)
  have hsame : (before ++ ['.']) ++ '(' :: ')' :: after =
      (Text.trimStart typeName.toList ++ ['.']) ++ '(' :: ") -> Unit".toList := by
    have hparts := Text.eq_append_of_cutAt? hcut
    rw [htext] at hparts
    simpa using hparts.symm
  have hfront := eq_of_append_parenthesis hsame (by simpa using hafter) (by decide)
  obtain rfl := List.append_cancel_right hfront
  unfold TypeRef.parse at hparse ⊢
  rwa [String.toList_ofList, Text.trim_trim, Text.trim_trimStart] at hparse

theorem parse_spell_ne_ok (name : QualifiedName) (type : TypeRef) :
    TypeRef.parse (style.spell name.text) ≠ .ok type := by
  intro h
  have hnone : style.configuredType? (style.spell name.text) = none := configuredType?_of_parse h
  rw [configuredType?_spell] at hnone
  cases hnone

/-- The texts that may stand as the type of a parameter: a type, or the block that configures the
objects of a class. -/
inductive Spells (style : LambdaStyle) (text : String) : Prop
  | type (h : TypeRef.Reads text)
  | block (name : QualifiedName) (h : text = style.spell name.text)

theorem spells_iff : style.Spells text ↔ TypeRef.Reads text ∨
    ∃ configured ∈ style.configuredType? text,
      isQualified configured.toList = true ∧ text = style.spell configured := by
  constructor
  · intro h
    cases h with
    | type h => exact .inl h
    | block name h =>
      subst h
      exact .inr ⟨name.text, configuredType?_spell name, name.qualified, rfl⟩
  · rintro (h | ⟨configured, -, hqualified, h⟩)
    · exact .type h
    · exact .block ⟨configured, hqualified⟩ h

instance (style : LambdaStyle) (text : String) : Decidable (style.Spells text) :=
  decidable_of_iff _ spells_iff.symm

/-- A block of one style in the spelling of another; whatever is no block stays as it is. -/
def respell (style other : LambdaStyle) (text : String) : String :=
  match style.configuredType? text with
  | none => text
  | some configured => other.spell configured

theorem respell_of_none (h : style.configuredType? text = none) :
    style.respell other text = text := by
  rw [respell, h]

theorem respell_of_reads (h : TypeRef.Reads text) : style.respell other text = text := by
  obtain ⟨type, htype⟩ := h
  exact respell_of_none (configuredType?_of_parse htype)

theorem respell_spell (name : QualifiedName) :
    style.respell other (style.spell name.text) = other.spell name.text := by
  rw [respell, configuredType?_spell]

/-- Both styles recognise the same blocks, each in its own spelling. -/
theorem configuredType?_respell (h : style.Spells text) :
    other.configuredType? (style.respell other text) = style.configuredType? text := by
  cases h with
  | type h =>
    obtain ⟨type, htype⟩ := h
    rw [respell_of_reads ⟨type, htype⟩, configuredType?_of_parse htype,
      configuredType?_of_parse htype]
  | block name h => rw [h, respell_spell, configuredType?_spell, configuredType?_spell]

theorem toOption_parse_respell (h : style.Spells text) :
    (TypeRef.parse (style.respell other text)).toOption = (TypeRef.parse text).toOption := by
  cases h with
  | type h => rw [respell_of_reads h]
  | block name h =>
    have hnone : ∀ any : LambdaStyle, (TypeRef.parse (any.spell name.text)).toOption = none := by
      intro any
      rw [Option.eq_none_iff_forall_ne_some]
      intro type htype
      exact parse_spell_ne_ok name type (Fallible.toOption_eq_some.mp htype)
    rw [h, respell_spell, hnone, hnone]

/-- Distinct texts have distinct spellings in the other style. -/
theorem eq_of_respell_eq {first second : String} (hfirst : style.Spells first)
    (hsecond : style.Spells second)
    (h : style.respell other first = style.respell other second) : first = second := by
  have hsame : style.configuredType? first = style.configuredType? second := by
    rw [← configuredType?_respell hfirst, h, configuredType?_respell hsecond]
  cases hfirst with
  | type hreads =>
    obtain ⟨type, htype⟩ := hreads
    have hnone : style.configuredType? first = none := configuredType?_of_parse htype
    rwa [respell_of_none hnone, respell_of_none (hsame ▸ hnone)] at h
  | block name hname =>
    cases hsecond with
    | type hreads =>
      obtain ⟨type, htype⟩ := hreads
      rw [hname, configuredType?_spell, configuredType?_of_parse htype] at hsame
      cases hsame
    | block namesake hnamesake =>
      rw [hname, hnamesake, configuredType?_spell, configuredType?_spell] at hsame
      rw [hname, hnamesake, Option.some.inj hsame]

end LambdaStyle

end ConfigScript
