import ConfigScript.Proofs.Schema.Blanks

/-!
# Recognition of configure lambdas

The texts that each style recognises, as a grammar: the parts of the shape in their order, and any
blanks in the places that the style leaves free. A recogniser accepts these texts and no others, and
what it reads is the configured type of the grammar. So a style reads back every class that it
spells, no text has the shape of two styles, and none that reads as a type has the shape of any.
-/

namespace ConfigScript

namespace Text

/-- A text with nothing but blanks in front of `core` and behind it. -/
inductive Padded (core : List Char) : List Char → Prop
  | intro {before after : List Char} (hbefore : ∀ c ∈ before, isBlank c = true)
      (hafter : ∀ c ∈ after, isBlank c = true) : Padded core (before ++ core ++ after)

theorem trimStart_blanks {blanks : List Char} (h : ∀ c ∈ blanks, isBlank c = true) :
    trimStart blanks = [] :=
  List.dropWhile_eq_nil_iff.mpr h

theorem trimStart_blanks_append {blanks : List Char} (h : ∀ c ∈ blanks, isBlank c = true)
    (cs : List Char) : trimStart (blanks ++ cs) = trimStart cs :=
  List.dropWhile_append_of_pos h

theorem trimEnd_append_blanks {blanks : List Char} (h : ∀ c ∈ blanks, isBlank c = true)
    (cs : List Char) : trimEnd (cs ++ blanks) = trimEnd cs := by
  have hreverse : trimStart (blanks.reverse ++ cs.reverse) = trimStart cs.reverse :=
    trimStart_blanks_append (fun c hc => h c (List.mem_reverse.mp hc)) cs.reverse
  rw [trimEnd, ← trimStart, List.reverse_append, hreverse, trimStart, ← trimEnd]

theorem trimEnd_append {c : Char} (hc : isBlank c = false) (before after : List Char) :
    trimEnd (before ++ c :: after) = before ++ c :: trimEnd after := by
  have hreverse := trimStart_append hc after.reverse before.reverse
  rw [trimStart, trimStart] at hreverse
  simp [trimEnd, hreverse]

theorem trim_of_padded {core cs : List Char} (h : Padded core cs) : trim cs = trim core := by
  obtain @⟨before, after, hbefore, hafter⟩ := h
  rw [trim, List.append_assoc, trimStart_blanks_append hbefore]
  by_cases hcore : trimStart core = []
  · -- All of `core` is blank, and so is what stands behind it.
    have hblank : ∀ c ∈ core, isBlank c = true := List.dropWhile_eq_nil_iff.mp hcore
    rw [trimStart_blanks_append hblank, trimStart_blanks hafter, trim, hcore]
  · have hstart : trimStart (core ++ after) = trimStart core ++ after := by
      simp only [trimStart] at hcore ⊢
      rw [List.dropWhile_append, if_neg (by simpa using hcore)]
    rw [hstart, trimEnd_append_blanks hafter, trim]

/-- Around a piece that is not trimmed, only the far ends of a text are. -/
theorem trim_append_solid {piece : List Char} (h : Solid piece) (before after : List Char) :
    trim (before ++ piece ++ after) = trimStart before ++ piece ++ trimEnd after := by
  have hstart : trimStart (before ++ piece ++ after) = trimStart before ++ piece ++ after := by
    obtain ⟨c, rest, rfl⟩ := List.exists_cons_of_ne_nil h.ne_nil
    simpa using trimStart_append (h.first c rfl) before (rest ++ after)
  obtain ⟨front, c, rfl⟩ := List.eq_nil_or_concat piece |>.resolve_left h.ne_nil
  rw [trim, hstart]
  simpa using trimEnd_append (h.last c (by simp)) (trimStart before ++ front) after

theorem padded_trimEnd (cs : List Char) : Padded (trimEnd cs) cs := by
  have hpadded : Padded (trimEnd cs) ([] ++ trimEnd cs ++ cs.rtakeWhile isBlank) :=
    .intro (fun _ hc => absurd hc List.not_mem_nil) fun _ hc => List.mem_rtakeWhile_imp hc
  rwa [List.nil_append, trimEnd, ← List.rdropWhile, List.rdropWhile_append_rtakeWhile] at hpadded

theorem trim_trimEnd (cs : List Char) : trim (trimEnd cs) = trim cs :=
  (trim_of_padded (padded_trimEnd cs)).symm

theorem padded_trim (cs : List Char) : Padded (trim cs) cs := by
  have hstart : cs = cs.takeWhile isBlank ++ trimStart cs := List.takeWhile_append_dropWhile.symm
  have hend : trimStart cs = trim cs ++ (trimStart cs).rtakeWhile isBlank :=
    List.rdropWhile_append_rtakeWhile.symm
  have hcs : cs = cs.takeWhile isBlank ++ trim cs ++ (trimStart cs).rtakeWhile isBlank := by
    rw [List.append_assoc, ← hend, ← hstart]
  have hpadded : Padded (trim cs)
      (cs.takeWhile isBlank ++ trim cs ++ (trimStart cs).rtakeWhile isBlank) :=
    .intro (fun _ hc => List.mem_takeWhile_imp hc) fun _ hc => List.mem_rtakeWhile_imp hc
  rwa [← hcs] at hpadded

/-- A cut is made at the first occurrence of the piece. -/
theorem not_infix_of_cutAt? {piece cs before after : List Char} (hpiece : piece ≠ [])
    (h : cutAt? piece cs = some (before, after)) : ¬ piece <:+: before := by
  fun_induction cutAt? piece cs generalizing before after with
  | case1 =>
    obtain ⟨rest, hrest, heq⟩ := Option.map_eq_some_iff.mp h
    obtain ⟨rfl, rfl⟩ := Prod.mk.inj heq
    simpa using hpiece
  | case2 c cs rest hrest =>
    obtain ⟨rfl, rfl⟩ := Prod.mk.inj (Option.some.inj h)
    simpa using hpiece
  | case3 c cs hnone ih =>
    obtain ⟨⟨earlier, rest⟩, hcut, heq⟩ := Option.map_eq_some_iff.mp h
    obtain ⟨rfl, rfl⟩ := Prod.mk.inj heq
    rw [List.infix_cons_iff]
    rintro (⟨behind, hbehind⟩ | hoccurs)
    · -- A piece at the start would have been taken off.
      have hstart : dropStart? piece (c :: cs) = some (behind ++ piece ++ rest) := by
        rw [dropStart?_eq_some_iff, eq_append_of_cutAt? hcut]
        simp only [← List.append_assoc, hbehind]
        rfl
      rw [hnone] at hstart
      cases hstart
    · exact ih hcut hoccurs

end Text

namespace LambdaStyle

variable {style other : LambdaStyle} {text configured : String}

/-- The texts that spell a block of a style which configures `configured`: the parts of the shape,
with blanks around the configured type, around the text and where else the style leaves them free.
The receiver of a function ends at the first `.()`. -/
inductive Writes (configured : List Char) : LambdaStyle → List Char → Prop
  | receiverFunction {receiver unit result text : List Char}
      (hreceiver : Text.Padded configured receiver) (hfirst : ¬ ['.', '(', ')'] <:+: receiver)
      (hunit : Text.Padded ['U', 'n', 'i', 't'] unit)
      (hresult : Text.Padded (['-', '>'] ++ unit) result)
      (htext : Text.Padded (receiver ++ ['.', '(', ')'] ++ result) text) :
      Writes configured .receiverFunction text
  | actionInterface {inner text : List Char} (hinner : Text.Padded configured inner)
      (htext : Text.Padded (['A', 'c', 't', 'i', 'o', 'n', '<'] ++ (inner ++ ['>'])) text) :
      Writes configured .actionInterface text

theorem writes_of_inner? {cs inner : List Char} (h : style.inner? (Text.trim cs) = some inner) :
    style.Writes (Text.trim inner) cs := by
  cases style with
  | receiverFunction =>
    obtain ⟨result, unit, hcut, harrow, hunit⟩ := inner?_receiverFunction_eq_some_iff.mp h
    apply Writes.receiverFunction (Text.padded_trim inner)
    case hfirst => exact Text.not_infix_of_cutAt? (by simp) hcut
    case hunit => exact hunit ▸ Text.padded_trim unit
    case hresult => exact harrow ▸ Text.padded_trim result
    case htext => exact Text.eq_append_of_cutAt? hcut ▸ Text.padded_trim cs
  | actionInterface =>
    apply Writes.actionInterface (Text.padded_trim inner)
    exact inner?_actionInterface_eq_some_iff.mp h ▸ Text.padded_trim cs

theorem inner?_of_writes {configured cs : List Char} (h : style.Writes configured cs) :
    ∃ inner, style.inner? (Text.trim cs) = some inner ∧
      Text.trim inner = Text.trim configured := by
  cases h with
  | @receiverFunction receiver unit result _ hreceiver hfirst hunit hresult htext =>
    have hmark : Text.Solid ['.', '(', ')'] := by decide
    have harrow : Text.Solid ['-', '>'] := by decide
    have hfirst' : ¬ ['.', '(', ')'] <:+: Text.trimStart receiver :=
      fun hoccurs => hfirst (hoccurs.trans (List.dropWhile_suffix _).isInfix)
    refine ⟨Text.trimStart receiver, inner?_receiverFunction_eq_some_iff.mpr
      ⟨Text.trimEnd result, Text.trimEnd unit, ?cut, ?arrow, ?unit⟩, ?configured⟩
    case cut =>
      rw [Text.trim_of_padded htext, Text.trim_append_solid hmark]
      exact cutAt?_receiver hfirst' _
    case arrow =>
      rw [Text.trim_trimEnd, Text.trim_of_padded hresult]
      exact Text.trim_append_solid harrow [] unit
    case unit =>
      rw [Text.trim_trimEnd, Text.trim_of_padded hunit]
      decide
    case configured => rw [Text.trim_trimStart, Text.trim_of_padded hreceiver]
  | @actionInterface inner _ hinner htext =>
    refine ⟨inner, inner?_actionInterface_eq_some_iff.mpr ?_, Text.trim_of_padded hinner⟩
    rw [Text.trim_of_padded htext, (solid_actionInterface inner).trim_eq_self]

/-- A style recognises the texts that its grammar writes, and reads what they configure. -/
theorem configuredType?_eq_some_iff : style.configuredType? text = some configured ↔
    Text.Solid configured.toList ∧ style.Writes configured.toList text.toList := by
  rw [configuredType?_eq_some_iff_inner?]
  constructor
  · rintro ⟨inner, hinner, hne, rfl⟩
    rw [String.toList_ofList]
    exact ⟨Text.solid_trim hne, writes_of_inner? hinner⟩
  · rintro ⟨hsolid, hwrites⟩
    obtain ⟨inner, hinner, htrim⟩ := inner?_of_writes hwrites
    rw [hsolid.trim_eq_self] at htrim
    exact ⟨inner, hinner, htrim ▸ hsolid.ne_nil, by rw [htrim, String.ofList_toList]⟩

/-- Blanks around a text make no difference to what it configures. -/
theorem configuredType?_of_padded {core : String} (h : Text.Padded core.toList text.toList) :
    style.configuredType? text = style.configuredType? core := by
  rw [configuredType?, Text.trim_of_padded h, configuredType?]

theorem getLast?_bare_spell (typeName : String) :
    (Text.bare (style.spell typeName).toList).getLast? =
      match style with
      | .receiverFunction => some 't'
      | .actionInterface => some '>' := by
  cases style with
  | receiverFunction =>
    rw [toList_spell_receiverFunction, Text.bare_append, List.getLast?_append]
    rfl
  | actionInterface =>
    rw [toList_spell_actionInterface, ← List.append_assoc, Text.bare_append, List.getLast?_append]
    rfl

/-- The last character of a text, blanks apart, tells its style. -/
theorem eq_of_configuredType? {second : String} (h : style.configuredType? text = some configured)
    (hother : other.configuredType? text = some second) : style = other := by
  have hlast := congrArg List.getLast? (bare_of_configuredType? h)
  rw [bare_of_configuredType? hother, getLast?_bare_spell, getLast?_bare_spell] at hlast
  cases style <;> cases other <;> simp_all

/-- Every class is read back from its spelling, whatever blanks stand around it. Beyond that a style
recognises just what its grammar writes: nothing that another style recognises, and no type. -/
theorem recognition_inverts_spelling (style : LambdaStyle) :
    (∀ (name : QualifiedName) (before after : String),
      (∀ c ∈ before.toList, Text.isBlank c = true) → (∀ c ∈ after.toList, Text.isBlank c = true) →
        style.configuredType? (before ++ style.spell name.text ++ after) = some name.text) ∧
    (∀ text configured : String, style.configuredType? text = some configured ↔
      Text.Solid configured.toList ∧ style.Writes configured.toList text.toList) ∧
    (∀ (other : LambdaStyle) (text : String), style ≠ other →
      style.configuredType? text = none ∨ other.configuredType? text = none) ∧
    ∀ text : String, TypeRef.Reads text → style.configuredType? text = none := by
  refine ⟨?spelled, fun _ _ => configuredType?_eq_some_iff, ?once, ?types⟩
  case spelled =>
    intro name before after hbefore hafter
    have hpadded : Text.Padded (style.spell name.text).toList
        (before ++ style.spell name.text ++ after).toList := by
      rw [String.toList_append, String.toList_append]
      exact .intro hbefore hafter
    rw [configuredType?_of_padded hpadded, configuredType?_spell]
  case once =>
    intro other text hne
    by_contra hboth
    obtain ⟨hstyle, hother⟩ := not_or.mp hboth
    obtain ⟨first, hfirst⟩ := Option.ne_none_iff_exists'.mp hstyle
    obtain ⟨second, hsecond⟩ := Option.ne_none_iff_exists'.mp hother
    exact hne (eq_of_configuredType? hfirst hsecond)
  case types =>
    rintro text ⟨type, htype⟩
    exact configuredType?_of_parse htype

/-- A class with blanks around its spelling, a block with blanks in every free place that only one
style recognises, and a built-in word. -/
theorem recognition_inverts_spelling_padded :
    (∀ c ∈ "\u3000\n".toList, Text.isBlank c = true) ∧ (∀ c ∈ " \t".toList, Text.isBlank c = true) ∧
    actionInterface.configuredType? ("\u3000\n" ++ actionInterface.spell "a.B" ++ " \t") =
      some "a.B" ∧
    receiverFunction.configuredType? " a.B\t.() ->\nUnit " = some "a.B" ∧
    receiverFunction.Writes "a.B".toList " a.B\t.() ->\nUnit ".toList ∧
    receiverFunction ≠ actionInterface ∧
    actionInterface.configuredType? " a.B\t.() ->\nUnit " = none ∧
    TypeRef.Reads " Unit " ∧ receiverFunction.configuredType? " Unit " = none := by
  have hbefore : ∀ c ∈ "\u3000\n".toList, Text.isBlank c = true :=
    List.all_eq_true.mp (by decide)
  have hafter : ∀ c ∈ " \t".toList, Text.isBlank c = true := List.all_eq_true.mp (by decide)
  have hblock : receiverFunction.configuredType? " a.B\t.() ->\nUnit " = some "a.B" := by decide
  have hunit : TypeRef.Reads " Unit " := ⟨.unit, by decide⟩
  obtain ⟨hspelled, -, -, -⟩ := recognition_inverts_spelling actionInterface
  obtain ⟨-, hwrites, honce, htypes⟩ := recognition_inverts_spelling receiverFunction
  have honly := honce actionInterface " a.B\t.() ->\nUnit " (by decide)
  exact ⟨hbefore, hafter, hspelled ⟨"a.B", by decide⟩ _ _ hbefore hafter, hblock,
    ((hwrites _ _).mp hblock).2, by decide, honly.resolve_left (by rw [hblock]; simp), hunit,
    htypes _ hunit⟩

end LambdaStyle

end ConfigScript
