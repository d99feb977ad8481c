import ConfigScript.Proofs.Schema.Spelling

/-!
# Blanks of type texts

A type is read with any blanks around it, and a block also with blanks around the type that it
configures and between the parts of its shape. Nothing else is free: what is read from a text spells
that text again, blanks apart.
-/

namespace ConfigScript

namespace Text

/-- A text without its blanks. -/
def bare (cs : List Char) : List Char :=
  cs.filter fun c => !isBlank c

theorem bare_append (front behind : List Char) :
    bare (front ++ behind) = bare front ++ bare behind :=
  List.filter_append front behind

theorem bare_trimStart (cs : List Char) : bare (trimStart cs) = bare cs := by
  induction cs with
  | nil => rfl
  | cons c cs ih =>
    by_cases hc : isBlank c = true
    · simpa [trimStart, bare, hc] using ih
    · simp [trimStart, bare, hc]

theorem bare_trimEnd (cs : List Char) : bare (trimEnd cs) = bare cs := by
  have hreverse := bare_trimStart cs.reverse
  unfold bare at hreverse ⊢
  rw [trimEnd, ← trimStart, List.filter_reverse, hreverse, List.filter_reverse,
    List.reverse_reverse]

theorem bare_trim (cs : List Char) : bare (trim cs) = bare cs := by
  rw [trim, bare_trimEnd, bare_trimStart]

end Text

/-- A type is spelled as it was, but for the blanks around it. -/
theorem TypeRef.bare_of_parse {text : String} {type : TypeRef} (h : TypeRef.parse text = .ok type) :
    Text.bare text.toList = Text.bare (toString type).toList := by
  have hword : toString type = String.ofList (Text.trim text.toList) := by
    unfold TypeRef.parse at h
    split at h
    case h_6 =>
      obtain ⟨name, hname, rfl⟩ := Fallible.map_eq_ok.mp h
      exact QualifiedName.parse_eq_ok.mp hname
    all_goals
      rename_i hword
      obtain rfl := Except.ok.inj h
      exact hword.symm
  rw [hword, String.toList_ofList, Text.bare_trim]

namespace LambdaStyle

variable {style : LambdaStyle} {text configured : String}

theorem bare_spell {typeName other : String}
    (h : Text.bare typeName.toList = Text.bare other.toList) :
    Text.bare (style.spell typeName).toList = Text.bare (style.spell other).toList := by
  cases style with
  | receiverFunction => simp only [toList_spell_receiverFunction, Text.bare_append, h]
  | actionInterface => simp only [toList_spell_actionInterface, Text.bare_append, h]

/-- A block is spelled as it was, but for the blanks that its style allows. -/
theorem bare_of_configuredType? (h : style.configuredType? text = some configured) :
    Text.bare text.toList = Text.bare (style.spell configured).toList := by
  obtain ⟨inner, hinner, -, rfl⟩ := configuredType?_eq_some_iff_inner?.mp h
  rw [← Text.bare_trim]
  cases style with
  | receiverFunction =>
    obtain ⟨result, unit, hcut, harrow, hunit⟩ := inner?_receiverFunction_eq_some_iff.mp hinner
    have hresult : Text.bare result = ['-', '>', 'U', 'n', 'i', 't'] := by
      rw [← Text.bare_trim, harrow, Text.bare_append, ← Text.bare_trim unit, hunit]
      decide
    rw [Text.eq_append_of_cutAt? hcut, toList_spell_receiverFunction, String.toList_ofList]
    simp only [Text.bare_append, Text.bare_trim, hresult]
    rfl
  | actionInterface =>
    rw [inner?_actionInterface_eq_some_iff.mp hinner, toList_spell_actionInterface,
      String.toList_ofList]
    simp only [Text.bare_append, Text.bare_trim]

end LambdaStyle

end ConfigScript
