import ConfigScript.Proofs.Fallible
import ConfigScript.Schema.Declarations

/-!
# Type texts

A type text is either the name of a type or the shape of a configure lambda, never both: a lambda
needs a parenthesis or an angle bracket, and no name has one. So the class that a text names does
not depend on which of the two readings is tried first.
-/

namespace ConfigScript

/-- The class that a text names, or whose objects a block of that type configures. -/
def LambdaStyle.Names (style : LambdaStyle) (text : String) (name : QualifiedName) : Prop :=
  TypeRef.parse ((style.configuredType? text).getD text) = .ok (.named name)

theorem QualifiedName.eq_of_text_eq {name other : QualifiedName} (h : name.text = other.text) :
    name = other := by
  cases name
  cases other
  simp_all

theorem QualifiedName.parse_eq_ok {text : String} {name : QualifiedName} :
    QualifiedName.parse text = .ok name ↔ name.text = text := by
  unfold QualifiedName.parse
  split
  · rename_i h
    simp only [Except.ok.injEq]
    constructor
    · rintro rfl
      rfl
    · rintro rfl
      rfl
  · rename_i h
    simp only [reduceCtorEq, false_iff]
    rintro rfl
    exact h name.qualified

/-- The built-in words are qualified names too. -/
theorem TypeRef.isQualified_of_parse {text : String} {type : TypeRef}
    (h : TypeRef.parse text = .ok type) : isQualified (Text.trim text.toList) = true := by
  have hchars : (String.ofList (Text.trim text.toList)).toList = Text.trim text.toList := by simp
  rw [← hchars]
  unfold TypeRef.parse at h
  split at h
  case h_6 =>
    obtain ⟨name, hname, -⟩ := Fallible.map_eq_ok.mp h
    rw [← QualifiedName.parse_eq_ok.mp hname]
    exact name.qualified
  all_goals
    rename_i hword
    rw [hword]
    decide

theorem TypeRef.mem_of_parse {text : String} {type : TypeRef} (h : TypeRef.parse text = .ok type)
    {c : Char} (hc : c ∈ Text.trim text.toList) : c = '.' ∨ continuesIdentifier c = true :=
  mem_of_isQualified (isQualified_of_parse h) hc

theorem LambdaStyle.mem_of_inner? {style : LambdaStyle} {text inner : List Char}
    (h : style.inner? text = some inner) : '(' ∈ text ∨ '<' ∈ text := by
  cases style with
  | receiverFunction =>
    obtain ⟨⟨before, after⟩, hcut, -⟩ := Option.bind_eq_some_iff.mp h
    rw [Text.eq_append_of_cutAt? hcut]
    simp
  | actionInterface =>
    obtain ⟨rest, hstart, -⟩ := Option.bind_eq_some_iff.mp h
    rw [Text.dropStart?_eq_some_iff.mp hstart]
    simp

/-- What reads as a type has not the shape of a configure lambda. -/
theorem LambdaStyle.configuredType?_of_parse {style : LambdaStyle} {text : String} {type : TypeRef}
    (h : TypeRef.parse text = .ok type) : style.configuredType? text = none := by
  by_contra hsome
  obtain ⟨configured, hconfigured⟩ := Option.ne_none_iff_exists'.mp hsome
  obtain ⟨inner, hinner, -⟩ := Option.bind_eq_some_iff.mp hconfigured
  cases mem_of_inner? hinner with
  | inl hparenthesis => exact absurd (TypeRef.mem_of_parse h hparenthesis) (by decide)
  | inr hbracket => exact absurd (TypeRef.mem_of_parse h hbracket) (by decide)

theorem LambdaStyle.names_of_parse {style : LambdaStyle} {text : String} {name : QualifiedName}
    (h : TypeRef.parse text = .ok (.named name)) : style.Names text name := by
  rw [Names, configuredType?_of_parse h]
  exact h

theorem LambdaStyle.names_of_configuredType? {style : LambdaStyle} {text configured : String}
    {name : QualifiedName} (hconfigured : style.configuredType? text = some configured)
    (h : TypeRef.parse configured = .ok (.named name)) : style.Names text name := by
  rw [Names, hconfigured]
  exact h

theorem buildName_eq_ok {α : Type} {result : Except InvalidName α} {value : α} :
    buildName result = .ok value ↔ result = .ok value :=
  Fallible.mapError_eq_ok

theorem toOption_buildName {α : Type} {result : Except InvalidName α} :
    (buildName result).toOption = result.toOption := by
  cases result with
  | error invalid => rfl
  | ok value => rfl

theorem TypeRef.className?_eq_some {type : TypeRef} {name : QualifiedName} :
    type.className? = some name ↔ type = .named name := by
  cases type <;> simp [className?]

theorem TypeRef.exists_named {type : TypeRef} (h : ¬ type.className?.isNone = true) :
    ∃ name, type = .named name := by
  cases type with
  | named name => exact ⟨name, rfl⟩
  | _ => exact absurd rfl h

theorem Declarations.className?_eq_some {style : LambdaStyle} {text : String}
    {name : QualifiedName} :
    className? style text = .ok (some name) ↔ style.Names text name := by
  unfold className? LambdaStyle.Names
  rw [Fallible.bind_eq_ok]
  simp only [buildName_eq_ok, Fallible.pure_eq_ok, TypeRef.className?_eq_some]
  constructor
  · rintro ⟨type, htype, rfl⟩
    exact htype
  · exact fun h => ⟨_, h, rfl⟩

end ConfigScript
