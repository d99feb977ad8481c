import ConfigScript.Proofs.Digest.Hexadecimal
import ConfigScript.Proofs.Json.Compact
import ConfigScript.Proofs.Schema.TypeText
import ConfigScript.Schema.Fingerprint

/-!
# A fingerprint is that of one schema

The written form of a schema and of each of its parts can be read in one way only, and so can its
compact text. Schemas that hash to the same fingerprint are therefore the same, unless the hash has
the same value for two texts.
-/

namespace ConfigScript

theorem toList_loop_eq (bytes : ByteArray) (place : Nat) (read : List UInt8) :
    ByteArray.toList.loop bytes place read = read.reverse ++ bytes.data.toList.drop place := by
  fun_induction ByteArray.toList.loop bytes place read with
  | case1 place read hplace ih =>
    have hsize : place < bytes.data.toList.length := hplace
    rw [ih, List.drop_eq_getElem_cons hsize]
    simp [ByteArray.get!, hplace]
  | case2 place read hplace =>
    have hsize : bytes.data.toList.length ≤ place := Nat.not_lt.mp hplace
    simp [List.drop_eq_nil_of_le hsize]

theorem toList_eq_data (bytes : ByteArray) : bytes.toList = bytes.data.toList := by
  rw [ByteArray.toList, toList_loop_eq]
  simp

theorem toList_toUTF8 (text : String) :
    text.toUTF8.toList = text.toList.flatMap String.utf8EncodeChar := by
  have hbytes : text.toUTF8 = (text.toList.flatMap String.utf8EncodeChar).toByteArray :=
    String.utf8Encode_toList.symm
  rw [hbytes, toList_eq_data]
  simp

/-- No two texts have the same bytes. -/
theorem toList_toUTF8_injective : Function.Injective fun text : String => text.toUTF8.toList := by
  intro text other h
  simp only [toList_eq_data] at h
  exact String.toByteArray_inj.mp (ByteArray.ext (Array.toList_inj.mp h))

/-- An encoding without numbers that gives no two values the same form. -/
structure Json.Encodes {α : Type} (encode : α → Json) : Prop where
  plain : ∀ value, (encode value).Plain
  injective : Function.Injective encode

namespace Json

@[simp] theorem plain_string (text : String) : (string text).Plain :=
  .string text

@[simp] theorem plain_bool (value : Bool) : (bool value).Plain :=
  .bool value

@[simp] theorem plain_array_iff {items : List Json} :
    (array items).Plain ↔ ∀ item ∈ items, item.Plain :=
  ⟨fun | .array h => h, .array⟩

@[simp] theorem plain_object_iff {fields : List (String × Json)} :
    (object fields).Plain ↔ ∀ field ∈ fields, field.2.Plain :=
  ⟨fun | .object h => h, .object⟩

@[simp] theorem plain_tagged_iff {name : String} {value : Json} :
    (tagged name value).Plain ↔ value.Plain := by
  simp [tagged]

@[simp] theorem tagged_inj {name other : String} {value data : Json} :
    tagged name value = tagged other data ↔ name = other ∧ value = data := by
  simp [tagged]

namespace Encodes

variable {α : Type} {encode : α → Json} (h : Encodes encode)

include h

theorem eq_iff {value other : α} : encode value = encode other ↔ value = other :=
  h.injective.eq_iff

theorem map_eq_iff {values others : List α} :
    values.map encode = others.map encode ↔ values = others :=
  (List.map_injective_iff.mpr h.injective).eq_iff

theorem plain_map (values : List α) : ∀ item ∈ values.map encode, item.Plain := by
  simp [h.plain]

/-- A text is that of one value. -/
theorem compact_eq_iff {value other : α} :
    (encode value).compact = (encode other).compact ↔ value = other := by
  constructor
  · intro htext
    exact h.injective (compact_inj (h.plain value) (h.plain other) htext)
  · rintro rfl
    rfl

end Encodes

end Json

open Json (Encodes)

theorem ConstantType.name_inj {type other : ConstantType} :
    type.name = other.name ↔ type = other := by
  cases type <;> cases other <;> simp [name]

theorem ReturnKind.name_inj {kind other : ReturnKind} : kind.name = other.name ↔ kind = other := by
  cases kind <;> cases other <;> simp [name]

theorem LambdaStyle.name_inj {style other : LambdaStyle} :
    style.name = other.name ↔ style = other := by
  cases style <;> cases other <;> simp [name]

theorem QualifiedName.encodes : Encodes QualifiedName.toJson where
  plain name := by simp [toJson]
  injective name other h := eq_of_text_eq (Json.string.inj h)

theorem TypeRef.encodes : Encodes TypeRef.toJson where
  plain type := by cases type <;> simp [toJson, Encodes.plain QualifiedName.encodes]
  injective type other h := by
    cases type <;> cases other <;>
      simp_all [toJson, Json.tagged, ConstantType.name_inj, Encodes.eq_iff QualifiedName.encodes]

theorem Property.encodes : Encodes Property.toJson where
  plain property := by simp [toJson, Encodes.plain TypeRef.encodes]
  injective property other h := by
    cases property
    cases other
    simpa [toJson, Encodes.eq_iff TypeRef.encodes] using h

theorem Parameter.Role.encodes : Encodes Parameter.Role.toJson where
  plain role := by cases role <;> simp [toJson, Encodes.plain Property.encodes]
  injective role other h := by
    cases role <;> cases other <;> simp_all [toJson, Json.tagged, Encodes.eq_iff Property.encodes]

theorem Parameter.encodes : Encodes Parameter.toJson where
  plain parameter := by simp [toJson, Encodes.plain TypeRef.encodes, Encodes.plain Role.encodes]
  injective parameter other h := by
    cases parameter
    cases other
    simpa [toJson, Encodes.eq_iff TypeRef.encodes, Encodes.eq_iff Role.encodes] using h

theorem Accessor.encodes : Encodes Accessor.toJson where
  plain accessor := by
    cases accessor <;> simp [toJson, Encodes.plain Property.encodes, Encodes.plain TypeRef.encodes]
  injective accessor other h := by
    cases accessor <;> cases other <;>
      simp_all [toJson, Encodes.eq_iff Property.encodes, Encodes.eq_iff TypeRef.encodes]

theorem Semantics.encodes : Encodes Semantics.toJson where
  plain semantics := by
    cases semantics <;> simp [toJson, Encodes.plain TypeRef.encodes, Encodes.plain Accessor.encodes]
  injective semantics other h := by
    cases semantics <;> cases other <;>
      simp_all [toJson, Encodes.eq_iff TypeRef.encodes, Encodes.eq_iff Accessor.encodes,
        ReturnKind.name_inj]

theorem encodes_parameters : Encodes parametersJson where
  plain parameters := .array (Encodes.plain_map Parameter.encodes parameters)
  injective _ _ h := (Encodes.map_eq_iff Parameter.encodes).mp (Json.array.inj h)

theorem MemberFunction.encodes : Encodes MemberFunction.toJson where
  plain function := by
    simp [toJson, Encodes.plain QualifiedName.encodes, Encodes.plain encodes_parameters,
      Encodes.plain Semantics.encodes]
  injective function other h := by
    cases function
    cases other
    simpa [toJson, Encodes.eq_iff QualifiedName.encodes, Encodes.eq_iff encodes_parameters,
      Encodes.eq_iff Semantics.encodes] using h

theorem ExternalFunction.encodes : Encodes ExternalFunction.toJson where
  plain function := by
    simp [toJson, Encodes.plain QualifiedName.encodes, Encodes.plain encodes_parameters,
      Encodes.plain Semantics.encodes]
  injective function other h := by
    cases function
    cases other
    simpa [toJson, Encodes.eq_iff QualifiedName.encodes, Encodes.eq_iff encodes_parameters,
      Encodes.eq_iff Semantics.encodes] using h

theorem Constructor.encodes : Encodes Constructor.toJson where
  plain constructor := by simp [toJson, Encodes.plain encodes_parameters]
  injective constructor other h := by
    cases constructor
    cases other
    simpa [toJson, Encodes.eq_iff encodes_parameters] using h

theorem NameSet.encodes : Encodes NameSet.toJson where
  plain set := .array (Encodes.plain_map QualifiedName.encodes set.names)
  injective set other h := by
    cases set
    cases other
    simpa [toJson, Encodes.map_eq_iff QualifiedName.encodes] using h

/-- The fields of a map tell its names as well as its values. -/
theorem NameMap.encodes {α : Type} {encode : α → Json} (h : Encodes encode) :
    Encodes (NameMap.toJson encode) where
  plain map := by
    simp only [toJson, Json.plain_object_iff, List.forall_mem_map]
    exact fun entry _ => h.plain entry.2
  injective map other heq := by
    have hfield : Function.Injective fun entry : QualifiedName × α =>
        (entry.1.text, encode entry.2) := by
      rintro ⟨name, value⟩ ⟨otherName, otherValue⟩ hentry
      obtain ⟨hname, hvalue⟩ := Prod.mk.inj hentry
      exact Prod.ext (QualifiedName.eq_of_text_eq hname) (h.injective hvalue)
    have hentries : map.entries = other.entries :=
      List.map_injective_iff.mpr hfield (Json.object.inj heq)
    cases map
    cases other
    simpa using hentries

theorem DataClass.encodes : Encodes DataClass.toJson where
  plain dataClass := by
    simp [toJson, Encodes.plain QualifiedName.encodes, Encodes.plain NameSet.encodes,
      Encodes.plain Property.encodes, Encodes.plain MemberFunction.encodes,
      Encodes.plain Constructor.encodes]
  injective dataClass other h := by
    cases dataClass
    cases other
    simpa [toJson, Encodes.eq_iff QualifiedName.encodes, Encodes.eq_iff NameSet.encodes,
      Encodes.map_eq_iff Property.encodes, Encodes.map_eq_iff MemberFunction.encodes,
      Encodes.map_eq_iff Constructor.encodes] using h

namespace Schema

theorem encodes : Encodes Schema.toJson where
  plain schema := by
    have hclasses := NameMap.encodes DataClass.encodes
    have hfunctions := NameMap.encodes ExternalFunction.encodes
    have hobjects := NameMap.encodes TypeRef.encodes
    simp [toJson, Encodes.plain QualifiedName.encodes, hclasses.plain, hfunctions.plain,
      hobjects.plain, Encodes.plain NameSet.encodes]
  injective schema other h := by
    have hclasses := NameMap.encodes DataClass.encodes
    have hfunctions := NameMap.encodes ExternalFunction.encodes
    have hobjects := NameMap.encodes TypeRef.encodes
    cases schema
    cases other
    simpa [toJson, Encodes.eq_iff QualifiedName.encodes, hclasses.eq_iff, hfunctions.eq_iff,
      hobjects.eq_iff, Encodes.eq_iff NameSet.encodes, LambdaStyle.name_inj] using h

/-- The bytes that the fingerprint of a schema hashes. -/
def canonicalBytes (schema : Schema) : List UInt8 :=
  schema.canonicalText.toUTF8.toList

/-- The hashed bytes in a form that the logic computes. -/
theorem canonicalBytes_eq (schema : Schema) :
    schema.canonicalBytes = schema.toJson.characters.flatMap String.utf8EncodeChar := by
  rw [canonicalBytes, canonicalText, toList_toUTF8, Json.toList_compact]

theorem canonicalText_eq_iff {schema other : Schema} :
    schema.canonicalText = other.canonicalText ↔ schema = other :=
  Encodes.compact_eq_iff encodes

/-- The canonical text is that of one schema, and so is the fingerprint, unless the hash of two
texts is the same. -/
theorem eq_iff_of_canonical (schema other : Schema) :
    (schema.canonicalText = other.canonicalText ↔ schema = other) ∧
      ((Sha256.digest schema.canonicalBytes = Sha256.digest other.canonicalBytes →
        schema.canonicalBytes = other.canonicalBytes) →
        (schema.fingerprint = other.fingerprint ↔ schema = other)) := by
  refine ⟨canonicalText_eq_iff, fun hcollision => ?_⟩
  constructor
  · intro h
    have hbytes := hcollision (Sha256.hexDigest_eq_iff.mp h)
    exact canonicalText_eq_iff.mp (toList_toUTF8_injective hbytes)
  · rintro rfl
    rfl

def diskProperty : Property :=
  ⟨"size \\ \"used\"", .constant .int, false, true⟩

/-- A class with a property whose name has to be escaped, a function, and a constructor whose
argument is stored there or nowhere. -/
def diskSchema (role : Parameter.Role) : Schema :=
  let disk : QualifiedName := ⟨"Disk", by decide⟩
  let parameter : Parameter := .plain diskProperty.name diskProperty.type
  ⟨disk,
    .ofList [(disk, ⟨disk, .empty, [diskProperty],
      [⟨disk, "grow", [parameter.asOptional], .builder (.named disk)⟩],
      [⟨[{ parameter with role }]⟩]⟩)],
    .empty, .empty, .empty, .receiverFunction⟩

theorem eq_iff_of_canonical_disk :
    (diskSchema (.storeIn diskProperty)).canonicalText ≠ (diskSchema .unknown).canonicalText ∧
      (diskSchema (.storeIn diskProperty)).fingerprint ≠ (diskSchema .unknown).fingerprint := by
  have hdigests : Sha256.digest (diskSchema (.storeIn diskProperty)).canonicalBytes ≠
      Sha256.digest (diskSchema .unknown).canonicalBytes := by
    rw [canonicalBytes_eq, canonicalBytes_eq]
    decide +kernel
  have hschemas : diskSchema (.storeIn diskProperty) ≠ diskSchema .unknown := by decide
  obtain ⟨htext, hfingerprint⟩ :=
    eq_iff_of_canonical (diskSchema (.storeIn diskProperty)) (diskSchema .unknown)
  constructor
  · exact fun h => hschemas (htext.mp h)
  · exact fun h => hschemas ((hfingerprint fun hdigest => absurd hdigest hdigests).mp h)

end Schema

end ConfigScript
