import ConfigScript.Json.Printer

/-!
# Compact texts are told apart

The compact text of a value without numbers says where it ends: whatever follows two such texts, if
all of it is the same, then so are the values and what follows them. No two strings share a text,
since the escapes of the characters are told apart in the same way.
-/

namespace ConfigScript.Json

/-- However two texts go on, they only agree when the values are the same and so is what follows. -/
def Apart {α : Type} (text : α → List Char) (value other : α) : Prop :=
  ∀ rest tail, text value ++ rest = text other ++ tail → value = other ∧ rest = tail

/-- The characters that do not stand for themselves inside a string. -/
def escapedChars : List Char :=
  '"' :: '\\' :: (List.range 0x20).map Char.ofNat

theorem escapeChar_of_not_mem {c : Char} (h : c ∉ escapedChars) : escapeChar c = [c] := by
  have hne : ∀ other ∈ escapedChars, c ≠ other := fun other hother heq => h (heq ▸ hother)
  have hlarge : ¬ c.toNat < 0x20 := by
    intro hsmall
    apply h
    rw [← Char.ofNat_toNat c]
    exact List.mem_cons_of_mem _ (List.mem_cons_of_mem _
      (List.mem_map_of_mem (List.mem_range.mpr hsmall)))
  unfold escapeChar
  rw [if_neg (hne '"' (by decide)), if_neg (hne '\\' (by decide)), if_neg (hne '\x08' (by decide)),
    if_neg (hne '\t' (by decide)), if_neg (hne '\n' (by decide)), if_neg (hne '\x0c' (by decide)),
    if_neg (hne '\r' (by decide)), if_neg hlarge]

/-- Whatever is escaped begins with a backslash, and nothing else does. -/
theorem head?_escapeChar (c : Char) :
    (escapeChar c).head? = some (if c ∈ escapedChars then '\\' else c) := by
  have hescaped : escapedChars.all (fun c => (escapeChar c).head? == some '\\') = true := by
    decide
  by_cases h : c ∈ escapedChars
  · rw [if_pos h]
    simpa using List.all_eq_true.mp hescaped c h
  · rw [if_neg h, escapeChar_of_not_mem h, List.head?_singleton]

/-- No escape is the beginning of another one. -/
theorem eq_of_escapeChar_isPrefixOf {c other : Char} (hc : c ∈ escapedChars)
    (hother : other ∈ escapedChars)
    (h : (escapeChar c).isPrefixOf (escapeChar other) = true) : c = other := by
  have hall : escapedChars.all (fun c => escapedChars.all fun other =>
      !(escapeChar c).isPrefixOf (escapeChar other) || c == other) = true := by
    decide
  have hpair := List.all_eq_true.mp (List.all_eq_true.mp hall c hc) other hother
  simpa [h] using hpair

theorem apart_escapeChar (c other : Char) : Apart escapeChar c other := by
  intro rest tail h
  have hhead := congrArg List.head? h
  simp only [List.head?_append, head?_escapeChar, Option.some_or, Option.some.injEq] at hhead
  have hbackslash : '\\' ∈ escapedChars := by decide
  have hsame : c = other := by
    by_cases hc : c ∈ escapedChars
    · by_cases hother : other ∈ escapedChars
      · have hprefix : escapeChar c <+: escapeChar other ∨ escapeChar other <+: escapeChar c :=
          List.prefix_or_prefix_of_prefix (h ▸ List.prefix_append _ _) (List.prefix_append _ _)
        simp only [← List.isPrefixOf_iff_prefix] at hprefix
        cases hprefix with
        | inl hprefix => exact eq_of_escapeChar_isPrefixOf hc hother hprefix
        | inr hprefix => exact (eq_of_escapeChar_isPrefixOf hother hc hprefix).symm
      · rw [if_pos hc, if_neg hother] at hhead
        exact absurd (hhead ▸ hbackslash) hother
    · by_cases hother : other ∈ escapedChars
      · rw [if_neg hc, if_pos hother] at hhead
        exact absurd (hhead ▸ hbackslash) hc
      · rwa [if_neg hc, if_neg hother] at hhead
  subst hsame
  exact ⟨rfl, List.append_cancel_left h⟩

/-- The text of a string, behind its opening quote. -/
theorem apart_escaped (chars others : List Char) :
    Apart (fun chars => chars.flatMap escapeChar ++ ['"']) chars others := by
  -- A quote inside a string is escaped, so the first bare one is the end of the string.
  have hquote : ∀ c rest tail, escapeChar c ++ rest ≠ '"' :: tail := by
    intro c rest tail h
    have hhead := congrArg List.head? h
    simp only [List.head?_append, head?_escapeChar, Option.some_or, List.head?_cons,
      Option.some.injEq] at hhead
    by_cases hc : c ∈ escapedChars
    · rw [if_pos hc] at hhead
      exact absurd hhead (by decide)
    · rw [if_neg hc] at hhead
      exact absurd (hhead ▸ (by decide : '"' ∈ escapedChars)) hc
  induction chars generalizing others with
  | nil =>
    cases others with
    | nil => exact fun rest tail h => ⟨rfl, List.append_cancel_left h⟩
    | cons other others =>
      intro rest tail h
      simp only [List.flatMap_cons, List.append_assoc] at h
      exact absurd h.symm (hquote other _ _)
  | cons c chars ih =>
    cases others with
    | nil =>
      intro rest tail h
      simp only [List.flatMap_cons, List.append_assoc] at h
      exact absurd h (hquote c _ _)
    | cons other others =>
      intro rest tail h
      simp only [List.flatMap_cons, List.append_assoc] at h
      obtain ⟨rfl, h⟩ := apart_escapeChar c other _ _ h
      obtain ⟨rfl, hrest⟩ := ih others rest tail (by simpa using h)
      exact ⟨rfl, hrest⟩

theorem toList_stringText (s : String) :
    (stringText s).toList = '"' :: (s.toList.flatMap escapeChar ++ ['"']) := by
  simp [stringText]

/-- No two strings have the same text. -/
theorem apart_stringText (s other : String) :
    Apart (fun s => (stringText s).toList) s other := by
  intro rest tail h
  simp only [toList_stringText, List.cons_append] at h
  obtain ⟨hchars, hrest⟩ := apart_escaped s.toList other.toList rest tail (List.cons.inj h).2
  exact ⟨String.toList_injective hchars, hrest⟩

/-- The texts of values behind the first one, each behind its comma, up to the end of the list. -/
theorem apart_following {α : Type} {text : α → List Char} {closing : Char}
    (hclosing : closing ≠ ',') {values others : List α}
    (happart : ∀ value ∈ values, ∀ other ∈ others, Apart text value other) :
    Apart (fun values => values.flatMap (fun value => ',' :: text value) ++ [closing])
      values others := by
  induction values generalizing others with
  | nil =>
    cases others with
    | nil => exact fun rest tail h => ⟨rfl, List.append_cancel_left h⟩
    | cons other others =>
      intro rest tail h
      exact absurd (List.cons.inj h).1 hclosing
  | cons value values ih =>
    cases others with
    | nil =>
      intro rest tail h
      exact absurd (List.cons.inj h).1.symm hclosing
    | cons other others =>
      intro rest tail h
      simp only [List.flatMap_cons, List.cons_append, List.append_assoc] at h
      obtain ⟨rfl, h⟩ := happart value List.mem_cons_self other List.mem_cons_self _ _
        (List.cons.inj h).2
      have hlater : ∀ value ∈ values, ∀ other ∈ others, Apart text value other :=
        fun value hvalue other hother =>
          happart value (List.mem_cons_of_mem _ hvalue) other (List.mem_cons_of_mem _ hother)
      obtain ⟨rfl, hrest⟩ := ih hlater rest tail (by simpa using h)
      exact ⟨rfl, hrest⟩

theorem intercalate_cons (first : List Char) (texts : List (List Char)) :
    [','].intercalate (first :: texts) = first ++ texts.flatMap (',' :: ·) := by
  induction texts generalizing first with
  | nil => simp
  | cons second texts ih =>
    rw [List.intercalate_cons_cons, ih]
    simp

/-- Lists are told apart by the texts of their values when no value begins as the list ends. -/
theorem apart_intercalate {α : Type} {text : α → List Char} {closing : Char}
    (hclosing : closing ≠ ',') {values others : List α}
    (happart : ∀ value ∈ values, ∀ other ∈ others, Apart text value other)
    (hopening : ∀ value ∈ values ++ others, ∀ rest tail, text value ++ rest ≠ closing :: tail) :
    Apart (fun values => [','].intercalate (values.map text) ++ [closing]) values others := by
  intro rest tail h
  cases values with
  | nil =>
    cases others with
    | nil => exact ⟨rfl, List.append_cancel_left h⟩
    | cons other others =>
      simp only [List.map_cons, intercalate_cons, List.append_assoc] at h
      exact absurd h.symm (hopening other (by simp) _ _)
  | cons value values =>
    cases others with
    | nil =>
      simp only [List.map_cons, intercalate_cons, List.append_assoc] at h
      exact absurd h (hopening value (by simp) _ _)
    | cons other others =>
      -- With a comma in front, the first values are like those that follow them.
      apply apart_following hclosing happart rest tail
      simpa [intercalate_cons, List.flatMap_map] using h

/-- A value without numbers. -/
inductive Plain : Json → Prop where
  | null : Plain .null
  | bool (value : Bool) : Plain (.bool value)
  | string (value : String) : Plain (.string value)
  | array {items : List Json} (h : ∀ item ∈ items, Plain item) : Plain (.array items)
  | object {fields : List (String × Json)} (h : ∀ field ∈ fields, Plain field.2) :
    Plain (.object fields)

/-- The first character of the compact text, which tells what kind of value follows. -/
def opening : Json → Char
  | .null => 'n'
  | .bool true => 't'
  | .bool false => 'f'
  | .int _ => '0'
  | .fraction _ _ => '0'
  | .string _ => '"'
  | .array _ => '['
  | .object _ => '\x7b'

def fieldText (field : String × Json) : List Char :=
  (stringText field.1).toList ++ ':' :: field.2.compact.toList

theorem toList_compact_array (items : List Json) :
    (compact (.array items)).toList =
      '[' :: ([','].intercalate (items.map fun item => item.compact.toList) ++ [']']) := by
  have hitems : compactItems items = items.map compact := by
    induction items with
    | nil => rfl
    | cons item items ih => rw [compactItems, ih, List.map_cons]
  simp [compact, hitems, Function.comp_def]

theorem toList_compact_object (fields : List (String × Json)) :
    (compact (.object fields)).toList =
      '\x7b' :: ([','].intercalate (fields.map fieldText) ++ ['\x7d']) := by
  have hfields : (compactFields fields).map String.toList = fields.map fieldText := by
    induction fields with
    | nil => rfl
    | cons field fields ih =>
      rw [compactFields, List.map_cons, ih, List.map_cons]
      simp [fieldText]
  simp [compact, hfields]

mutual

/-- The characters of the compact text, computed without a text for each part. -/
def characters : Json → List Char
  | .null => ['n', 'u', 'l', 'l']
  | .bool true => ['t', 'r', 'u', 'e']
  | .bool false => ['f', 'a', 'l', 's', 'e']
  | .int value => (toString value).toList
  | .fraction mantissa places => (fractionText mantissa places).toList
  | .string value => '"' :: (value.toList.flatMap escapeChar ++ ['"'])
  | .array items => '[' :: ([','].intercalate (itemCharacters items) ++ [']'])
  | .object fields => '\x7b' :: ([','].intercalate (fieldCharacters fields) ++ ['\x7d'])

def itemCharacters : List Json → List (List Char)
  | [] => []
  | item :: items => item.characters :: itemCharacters items

def fieldCharacters : List (String × Json) → List (List Char)
  | [] => []
  | (name, value) :: fields =>
    ('"' :: (name.toList.flatMap escapeChar ++ ['"']) ++ ':' :: value.characters) ::
      fieldCharacters fields

end

mutual

theorem toList_compact (value : Json) : value.compact.toList = value.characters := by
  cases value with
  | null => rfl
  | bool value => cases value <;> rfl
  | int value => rfl
  | fraction mantissa places => rfl
  | string value => rw [compact, toList_stringText, characters]
  | array items => rw [toList_compact_array, characters, map_toList_compact items]
  | object fields => rw [toList_compact_object, characters, map_fieldText fields]

theorem map_toList_compact (items : List Json) :
    (items.map fun item => item.compact.toList) = itemCharacters items := by
  cases items with
  | nil => rfl
  | cons item items =>
    rw [List.map_cons, itemCharacters, toList_compact item, map_toList_compact items]

theorem map_fieldText (fields : List (String × Json)) :
    fields.map fieldText = fieldCharacters fields := by
  cases fields with
  | nil => rfl
  | cons field fields =>
    obtain ⟨name, value⟩ := field
    rw [List.map_cons, fieldCharacters, map_fieldText fields, fieldText, toList_stringText,
      toList_compact value]

end

theorem head?_compact {value : Json} (h : value.Plain) :
    value.compact.toList.head? = some value.opening := by
  cases h with
  | null => rfl
  | bool value => cases value <;> rfl
  | string value => simp [compact, toList_stringText, opening]
  | array h => simp [toList_compact_array, opening]
  | object h => simp [toList_compact_object, opening]

theorem opening_eq {value other : Json} (hvalue : value.Plain) (hother : other.Plain)
    {rest tail : List Char} (h : value.compact.toList ++ rest = other.compact.toList ++ tail) :
    value.opening = other.opening := by
  have hhead := congrArg List.head? h
  simpa only [List.head?_append, head?_compact hvalue, head?_compact hother, Option.some_or,
    Option.some.injEq] using hhead

theorem compact_append_ne {value : Json} (h : value.Plain) {rest tail : List Char} {c : Char}
    (hc : value.opening ≠ c) : value.compact.toList ++ rest ≠ c :: tail := by
  intro heq
  have hhead := congrArg List.head? heq
  simp only [List.head?_append, head?_compact h, Option.some_or, List.head?_cons,
    Option.some.injEq] at hhead
  exact hc hhead

theorem opening_ne_bracket (value : Json) : value.opening ≠ ']' := by
  cases value with
  | bool value => cases value <;> decide
  | _ => simp [opening]

theorem apart_fieldText {field other : String × Json}
    (h : Apart (fun value => value.compact.toList) field.2 other.2) :
    Apart fieldText field other := by
  intro rest tail heq
  simp only [fieldText, List.append_assoc] at heq
  obtain ⟨hname, heq⟩ := apart_stringText field.1 other.1 _ _ heq
  obtain ⟨hvalue, hrest⟩ := h rest tail (List.cons.inj heq).2
  exact ⟨Prod.ext hname hvalue, hrest⟩

/-- Values without numbers are told apart by their compact texts. -/
theorem apart_compact {value other : Json} (hvalue : value.Plain) (hother : other.Plain) :
    Apart (fun value => value.compact.toList) value other := by
  intro rest tail h
  -- The first characters agree, so both values are of one kind.
  have hopening := opening_eq hvalue hother h
  induction hvalue generalizing other rest tail with
  | null =>
    cases hother with
    | null => exact ⟨rfl, List.append_cancel_left h⟩
    | bool value => cases value <;> cases hopening
    | _ => cases hopening
  | bool value =>
    cases hother with
    | bool found =>
      obtain rfl : value = found := by cases value <;> cases found <;> trivial
      exact ⟨rfl, List.append_cancel_left h⟩
    | _ => cases value <;> cases hopening
  | string value =>
    cases hother with
    | string found =>
      obtain ⟨rfl, hrest⟩ := apart_stringText value found rest tail h
      exact ⟨rfl, hrest⟩
    | bool value => cases value <;> cases hopening
    | _ => cases hopening
  | @array items hitems ih =>
    cases hother with
    | @array others hothers =>
      simp only [toList_compact_array, List.cons_append] at h
      have happart : ∀ item ∈ items, ∀ other ∈ others,
          Apart (fun value => value.compact.toList) item other := by
        intro item hitem other hother rest tail heq
        exact ih item hitem (hothers other hother) rest tail heq
          (opening_eq (hitems item hitem) (hothers other hother) heq)
      have hbegin : ∀ item ∈ items ++ others, ∀ rest tail,
          item.compact.toList ++ rest ≠ ']' :: tail := by
        intro item hitem rest tail
        apply compact_append_ne _ item.opening_ne_bracket
        exact (List.mem_append.mp hitem).elim (hitems item) (hothers item)
      obtain ⟨rfl, hrest⟩ := apart_intercalate (by decide) happart hbegin rest tail
        (List.cons.inj h).2
      exact ⟨rfl, hrest⟩
    | bool value => cases value <;> cases hopening
    | _ => cases hopening
  | @object fields hfields ih =>
    cases hother with
    | @object others hothers =>
      simp only [toList_compact_object, List.cons_append] at h
      have happart : ∀ field ∈ fields, ∀ other ∈ others, Apart fieldText field other := by
        intro field hfield other hother
        apply apart_fieldText
        intro rest tail heq
        exact ih field hfield (hothers other hother) rest tail heq
          (opening_eq (hfields field hfield) (hothers other hother) heq)
      have hbegin : ∀ field ∈ fields ++ others, ∀ rest tail,
          fieldText field ++ rest ≠ '\x7d' :: tail := by
        intro field _ rest tail heq
        rw [fieldText, toList_stringText] at heq
        exact absurd (List.cons.inj heq).1 (by decide)
      obtain ⟨rfl, hrest⟩ := apart_intercalate (by decide) happart hbegin rest tail
        (List.cons.inj h).2
      exact ⟨rfl, hrest⟩
    | bool value => cases value <;> cases hopening
    | _ => cases hopening

/-- No two values without numbers have the same compact text. -/
theorem compact_inj {value other : Json} (hvalue : value.Plain) (hother : other.Plain)
    (h : value.compact = other.compact) : value = other :=
  (apart_compact hvalue hother [] [] (congrArg (String.toList · ++ []) h)).1

end ConfigScript.Json
