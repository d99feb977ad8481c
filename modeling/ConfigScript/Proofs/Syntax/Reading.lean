import Mathlib.Data.String.Basic
import Mathlib.Data.List.Induction
import ConfigScript.Proofs.Syntax.Consumed

/-!
# What is read between two cursors

A reader that leaves its source at a later cursor has read the text between the two. Positions are
told from that text alone: the offset grows by its bytes, the line by its line feeds, and the column
counts the characters behind the last of them.
-/

namespace ConfigScript

namespace Position

variable {position : Position} {text : List Char} {c : Char}

/-- The position behind a text that begins a source. -/
def behind (before : String) : Position :=
  ⟨before.utf8ByteSize, before.toList.count '\n' + 1,
    (before.toList.reverse.takeWhile (· != '\n')).length + 1⟩

theorem afterAll_singleton : position.afterAll [c] = position.after c :=
  rfl

theorem afterAll_cons : position.afterAll (c :: text) = (position.after c).afterAll text :=
  rfl

theorem offset_after : (position.after c).offset = position.offset + c.utf8Size := by
  unfold after
  split <;> rfl

theorem offset_afterAll :
    (position.afterAll text).offset = position.offset + (String.ofList text).utf8ByteSize := by
  induction text generalizing position with
  | nil => rfl
  | cons c text ih =>
    rw [afterAll_cons, ih, offset_after, String.ofList_cons, String.utf8ByteSize_append,
      String.utf8ByteSize_singleton, Nat.add_assoc]

/-- Every text moves the offset on, unless it is empty. -/
theorem offset_lt_afterAll (h : text ≠ []) :
    position.offset < (position.afterAll text).offset := by
  cases text with
  | nil => exact absurd rfl h
  | cons c text =>
    have hsize := c.utf8Size_pos
    have hfirst := @offset_after position c
    have hrest := @offset_afterAll (position.after c) text
    rw [afterAll_cons]
    omega

theorem behind_push {before : String} :
    behind (before ++ String.singleton c) = (behind before).after c := by
  have hsize : (before ++ String.singleton c).utf8ByteSize = before.utf8ByteSize + c.utf8Size := by
    rw [String.utf8ByteSize_append, String.utf8ByteSize_singleton]
  by_cases hfeed : c = '\n'
  · subst hfeed
    rw [behind, hsize, after, if_pos rfl]
    simp [behind]
  · rw [behind, hsize, after, if_neg hfeed]
    simp [behind, hfeed]

theorem afterAll_origin : origin.afterAll text = behind (String.ofList text) := by
  induction text using List.reverseRecOn with
  | nil => rfl
  | append_singleton text c ih =>
    rw [afterAll_append, ih, afterAll_singleton, String.ofList_append,
      ← String.singleton_eq_ofList, behind_push]

/-- Whether a position keeps to the bounds of the written form. -/
def Fits (position : Position) : Prop :=
  position.offset < UInt64.size ∧ position.line < UInt32.size ∧ position.column < UInt32.size

theorem utf8ByteSize_ofList_le (text : List Char) :
    (String.ofList text).utf8ByteSize ≤ 4 * text.length := by
  induction text with
  | nil => exact Nat.le_refl 0
  | cons c text ih =>
    have hsize := c.utf8Size_le_four
    rw [String.ofList_cons, String.utf8ByteSize_append, String.utf8ByteSize_singleton,
      List.length_cons]
    omega

/-- Each character of a source adds four bytes at most, and one line or one column. -/
theorem fits_behind {source before rest : String} (hsource : source = before ++ rest)
    (hlength : source.length + 1 < UInt32.size) : (behind before).Fits := by
  have hsizes : 4 * UInt32.size ≤ UInt64.size := by decide
  have hbefore : before.toList.length ≤ source.length := by
    rw [hsource, String.length_append, String.length_toList]
    exact Nat.le_add_right _ _
  have hbytes : before.utf8ByteSize ≤ 4 * before.toList.length := by
    simpa using utf8ByteSize_ofList_le before.toList
  have hfeeds : before.toList.count '\n' ≤ before.toList.length := List.count_le_length
  have hlast : (before.toList.reverse.takeWhile (· != '\n')).length ≤ before.toList.length := by
    simpa using (List.takeWhile_sublist (· != '\n') (l := before.toList.reverse)).length_le
  dsimp only [Fits, behind]
  omega

/-- The span from one position to a later one. -/
def spanTo (start stop : Position) : Span :=
  ⟨start.offset, stop.offset, start.line, start.column⟩

end Position

namespace Cursor

variable {start middle stop cursor after : Cursor} {text others : List Char} {c : Char}

/-- The text lies between two cursors of one source. -/
structure Reads (start : Cursor) (text : List Char) (stop : Cursor) : Prop where
  rest : start.rest = text ++ stop.rest
  position : stop.position = start.position.afterAll text

namespace Reads

theorem refl : cursor.Reads [] cursor :=
  ⟨rfl, rfl⟩

theorem trans (hfirst : start.Reads text middle) (hsecond : middle.Reads others stop) :
    start.Reads (text ++ others) stop where
  rest := by rw [hfirst.rest, hsecond.rest, List.append_assoc]
  position := by rw [hsecond.position, hfirst.position, Position.afterAll_append]

theorem cons (hfirst : start.Reads [c] middle) (hsecond : middle.Reads others stop) :
    start.Reads (c :: others) stop :=
  hfirst.trans hsecond

theorem offset_le (h : start.Reads text stop) : start.position.offset ≤ stop.position.offset := by
  rw [h.position, Position.offset_afterAll]
  exact Nat.le_add_right _ _

theorem offset_lt (h : start.Reads text stop) (htext : text ≠ []) :
    start.position.offset < stop.position.offset := by
  rw [h.position]
  exact Position.offset_lt_afterAll htext

end Reads

theorem reads_of_char? (h : cursor.char? c = some after) : cursor.Reads [c] after := by
  refine ⟨rest_of_char? h, ?_⟩
  unfold char? at h
  split at h
  · cases h
  · split at h
    · rename_i heq
      obtain rfl := Option.some.inj h
      rw [heq]
      rfl
    · cases h

theorem reads_of_text? (h : cursor.text? text = some after) : cursor.Reads text after := by
  obtain ⟨rest, hrest, rfl⟩ := Option.map_eq_some_iff.mp h
  exact ⟨Text.dropStart?_eq_some_iff.mp hrest, rfl⟩

theorem reads_of_keyword? {word : String} (h : cursor.keyword? word = some after) :
    cursor.Reads word.toList after ∧ after.startsWith continuesIdentifier = false := by
  unfold keyword? at h
  split at h
  · rename_i behind htext
    split at h
    · cases h
    · rename_i hstop
      obtain rfl := Option.some.inj h
      exact ⟨reads_of_text? htext, by simpa using hstop⟩
  · cases h

theorem reads_takeWhile (p : Char → Bool) :
    cursor.Reads (cursor.takeWhile p).1 (cursor.takeWhile p).2 :=
  ⟨List.takeWhile_append_dropWhile.symm, rfl⟩

theorem reads_of_name? {name : String} (h : cursor.name? = some (name, after)) :
    cursor.Reads name.toList after := by
  unfold name? at h
  split at h
  · dsimp only at h
    split at h
    · cases h
    · obtain ⟨rfl, rfl⟩ := Prod.mk.inj (Option.some.inj h)
      rw [String.toList_ofList]
      exact reads_takeWhile continuesIdentifier
  · cases h

theorem reads_of_assignmentSign? (h : cursor.assignmentSign? = some after) :
    cursor.Reads ['='] after ∧ after.startsWith (· == '=') = false := by
  unfold assignmentSign? at h
  split at h
  · rename_i behind hsign
    split at h
    · cases h
    · rename_i hsecond
      obtain rfl := Option.some.inj h
      exact ⟨reads_of_char? hsign, by simpa using hsecond⟩
  · cases h

theorem reads_drop (count : Nat) : cursor.Reads (cursor.rest.take count) (cursor.drop count) :=
  ⟨(List.take_append_drop count cursor.rest).symm, rfl⟩

end Cursor

namespace Literal

variable {cursor after : Cursor} {literal : Literal}

/-- What stands behind the opening quote and is read as characters is read so in any other place,
whatever follows the closing quote. -/
theorem reads_of_readCharacters {opening : Cursor} {cs values : List Char} {position : Position}
    (h : readCharacters opening cs position = .ok (values, after)) :
    ∃ text, text ≠ [] ∧ Cursor.Reads ⟨cs, position⟩ text after ∧
      ∀ (opening : Cursor) (rest : List Char) (position : Position),
        readCharacters opening (text ++ rest) position =
          .ok (values, ⟨rest, position.afterAll text⟩) := by
  fun_induction readCharacters opening cs position generalizing values with
  | case1 => cases h
  | case2 => cases h
  | case3 c cs position value hvalue ih =>
    obtain ⟨⟨others, behind⟩, hothers, h⟩ := Fallible.bind_eq_ok.mp h
    obtain ⟨rfl, rfl⟩ := Prod.mk.inj (Fallible.pure_eq_ok.mp h)
    obtain ⟨text, -, hreads, hagain⟩ := ih hothers
    refine ⟨'\\' :: c :: text, by simp, ⟨?_, hreads.position⟩, fun opening rest position => ?_⟩
    · exact congrArg ('\\' :: c :: ·) hreads.rest
    · rw [List.cons_append, List.cons_append, readCharacters_escaped hvalue, hagain]
      rfl
  | case4 => cases h
  | case5 cs position =>
    obtain ⟨rfl, rfl⟩ := Prod.mk.inj (Except.ok.inj h)
    exact ⟨['"'], by simp, ⟨rfl, rfl⟩, fun opening rest position => by simp [readCharacters]; rfl⟩
  | case6 => cases h
  | case7 => cases h
  | case8 c cs position hlast hescape hquote hfeed htemplate ih =>
    obtain ⟨⟨others, behind⟩, hothers, h⟩ := Fallible.bind_eq_ok.mp h
    obtain ⟨rfl, rfl⟩ := Prod.mk.inj (Fallible.pure_eq_ok.mp h)
    obtain ⟨text, htext, hreads, hagain⟩ := ih hothers
    refine ⟨c :: text, by simp, ⟨congrArg (c :: ·) hreads.rest, hreads.position⟩,
      fun opening rest position => ?_⟩
    have hslash : c ≠ '\\' := by
      rintro rfl
      cases cs with
      | nil => exact hlast rfl rfl
      | cons d cs => exact hescape d cs rfl rfl
    -- The character behind a dollar sign is read too, so it is the same one.
    have hhead : (text ++ rest).head? = cs.head? := by
      have hrest : cs = text ++ behind.rest := hreads.rest
      rw [hrest]
      cases text with
      | nil => exact absurd rfl htext
      | cons d text => rfl
    rw [List.cons_append, readCharacters, hhead, if_neg hquote, if_neg hfeed, if_neg htemplate,
      hagain]
    · rfl
    · exact fun heq => absurd heq hslash
    · exact fun _ _ heq => absurd heq hslash

/-- A number is a sign or none, digits, and a suffix or none. -/
theorem reads_of_readNumber (h : readNumber cursor = .ok (some (literal, after))) :
    ∃ (negative suffixed : Bool) (digits : List Char),
      cursor.Reads (minusText negative ++ digits ++ wideText suffixed) after ∧
      digits ≠ [] ∧ (∀ c ∈ digits, c.isDigit = true) ∧
      ofInteger? (if negative then -(Nat.ofDigitChars 10 digits 0 : Int)
        else Nat.ofDigitChars 10 digits 0) suffixed = some literal := by
  unfold readNumber at h
  split at h
  rename_i negative unsigned hsign
  have hminus : cursor.Reads (minusText negative) unsigned := by
    split at hsign
    · rename_i hminus
      obtain ⟨rfl, rfl⟩ := Prod.mk.inj hsign
      exact Cursor.reads_of_char? hminus
    · obtain ⟨rfl, rfl⟩ := Prod.mk.inj hsign
      exact Cursor.Reads.refl
  split at h
  rename_i digits afterDigits hrun
  obtain ⟨rfl, rfl⟩ := Prod.mk.inj hrun
  split at h
  rename_i suffixed behind hsuffix
  have hwide : (unsigned.takeWhile Char.isDigit).2.Reads (wideText suffixed) behind := by
    split at hsuffix
    · rename_i hwide
      obtain ⟨rfl, rfl⟩ := Prod.mk.inj hsuffix
      exact Cursor.reads_of_char? hwide
    · obtain ⟨rfl, rfl⟩ := Prod.mk.inj hsuffix
      exact Cursor.Reads.refl
  have hreads := (hminus.trans (unsigned.reads_takeWhile Char.isDigit)).trans hwide
  split at h
  · cases h
  · rename_i hgoes
    dsimp only at h
    split at h
    · rename_i hvalue
      obtain ⟨rfl, rfl⟩ := Prod.mk.inj (Option.some.inj (Except.ok.inj h))
      refine ⟨negative, suffixed, _, hreads, ?_, ?_, hvalue⟩
      · exact fun hnone => hgoes (Bool.or_eq_true_iff.mpr (.inl (List.isEmpty_iff.mpr hnone)))
      · exact fun c hc => List.all_eq_true.mp List.all_takeWhile c hc
    · cases h

end Literal

end ConfigScript
